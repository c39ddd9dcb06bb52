import QronosAgent.Link.DeviceChanges

/-! What changes, and a round through the file, leave of a device table. -/
namespace QronosAgent.Link
open Lib

/-! What a revoked device's record stays. -/

/-- Revoked, and not opted in. -/
def DeviceRecord.Barred (r : DeviceRecord) : Prop :=
  r.status = .revoked ∧ r.remoteEnabled = false

def DeviceTable.Bars (t : DeviceTable) (id : DeviceId) : Prop :=
  ∀ r, t.get? id = some r → r.Barred

namespace DeviceOp

def revokes : DeviceOp → Option DeviceId
  | revoke id => some id
  | _ => none

def removes : DeviceOp → Option DeviceId
  | remove id => some id
  | _ => none

variable {now : Seconds} {op : DeviceOp} {t u : DeviceTable} {id : DeviceId} {r : DeviceRecord}

theorem edit_barred (hr : r.Barred) (h : op.allowed now r) : (op.edit now r).Barred := by
  obtain ⟨hs, hremote⟩ := hr
  cases op with
  | activate => exact absurd hs h
  | setRemoteEnabled id enabled expiresAt =>
    cases enabled with
    | false => exact ⟨hs, rfl⟩
    | true => exact absurd hs h.1
  | revoke => exact ⟨rfl, rfl⟩
  | _ => exact ⟨hs, hremote⟩

theorem Applied.keeps_barred (h : Applied now t op u) (hr : t.get? id = some r) (hb : r.Barred)
    (hop : op.removes ≠ some id) : ∃ r', u.get? id = some r' ∧ r'.Barred := by
  cases h with
  | @created _ _ _ _ _ id' _ hfree =>
    have hne : id ≠ id' := fun heq => by simp [← heq, hr] at hfree
    exact ⟨r, by rw [Dict.get?_set_ne hne, hr], hb⟩
  | @edited _ id' r' hedits hr' hallowed =>
    by_cases hid : id = id'
    · subst hid
      cases hr.symm.trans hr'
      exact ⟨_, Dict.get?_set_self, edit_barred hb hallowed⟩
    · exact ⟨r, by rw [Dict.get?_set_ne hid, hr], hb⟩
  | @removed id' r' hr' =>
    have hne : id ≠ id' := fun heq => hop (by rw [heq]; rfl)
    exact ⟨r, by rw [Dict.get?_erase_ne hne, hr], hb⟩

theorem Applied.revokes_bars (h : Applied now t op u) (hop : op.revokes = some id) :
    ∃ r', u.get? id = some r' ∧ r'.Barred := by
  cases h with
  | created | removed => contradiction
  | @edited _ id' r' hedits hr' hallowed =>
    cases op with
    | revoke id'' =>
      cases hedits
      cases hop
      exact ⟨_, Dict.get?_set_self, rfl, rfl⟩
    | _ => contradiction

/-- A barred device stays barred in the table that a change leaves, if it stays there. -/
theorem Applied.bars (h : Applied now t op u) (hr : t.get? id = some r) (hb : r.Barred) :
    u.Bars id := by
  intro r' hr'
  by_cases hop : op.removes = some id
  · cases h with
    | created => contradiction
    | edited hedits =>
      cases op <;> contradiction
    | removed =>
      cases hop
      rw [Dict.get?_erase_self] at hr'
      contradiction
  · obtain ⟨r'', hr'', hb'⟩ := h.keeps_barred hr hb hop
    cases hr'.symm.trans hr''
    exact hb'

end DeviceOp

/-! The file holds what was written to it. -/

namespace DeviceTable

def Keyed (t : DeviceTable) : Prop := ∀ id r, t.get? id = some r → r.deviceId = id

variable {t : DeviceTable} {records : List DeviceRecord}

theorem Keyed.set {id : DeviceId} {r : DeviceRecord} (ht : t.Keyed) (hr : r.deviceId = id) :
    Keyed (t.set id r) := by
  intro id' r' hr'
  rw [Dict.get?_set] at hr'
  split at hr'
  · exact Option.some.inj hr' ▸ hr.trans ‹id' = id›.symm
  · exact ht id' r' hr'

theorem Keyed.apply {now : Seconds} {op : DeviceOp} {u : DeviceTable} (ht : t.Keyed)
    (h : op.Applied now t u) : u.Keyed := by
  cases h with
  | created => exact ht.set rfl
  | @edited _ id r hedits hr hallowed =>
    have hid : (op.edit now r).deviceId = id := by
      refine Eq.trans ?_ (ht id r hr)
      cases op with
      | setRemoteEnabled _ enabled => cases enabled <;> rfl
      | _ => rfl
    exact ht.set hid
  | @removed id r hr =>
    intro id' r' hr'
    rw [Dict.get?_erase] at hr'
    split at hr'
    · contradiction
    · exact ht id' r' hr'

theorem keyed_foldl (records : List DeviceRecord) (ht : t.Keyed) :
    Keyed (records.foldl (fun t r => t.set r.deviceId r) t) := by
  induction records generalizing t with
  | nil => exact ht
  | cons r records ih => exact ih (ht.set rfl)

theorem keyed_tableOf (records : List DeviceRecord) : (tableOf records).Keyed :=
  keyed_foldl records fun _ _ h => by simp at h

/-- Records with different ids are all found. -/
theorem get?_foldl (hnodup : (records.map (·.deviceId)).Nodup) (t : DeviceTable) (id : DeviceId) :
    (records.foldl (fun t r => t.set r.deviceId r) t).get? id =
      (records.find? fun r => r.deviceId = id).or (t.get? id) := by
  induction records generalizing t with
  | nil => rfl
  | cons r records ih =>
    rw [List.map_cons, List.nodup_cons] at hnodup
    rw [List.foldl_cons, ih hnodup.2]
    by_cases hr : r.deviceId = id
    · have hno : records.find? (fun r => r.deviceId = id) = none := by
        rw [List.find?_eq_none]
        intro r' hr' heq
        refine hnodup.1 (List.mem_map.mpr ⟨r', hr', ?_⟩)
        rw [hr]
        exact of_decide_eq_true heq
      rw [hno, List.find?_cons_of_pos (by simpa using hr), hr, Dict.get?_set_self]
      rfl
    · rw [List.find?_cons_of_neg (by simpa using hr), Dict.get?_set_ne (Ne.symm hr)]

theorem nodup_byCreation (ht : t.Keyed) :
    (t.byCreation.map (·.deviceId)).Nodup := by
  refine ((sortedBy_perm t.values).map _).nodup_iff.mpr ?_
  have hkeys : t.values.map (·.deviceId) = t.keys := by
    rw [Dict.values, Dict.keys, List.map_map]
    exact List.map_congr_left fun kv hkv => ht kv.1 kv.2 (Dict.get?_eq_some.mpr hkv)
  rw [hkeys]
  exact t.nodup

/-- A table that is written and read again finds the same records. -/
theorem get?_tableOf_byCreation (ht : t.Keyed) (id : DeviceId) :
    (tableOf t.byCreation).get? id = t.get? id := by
  rw [tableOf, get?_foldl (nodup_byCreation ht), Dict.get?_empty, Option.or_none]
  have hmem : ∀ r, r ∈ t.byCreation ∧ r.deviceId = id ↔ t.get? id = some r := by
    intro r
    rw [byCreation, mem_sortedBy, Dict.mem_values]
    constructor
    · rintro ⟨⟨k, hk⟩, hid⟩
      rw [← hid, ht k r hk]
      exact hk
    · exact fun h => ⟨⟨id, h⟩, ht id r h⟩
  cases hfind : t.byCreation.find? fun r => r.deviceId = id with
  | some r =>
    refine ((hmem r).mp ⟨List.mem_of_find?_eq_some hfind, ?_⟩).symm
    simpa using List.find?_some hfind
  | none =>
    cases hget : t.get? id with
    | none => rfl
    | some r =>
      obtain ⟨hr, hid⟩ := (hmem r).mpr hget
      exact absurd (decide_eq_true hid) (List.find?_eq_none.mp hfind r hr)

theorem items_foldl (hnodup : (records.map (·.deviceId)).Nodup)
    (hnew : ∀ r ∈ records, r.deviceId ∉ t.keys) :
    (records.foldl (fun t r => t.set r.deviceId r) t).items =
      t.items ++ records.map fun r => (r.deviceId, r) := by
  induction records generalizing t with
  | nil => simp
  | cons r records ih =>
    rw [List.map_cons, List.nodup_cons] at hnodup
    have hset := Dict.items_set_of_notMem (v := r) (hnew r List.mem_cons_self)
    have hkeys : ∀ r' ∈ records, r'.deviceId ∉ (t.set r.deviceId r).keys := by
      intro r' hr'
      rw [Dict.keys, hset, List.map_append, List.mem_append, not_or]
      refine ⟨hnew r' (List.mem_cons_of_mem _ hr'), fun hmem => ?_⟩
      have heq : r'.deviceId = r.deviceId := by simpa using hmem
      exact hnodup.1 (List.mem_map.mpr ⟨r', hr', heq⟩)
    rw [List.foldl_cons, ih hnodup.2 hkeys, hset]
    simp

/-- A table that is written and read again lists the same records. -/
theorem byCreation_tableOf_byCreation (ht : t.Keyed) :
    (tableOf t.byCreation).byCreation = t.byCreation := by
  have hvalues : (tableOf t.byCreation).values = t.byCreation := by
    rw [Dict.values, tableOf, items_foldl (nodup_byCreation ht) (fun _ _ h => by simp [Dict.keys,
      Dict.empty] at h), Dict.empty, List.nil_append, List.map_map]
    exact List.map_id _
  rw [byCreation, hvalues]
  exact sortedBy_idem (fun x y h => by simpa using le_of_lt (of_decide_eq_true h)) t.values

theorem sameAnswers_written (ht : t.Keyed) :
    SameAnswers (.ok t) (.ok (tableOf t.byCreation)) := by
  refine .of_get_all (fun id => ?_) ?_
  · simp only [get, Except.map, get?_tableOf_byCreation ht]
  · simp only [all, Except.map, byCreation_tableOf_byCreation ht]

theorem keyed_of_fileTable {file : Option DeviceFile} (h : fileTable file = .ok t) : t.Keyed := by
  unfold fileTable DeviceRegistry.load at h
  cases file with
  | none =>
    cases h
    intro id r hr
    contradiction
  | some f =>
    cases hi : f.image with
    | unreadable => simp [hi, Except.map] at h
    | devices records =>
      simp only [hi, Except.map, Except.ok.injEq] at h
      exact h ▸ keyed_tableOf records

end DeviceTable

/-! A change looks at a table through its lookups only. -/

namespace DeviceOp
variable {now : Seconds} {op : DeviceOp} {t u : DeviceTable} {c : Changed}

theorem apply_congr (htu : ∀ id, t.get? id = u.get? id) (h : op.apply now t = .ok c) :
    ∃ c', op.apply now u = .ok c' ∧ ∀ id, c.table.get? id = c'.table.get? id := by
  have hset : ∀ (id : DeviceId) r, ∀ id', (t.set id r).get? id' = (u.set id r).get? id' := by
    intro id r id'
    rw [Dict.get?_set, Dict.get?_set, htu]
  have hupdate : ∀ id f, t.update id f = .ok c →
      ∃ c', u.update id f = .ok c' ∧ ∀ id, c.table.get? id = c'.table.get? id := by
    intro id f hupd
    obtain ⟨r, hr, rfl⟩ := DeviceTable.update_eq_ok.mp hupd
    exact ⟨_, DeviceTable.update_eq_ok.mpr ⟨r, htu id ▸ hr, rfl⟩, hset id _⟩
  cases op with
  | create name pairedFrom grants drawn secret =>
    simp only [apply, htu] at h ⊢
    cases hfind : drawn.find? fun id => (u.get? id).isNone with
    | none => simp [hfind] at h
    | some id =>
      simp only [hfind, Except.ok.injEq] at h ⊢
      exact ⟨_, rfl, h ▸ hset id _⟩
  | activate id =>
    simp only [apply, htu] at h ⊢
    cases hr : u.get? id with
    | none => simp [hr] at h
    | some r =>
      simp only [hr] at h ⊢
      split at h
      · contradiction
      · rw [if_neg ‹_›]
        exact hupdate _ _ h
  | setRemoteEnabled id enabled expiresAt =>
    cases enabled with
    | false => exact hupdate _ _ h
    | true =>
      simp only [apply, Bool.not_true, Bool.false_eq_true, if_false, htu] at h ⊢
      cases hr : u.get? id with
      | none => simp [hr] at h
      | some r =>
        simp only [hr] at h ⊢
        split at h
        · contradiction
        · split at h
          · contradiction
          · rw [if_neg ‹_›, if_neg ‹_›]
            exact hupdate _ _ h
  | remove id =>
    simp only [apply, htu] at h ⊢
    cases hr : u.get? id with
    | none => simp [hr] at h
    | some r =>
      simp only [hr, Except.ok.injEq] at h ⊢
      refine ⟨_, rfl, fun id' => ?_⟩
      rw [← h, Dict.get?_erase, Dict.get?_erase, htu]
  | _ => exact hupdate _ _ h

end DeviceOp
end QronosAgent.Link

import QronosAgent.Link.Devices

/-! What a change that raises leaves behind, as the lookups of the same process show it. -/
namespace QronosAgent.Link
open Lib

/-- Two tables, or failures to have one, that no lookup tells apart. -/
structure SameAnswers (a b : Except StoreError DeviceTable) : Prop where
  get : ∀ id, DeviceTable.get a id = DeviceTable.get b id
  all : DeviceTable.all a = DeviceTable.all b
  secretFor : ∀ id, DeviceTable.secretFor a id = DeviceTable.secretFor b id
  remoteAllowed : ∀ id now,
    (DeviceTable.get a id).map (Option.map fun r => r.remoteAllowed now) =
      (DeviceTable.get b id).map (Option.map fun r => r.remoteAllowed now)

namespace SameAnswers
variable {a b c : Except StoreError DeviceTable}

theorem of_get_all (hget : ∀ id, DeviceTable.get a id = DeviceTable.get b id)
    (hall : DeviceTable.all a = DeviceTable.all b) : SameAnswers a b where
  get := hget
  all := hall
  secretFor id := by simp only [DeviceTable.secretFor, hget]
  remoteAllowed id now := by rw [hget]

theorem refl (a : Except StoreError DeviceTable) : SameAnswers a a :=
  of_get_all (fun _ => rfl) rfl

theorem symm (h : SameAnswers a b) : SameAnswers b a :=
  of_get_all (fun id => (h.get id).symm) h.all.symm

theorem trans (h : SameAnswers a b) (h' : SameAnswers b c) : SameAnswers a c :=
  of_get_all (fun id => (h.get id).trans (h'.get id)) (h.all.trans h'.all)

theorem get?_eq {t u : DeviceTable} (h : SameAnswers (.ok t) (.ok u)) (id : DeviceId) :
    t.get? id = u.get? id := by
  have hget := h.get id
  simp only [DeviceTable.get, Except.map, Except.ok.injEq] at hget
  exact hget

end SameAnswers

def fileTable (file : Option DeviceFile) : Except StoreError DeviceTable :=
  (DeviceRegistry.load file).map DeviceRegistry.records

namespace DeviceWorld

def Agrees (w : DeviceWorld) : Prop := SameAnswers w.lookups (fileTable w.file)

/-- Between the two worlds nothing has happened that a lookup shows: the answers are the same,
the file is the same, and the answers are those of the file. -/
structure Unhappened (w w' : DeviceWorld) : Prop where
  answers : SameAnswers w.lookups w'.lookups
  file : w'.file = w.file
  agrees : w'.Agrees

end DeviceWorld

namespace DeviceOp

def refusedOn (now : Seconds) (op : DeviceOp) (t : DeviceTable) : Prop :=
  match op with
  | create _ _ _ drawn _ => ∀ id ∈ drawn, (t.get? id).isSome
  | activate id => ∀ r, t.get? id = some r → r.status = .revoked
  | setRemoteEnabled id true expiresAt =>
    ∀ r, t.get? id = some r → r.status = .revoked ∨ optInEnd now expiresAt ≤ now
  | setRemoteEnabled id false _ | revoke id | rename id _ | touch id | setGrants id _ | remove id =>
    t.get? id = none

/-- The changes that write a record as it is. -/
def idleOn (now : Seconds) (op : DeviceOp) (t : DeviceTable) : Prop :=
  match op with
  | create .. | remove _ => False
  | activate id => ∃ r, t.get? id = some r ∧ r.status = .active ∧ r.lastSeenAt = some now
  | revoke id => ∃ r, t.get? id = some r ∧
    r.status = .revoked ∧ r.remoteEnabled = false ∧ r.remoteExpiresAt = none
  | rename id name => ∃ r, t.get? id = some r ∧ r.name = name
  | touch id => ∃ r, t.get? id = some r ∧ r.lastSeenAt = some now
  | setRemoteEnabled id false _ => ∃ r, t.get? id = some r ∧
    r.remoteEnabled = false ∧ r.remoteExpiresAt = none
  | setRemoteEnabled id true expiresAt => ∃ r, t.get? id = some r ∧ r.remoteEnabled = true ∧
    r.remoteExpiresAt = some (min (optInEnd now expiresAt) (now + maxRemoteSeconds))
  | setGrants id grants => ∃ r, t.get? id = some r ∧ r.grants = grants

end DeviceOp

namespace DeviceTable
variable {t : DeviceTable} {id : DeviceId} {f : DeviceRecord → DeviceRecord} {c : Changed}

theorem update_eq_ok : t.update id f = .ok c ↔
    ∃ r, t.get? id = some r ∧ c = ⟨t.set id (f r), some (f r)⟩ := by
  unfold update
  cases ht : t.get? id with
  | none => simp
  | some r => simp [eq_comm]

theorem update_eq_error {e : Refusal} :
    t.update id f = .error e ↔ t.get? id = none ∧ e = .unknownDevice id := by
  unfold update
  cases ht : t.get? id with
  | none => simp [eq_comm]
  | some r => simp

/-- A record that is replaced by another one shows. -/
theorem sameAnswers_set {r r' : DeviceRecord} (hr : t.get? id = some r) :
    SameAnswers (.ok t) (.ok (t.set id r')) ↔ r' = r := by
  constructor
  · intro h
    have hget := h.get?_eq id
    rw [hr, Dict.get?_set_self] at hget
    exact (Option.some.inj hget).symm
  · rintro rfl
    rw [Dict.set_eq_self hr]
    exact .refl _

theorem sameAnswers_erase {r : DeviceRecord} (hr : t.get? id = some r) :
    ¬ SameAnswers (.ok t) (.ok (t.erase id)) := by
  intro h
  have hget := h.get?_eq id
  rw [hr, Dict.get?_erase_self] at hget
  contradiction

theorem sameAnswers_create {r : DeviceRecord} (hr : t.get? id = none) :
    ¬ SameAnswers (.ok t) (.ok (t.set id r)) := by
  intro h
  have hget := h.get?_eq id
  rw [hr, Dict.get?_set_self] at hget
  contradiction

end DeviceTable

namespace DeviceOp

def edits : DeviceOp → Option DeviceId
  | create .. | remove _ => none
  | activate id | revoke id | rename id _ | touch id | setRemoteEnabled id _ _ | setGrants id _ =>
    some id

def edit (now : Seconds) (op : DeviceOp) (r : DeviceRecord) : DeviceRecord :=
  match op with
  | create .. | remove _ => r
  | activate _ => activated now r
  | revoke _ => revoked r
  | rename _ name => { r with name := name }
  | touch _ => { r with lastSeenAt := some now }
  | setRemoteEnabled _ false _ => optedOut r
  | setRemoteEnabled _ true expiresAt =>
    optedIn (min (optInEnd now expiresAt) (now + maxRemoteSeconds)) r
  | setGrants _ grants => { r with grants := grants }

def allowed (now : Seconds) (op : DeviceOp) (r : DeviceRecord) : Prop :=
  match op with
  | activate _ => r.status ≠ .revoked
  | setRemoteEnabled _ true expiresAt => r.status ≠ .revoked ∧ now < optInEnd now expiresAt
  | _ => True

inductive Applied (now : Seconds) (t : DeviceTable) : DeviceOp → DeviceTable → Prop
  | created {name pairedFrom : PyStr} {grants : Option (Finset Capability)}
      {drawn : List DeviceId} {secret : List UInt8} {id : DeviceId} :
      id ∈ drawn → t.get? id = none →
      Applied now t (create name pairedFrom grants drawn secret)
        (t.set id ⟨id, name, secret, .pending, now, none, pairedFrom, grants, false, none⟩)
  | edited {op : DeviceOp} {id : DeviceId} {r : DeviceRecord} :
      op.edits = some id → t.get? id = some r → op.allowed now r →
      Applied now t op (t.set id (op.edit now r))
  | removed {id : DeviceId} {r : DeviceRecord} :
      t.get? id = some r → Applied now t (remove id) (t.erase id)

variable {now : Seconds} {op : DeviceOp} {t : DeviceTable} {c : Changed} {e : Refusal}

theorem applied_of_update {id : DeviceId} (hop : op.edits = some id)
    (hallowed : ∀ r, t.get? id = some r → op.allowed now r)
    (h : t.update id (op.edit now) = .ok c) : Applied now t op c.table := by
  obtain ⟨r, hr, rfl⟩ := DeviceTable.update_eq_ok.mp h
  exact .edited hop hr (hallowed r hr)

theorem apply_ok (h : op.apply now t = .ok c) : Applied now t op c.table := by
  cases op with
  | create name pairedFrom grants drawn secret =>
    simp only [apply] at h
    cases hfind : drawn.find? fun id => (t.get? id).isNone with
    | none => simp [hfind] at h
    | some id =>
      simp only [hfind] at h
      cases h
      have hfree : (t.get? id).isNone = true :=
        List.find?_some (p := fun id => (t.get? id).isNone) hfind
      exact .created (List.mem_of_find?_eq_some hfind) (Option.isNone_iff_eq_none.mp hfree)
  | activate id =>
    simp only [apply] at h
    cases hr : t.get? id with
    | none => simp [hr] at h
    | some r =>
      simp only [hr] at h
      split at h
      · contradiction
      · rename_i hs
        refine applied_of_update rfl (fun r' hr' => ?_) h
        rw [hr, Option.some.injEq] at hr'
        exact hr' ▸ hs
  | revoke id => exact applied_of_update rfl (fun _ _ => trivial) h
  | rename id name => exact applied_of_update rfl (fun _ _ => trivial) h
  | touch id => exact applied_of_update rfl (fun _ _ => trivial) h
  | setRemoteEnabled id enabled expiresAt =>
    cases enabled with
    | false => exact applied_of_update rfl (fun _ _ => trivial) h
    | true =>
      simp only [apply, Bool.not_true, Bool.false_eq_true, if_false] at h
      cases hr : t.get? id with
      | none => simp [hr] at h
      | some r =>
        simp only [hr] at h
        split at h
        · contradiction
        · split at h
          · contradiction
          · rename_i hs hend
            refine applied_of_update rfl (fun r' hr' => ?_) h
            rw [hr, Option.some.injEq] at hr'
            exact hr' ▸ ⟨hs, not_le.mp hend⟩
  | setGrants id grants => exact applied_of_update rfl (fun _ _ => trivial) h
  | remove id =>
    simp only [apply] at h
    cases hr : t.get? id with
    | none => simp [hr] at h
    | some r =>
      simp only [hr] at h
      cases h
      exact .removed hr

theorem refusedOn_of_error (h : op.apply now t = .error e) : op.refusedOn now t := by
  cases op with
  | create name pairedFrom grants drawn secret =>
    simp only [apply] at h
    cases hfind : drawn.find? fun id => (t.get? id).isNone with
    | none =>
      intro id hid
      have hused := List.find?_eq_none.mp hfind id hid
      rwa [Option.isNone_iff_eq_none, ← ne_eq, ← Option.isSome_iff_ne_none] at hused
    | some id => simp [hfind] at h
  | activate id =>
    intro r hr
    simp only [apply, hr] at h
    split at h
    · assumption
    · simp [DeviceTable.update_eq_error, hr] at h
  | revoke id => exact (DeviceTable.update_eq_error.mp h).1
  | rename id name => exact (DeviceTable.update_eq_error.mp h).1
  | touch id => exact (DeviceTable.update_eq_error.mp h).1
  | setRemoteEnabled id enabled expiresAt =>
    cases enabled with
    | false => exact (DeviceTable.update_eq_error.mp h).1
    | true =>
      intro r hr
      simp only [apply, Bool.not_true, Bool.false_eq_true, if_false, hr] at h
      split at h
      · exact .inl ‹_›
      · split at h
        · exact .inr ‹_›
        · simp [DeviceTable.update_eq_error, hr] at h
  | setGrants id grants => exact (DeviceTable.update_eq_error.mp h).1
  | remove id =>
    simp only [apply] at h
    cases hr : t.get? id with
    | none => exact hr
    | some r => simp [hr] at h

/-- A change that goes through is not one of those that are refused. -/
theorem Applied.not_refusedOn {u : DeviceTable} (h : Applied now t op u) :
    ¬ op.refusedOn now t := by
  cases h with
  | @created _ _ _ _ _ id hid hfree =>
    intro hall
    have hused := hall id hid
    rw [hfree] at hused
    contradiction
  | @edited op id r hop hr hallowed =>
    cases op with
    | create | remove => contradiction
    | setRemoteEnabled id' enabled expiresAt =>
      cases hop
      cases enabled with
      | false => simp [refusedOn, hr]
      | true =>
        intro hall
        obtain hs | hend := hall r hr
        · exact hallowed.1 hs
        · exact absurd hend (not_le.mpr hallowed.2)
    | activate id' =>
      cases hop
      exact fun hall => hallowed (hall r hr)
    | _ =>
      cases hop
      simp [refusedOn, hr]
  | removed hr => simp [refusedOn, hr]

theorem edit_eq_self {id : DeviceId} {r : DeviceRecord} (hop : op.edits = some id)
    (hr : t.get? id = some r) : op.edit now r = r ↔ op.idleOn now t := by
  have hex : ∀ P : DeviceRecord → Prop, (∃ r', t.get? id = some r' ∧ P r') ↔ P r := by
    simp [hr]
  cases op with
  | create | remove => contradiction
  | setRemoteEnabled id' enabled expiresAt =>
    cases hop
    cases enabled <;>
    · refine Iff.trans ?_ (hex _).symm
      cases r
      simp only [edit, optedOut, optedIn, DeviceRecord.mk.injEq]
      grind
  | _ =>
    cases hop
    refine Iff.trans ?_ (hex _).symm
    cases r
    simp only [edit, activated, revoked, DeviceRecord.mk.injEq]
    grind

/-- A change that goes through shows in the lookups, unless it is idle. -/
theorem Applied.sameAnswers {u : DeviceTable} (h : Applied now t op u) :
    SameAnswers (.ok t) (.ok u) ↔ op.idleOn now t := by
  cases h with
  | created _ hfree =>
    exact iff_of_false (DeviceTable.sameAnswers_create hfree) not_false
  | edited hop hr _ => exact (DeviceTable.sameAnswers_set hr).trans (edit_eq_self hop hr)
  | removed hr => exact iff_of_false (DeviceTable.sameAnswers_erase hr) not_false

end DeviceOp

namespace DeviceRegistry
variable {file : Option DeviceFile} {reg : DeviceRegistry}

theorem signature_load (h : load file = .ok reg) : file.map DeviceFile.signature = reg.signature := by
  unfold load at h
  cases file with
  | none =>
    simp only [Except.ok.injEq] at h
    exact h ▸ rfl
  | some f =>
    cases hi : f.image with
    | unreadable => simp [hi] at h
    | devices records =>
      simp only [hi, Except.ok.injEq] at h
      exact h ▸ rfl

theorem fileTable_of_load (h : load file = .ok reg) : fileTable file = .ok reg.records := by
  rw [fileTable, h]
  rfl

theorem lookups_current (h : file.map DeviceFile.signature = reg.signature) :
    reg.lookups file = .ok reg.records := by
  rw [lookups, refresh, if_pos h]
  rfl

theorem lookups_of_signature (t : DeviceTable) (h : load file = .ok reg) :
    lookups { reg with records := t } file = .ok t := by
  have hsig := signature_load h
  exact lookups_current hsig

end DeviceRegistry

namespace DeviceWorld
open DeviceRegistry

variable {w w' : DeviceWorld} {faults : Faults} {now : Seconds} {signature : Signature}
  {op : DeviceOp} {e : ChangeError}

inductive Raised (faults : Faults) (now : Seconds) (op : DeviceOp) (w : DeviceWorld) :
    DeviceWorld → Prop
  | early : (faults.lock = true ∨ faults.read = true ∨ ∀ t, fileTable w.file ≠ .ok t) →
      Raised faults now op w w
  | refused {reg : DeviceRegistry} : load w.file = .ok reg → op.refusedOn now reg.records →
      Raised faults now op w { w with registry := reg }
  | unsaved {reg : DeviceRegistry} {t : DeviceTable} : faults.lock = false → faults.read = false →
      faults.save ≠ none → load w.file = .ok reg → op.Applied now reg.records t →
      Raised faults now op w { w with registry := { reg with records := t } }

theorem change_error (h : w.change faults now signature op = (.error e, w')) :
    Raised faults now op w w' := by
  unfold change at h
  by_cases hlock : faults.lock = true
  · rw [if_pos hlock] at h
    cases h
    exact .early (.inl hlock)
  rw [if_neg hlock] at h
  by_cases hread : faults.read = true
  · rw [if_pos hread] at h
    cases h
    exact .early (.inr (.inl hread))
  rw [if_neg hread] at h
  cases hload : load w.file with
  | error err =>
    simp only [hload] at h
    cases h
    refine .early (.inr (.inr fun t ht => ?_))
    rw [fileTable, hload] at ht
    contradiction
  | ok reg =>
    simp only [hload] at h
    cases happly : op.apply now reg.records with
    | error r =>
      simp only [happly] at h
      cases h
      exact .refused hload (DeviceOp.refusedOn_of_error happly)
    | ok changed =>
      simp only [happly] at h
      cases hsave : faults.save with
      | none =>
        simp only [hsave] at h
        exact nomatch (Prod.mk.inj h).1
      | some fault =>
        simp only [hsave] at h
        cases h
        exact .unsaved (by simpa using hlock) (by simpa using hread) (by simp [hsave]) hload
          (DeviceOp.apply_ok happly)

theorem unhappened_self : w.Unhappened w ↔ w.Agrees :=
  ⟨fun h => h.agrees, fun h => ⟨.refl _, rfl, h⟩⟩

/-- After the file was read under the lock, the call has not happened if the copy that it leaves
is the table of the file. -/
theorem unhappened_loaded {reg : DeviceRegistry} {t : DeviceTable} (hload : load w.file = .ok reg) :
    w.Unhappened { w with registry := { reg with records := t } } ↔
      w.Agrees ∧ SameAnswers (.ok reg.records) (.ok t) := by
  have hafter : lookups { w with registry := { reg with records := t } } = .ok t :=
    lookups_of_signature t hload
  constructor
  · intro h
    have hagrees : SameAnswers (.ok t) (.ok reg.records) := by
      have := h.agrees
      rwa [Agrees, hafter, fileTable_of_load hload] at this
    have hanswers := h.answers
    rw [hafter] at hanswers
    refine ⟨?_, hagrees.symm⟩
    rw [Agrees, fileTable_of_load hload]
    exact hanswers.trans hagrees
  · rintro ⟨hagrees, hsame⟩
    rw [Agrees, fileTable_of_load hload] at hagrees
    refine ⟨?_, rfl, ?_⟩
    · rw [hafter]
      exact hagrees.trans hsame
    · rw [Agrees, hafter, fileTable_of_load hload]
      exact hsame.symm

/-- A change that raises has not happened exactly if the copy was that of the file, and the change
stopped before it touched the table or would have written a record as it is. -/
theorem raised_change_unhappened_iff (w w' : DeviceWorld) (faults : Faults) (now : Seconds)
    (signature : Signature) (op : DeviceOp) (e : ChangeError)
    (h : w.change faults now signature op = (.error e, w')) :
    w.Unhappened w' ↔ w.Agrees ∧ (faults.lock = true ∨ faults.read = true ∨
      ∀ t, fileTable w.file = .ok t → op.refusedOn now t ∨ op.idleOn now t) := by
  have hraised := change_error h
  cases hraised with
  | early hearly =>
    rw [unhappened_self]
    refine ⟨fun ha => ⟨ha, hearly.imp_right (.imp_right fun hno t ht => ?_)⟩, And.left⟩
    exact absurd ht (hno t)
  | @refused reg hload href =>
    have heq : ({ w with registry := reg } : DeviceWorld) =
        { w with registry := { reg with records := reg.records } } := rfl
    rw [heq, unhappened_loaded hload]
    refine ⟨fun ha => ⟨ha.1, .inr (.inr fun t ht => ?_)⟩, fun ha => ⟨ha.1, .refl _⟩⟩
    rw [fileTable_of_load hload, Except.ok.injEq] at ht
    exact .inl (ht ▸ href)
  | @unsaved reg t hlock hread _ hload happlied =>
    rw [unhappened_loaded hload, happlied.sameAnswers]
    apply and_congr_right
    intro _
    constructor
    · intro hidle
      refine .inr (.inr fun t' ht' => ?_)
      rw [fileTable_of_load hload, Except.ok.injEq] at ht'
      exact .inr (ht' ▸ hidle)
    · rintro (h' | h' | h')
      · rw [hlock] at h'
        contradiction
      · rw [hread] at h'
        contradiction
      · exact (h' _ (fileTable_of_load hload)).resolve_left happlied.not_refusedOn

end DeviceWorld

section Samples
open PyStr DeviceWorld

def samplePhone : DeviceRecord :=
  ⟨py "00112233aabbccdd", py "phone", [1, 2, 3], .active, 1, some 2, py "192.168.0.7", none, false,
    none⟩

def sampleSignature : Signature := ⟨7, 100, 42⟩

/-- One active phone, in the file and in the copy. -/
def sampleWorld : DeviceWorld where
  file := some ⟨sampleSignature, .devices [samplePhone]⟩
  registry := ⟨tableOf [samplePhone], some sampleSignature⟩

def sampleFaults : Faults := ⟨false, false, some .replace⟩

def afterFault (op : DeviceOp) : DeviceWorld :=
  (sampleWorld.change sampleFaults 5 sampleSignature op).2

theorem raised_change_unhappened_iff_sample :
    sampleWorld.Unhappened (afterFault (.rename samplePhone.deviceId (py "phone"))) :=
  (raised_change_unhappened_iff sampleWorld _ sampleFaults 5 sampleSignature
    (.rename samplePhone.deviceId (py "phone")) (.save .replace) rfl).mpr
    ⟨.refl _, .inr (.inr fun _ ht => .inr ⟨samplePhone, Except.ok.inj ht ▸ rfl, rfl⟩)⟩

/-- A revocation that was not saved stops the phone all the same, against the file. -/
theorem unsaved_revoke_shows :
    (sampleWorld.change sampleFaults 5 sampleSignature (.revoke samplePhone.deviceId)).1 =
      .error (.save .replace) ∧ sampleWorld.Agrees ∧
    DeviceTable.secretFor sampleWorld.lookups samplePhone.deviceId = .ok (some [1, 2, 3]) ∧
    DeviceTable.secretFor (afterFault (.revoke samplePhone.deviceId)).lookups
      samplePhone.deviceId = .ok none ∧
    ¬ sampleWorld.Unhappened (afterFault (.revoke samplePhone.deviceId)) := by
  have hbefore : DeviceTable.secretFor sampleWorld.lookups samplePhone.deviceId =
      .ok (some [1, 2, 3]) := by decide +kernel
  have hafter : DeviceTable.secretFor (afterFault (.revoke samplePhone.deviceId)).lookups
      samplePhone.deviceId = .ok none := by decide +kernel
  refine ⟨rfl, .refl _, hbefore, hafter, fun h => ?_⟩
  have hsame := h.answers.secretFor samplePhone.deviceId
  rw [hbefore, hafter] at hsame
  contradiction

end Samples
end QronosAgent.Link

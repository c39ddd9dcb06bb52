import QronosAgent.Link.Pairing

/-! What one call of the pairing service leaves, over a registry whose operations may raise. -/
namespace QronosAgent.Link
open Lib

/-! What registry operations do to a registry that has the file. -/

namespace DeviceWorld
open DeviceRegistry

variable {w w' : DeviceWorld} {faults : Faults} {now : Seconds} {signature : Signature}
  {op : DeviceOp} {id : DeviceId}

def record? (w : DeviceWorld) (id : DeviceId) : Option DeviceRecord :=
  (fileTable w.file).toOption.bind fun t => t.get? id

/-- A change does not leave a copy behind that the file does not have. -/
def Harmless (w : DeviceWorld) (faults : Faults) (now : Seconds) (op : DeviceOp) : Prop :=
  faults.save = none ∨ faults.lock = true ∨ faults.read = true ∨
    ∀ t, fileTable w.file = .ok t → op.refusedOn now t ∨ op.idleOn now t

/-- What the file of `w'` has is revoked, or `w` has it. -/
def Weaker (w w' : DeviceWorld) : Prop :=
  ∀ id r, w'.record? id = some r → r.status = .revoked ∨ w.record? id = some r

theorem weaker_of_file (h : w'.file = w.file) : w.Weaker w' := by
  intro id r hr
  rw [record?, h] at hr
  exact .inr hr

theorem Weaker.trans {w'' : DeviceWorld} (h : w.Weaker w') (h' : w'.Weaker w'') :
    w.Weaker w'' := by
  intro id r hr
  obtain hs | hr := h' id r hr
  · exact .inl hs
  · exact h id r hr

theorem record?_of_table {t : DeviceTable} (h : fileTable w.file = .ok t) (id : DeviceId) :
    w.record? id = t.get? id := by
  rw [record?, h]
  rfl

theorem lookups_get (hw : w.Agrees) {r : DeviceRecord}
    (h : DeviceTable.get w.lookups id = .ok (some r)) : w.record? id = some r := by
  rw [hw.get id] at h
  cases ht : fileTable w.file with
  | error e =>
    rw [ht] at h
    contradiction
  | ok t =>
    rw [ht] at h
    rw [record?_of_table ht]
    exact Except.ok.inj h

/-- A refresh does not change what the lookups answer. -/
theorem lookups_refresh {reg : DeviceRegistry} (h : w.registry.refresh w.file = .ok reg) :
    w.lookups = .ok reg.records ∧ lookups ⟨w.file, reg⟩ = .ok reg.records := by
  have hnow : w.lookups = .ok reg.records := by
    rw [lookups, DeviceRegistry.lookups, h]
    rfl
  refine ⟨hnow, ?_⟩
  unfold refresh at h
  split at h
  · exact Except.ok.inj h ▸ hnow
  · exact lookups_of_signature reg.records h

theorem get_spec (hw : w.Agrees) (fails : Bool) (id : DeviceId) :
    (w.get fails id).2.Agrees ∧ (w.get fails id).2.file = w.file ∧
      ∀ x, (w.get fails id).1 = .ok x → w.record? id = x := by
  unfold get
  cases fails with
  | true => exact ⟨hw, rfl, fun x h => (nomatch h)⟩
  | false =>
    cases href : w.registry.refresh w.file with
    | error e => exact ⟨hw, rfl, fun x h => (nomatch h)⟩
    | ok reg =>
      obtain ⟨hnow, hafter⟩ := lookups_refresh href
      refine ⟨?_, rfl, fun x h => ?_⟩
      · have := hw
        rw [Agrees, hnow] at this
        rw [Agrees]
        exact hafter ▸ this
      · cases h
        have hget := hw.get id
        rw [hnow] at hget
        cases ht : fileTable w.file with
        | error e =>
          rw [ht] at hget
          contradiction
        | ok t =>
          rw [ht] at hget
          rw [record?_of_table ht]
          exact (Except.ok.inj hget).symm

theorem change_ok {r : Option DeviceRecord}
    (h : w.change faults now signature op = (.ok r, w')) : w'.Agrees ∧
      ∃ t c, fileTable w.file = .ok t ∧ op.apply now t = .ok c ∧ r = c.record ∧
        (∀ id, w'.record? id = c.table.get? id) ∧ w'.file.map DeviceFile.signature = signature := by
  unfold change at h
  split at h
  · exact (nomatch (Prod.mk.inj h).1)
  split at h
  · exact (nomatch (Prod.mk.inj h).1)
  cases hload : load w.file with
  | error e =>
    simp only [hload] at h
    exact (nomatch (Prod.mk.inj h).1)
  | ok reg =>
    have ht := fileTable_of_load hload
    cases happly : op.apply now reg.records with
    | error e =>
      simp only [hload, happly] at h
      exact (nomatch (Prod.mk.inj h).1)
    | ok c =>
      cases hsave : faults.save with
      | some fault =>
        simp only [hload, happly, hsave] at h
        exact (nomatch (Prod.mk.inj h).1)
      | none =>
        simp only [hload, happly, hsave] at h
        obtain ⟨hr, rfl⟩ := Prod.mk.inj h
        have hkeyed : c.table.Keyed :=
          (DeviceTable.keyed_of_fileTable ht).apply (DeviceOp.apply_ok happly)
        have hwritten : fileTable (some ⟨signature, .devices c.table.byCreation⟩) =
            .ok (tableOf c.table.byCreation) := rfl
        refine ⟨?_, reg.records, c, ht, happly, (Except.ok.inj hr).symm, fun id => ?_, rfl⟩
        · have hlookups : lookups ⟨some ⟨signature, .devices c.table.byCreation⟩,
              ⟨c.table, some signature⟩⟩ = .ok c.table := lookups_current rfl
          rw [Agrees, hlookups, hwritten]
          exact DeviceTable.sameAnswers_written hkeyed
        · rw [record?_of_table hwritten]
          exact DeviceTable.get?_tableOf_byCreation hkeyed id

/-- A change that raises and does no harm leaves everything as it was. -/
theorem change_error_harmless {e : ChangeError} (hw : w.Agrees) (hok : w.Harmless faults now op)
    (h : w.change faults now signature op = (.error e, w')) :
    w'.Agrees ∧ w'.file = w.file := by
  have hun := raised_change_unhappened_iff w w' faults now signature op e h
  obtain hsave | hok := hok
  · cases change_error h with
    | early => exact ⟨hw, rfl⟩
    | @refused reg hload =>
      refine ⟨?_, rfl⟩
      rw [Agrees, fileTable_of_load hload]
      exact lookups_of_signature reg.records hload ▸ SameAnswers.refl _
    | unsaved _ _ hsome => exact absurd hsave hsome
  · have hunhappened := hun.mpr ⟨hw, hok⟩
    exact ⟨hunhappened.agrees, hunhappened.file⟩

/-- A revocation by this process that does no harm, or one by another process that gives the file
a signature that the copy does not have. -/
def RevokedSafely (w : DeviceWorld) (r : Revocation) : Prop :=
  if r.own then w.Harmless r.faults r.now (.revoke r.id)
  else w.registry.signature ≠ some r.signature

def AllRevokedSafely : DeviceWorld → List Revocation → Prop
  | _, [] => True
  | w, r :: rs => w.RevokedSafely r ∧ AllRevokedSafely (w.revokedBy r) rs

theorem weaker_of_revoke {w' : DeviceWorld} {t : DeviceTable} {c : Changed}
    (ht : fileTable w.file = .ok t) (hop : DeviceOp.apply now (.revoke id) t = .ok c)
    (hc : ∀ id, w'.record? id = c.table.get? id) : w.Weaker w' := by
  intro id' r hr
  rw [hc] at hr
  obtain ⟨r₀, hr₀, rfl⟩ := DeviceTable.update_eq_ok.mp hop
  rw [Dict.get?_set] at hr
  split at hr
  · exact .inl (Option.some.inj hr ▸ rfl)
  · exact .inr (by rw [record?_of_table ht, hr])

/-- Whether a revocation goes through or not, it is seen by the lookups and revives nothing. -/
theorem revokedBy_spec {r : Revocation} (hw : w.Agrees) (hok : w.RevokedSafely r) :
    (w.revokedBy r).Agrees ∧ w.Weaker (w.revokedBy r) := by
  unfold RevokedSafely at hok
  unfold revokedBy
  by_cases hown : r.own = true
  · rw [if_pos hown] at hok
    rw [if_pos hown]
    cases hchange : w.change r.faults r.now r.signature (.revoke r.id) with
    | mk res w' =>
      cases res with
      | error e =>
        obtain ⟨hagrees, hfile⟩ := change_error_harmless hw hok hchange
        exact ⟨hagrees, weaker_of_file hfile⟩
      | ok x =>
        obtain ⟨hagrees, t, c, ht, hop, -, hc, -⟩ := change_ok hchange
        exact ⟨hagrees, weaker_of_revoke ht hop hc⟩
  · rw [if_neg hown] at hok
    rw [if_neg hown]
    generalize hother : (⟨w.file, ⟨Dict.empty, none⟩⟩ : DeviceWorld) = other
    have hfile : other.file = w.file := by rw [← hother]
    dsimp only
    cases hchange : other.change r.faults r.now r.signature (.revoke r.id) with
    | mk res w' =>
      cases res with
      | error e =>
        have hsame : w'.file = w.file := by
          cases change_error hchange <;> exact hfile
        dsimp only
        rw [hsame]
        exact ⟨hw, weaker_of_file rfl⟩
      | ok x =>
        obtain ⟨-, t, c, ht, hop, -, hc, hsig⟩ := change_ok hchange
        refine ⟨?_, weaker_of_revoke (hfile ▸ ht) hop hc⟩
        -- The copy is older than the file, so lookups read the file again.
        have hlookups : lookups { w with file := w'.file } = fileTable w'.file := by
          rw [lookups, DeviceRegistry.lookups, refresh, if_neg, fileTable]
          rw [hsig]
          exact fun h => hok h.symm
        rw [Agrees, hlookups]
        exact .refl _

theorem foldl_revokedBy_spec {rs : List Revocation} (hw : w.Agrees)
    (hok : w.AllRevokedSafely rs) :
    (rs.foldl revokedBy w).Agrees ∧ w.Weaker (rs.foldl revokedBy w) := by
  induction rs generalizing w with
  | nil => exact ⟨hw, weaker_of_file rfl⟩
  | cons r rs ih =>
    obtain ⟨hagrees, hweaker⟩ := revokedBy_spec hw hok.1
    obtain ⟨hagrees', hweaker'⟩ := ih hagrees hok.2
    exact ⟨hagrees', hweaker.trans hweaker'⟩

theorem record?_removed {r : Option DeviceRecord}
    (h : w.change faults now signature (.remove id) = (.ok r, w')) (id' : DeviceId) :
    w'.record? id' = if id' = id then none else w.record? id' := by
  obtain ⟨-, t, c, ht, hop, -, hc, -⟩ := change_ok h
  have hremoved := DeviceOp.apply_ok hop
  generalize c.table = u at hremoved hc
  cases hremoved with
  | edited hedits => contradiction
  | removed _ => rw [hc, Dict.get?_erase, record?_of_table ht]

theorem remove_spec (hw : w.Agrees) (now : Seconds) (signature : Signature) (id : DeviceId) :
    (w.change .none now signature (.remove id)).2.Agrees ∧
      w.Weaker (w.change .none now signature (.remove id)).2 ∧
      (w.change .none now signature (.remove id)).2.record? id = none := by
  cases hchange : w.change .none now signature (.remove id) with
  | mk res w' =>
    cases res with
    | ok r =>
      have hremoved := record?_removed hchange
      refine ⟨(change_ok hchange).1, fun id' r' hr' => .inr ?_, by rw [hremoved, if_pos rfl]⟩
      rw [hremoved] at hr'
      split at hr'
      · contradiction
      · exact hr'
    | error e =>
      obtain ⟨hagrees, hfile⟩ := change_error_harmless hw (.inl rfl) hchange
      refine ⟨hagrees, weaker_of_file hfile, ?_⟩
      have hraised := change_error hchange
      rw [record?, hfile]
      cases hraised with
      | early hearly =>
        obtain h | h | h := hearly
        · contradiction
        · contradiction
        · cases ht : fileTable w.file with
          | ok t => exact absurd ht (h t)
          | error e => rfl
      | refused hload hrefused => rw [fileTable_of_load hload]; exact hrefused
      | unsaved _ _ hsave => exact absurd rfl hsave

end DeviceWorld

/-! The conditions on the calls, and what the calls leave. -/

/-- The lookup and the removal of a device that is pending do not raise, and the revocations
between them do no harm. -/
structure Closing.Clean (env : Closing) (w : DeviceWorld) (id : DeviceId) : Prop where
  pending : ∀ r, w.record? id = some r → r.status = .pending →
    env.getFails = false ∧ env.faults = .none
  meanwhile : (w.get env.getFails id).2.AllRevokedSafely env.meanwhile

namespace PairingService
variable {s : PairingService}

def ClosesCleanly (s : PairingService) (env : Closing) : Prop :=
  ∀ window, s.window = some window → env.Clean s.devices window.deviceId

/-- The window has run out unused. -/
def Due (s : PairingService) (now : Seconds) : Prop :=
  ∃ window, s.window = some window ∧ window.used = false ∧ window.expiresAt ≤ now

end PairingService

namespace DeviceWorld
variable {w : DeviceWorld} {id : DeviceId}

theorem record?_get (hw : w.Agrees) (fails : Bool) (id id' : DeviceId) :
    (w.get fails id).2.record? id' = w.record? id' := by
  rw [record?, (get_spec hw fails id).2.1, record?]

/-- A device that is in the file is found, unless the lookup raises. -/
theorem get_ok (hw : w.Agrees) {r : DeviceRecord} (hr : w.record? id = some r) :
    (w.get false id).1 = .ok (some r) := by
  cases hget : (w.get false id).1 with
  | ok x => rw [← hr, (get_spec hw false id).2.2 x hget]
  | error e =>
    unfold get at hget
    rw [if_neg Bool.false_ne_true] at hget
    cases href : w.registry.refresh w.file with
    | ok reg =>
      rw [href] at hget
      contradiction
    | error e' =>
      have hlookups : w.lookups = .error e' := by
        rw [lookups, DeviceRegistry.lookups, href]
        rfl
      have hsame := hw.get id
      cases ht : fileTable w.file with
      | ok t =>
        rw [hlookups, ht] at hsame
        contradiction
      | error e'' =>
        rw [record?, ht] at hr
        contradiction

/-- A device that is discarded cleanly is not pending any more, and nothing else is new. -/
theorem discard_spec {env : Closing} (hw : w.Agrees) (hok : env.Clean w id) :
    (w.discard id env).2.Agrees ∧ w.Weaker (w.discard id env).2 ∧
      ∀ r, (w.discard id env).2.record? id = some r → r.status ≠ .pending := by
  obtain ⟨hpending, hmeanwhile⟩ := hok
  obtain ⟨hgot, hfile, hres⟩ := get_spec hw env.getFails id
  have hsame := record?_get hw env.getFails id
  have hfound := fun r (hr : w.record? id = some r) (hf : env.getFails = false) =>
    hf ▸ get_ok hw hr
  unfold discard
  cases hget : w.get env.getFails id with
  | mk res w' =>
    rw [hget] at hgot hfile hres hmeanwhile hsame hfound
    have hweaker : w.Weaker w' := weaker_of_file hfile
    cases res with
    | error e =>
      refine ⟨hgot, hweaker, fun r hr hp => ?_⟩
      have hr : w.record? id = some r := (hsame id).symm.trans hr
      exact (nomatch hfound r hr (hpending r hr hp).1)
    | ok found =>
      have hrecord := hres found rfl
      cases found with
      | none =>
        exact ⟨hgot, hweaker, fun r hr => (nomatch hrecord.symm.trans ((hsame id).symm.trans hr))⟩
      | some record =>
        dsimp only
        by_cases hp : record.status = .pending
        · rw [if_pos hp, (hpending record hrecord hp).2]
          obtain ⟨hagrees, hweaker'⟩ := foldl_revokedBy_spec hgot hmeanwhile
          obtain ⟨hremoved, hweaker'', hnone⟩ := remove_spec hagrees env.now env.signature id
          have hall := (hweaker.trans hweaker').trans hweaker''
          cases hchange : (env.meanwhile.foldl revokedBy w').change .none env.now env.signature
              (.remove id) with
          | mk res w'' =>
            rw [hchange] at hremoved hall hnone
            have hgone : ∀ r, w''.record? id = some r → r.status ≠ .pending :=
              fun r hr => (nomatch hnone.symm.trans hr)
            cases res <;> exact ⟨hremoved, hall, hgone⟩
        · rw [if_neg hp]
          refine ⟨hgot, hweaker, fun r hr => ?_⟩
          exact Option.some.inj (hrecord.symm.trans ((hsame id).symm.trans hr)) ▸ hp

end DeviceWorld

namespace PairingService
variable {s : PairingService}

structure Closed (s s' : PairingService) : Prop where
  window : s'.window = none
  agrees : s'.devices.Agrees
  weaker : s.devices.Weaker s'.devices
  gone : ∀ window r, s.window = some window →
    s'.devices.record? window.deviceId = some r → r.status ≠ .pending

theorem cancel_spec {env : Closing} (hs : s.devices.Agrees) (hok : s.ClosesCleanly env) :
    s.Closed (s.cancel env).2 := by
  unfold cancel
  cases hwindow : s.window with
  | none => exact ⟨hwindow, hs, DeviceWorld.weaker_of_file rfl, fun _ _ h => (nomatch hwindow.symm.trans h)⟩
  | some window =>
    obtain ⟨hagrees, hweaker, hgone⟩ := DeviceWorld.discard_spec hs (hok window hwindow)
    refine ⟨rfl, hagrees, hweaker, fun window' r hw hr => ?_⟩
    cases hwindow.symm.trans hw
    exact hgone r hr

/-- A call that leaves the window as it is and brings nothing new into the registry. -/
structure Kept (s s' : PairingService) : Prop where
  window : s'.window = s.window
  agrees : s'.devices.Agrees
  weaker : s.devices.Weaker s'.devices

theorem Kept.refl (hs : s.devices.Agrees) : s.Kept s :=
  ⟨rfl, hs, DeviceWorld.weaker_of_file rfl⟩

theorem expireIfDue_spec {now : Seconds} {env : Closing} (hs : s.devices.Agrees)
    (hok : s.Due now → s.ClosesCleanly env) :
    s.Kept (s.expireIfDue now env).2 ∨ s.Due now ∧ s.Closed (s.expireIfDue now env).2 := by
  unfold expireIfDue
  cases hwindow : s.window with
  | none => exact .inl (.refl hs)
  | some window =>
    dsimp only
    split
    · exact .inl (.refl hs)
    · split
      · exact .inl (.refl hs)
      · rename_i hused hnow
        have hdue : s.Due now := ⟨window, hwindow, by simpa using hused, not_lt.mp hnow⟩
        have hclosed := cancel_spec hs (hok hdue)
        refine .inr ⟨hdue, ?_⟩
        split <;> rename_i heq <;> rw [heq] at hclosed <;> exact hclosed

/-- A new window, for a device that is pending under an id that was free. -/
structure Opened (s s' : PairingService) : Prop where
  agrees : s'.devices.Agrees
  window : ∃ window r, s'.window = some window ∧ window.used = false ∧
    s.devices.record? window.deviceId = none ∧ r.status = .pending ∧
    ∀ id, s'.devices.record? id =
      if id = window.deviceId then some r else s.devices.record? id

theorem create_spec {w w' : DeviceWorld} {faults : Faults} {now : Seconds} {signature : Signature}
    {name pairedFrom : PyStr} {grants : Option (Finset Capability)} {drawn : List DeviceId}
    {secret : List UInt8} {created : Option DeviceRecord}
    (h : w.change faults now signature (.create name pairedFrom grants drawn secret) =
      (.ok created, w')) : ∃ r, created = some r ∧ r.status = .pending ∧
        w.record? r.deviceId = none ∧
        ∀ id, w'.record? id = if id = r.deviceId then some r else w.record? id := by
  obtain ⟨-, t, c, ht, hop, hr, hc, -⟩ := DeviceWorld.change_ok h
  simp only [DeviceOp.apply] at hop
  cases hfind : drawn.find? fun id => (t.get? id).isNone with
  | none => simp [hfind] at hop
  | some id =>
    simp only [hfind, Except.ok.injEq] at hop
    have hfree : (t.get? id).isNone = true :=
      List.find?_some (p := fun id => (t.get? id).isNone) hfind
    subst hop
    refine ⟨_, hr, rfl, ?_, fun id' => ?_⟩
    · rw [DeviceWorld.record?_of_table ht]
      exact Option.isNone_iff_eq_none.mp hfree
    · rw [hc, Dict.get?_set, DeviceWorld.record?_of_table ht]

theorem open_spec {name : PyStr} {env : Opening} (hs : s.devices.Agrees)
    (hclose : s.ClosesCleanly env.closing)
    (hok : (s.cancel env.closing).2.devices.Harmless env.faults env.createdAt
      (.create name [] none env.drawn env.secret)) :
    s.Closed (s.open_ name env).2 ∧ (s.open_ name env).1.toOption = none ∨
      ∃ mid, s.Closed mid ∧ mid.Opened (s.open_ name env).2 ∧
        (s.open_ name env).1.toOption.isSome := by
  have hclosed := cancel_spec hs hclose
  unfold open_
  cases hcancel : s.cancel env.closing with
  | mk res mid =>
    rw [hcancel] at hclosed hok
    cases res with
    | error e => exact .inl ⟨hclosed, rfl⟩
    | ok =>
      dsimp only at hok ⊢
      cases hchange : mid.devices.change env.faults env.createdAt env.signature
          (.create name [] none env.drawn env.secret) with
      | mk res devices =>
        cases res with
        | error e =>
          obtain ⟨hagrees, hfile⟩ := DeviceWorld.change_error_harmless hclosed.agrees hok hchange
          have hsame : ∀ id, devices.record? id = mid.devices.record? id := fun id => by
            rw [DeviceWorld.record?, hfile, DeviceWorld.record?]
          refine .inl ⟨⟨hclosed.window, hagrees,
            hclosed.weaker.trans (DeviceWorld.weaker_of_file hfile), fun window r hw hr => ?_⟩, rfl⟩
          exact hclosed.gone window r hw ((hsame _).symm.trans hr)
        | ok created =>
          obtain ⟨r, rfl, hpending, hfree, hrecords⟩ := create_spec hchange
          exact .inr ⟨mid, hclosed, ⟨(DeviceWorld.change_ok hchange).1, _, r, rfl, rfl, hfree,
            hpending, hrecords⟩, rfl⟩

structure Paired (s s' : PairingService) (window : OpenWindow) : Prop where
  agrees : s'.devices.Agrees
  used : s'.window = some { window with used := true }
  active : ∀ r, s'.devices.record? window.deviceId = some r → r.status = .active
  others : ∀ id r, id ≠ window.deviceId → s'.devices.record? id = some r →
    r.status = .revoked ∨ s.devices.record? id = some r

/-- What the end of `complete` must not run into. -/
def ActivatesCleanly (s : PairingService) (window : OpenWindow) (env : Completing) : Prop :=
  let w := (s.devices.get env.getFails window.deviceId).2
  w.AllRevokedSafely env.meanwhile ∧
    (env.meanwhile.foldl .revokedBy w).Harmless env.faults env.activatedAt
      (.activate window.deviceId)

theorem activate_spec {window : OpenWindow} {env : Completing} (hs : s.devices.Agrees)
    (hok : s.ActivatesCleanly window env) :
    s.Kept (s.activate window env).2 ∧ PairingSys.paired (s.activate window env).1 = false ∨
      s.Paired (s.activate window env).2 window ∧
        PairingSys.paired (s.activate window env).1 = true := by
  obtain ⟨hmeanwhile, hharmless⟩ := hok
  obtain ⟨hgot, hfile, -⟩ := DeviceWorld.get_spec hs env.getFails window.deviceId
  unfold activate
  cases hget : s.devices.get env.getFails window.deviceId with
  | mk res w =>
    rw [hget] at hgot hfile hmeanwhile hharmless
    have hkept : s.Kept { s with devices := w } := ⟨rfl, hgot, DeviceWorld.weaker_of_file hfile⟩
    obtain ⟨hagrees, hweaker⟩ := DeviceWorld.foldl_revokedBy_spec hgot hmeanwhile
    cases res with
    | error e => exact .inl ⟨hkept, rfl⟩
    | ok found =>
      cases found with
      | none => exact .inl ⟨hkept, rfl⟩
      | some record =>
        dsimp only
        split
        · exact .inl ⟨hkept, rfl⟩
        · cases hchange : (env.meanwhile.foldl DeviceWorld.revokedBy w).change env.faults
              env.activatedAt env.signature (.activate window.deviceId) with
          | mk res w' =>
            have hall := hkept.weaker.trans hweaker
            cases res with
            | error e =>
              obtain ⟨hagrees', hfile'⟩ :=
                DeviceWorld.change_error_harmless hagrees hharmless hchange
              exact .inl ⟨⟨rfl, hagrees', hall.trans (DeviceWorld.weaker_of_file hfile')⟩, rfl⟩
            | ok activated =>
              obtain ⟨hagrees', t, c, ht, hop, -, hc, -⟩ := DeviceWorld.change_ok hchange
              have hactivated := DeviceOp.apply_ok hop
              generalize c.table = u at hactivated hc
              cases hactivated with
              | @edited _ id r hedits hr hallowed =>
                cases hedits
                refine .inr ⟨⟨hagrees', rfl, fun r' hr' => ?_, fun id r' hid hr' => ?_⟩, rfl⟩
                · have hr' := (hc _).symm.trans hr'
                  rw [Dict.get?_set_self] at hr'
                  exact Option.some.inj hr' ▸ rfl
                · have hr' := (hc _).symm.trans hr'
                  rw [Dict.get?_set_ne hid, ← DeviceWorld.record?_of_table ht] at hr'
                  exact hall id r' hr'

/-- The checks of `complete` that come before the registry is asked. -/
structure Admits (window : OpenWindow) (deviceId : DeviceId) (peerAddress : PyStr)
    (now : Seconds) : Prop where
  unused : window.used = false
  inTime : now < window.expiresAt
  device : deviceId = window.deviceId
  peer : scopeForPeer peerAddress = some .localNetwork

theorem complete_spec {deviceId : DeviceId} {peerAddress : PyStr} {env : Completing}
    (hs : s.devices.Agrees) (hclose : s.Due env.now → s.ClosesCleanly env.closing)
    (hok : ∀ window, s.window = some window → Admits window deviceId peerAddress env.now →
      s.ActivatesCleanly window env) :
    (s.Kept (s.complete deviceId peerAddress env).2 ∨
        s.Due env.now ∧ s.Closed (s.complete deviceId peerAddress env).2) ∧
        PairingSys.paired (s.complete deviceId peerAddress env).1 = false ∨
      ∃ window, s.window = some window ∧ Admits window deviceId peerAddress env.now ∧
        s.Paired (s.complete deviceId peerAddress env).2 window ∧
        PairingSys.paired (s.complete deviceId peerAddress env).1 = true := by
  unfold complete
  cases hwindow : s.window with
  | none => exact .inl ⟨.inl (.refl hs), rfl⟩
  | some window =>
    dsimp only
    by_cases hused : window.used = true
    · rw [if_pos hused]
      exact .inl ⟨.inl (.refl hs), rfl⟩
    rw [if_neg hused]
    have hunused : window.used = false := by simpa using hused
    by_cases hexpired : window.expiresAt ≤ env.now
    · rw [if_pos hexpired]
      have hdue : s.Due env.now := ⟨window, hwindow, hunused, hexpired⟩
      have hclosed := cancel_spec hs (hclose hdue)
      cases hcancel : s.cancel env.closing with
      | mk res s' =>
        rw [hcancel] at hclosed
        cases res <;> exact .inl ⟨.inr ⟨hdue, hclosed⟩, rfl⟩
    rw [if_neg hexpired]
    by_cases hdevice : deviceId = window.deviceId
    · rw [if_neg (not_not.mpr hdevice)]
      by_cases hpeer : scopeForPeer peerAddress = some .localNetwork
      · rw [if_neg (not_not.mpr hpeer)]
        have hadmits : Admits window deviceId peerAddress env.now :=
          ⟨hunused, not_le.mp hexpired, hdevice, hpeer⟩
        obtain ⟨hkept, hno⟩ | ⟨hpaired, hyes⟩ :=
          activate_spec hs (hok window hwindow hadmits)
        · exact .inl ⟨.inl hkept, hno⟩
        · exact .inr ⟨window, rfl, hadmits, hpaired, hyes⟩
      · rw [if_pos hpeer]
        exact .inl ⟨.inl (.refl hs), rfl⟩
    · rw [if_pos hdevice]
      exact .inl ⟨.inl (.refl hs), rfl⟩

end PairingService
end QronosAgent.Link

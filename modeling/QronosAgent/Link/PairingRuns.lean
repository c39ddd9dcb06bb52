import QronosAgent.Link.PairingCalls

/-! Runs of the pairing service: which devices wait for a window, and which become active. -/
namespace QronosAgent.Link
open Lib

namespace PairingSys
variable {s s' : PairingSys} {op : PairingOp}

/-- No registry operation keeps a window's device pending when the window is closed, no change
leaves a copy behind that the file does not have, and no other process's change passes for the
file that was read last. -/
def PairingOk (s : PairingSys) : PairingOp → Prop
  | .open_ name env => s.service.ClosesCleanly env.closing ∧
    (s.service.cancel env.closing).2.devices.Harmless env.faults env.createdAt
      (.create name [] none env.drawn env.secret)
  | .cancel env => s.service.ClosesCleanly env
  | .expireIfDue now env => s.service.Due now → s.service.ClosesCleanly env
  | .complete deviceId peerAddress env =>
    (s.service.Due env.now → s.service.ClosesCleanly env.closing) ∧
      ∀ window, s.service.window = some window →
        PairingService.Admits window deviceId peerAddress env.now →
        s.service.ActivatesCleanly window env
  | .revoke r => s.service.devices.RevokedSafely r

structure Inv (s : PairingSys) : Prop where
  agrees : s.service.devices.Agrees
  pending : ∀ id r, s.service.devices.record? id = some r → r.status = .pending →
    ∃ window, s.service.window = some window ∧ window.deviceId = id ∧ window.used = false
  unused : ∀ window, s.service.window = some window → window.used = false →
    s.opened ∉ s.completed ∧
      ∀ r, s.service.devices.record? window.deviceId = some r → r.status ≠ .active
  completed : ∀ n ∈ s.completed, n ≤ s.opened
  closed : ∀ id ∈ s.closed, ∀ r, s.service.devices.record? id = some r → r.status = .revoked

variable {id : DeviceId} {service' mid : PairingService} {r : DeviceRecord}

theorem mem_unpaired {service : PairingService} : id ∈ service.unpaired ↔
    ∃ window, service.window = some window ∧ window.used = false ∧ window.deviceId = id := by
  simp only [PairingService.unpaired, List.mem_map, Option.mem_toList,
    Option.filter_eq_some_iff, Bool.not_eq_true', and_assoc]

theorem mem_closedBy :
    id ∈ s.closedBy service' ↔ (id ∈ s.service.unpaired ∨ id ∈ s.closed) ∧
      service'.window.map OpenWindow.deviceId ≠ some id := by
  simp only [closedBy, List.mem_filter, List.mem_append, decide_eq_true_eq]

/-- While the window stays, the devices that were closed stay so. -/
theorem Inv.kept (hs : Inv s) (h : s.service.Kept service') (hservice : s'.service = service')
    (hopened : s'.opened = s.opened) (hcompleted : s'.completed = s.completed)
    (hclosed : s'.closed = s.closed ∨ s'.closed = s.closedBy service') : Inv s' := by
  subst hservice
  obtain ⟨hwindow, hagrees, hweaker⟩ := h
  have hin : ∀ id ∈ s'.closed, id ∈ s.closed := by
    intro id hid
    obtain hc | hc := hclosed
    · exact hc ▸ hid
    · rw [hc, mem_closedBy] at hid
      obtain ⟨hid | hid, hno⟩ := hid
      · obtain ⟨window, hw, -, rfl⟩ := mem_unpaired.mp hid
        rw [hwindow, hw] at hno
        exact absurd rfl hno
      · exact hid
  refine ⟨hagrees, fun id r hr hp => ?_, fun window hw hu => ?_, ?_, fun id hid r hr => ?_⟩
  · obtain hrev | hr := hweaker id r hr
    · exact (nomatch hrev.symm.trans hp)
    · rw [hwindow]
      exact hs.pending id r hr hp
  · rw [hwindow] at hw
    rw [hopened, hcompleted]
    obtain ⟨hnew, hactive⟩ := hs.unused window hw hu
    refine ⟨hnew, fun r hr ha => ?_⟩
    obtain hrev | hr := hweaker _ r hr
    · exact (nomatch hrev.symm.trans ha)
    · exact hactive r hr ha
  · rw [hopened, hcompleted]
    exact hs.completed
  · obtain hrev | hr := hweaker id r hr
    · exact hrev
    · exact hs.closed id (hin id hid) r hr

theorem Inv.no_pending (hs : Inv s) (h : s.service.Closed mid)
    (hr : mid.devices.record? id = some r) :
    r.status ≠ .pending := by
  intro hp
  obtain hrev | hr' := h.weaker id r hr
  · exact (nomatch hrev.symm.trans hp)
  · obtain ⟨window, hw, rfl, -⟩ := hs.pending id r hr' hp
    exact h.gone window r hw hr hp

theorem Inv.closed_revoked (hs : Inv s) (h : s.service.Closed mid)
    (hid : id ∈ s.service.unpaired ∨ id ∈ s.closed) (hr : mid.devices.record? id = some r) :
    r.status = .revoked := by
  obtain hrev | hr' := h.weaker id r hr
  · exact hrev
  · obtain hid | hid := hid
    · obtain ⟨window, hw, hu, rfl⟩ := mem_unpaired.mp hid
      have hactive := (hs.unused window hw hu).2 r hr'
      have hpending := hs.no_pending h hr
      cases hstatus : r.status with
      | pending => exact absurd hstatus hpending
      | active => exact absurd hstatus hactive
      | revoked => rfl
    · exact hs.closed id hid r hr'

theorem Inv.after_close (hs : Inv s) (h : s.service.Closed service')
    (hservice : s'.service = service') (hopened : s'.opened = s.opened)
    (hcompleted : s'.completed = s.completed) (hclosed : s'.closed = s.closedBy service') :
    Inv s' := by
  subst hservice
  refine ⟨h.agrees, fun id r hr hp => absurd hp (hs.no_pending h hr),
    fun window hw => (nomatch h.window.symm.trans hw), ?_, fun id hid r hr => ?_⟩
  · rw [hopened, hcompleted]
    exact hs.completed
  · rw [hclosed, mem_closedBy] at hid
    exact hs.closed_revoked h hid.1 hr

theorem Inv.after_open (hs : Inv s) (h : s.service.Closed mid) (hnew : mid.Opened service')
    (hservice : s'.service = service') (hopened : s'.opened = s.opened + 1)
    (hcompleted : s'.completed = s.completed) (hclosed : s'.closed = s.closedBy service') :
    Inv s' := by
  subst hservice
  obtain ⟨hagrees, window, r₀, hwindow, hunused, -, hpending, hrecords⟩ := hnew
  refine ⟨hagrees, fun id r hr hp => ?_, fun window' hw hu => ?_, fun n hn => ?_,
    fun id hid r hr => ?_⟩
  · rw [hrecords] at hr
    split at hr
    · exact ⟨window, hwindow, ‹id = _›.symm, hunused⟩
    · exact absurd hp (hs.no_pending h hr)
  · cases hwindow.symm.trans hw
    rw [hopened, hcompleted]
    refine ⟨fun hmem => ?_, fun r hr => ?_⟩
    · have hle := hs.completed _ hmem
      omega
    · rw [hrecords, if_pos rfl, Option.some.injEq] at hr
      simp [← hr, hpending]
  · rw [hcompleted] at hn
    have hle := hs.completed n hn
    omega
  · rw [hclosed, mem_closedBy, hwindow] at hid
    have hne : id ≠ window.deviceId := fun heq => hid.2 (by rw [heq]; rfl)
    rw [hrecords, if_neg hne] at hr
    exact hs.closed_revoked h hid.1 hr

theorem Inv.after_pairing {window : OpenWindow} (hs : Inv s)
    (hwindow : s.service.window = some window) (h : s.service.Paired service' window)
    (hservice : s'.service = service') (hopened : s'.opened = s.opened)
    (hcompleted : s'.completed = s.opened :: s.completed)
    (hclosed : s'.closed = s.closedBy service') : Inv s' := by
  subst hservice
  obtain ⟨hagrees, hused, hactive, hothers⟩ := h
  refine ⟨hagrees, fun id r hr hp => ?_, fun window' hw hu => ?_, fun n hn => ?_,
    fun id hid r hr => ?_⟩
  · by_cases hid : id = window.deviceId
    · exact (nomatch (hactive r (hid ▸ hr)).symm.trans hp)
    · obtain hrev | hr' := hothers id r hid hr
      · exact (nomatch hrev.symm.trans hp)
      · obtain ⟨window', hw, hid', -⟩ := hs.pending id r hr' hp
        cases hwindow.symm.trans hw
        exact absurd hid'.symm hid
  · cases hused.symm.trans hw
    contradiction
  · rw [hcompleted] at hn
    rw [hopened]
    obtain rfl | hn := List.mem_cons.mp hn
    · exact le_rfl
    · exact hs.completed n hn
  · rw [hclosed, mem_closedBy, hused] at hid
    obtain ⟨hin, hno⟩ := hid
    have hne : id ≠ window.deviceId := fun heq => hno (by rw [heq]; rfl)
    obtain hrev | hr' := hothers id r hne hr
    · exact hrev
    · obtain hin | hin := hin
      · obtain ⟨window', hw, -, rfl⟩ := mem_unpaired.mp hin
        cases hwindow.symm.trans hw
        exact absurd rfl hne
      · exact hs.closed id hin r hr'

theorem Inv.step (hs : Inv s) (hok : PairingOk s op) : Inv (s.step op) := by
  cases op with
  | open_ name env =>
    obtain ⟨hclosed, hres⟩ | ⟨mid, hclosed, hopened, hres⟩ :=
      PairingService.open_spec hs.agrees hok.1 hok.2
    · exact hs.after_close hclosed rfl (by simp [PairingSys.step, hres]) rfl rfl
    · exact hs.after_open hclosed hopened rfl (by simp [PairingSys.step, hres]) rfl rfl
  | cancel env =>
    exact hs.after_close (PairingService.cancel_spec hs.agrees hok) rfl rfl rfl rfl
  | expireIfDue now env =>
    obtain hkept | ⟨-, hclosed⟩ := PairingService.expireIfDue_spec hs.agrees hok
    · exact hs.kept hkept rfl rfl rfl (.inr rfl)
    · exact hs.after_close hclosed rfl rfl rfl rfl
  | complete deviceId peerAddress env =>
    obtain ⟨hkept | ⟨-, hclosed⟩, hno⟩ | ⟨window, hw, -, hpaired, hyes⟩ :=
      PairingService.complete_spec hs.agrees hok.1 hok.2
    · exact hs.kept hkept rfl rfl (by simp [PairingSys.step, hno]) (.inr rfl)
    · exact hs.after_close hclosed rfl rfl (by simp [PairingSys.step, hno]) rfl
    · exact hs.after_pairing hw hpaired rfl rfl (by simp [PairingSys.step, hyes]) rfl
  | revoke r =>
    obtain ⟨hagrees, hweaker⟩ := DeviceWorld.revokedBy_spec hs.agrees hok
    have hkept : s.service.Kept { s.service with devices := s.service.devices.revokedBy r } :=
      ⟨rfl, hagrees, hweaker⟩
    exact hs.kept hkept rfl rfl rfl (.inl rfl)

theorem hasStatus_iff (hs : s.service.devices.Agrees) {status : DeviceStatus} :
    s.hasStatus id status ↔ ∃ r, s.service.devices.record? id = some r ∧ r.status = status := by
  constructor
  · rintro ⟨r, hstatus, hr | hr⟩
    · refine ⟨r, ?_, hstatus⟩
      cases ht : fileTable s.service.devices.file with
      | error e =>
        rw [ht] at hr
        contradiction
      | ok t =>
        rw [ht] at hr
        rw [DeviceWorld.record?_of_table ht]
        exact Except.ok.inj hr
    · exact ⟨r, DeviceWorld.lookups_get hs hr, hstatus⟩
  · rintro ⟨r, hr, hstatus⟩
    refine ⟨r, hstatus, .inl ?_⟩
    cases ht : fileTable s.service.devices.file with
    | error e =>
      rw [DeviceWorld.record?, ht] at hr
      contradiction
    | ok t =>
      rw [DeviceWorld.record?_of_table ht] at hr
      exact congrArg Except.ok hr

theorem Inv.reach (hr : pairingMachine.Reach PairingOk s) : Inv s := by
  refine Machine.Reach.invariant (fun s hs => ?_) (fun s op s' hI hok h => ?_) hr
  · obtain ⟨hwindow, hagrees, hcompleted, hclosed, hpending⟩ := hs
    refine ⟨hagrees, fun id r hrec hp => ?_, fun window hw => (nomatch hwindow.symm.trans hw),
      fun n hn => ?_, fun id hid => ?_⟩
    · exact absurd ((hasStatus_iff hagrees).mpr ⟨r, hrec, hp⟩) (hpending id)
    · rw [hcompleted] at hn
      contradiction
    · rw [hclosed] at hid
      contradiction
  · exact Option.some.inj h ▸ hI.step hok

structure Enrols (s : PairingSys) : Prop where
  pending : ∀ id, s.hasStatus id .pending → ∃ window, s.service.window = some window ∧
    window.deviceId = id ∧ window.used = false
  closed : ∀ id ∈ s.closed, ∀ key,
    DeviceTable.secretFor s.service.devices.lookups id ≠ .ok (some key)
  completes : ∀ deviceId peerAddress env id, PairingOk s (.complete deviceId peerAddress env) →
    (s.step (.complete deviceId peerAddress env)).hasStatus id .active →
    ¬ s.hasStatus id .active →
    ∃ window, s.service.window = some window ∧ window.deviceId = id ∧ deviceId = id ∧
      env.now < window.expiresAt ∧ scopeForPeer peerAddress = some .localNetwork ∧
      window.used = false ∧ s.opened ∉ s.completed

theorem Inv.closed_secret (hs : Inv s) (hid : id ∈ s.closed) (key : List UInt8) :
    DeviceTable.secretFor s.service.devices.lookups id ≠ .ok (some key) := by
  intro h
  unfold DeviceTable.secretFor at h
  split at h
  · cases hget : DeviceTable.get s.service.devices.lookups id with
    | error e =>
      rw [hget] at h
      contradiction
    | ok r? =>
      rw [hget] at h
      cases r? with
      | none => exact (nomatch Except.ok.inj h)
      | some r =>
        have hrevoked := hs.closed id hid r (DeviceWorld.lookups_get hs.agrees hget)
        simp [Except.map, DeviceRecord.canAuthenticate, hrevoked] at h
  · exact (nomatch Except.ok.inj h)

/-- A device that nothing but revocations and removals touched was active before. -/
theorem active_of_weaker (hs : Inv s) (hs' : Inv s')
    (hweaker : s.service.devices.Weaker s'.service.devices) (h : s'.hasStatus id .active) :
    s.hasStatus id .active := by
  obtain ⟨r, hr, ha⟩ := (hasStatus_iff hs'.agrees).mp h
  obtain hrev | hr' := hweaker id r hr
  · exact (nomatch hrev.symm.trans ha)
  · exact (hasStatus_iff hs.agrees).mpr ⟨r, hr', ha⟩

theorem Inv.completes (hs : Inv s) {deviceId : DeviceId} {peerAddress : PyStr} {env : Completing}
    (hok : PairingOk s (.complete deviceId peerAddress env))
    (hafter : (s.step (.complete deviceId peerAddress env)).hasStatus id .active)
    (hbefore : ¬ s.hasStatus id .active) :
    ∃ window, s.service.window = some window ∧ window.deviceId = id ∧
      PairingService.Admits window deviceId peerAddress env.now := by
  have hs' := hs.step hok
  obtain ⟨hkept | ⟨-, hclosed⟩, -⟩ | ⟨window, hw, hadmits, hpaired, -⟩ :=
    PairingService.complete_spec hs.agrees hok.1 hok.2
  · exact absurd (active_of_weaker hs hs' hkept.weaker hafter) hbefore
  · exact absurd (active_of_weaker hs hs' hclosed.weaker hafter) hbefore
  · refine ⟨window, hw, ?_, hadmits⟩
    obtain ⟨r, hr, ha⟩ := (hasStatus_iff hs'.agrees).mp hafter
    by_contra hid
    obtain hrev | hr' := hpaired.others id r (Ne.symm hid) hr
    · exact (nomatch hrev.symm.trans ha)
    · exact hbefore ((hasStatus_iff hs.agrees).mpr ⟨r, hr', ha⟩)

end PairingSys

/-- In every run in which the registry can be made to follow the window, pairing enrols exactly
the device of the window that is open, and no closed window's key opens anything. -/
theorem pairing_enrols_one {s : PairingSys}
    (hr : pairingMachine.Reach PairingSys.PairingOk s) : s.Enrols where
  pending id h := by
    have hs := PairingSys.Inv.reach hr
    obtain ⟨r, hrec, hp⟩ := (PairingSys.hasStatus_iff hs.agrees).mp h
    exact hs.pending id r hrec hp
  closed id hid key := (PairingSys.Inv.reach hr).closed_secret hid key
  completes deviceId peerAddress env id hok hafter hbefore := by
    have hs := PairingSys.Inv.reach hr
    obtain ⟨window, hw, hid, hadmits⟩ := hs.completes hok hafter hbefore
    exact ⟨window, hw, hid, hadmits.device.trans hid, hadmits.inTime, hadmits.peer,
      hadmits.unused, (hs.unused window hw hadmits.unused).1⟩

section Samples
open PyStr

def sampleService : PairingSys where
  service := ⟨⟨none, ⟨Dict.empty, none⟩⟩, py "192.168.1.10", 47711, 120, none⟩
  opened := 0
  completed := []
  closed := []

theorem start_sampleService : pairingMachine.start sampleService := by
  refine ⟨rfl, .refl _, rfl, rfl, fun id h => ?_⟩
  obtain ⟨r, -, h | h⟩ := h <;> exact (nomatch Except.ok.inj h)

def sampleClosing (faults : Faults) : Closing := ⟨false, [], faults, 3, sampleSignature⟩

def sampleOpening : PairingOp :=
  .open_ (py "phone") ⟨sampleClosing .none, 1, .none, 2, [samplePhone.deviceId], [1, 2, 3],
    sampleSignature⟩

def sampleOpened : PairingSys := sampleService.step sampleOpening

theorem reach_sampleOpened : pairingMachine.Reach PairingSys.PairingOk sampleOpened :=
  .step (.start start_sampleService)
    (show PairingSys.PairingOk _ sampleOpening from ⟨fun _ h => (nomatch h), .inl rfl⟩) rfl

theorem pairing_enrols_one_sample :
    DeviceTable.secretFor sampleOpened.service.devices.lookups samplePhone.deviceId =
      .ok (some [1, 2, 3]) ∧ sampleOpened.Enrols :=
  ⟨by decide +kernel, pairing_enrols_one reach_sampleOpened⟩

/-- A window that was cancelled while the store was busy leaves a key that still opens. -/
theorem cancelled_key_authenticates : ∃ s, pairingMachine.Reachable s ∧
    s.service.window = none ∧ samplePhone.deviceId ∈ s.closed ∧
    DeviceTable.secretFor s.service.devices.lookups samplePhone.deviceId =
      .ok (some [1, 2, 3]) ∧ ¬ s.Enrols := by
  have hkey : DeviceTable.secretFor (sampleOpened.step (.cancel
      (sampleClosing ⟨true, false, none⟩))).service.devices.lookups samplePhone.deviceId =
        .ok (some [1, 2, 3]) := by decide +kernel
  have hclosed : samplePhone.deviceId ∈
      (sampleOpened.step (.cancel (sampleClosing ⟨true, false, none⟩))).closed := by
    decide +kernel
  refine ⟨_, .step (reach_sampleOpened.mono fun _ _ _ => trivial) trivial rfl, rfl, hclosed, hkey,
    fun h => h.closed _ hclosed _ hkey⟩

end Samples
end QronosAgent.Link

import QronosAgent.Link.DeviceFile

/-! A revocation that has returned is not undone, in any process, and no change is lost: what the
copies of a table say of a revoked device, what a lookup finds that started after the revocation,
and what the changes that were written come to. -/
namespace QronosAgent.Link
open Lib

namespace Fleet
variable {s s' : Fleet} {m : FleetMove}

structure CopyBars (since : List Signature) (id : DeviceId) (proc : Process) : Prop where
  records : ∀ g ∈ since, proc.signature = some g → (∀ who t, proc.busy ≠ .load who (.store t)) →
    proc.records.Bars id
  table : ∀ g ∈ since, proc.signature = some g → ∀ t, proc.busy.table? = some t → t.Bars id
  read : ∀ g ∈ since, ∀ who t, proc.busy = .load who (.record (some g) t) → t.Bars id

theorem CopyBars.of_idle {since : List Signature} {id : DeviceId} {proc : Process} {busy : Busy}
    (h : CopyBars since id proc) (hold : ∀ who t, proc.busy ≠ .load who (.store t))
    (hnew : busy.table? = none) : CopyBars since id ⟨proc.records, proc.signature, busy⟩ where
  records g hg hsig _ := h.records g hg hsig hold
  table g hg hsig t ht := (nomatch hnew.symm.trans ht)
  read g hg who t ht := by
    obtain rfl : busy = _ := ht
    contradiction

theorem bars_empty (id : DeviceId) : DeviceTable.Bars Dict.empty id := fun _ h => (nomatch h)

theorem bars_afterStat {id : DeviceId} {g : Option Signature} {t : DeviceTable}
    (h : (afterStat g).table? = some t) : t.Bars id := by
  cases g with
  | none => exact Option.some.inj h ▸ bars_empty id
  | some g => contradiction

structure Sound (s : Fleet) : Prop where
  held : Held s
  signed : Signed s
  knows : ∀ p, Knows s.file s.log (s.processes p)
  file : ∀ id, barredSince s.log id ≠ [] → FileBars s id

namespace Sound
variable {id : DeviceId}

theorem step (hs : Sound s) (h : Fires s m s') : Sound s' where
  held := hs.held.step h
  signed := hs.signed.step h
  knows := knows_step hs.held hs.knows h
  file id := fileBars_step hs.knows (hs.file id) h

theorem reach {ok : Fleet → FleetMove → Prop} (hr : fleetMachine.Reach ok s) : Sound s := by
  refine Machine.Reach.invariant (fun s hs => ?_) (fun s m s' hI _ h => hI.step (fires h)) hr
  refine ⟨Held.reach (Machine.Reach.start hs : fleetMachine.Reach ok s),
    Signed.reach (Machine.Reach.start hs : fleetMachine.Reach ok s), fun p => ?_,
    fun id hid => ?_⟩
  · rw [hs.2.1 p]
    exact .of_idle rfl
  · rw [hs.2.2.2.2.1] at hid
    contradiction

theorem readFile_bars (hs : Sound s) {t : DeviceTable} (hid : barredSince s.log id ≠ [])
    (ht : s.readFile = some t) : t.Bars id :=
  (hs.file id hid).bars (fileTable_readFile ht)

theorem apply_bars (hs : Sound s) {p : ProcessId} {now : Seconds} {op : DeviceOp} {c : Changed}
    (hid : barredSince s.log id ≠ []) (hbusy : (s.processes p).busy = .apply op)
    (happly : op.apply now (s.processes p).records = .ok c) : c.table.Bars id := by
  obtain ⟨t, r, ht, hr, hb⟩ := (hs.file id hid).record
  have hloaded := (hs.knows p).loaded op hbusy
  cases hloaded.symm.trans ht
  exact (DeviceOp.apply_ok happly).bars hr hb

theorem written_bars (hs : Sound s) {p : ProcessId} {op : DeviceOp}
    (hid : barredSince s.log id ≠ []) (hbusy : (s.processes p).busy = .sign op) :
    (s.processes p).records.Bars id := by
  obtain ⟨⟨t, ht, hsame⟩, -⟩ := (hs.knows p).written op (.inl hbusy)
  intro r hr
  exact (hs.file id hid).bars ht r ((hsame id).trans hr)

end Sound

theorem copyBars_step (hsound : Sound s) {id : DeviceId}
    (hs : ∀ p, CopyBars (barredSince s.log id) id (s.processes p)) (hok : Undisturbed s m)
    (h : Fires s m s') : ∀ p, CopyBars (barredSince s'.log id) id (s'.processes p) := by
  have hidle : ∀ p {busy' : Busy}, (∀ who t, (s.processes p).busy ≠ .load who (.store t)) →
      busy'.table? = none → ∀ q, CopyBars (barredSince s.log id) id
        ((s.setBusy p busy').processes q) :=
    fun p _ hold hnew => forall_setProcess hs ((hs p).of_idle hold hnew)
  cases h with
  | lookup | stat | current | changed | answer => exact hs
  | enter _ hbusy | restat hbusy | recurrent hbusy | rechanged hbusy | change hbusy
  | lockFile hbusy | lockFails hbusy | refused hbusy | saveFails hbusy | leave hbusy =>
    exact hidle _ (by simp [hbusy]) rfl
  | refreshFails hbusy hstage | loadFails hbusy hstage =>
    refine hidle _ (fun who t h => hstage t ?_) rfl
    rw [hbusy] at h
    exact (Busy.load.inj h).2
  | @loadStat p who hbusy =>
    refine forall_setProcess hs ⟨fun g hg hsig _ => ?_, fun g hg _ t ht => bars_afterStat ht,
      fun g hg who' t ht => ?_⟩
    · exact (hs p).records g hg hsig (by simp [hbusy])
    · exact bars_afterStat (g := s.stat) (by rw [(Busy.load.inj ht).2]; rfl)
  | @loadRead p who signature t hbusy hread =>
    have ht : ∀ g ∈ barredSince s.log id, t.Bars id :=
      fun g hg => hsound.readFile_bars (List.ne_nil_of_mem hg) hread
    refine forall_setProcess hs ⟨fun g hg hsig _ => ?_, fun g hg _ t' ht' => ?_,
      fun g hg who' t' ht' => ?_⟩
    · exact (hs p).records g hg hsig (by simp [hbusy])
    · exact Option.some.inj ht' ▸ ht g hg
    · exact (LoadStage.record.inj (Busy.load.inj ht').2).2 ▸ ht g hg
  | @loadRecord p who signature t hbusy =>
    refine forall_setProcess hs ⟨fun g hg hsig hstore => absurd rfl (hstore who t),
      fun g hg hsig t' ht' => ?_, fun g hg who' t' ht' => (nomatch ht')⟩
    obtain rfl : signature = some g := hsig
    exact Option.some.inj ht' ▸ (hs p).read g hg who t hbusy
  | @refreshed p l t hbusy | @loaded p op t hbusy =>
    refine forall_setProcess hs ⟨fun g hg hsig _ => ?_, fun g hg _ t' ht' => (nomatch ht'),
      fun g hg who' t' ht' => (nomatch ht')⟩
    exact (hs p).table g hg hsig t (by rw [hbusy]; rfl)
  | @apply p now op c hbusy happly =>
    refine forall_setProcess hs ⟨fun g hg hsig _ => ?_, fun g hg _ t' ht' => (nomatch ht'),
      fun g hg who' t' ht' => (nomatch ht')⟩
    exact hsound.apply_bars (List.ne_nil_of_mem hg) hbusy happly
  | @sign p op hbusy =>
    refine forall_setProcess hs ⟨fun g hg hsig _ => ?_, fun g hg _ t' ht' => (nomatch ht'),
      fun g hg who' t' ht' => (nomatch ht')⟩
    exact hsound.written_bars (List.ne_nil_of_mem hg) hbusy
  | @replace p signature now op hbusy =>
    -- A signature that a process knows is not the one that the file gets.
    have hold : ∀ g ∈ s.used, g ∈ barredSince (⟨signature, now, op⟩ :: s.log) id →
        g ∈ barredSince s.log id := by
      intro g hused hg
      obtain ⟨-, -, rfl | hg⟩ := of_mem_barredSince_cons hg
      · exact absurd hused hok
      · exact hg
    have hkeep : ∀ q, CopyBars (barredSince (⟨signature, now, op⟩ :: s.log) id) id
        (s.processes q) := by
      intro q
      have hsigned := hsound.signed.process q
      refine ⟨fun g hg hsig => ?_, fun g hg hsig => ?_, fun g hg who t ht => ?_⟩
      · exact (hs q).records g (hold g (hsigned.copy g hsig) hg) hsig
      · exact (hs q).table g (hold g (hsigned.copy g hsig) hg) hsig
      · exact (hs q).read g (hold g (hsigned.load g (by rw [ht]; rfl)) hg) who t ht
    exact forall_setProcess hkeep ((hkeep p).of_idle (by simp [hbusy]) rfl)

/-! What a lookup finds that started after the revocation had returned. -/

structure Shows (id : DeviceId) (proc : Process) : Prop where
  records : proc.records.Bars id
  table : ∀ t, proc.busy.table? = some t → t.Bars id

theorem Shows.of_copy {id : DeviceId} {proc : Process} {since : List Signature}
    (h : CopyBars since id proc) {g : Signature} (hg : g ∈ since) (hsig : proc.signature = some g)
    (hstore : ∀ who t, proc.busy ≠ .load who (.store t)) : Shows id proc :=
  ⟨h.records g hg hsig hstore, h.table g hg hsig⟩

structure Sees (s : Fleet) (l : LookupId) (id : DeviceId) : Prop where
  barred : barredSince s.log id ≠ []
  compare : ∀ signature, (s.lookups l).stage = .compare signature →
    ∃ g ∈ barredSince s.log id, signature = some g
  recompare : ∀ p signature, (s.processes p).busy = .recompare l signature →
    ∃ g ∈ barredSince s.log id, signature = some g
  refresh : ∀ p stage, (s.processes p).busy = .load (.refresh l) stage →
    ∀ t, stage.table? = some t → t.Bars id
  answer : (s.lookups l).stage = .answer → Shows id (s.processes (s.lookups l).process)

structure Seen (s : Fleet) : Prop where
  returned : ∀ id ∈ s.revoked, barredSince s.log id ≠ []
  lookup : ∀ l, ∀ id ∈ (s.lookups l).revoked, Sees s l id

namespace Sees
variable {l l₀ : LookupId} {id : DeviceId}

theorem of_eq (hs : Sees s l id) (hlog : s'.log = s.log) (hprocesses : s'.processes = s.processes)
    (hlookups : s'.lookups l = s.lookups l) : Sees s' l id where
  barred := by rw [hlog]; exact hs.barred
  compare := by rw [hlog, hlookups]; exact hs.compare
  recompare := by rw [hlog, hprocesses]; exact hs.recompare
  refresh := by rw [hprocesses]; exact hs.refresh
  answer := by rw [hprocesses, hlookups]; exact hs.answer

theorem setStage {stage : LookupStage} (hs : Sees s l id)
    (hcompare : l₀ = l → ∀ signature, stage = .compare signature →
      ∃ g ∈ barredSince s.log id, signature = some g)
    (hanswer : l₀ = l → stage = .answer → Shows id (s.processes (s.lookups l).process)) :
    Sees (s.setStage l₀ stage) l id := by
  by_cases hl : l₀ = l
  · subst hl
    refine ⟨hs.barred, fun signature h => hcompare rfl signature ?_, hs.recompare, hs.refresh,
      fun h => ?_⟩
    · simpa only [Fleet.setStage, Function.update_self] using h
    · simp only [Fleet.setStage, Function.update_self] at h ⊢
      exact hanswer rfl h
  · exact hs.of_eq rfl rfl (Function.update_of_ne (Ne.symm hl) _ _)

theorem setStage_idle {stage : LookupStage} (hs : Sees s l id)
    (hcompare : ∀ signature, stage ≠ .compare signature) (hanswer : stage ≠ .answer) :
    Sees (s.setStage l₀ stage) l id :=
  hs.setStage (fun _ signature h => absurd h (hcompare signature)) fun _ h => absurd h hanswer

theorem setProcess {p : ProcessId} {proc : Process} (hs : Sees s l id)
    (hshows : Shows id (s.processes p) → Shows id proc)
    (hrecompare : ∀ signature, proc.busy = .recompare l signature →
      ∃ g ∈ barredSince s.log id, signature = some g)
    (hrefresh : ∀ stage, proc.busy = .load (.refresh l) stage →
      ∀ t, stage.table? = some t → t.Bars id) : Sees (s.setProcess p proc) l id := by
  refine ⟨hs.barred, hs.compare, fun q signature h => ?_, fun q stage h => ?_, fun h => ?_⟩
  · by_cases hq : q = p
    · subst hq
      exact hrecompare signature (by simpa only [Fleet.setProcess, Function.update_self] using h)
    · refine hs.recompare q signature ?_
      simpa only [Fleet.setProcess, Function.update_of_ne hq] using h
  · by_cases hq : q = p
    · subst hq
      exact hrefresh stage (by simpa only [Fleet.setProcess, Function.update_self] using h)
    · refine hs.refresh q stage ?_
      simpa only [Fleet.setProcess, Function.update_of_ne hq] using h
  · have hbefore := hs.answer h
    by_cases hq : (s.lookups l).process = p
    · subst hq
      simpa only [Fleet.setProcess, Function.update_self] using hshows hbefore
    · simpa only [Fleet.setProcess, Function.update_of_ne hq] using hbefore

/-- The thread of a process goes on to something that no lookup waits for. -/
theorem setBusy {p : ProcessId} {busy : Busy} (hs : Sees s l id) (htable : busy.table? = none)
    (hrecompare : ∀ signature, busy ≠ .recompare l signature) : Sees (s.setBusy p busy) l id := by
  refine hs.setProcess (fun h => ⟨h.records, fun t ht => (nomatch htable.symm.trans ht)⟩)
    (fun signature h => absurd h (hrecompare signature)) fun stage h t ht => ?_
  obtain rfl : busy = _ := h
  exact (nomatch htable.symm.trans ht)

end Sees

theorem sees_step (hsound : Sound s) {l : LookupId} {id : DeviceId} (hs : Sees s l id)
    (hcopy : ∀ p, CopyBars (barredSince s.log id) id (s.processes p)) (hok : Undisturbed s m)
    (h : Fires s m s') (hnew : ∀ p, m ≠ .lookup l p) (hid : id ∈ (s'.lookups l).revoked) :
    Sees s' l id := by
  have hlocked := hsound.held.lookup
  obtain ⟨g₀, hg₀, hstat⟩ := (hsound.file id hs.barred).signature
  cases h with
  | @lookup l₀ p =>
    have hl : l ≠ l₀ := fun hl => hnew p (by rw [hl])
    exact hs.of_eq rfl rfl (Function.update_of_ne hl _ _)
  | stat =>
    refine hs.setStage (fun _ signature h => ⟨g₀, hg₀, ?_⟩) fun _ h => by cases h
    exact (LookupStage.compare.inj h).symm.trans hstat
  | @current l₀ signature hstage hsig =>
    refine hs.setStage (by simp) fun hl _ => ?_
    subst hl
    obtain ⟨g, hg, rfl⟩ := hs.compare signature hstage
    exact .of_copy (hcopy _) hg hsig.symm fun who t hbusy => hok _ who t hstage hbusy hsig
  | changed => exact hs.setStage_idle (by simp) (by simp)
  | enter => exact (hs.setStage_idle (by simp) (by simp)).setBusy rfl (by simp)
  | answer => exact hs.setStage_idle (by simp) (by simp)
  | restat =>
    refine hs.setProcess (fun h => ⟨h.records, fun t ht => by cases ht⟩)
      (fun signature h => ⟨g₀, hg₀, ?_⟩) fun stage h => by cases h
    exact (Busy.recompare.inj h).2.symm.trans hstat
  | @recurrent p l₀ signature hbusy hsig =>
    have hfree : Sees (s.setBusy p .free) l id := hs.setBusy rfl (by simp)
    refine hfree.setStage (by simp) fun hl _ => ?_
    subst hl
    obtain ⟨g, hg, rfl⟩ := hs.recompare p signature hbusy
    have hshows : Shows id (s.processes p) :=
      .of_copy (hcopy p) hg hsig.symm (by simp [hbusy])
    have hp : (s.lookups l₀).process = p := (hlocked p l₀ (by rw [hbusy]; rfl)).1
    simp only [Fleet.setBusy, Fleet.setProcess, hp, Function.update_self]
    exact ⟨hshows.records, fun t ht => by cases ht⟩
  | rechanged => exact hs.setBusy rfl (by simp)
  | @loadStat p who hbusy =>
    refine hs.setProcess (fun h => ⟨h.records, fun t ht => bars_afterStat ht⟩)
      (by simp) fun stage h t ht => ?_
    cases h
    exact bars_afterStat ht
  | @loadRead p who signature t hbusy hread =>
    have ht := hsound.readFile_bars hs.barred hread
    refine hs.setProcess (fun h => ⟨h.records, fun t' ht' => Option.some.inj ht' ▸ ht⟩)
      (by simp) fun stage h t' ht' => ?_
    cases h
    exact Option.some.inj ht' ▸ ht
  | @loadRecord p who signature t hbusy =>
    refine hs.setProcess (fun h => ⟨h.records, fun t' ht' => ?_⟩) (by simp)
      fun stage h t' ht' => ?_
    · exact h.table t' (by rw [hbusy]; exact ht')
    · obtain ⟨rfl, rfl⟩ := Busy.load.inj h
      exact hs.refresh p _ hbusy t' ht'
  | @refreshed p l₀ t hbusy =>
    have hfree : Sees (s.setProcess p ⟨t, (s.processes p).signature, .free⟩) l id := by
      refine hs.setProcess (fun h => ⟨h.table t (by rw [hbusy]; rfl), fun _ ht => by cases ht⟩)
        (by simp) fun _ h => by cases h
    refine hfree.setStage (by simp) fun hl _ => ?_
    subst hl
    have hp : (s.lookups l₀).process = p := (hlocked p l₀ (by rw [hbusy]; rfl)).1
    simp only [Fleet.setProcess, hp, Function.update_self]
    exact ⟨hs.refresh p _ hbusy t rfl, fun t ht => by cases ht⟩
  | @loaded p op t hbusy =>
    exact hs.setProcess (fun h => ⟨h.table t (by rw [hbusy]; rfl), fun _ ht => by cases ht⟩)
      (by simp) fun _ h => by cases h
  | refreshFails => exact (hs.setBusy rfl (by simp)).setStage_idle (by simp) (by simp)
  | loadFails | refused | saveFails | leave | lockFile =>
    exact (hs.setBusy rfl (by simp)).of_eq rfl rfl rfl
  | change | lockFails => exact hs.setBusy rfl (by simp)
  | apply hbusy happly =>
    exact hs.setProcess (fun _ => ⟨hsound.apply_bars hs.barred hbusy happly,
      fun t ht => by cases ht⟩) (by simp) fun _ h => by cases h
  | sign =>
    exact hs.setProcess (fun h => ⟨h.records, fun t ht => by cases ht⟩)
      (by simp) fun _ h => by cases h
  | @replace p signature now op hbusy =>
    have hremoves : op.removes ≠ some id := by
      simpa using (List.mem_filter.mp hid).2
    have hcommit : Sees (s.commit ⟨signature, now, op⟩ (s.processes p).records) l id := by
      have hgrown : ∀ signature', (∃ g ∈ barredSince s.log id, signature' = some g) →
          ∃ g ∈ barredSince (⟨signature, now, op⟩ :: s.log) id, signature' = some g := by
        rintro signature' ⟨g, hg, rfl⟩
        exact ⟨g, mem_barredSince_cons hg hremoves, rfl⟩
      exact ⟨List.ne_nil_of_mem (signature_mem_barredSince (.inr hs.barred) hremoves),
        fun sig h => hgrown sig (hs.compare sig h), fun q sig h => hgrown sig (hs.recompare q sig h),
        hs.refresh, hs.answer⟩
    exact hcommit.setBusy rfl (by simp)

theorem returned_step (hsound : Sound s) (hs : ∀ id ∈ s.revoked, barredSince s.log id ≠ [])
    (h : Fires s m s') : ∀ id ∈ s'.revoked, barredSince s'.log id ≠ [] := by
  cases h with
  | @leave p op hbusy =>
    intro id hid
    obtain hid | hid := List.mem_append.mp hid
    · exact ((hsound.knows p).written op (.inr hbusy)).2.2 id (Option.mem_toList.mp hid)
    · exact hs id hid
  | @replace p signature now op hbusy =>
    intro id hid
    obtain ⟨hid, hremoves⟩ := List.mem_filter.mp hid
    have hremoves : op.removes ≠ some id := by simpa using hremoves
    exact List.ne_nil_of_mem (signature_mem_barredSince (.inr (hs id hid)) hremoves)
  | _ => exact hs

theorem Sees.start (hheld : Held s') {l : LookupId} {id : DeviceId}
    (hid : barredSince s'.log id ≠ []) (hstage : (s'.lookups l).stage = .stat) : Sees s' l id where
  barred := hid
  compare signature h := (nomatch hstage.symm.trans h)
  recompare p signature h := by
    have hlocked := (hheld.lookup p l (by rw [h]; rfl)).2
    exact (nomatch hstage.symm.trans hlocked)
  refresh p stage h := by
    have hlocked := (hheld.lookup p l (by rw [h]; rfl)).2
    exact (nomatch hstage.symm.trans hlocked)
  answer h := (nomatch hstage.symm.trans h)

theorem mem_revoked_of_step {l : LookupId} {id : DeviceId} (h : Fires s m s')
    (hnew : ∀ p, m ≠ .lookup l p) (hid : id ∈ (s'.lookups l).revoked) :
    id ∈ (s.lookups l).revoked := by
  have hstage : ∀ (l₀ : LookupId) stage, ((s.setStage l₀ stage).lookups l).revoked =
      (s.lookups l).revoked := by
    intro l₀ stage
    by_cases hl : l = l₀
    · subst hl
      simp only [setStage, Function.update_self]
    · simp only [setStage, Function.update_of_ne hl]
  cases h with
  | @lookup l₀ p =>
    have hl : l ≠ l₀ := fun hl => hnew p (by rw [hl])
    simpa only [Function.update_of_ne hl] using hid
  | replace => exact (List.mem_filter.mp hid).1
  | stat | current | changed | enter | answer | recurrent | refreshed | refreshFails =>
    exact hstage _ _ ▸ hid
  | _ => exact hid

structure Guarded (s : Fleet) : Prop where
  copy : ∀ id p, CopyBars (barredSince s.log id) id (s.processes p)
  seen : Seen s

theorem guarded_step (hsound : Sound s) (hs : Guarded s) (hok : Undisturbed s m)
    (h : Fires s m s') : Guarded s' where
  copy id := copyBars_step hsound (hs.copy id) hok h
  seen := by
    refine ⟨returned_step hsound hs.seen.returned h, fun l id hid => ?_⟩
    by_cases hnew : ∀ p, m ≠ .lookup l p
    · exact sees_step hsound (hs.seen.lookup l id (mem_revoked_of_step h hnew hid)) (hs.copy id) hok
        h hnew hid
    · push Not at hnew
      obtain ⟨p, rfl⟩ := hnew
      have hheld := hsound.held.step h
      cases h with
      | lookup =>
        simp only [Function.update_self] at hid
        exact .start hheld (hs.seen.returned id hid) (by simp only [Function.update_self])

theorem Guarded.reach (hr : fleetMachine.Reach Undisturbed s) : Guarded s := by
  refine Machine.Reach.invariant_of (fun s => Sound.reach) (fun s hs => ?_)
    (fun s m s' hsound hI _ hok h => guarded_step hsound hI hok (fires h)) hr
  obtain ⟨-, hproc, hlookup, -, hlog, hrevoked⟩ := hs
  refine ⟨fun id p => ?_, fun id hid => ?_, fun l id hid => ?_⟩
  · rw [hlog, hproc p]
    exact ⟨fun _ h => (nomatch h), fun _ h => (nomatch h), fun _ h => (nomatch h)⟩
  · rw [hrevoked] at hid
    contradiction
  · rw [(hlookup l).2] at hid
    contradiction

def replay : List Commit → DeviceTable → Option DeviceTable
  | [], t => some t
  | c :: log, t =>
    (replay log t).bind fun u => (c.op.apply c.now u).toOption.map Changed.table

/-- The file holds what the changes that were written make of it, one after the other. -/
structure Replayed (s : Fleet) : Prop where
  file : ∀ t₀, fileTable s.base = .ok t₀ → ∃ t u, fileTable s.file = .ok t ∧
    replay s.log t₀ = some u ∧ ∀ id, t.get? id = u.get? id
  unreadable : (∀ t₀, fileTable s.base ≠ .ok t₀) → s.file = s.base

theorem Replayed.step (hsound : Sound s) (hs : Replayed s) (h : Fires s m s') : Replayed s' := by
  by_cases hm : ∀ p g, m ≠ .replace p g
  · obtain ⟨hfile, hlog, hbase⟩ := h.quiet hm
    constructor
    · rw [hfile, hlog, hbase]
      exact hs.file
    · rw [hfile, hbase]
      exact hs.unreadable
  · push Not at hm
    obtain ⟨p, g, rfl⟩ := hm
    cases h with
    | @replace _ _ now op hbusy =>
      obtain ⟨t, c, ht, hop, hc⟩ := (hsound.knows p).applied now op hbusy
      refine ⟨fun t₀ ht₀ => ?_, fun hno => ?_⟩
      · obtain ⟨t', u, ht', hu, hsame⟩ := hs.file t₀ ht₀
        cases ht.symm.trans ht'
        obtain ⟨c', hop', hsame'⟩ := DeviceOp.apply_congr hsame hop
        obtain ⟨v, hv, hread⟩ := fileTable_commit ht hop g
        rw [hc] at hv
        refine ⟨v, c'.table, hv, ?_, fun id => (hread id).trans (hsame' id)⟩
        simp only [setBusy, setProcess, commit, replay, hu, Option.bind_some, hop',
          Except.toOption, Option.map_some]
      · have hbase := hs.unreadable hno
        rw [hbase] at ht
        exact absurd ht (hno t)

theorem Replayed.reach {ok : Fleet → FleetMove → Prop} (hr : fleetMachine.Reach ok s) :
    Replayed s := by
  refine Machine.Reach.invariant_of (fun s => Sound.reach) (fun s hs => ?_)
    (fun s m s' hsound hI _ _ h => hI.step hsound (fires h)) hr
  obtain ⟨-, -, -, hbase, hlog, -⟩ := hs
  refine ⟨fun t₀ ht₀ => ?_, fun _ => hbase.symm⟩
  rw [hbase] at ht₀
  exact ⟨t₀, t₀, ht₀, by rw [hlog]; rfl, fun _ => rfl⟩

/-- What the registry promises: no lookup that started after a revocation had returned gives the
device anything, the file keeps it revoked, and every change that was written is in the file. -/
structure Promises (s : Fleet) : Prop where
  answers : ∀ l id, (s.lookups l).stage = .answer → id ∈ (s.lookups l).revoked →
    let t := (s.processes (s.lookups l).process).records
    DeviceTable.secretFor (.ok t) id = .ok none ∧
      ∀ r, t.get? id = some r → r.status = .revoked ∧ r.remoteEnabled = false ∧
        ∀ now, r.remoteAllowed now = false
  records : ∀ id ∈ s.revoked, ∃ t r, fileTable s.file = .ok t ∧ t.get? id = some r ∧
    r.status = .revoked ∧ r.remoteEnabled = false
  written : ∀ p op, (s.processes p).busy = .leave op → ∃ c ∈ s.log, c.op = op
  changes : ∀ t₀, fileTable s.base = .ok t₀ → ∃ t u, fileTable s.file = .ok t ∧
    replay s.log t₀ = some u ∧ ∀ id, t.get? id = u.get? id

end Fleet

theorem DeviceTable.Bars.secretFor {t : DeviceTable} {id : DeviceId} (h : t.Bars id) :
    DeviceTable.secretFor (.ok t) id = .ok none := by
  rw [DeviceTable.secretFor]
  split
  · simp only [DeviceTable.get, Except.map, Except.ok.injEq, Option.bind_eq_none_iff]
    intro r hr
    rw [if_neg]
    simp [DeviceRecord.canAuthenticate, (h r hr).1]
  · rfl

theorem DeviceRecord.Barred.remoteAllowed {r : DeviceRecord} (h : r.Barred) (now : Seconds) :
    r.remoteAllowed now = false := by
  simp [DeviceRecord.remoteAllowed, h.1]

/-- As long as no lookup slips between the two halves of a load, revocations stand. -/
theorem revocation_never_undone {s : Fleet}
    (hr : fleetMachine.Reach Fleet.Undisturbed s) : s.Promises where
  answers l id hstage hid := by
    have hshows := ((Fleet.Guarded.reach hr).seen.lookup l id hid).answer hstage
    refine ⟨hshows.records.secretFor, fun r hrec => ?_⟩
    have hb := hshows.records r hrec
    exact ⟨hb.1, hb.2, hb.remoteAllowed⟩
  records id hid := by
    have hbarred := (Fleet.Guarded.reach hr).seen.returned id hid
    obtain ⟨t, r, ht, hrec, hb⟩ := ((Fleet.Sound.reach hr).file id hbarred).record
    exact ⟨t, r, ht, hrec, hb.1, hb.2⟩
  written p op hbusy := (((Fleet.Sound.reach hr).knows p).written op (.inr hbusy)).2.1
  changes := (Fleet.Replayed.reach hr).file

/-- Whatever threads slip between the halves of a load, the file keeps what was revoked and every
written change, and one process at a time has its lock. -/
theorem file_keeps_revocations {s : Fleet} (hr : fleetMachine.Reachable s) :
    (∀ id ∈ s.revoked, ∃ t r, fileTable s.file = .ok t ∧ t.get? id = some r ∧ r.Barred) ∧
    (∀ t₀, fileTable s.base = .ok t₀ → ∃ t u, fileTable s.file = .ok t ∧
      Fleet.replay s.log t₀ = some u ∧ ∀ id, t.get? id = u.get? id) ∧
    ∀ p q, (s.processes p).busy.holdsFile → (s.processes q).busy.holdsFile → p = q := by
  have hreturned : ∀ id ∈ s.revoked, barredSince s.log id ≠ [] := by
    refine Machine.Reach.invariant_of (fun s => Fleet.Sound.reach) (fun s hs => ?_)
      (fun s m s' hsound hI _ _ h => Fleet.returned_step hsound hI (Fleet.fires h)) hr
    rw [hs.2.2.2.2.2]
    simp
  have hsound := Fleet.Sound.reach hr
  refine ⟨fun id hid => (hsound.file id (hreturned id hid)).record, (Fleet.Replayed.reach hr).file,
    fun p q hp hq => ?_⟩
  exact Option.some.inj ((hsound.held.file p hp).symm.trans (hsound.held.file q hq))

section Samples
open PyStr

def sampleFleet : Fleet where
  file := sampleWorld.file
  fileLock := none
  processes _ := ⟨Dict.empty, none, .free⟩
  lookups _ := ⟨0, .idle, []⟩
  base := sampleWorld.file
  log := []
  revoked := []

theorem start_sampleFleet : fleetMachine.start sampleFleet :=
  ⟨rfl, fun _ => rfl, fun _ => ⟨rfl, rfl⟩, rfl, rfl, rfl⟩

def loadMoves (l : LookupId) (p : ProcessId) : List FleetMove :=
  [.lookup l p, .stat l, .compare l, .enter l, .restat p, .recompare p, .loadStat p, .loadRead p,
    .loadRecord p]

def revokeMoves (p : ProcessId) (g : Signature) : List FleetMove :=
  [.change p (.revoke samplePhone.deviceId), .lockFile p, .loadStat p, .loadRead p, .loadRecord p,
    .loadStore p, .apply p 5, .replace p g, .sign p, .leave p]

/-- Process 1 has the file, process 0 revokes the phone, and process 1 loads the file again. -/
def revokedMoves : List FleetMove :=
  loadMoves 0 1 ++ [.loadStore 1, .answer 0] ++ revokeMoves 0 ⟨8, 101, 43⟩ ++ loadMoves 0 1

/-- A check for `Fleet.Undisturbed`. -/
def Fleet.undisturbed (s : Fleet) : FleetMove → Bool
  | .compare l => (s.processes (s.lookups l).process).busy.table?.isNone
  | .replace _ signature => signature ∉ s.used
  | _ => true

theorem Fleet.undisturbed_spec (s : Fleet) (m : FleetMove) (h : s.undisturbed m = true) :
    s.Undisturbed m := by
  cases m with
  | compare l =>
    intro signature who t _ hbusy
    rw [Fleet.undisturbed, hbusy] at h
    contradiction
  | replace p signature => exact of_decide_eq_true (p := signature ∉ s.used) h
  | _ => trivial

theorem file_keeps_revocations_sample : ∃ s : Fleet, samplePhone.deviceId ∈ s.revoked ∧
    ∃ t r, fileTable s.file = .ok t ∧ t.get? samplePhone.deviceId = some r ∧ r.Barred := by
  have hrun : (fleetMachine.exec sampleFleet (revokeMoves 0 ⟨8, 101, 43⟩)).any
      (fun s => decide (samplePhone.deviceId ∈ s.revoked)) = true := by decide +kernel
  obtain ⟨s, hs, hid⟩ := (Option.any_eq_true _ _).mp hrun
  have hid := of_decide_eq_true hid
  exact ⟨s, hid, (file_keeps_revocations (Machine.reachable_exec start_sampleFleet hs)).1 _ hid⟩

theorem revocation_never_undone_sample : ∃ s, fleetMachine.Reach Fleet.Undisturbed s ∧
    (s.lookups 0).stage = .answer ∧ samplePhone.deviceId ∈ (s.lookups 0).revoked ∧ s.Promises := by
  have hrun : (fleetMachine.execChecked Fleet.undisturbed sampleFleet
      (revokedMoves ++ [.loadStore 1])).any (fun s => decide ((s.lookups 0).stage = .answer ∧
        samplePhone.deviceId ∈ (s.lookups 0).revoked)) = true := by decide +kernel
  obtain ⟨s, hs, h⟩ := (Option.any_eq_true _ _).mp hrun
  obtain ⟨hstage, hid⟩ := of_decide_eq_true h
  have hr : fleetMachine.Reach Fleet.Undisturbed s :=
    Machine.Reach.execChecked Fleet.undisturbed_spec (.start start_sampleFleet) hs
  exact ⟨s, hr, hstage, hid, revocation_never_undone hr⟩

/-- Between the two halves of a load, another thread of the process takes the old records for
those of the file and hands out the key of a phone whose revocation had returned. -/
theorem revoked_key_served : ∃ s, fleetMachine.Reachable s ∧
    (s.lookups 1).stage = .answer ∧ samplePhone.deviceId ∈ (s.lookups 1).revoked ∧
    DeviceTable.secretFor (.ok (s.processes (s.lookups 1).process).records)
      samplePhone.deviceId = .ok (some [1, 2, 3]) ∧ ¬ s.Promises := by
  have hrun : (fleetMachine.exec sampleFleet
      (revokedMoves ++ [.lookup 1 1, .stat 1, .compare 1])).any (fun s =>
        decide ((s.lookups 1).stage = .answer ∧
          samplePhone.deviceId ∈ (s.lookups 1).revoked ∧
          DeviceTable.secretFor (.ok (s.processes (s.lookups 1).process).records)
            samplePhone.deviceId = .ok (some [1, 2, 3]))) = true := by decide +kernel
  obtain ⟨s, hs, h⟩ := (Option.any_eq_true _ _).mp hrun
  obtain ⟨hstage, hid, hkey⟩ := of_decide_eq_true h
  refine ⟨s, Machine.reachable_exec start_sampleFleet hs, hstage, hid, hkey, fun hp => ?_⟩
  have hnone := (hp.answers 1 _ hstage hid).1
  rw [hkey] at hnone
  contradiction

end Samples
end QronosAgent.Link

import QronosAgent.Update.Admission

/-! Writers and the updater exclude each other. The lock keeps a writer out while its guard lives,
the fence once the guard is gone: a guard creates the fence under the exclusive lock, and a writer
looks for it under its shared lock. -/
namespace QronosAgent.Update
open Lib

/-- A holder thread that nobody waits for, and that does not hold for its guard, was told to let
go. -/
def Guard.Told {N : Type} (guard : Guard N) : Prop :=
  guard.holder.runs → guard.stage = .waiting ∨ guard.stage = .held ∨ guard.release

namespace AdmissionSys
variable {N : Type} {names : MutexNames N} {process : Party → ℕ} {s s' : AdmissionSys N}

structure LocksTrue (s : AdmissionSys N) : Prop where
  shared : ∀ p, p ∈ s.shared ↔ ∃ w, p = .writer w ∧ (s.writers w).locks
  exclusive : ∀ g, s.exclusive = some (.guard g) ↔ (s.guards g).stage.locks
  notWriter : ∀ w, s.exclusive ≠ some (.writer w)
  apart : s.exclusive ≠ none → s.shared = []

structure HandlesTrue (s : AdmissionSys N) : Prop where
  runs : ∀ g name, (name, .guard g) ∈ s.handles → (s.guards g).holder.runs
  told : ∀ g, (s.guards g).Told
  writer : ∀ w name, (name, .writer w) ∉ s.handles

/-- No writer has been admitted while an installer has the fence. -/
def Fenced (names : MutexNames N) (s : AdmissionSys N) : Prop :=
  ∀ w i, s.writers w = .admitted → (names.fence, .installer i) ∉ s.handles

/-- What leaves the locks, and the stages that go with them, as they are. -/
theorem LocksTrue.congr (h : s.LocksTrue) (hshared : s'.shared = s.shared)
    (hexclusive : s'.exclusive = s.exclusive)
    (hwriters : ∀ w, (s'.writers w).locks = (s.writers w).locks)
    (hguards : ∀ g, (s'.guards g).stage.locks = (s.guards g).stage.locks) : s'.LocksTrue where
  shared p := by
    simp only [hshared, hwriters]
    exact h.shared p
  exclusive g := by
    rw [hexclusive, hguards]
    exact h.exclusive g
  notWriter w := by
    rw [hexclusive]
    exact h.notWriter w
  apart hne := by
    rw [hshared]
    exact h.apart (hexclusive ▸ hne)

variable {n g : ℕ} {stage : WriterStage} {guard : Guard N} {holder : HolderStage N}

theorem locks_setWriter (h : stage.locks = (s.writers n).locks) (w : ℕ) :
    ((s.setWriter n stage).writers w).locks = (s.writers w).locks := by
  by_cases hw : w = n
  · subst hw
    simp [setWriter, h]
  · simp [setWriter, hw]

theorem locks_setGuard (h : guard.stage.locks = (s.guards n).stage.locks) (g : ℕ) :
    ((s.setGuard n guard).guards g).stage.locks = (s.guards g).stage.locks := by
  by_cases hg : g = n
  · subst hg
    simp [setGuard, h]
  · simp [setGuard, hg]

theorem LocksTrue.setWriter (h : s.LocksTrue) (hlocks : stage.locks = (s.writers n).locks) :
    (s.setWriter n stage).LocksTrue :=
  h.congr rfl rfl (locks_setWriter hlocks) fun _ => rfl

theorem LocksTrue.setGuard (h : s.LocksTrue)
    (hlocks : guard.stage.locks = (s.guards n).stage.locks) : (s.setGuard n guard).LocksTrue :=
  h.congr rfl rfl (fun _ => rfl) (locks_setGuard hlocks)

theorem LocksTrue.holderTo (h : s.LocksTrue) (n : ℕ) (holder : HolderStage N) :
    (s.holderTo n holder).LocksTrue := h.setGuard rfl

theorem LocksTrue.lockShared (h : s.LocksTrue) (w : ℕ) (hfree : s.exclusive = none) :
    { s.setWriter w .locked with shared := Party.writer w :: s.shared }.LocksTrue where
  shared p := by
    simp only [List.mem_cons, h.shared]
    constructor
    · rintro (rfl | ⟨v, rfl, hv⟩)
      · exact ⟨w, rfl, by simp [AdmissionSys.setWriter, WriterStage.locks]⟩
      · refine ⟨v, rfl, ?_⟩
        by_cases hvw : v = w
        · simp [AdmissionSys.setWriter, hvw, WriterStage.locks]
        · simpa [AdmissionSys.setWriter, hvw] using hv
    · rintro ⟨v, rfl, hv⟩
      by_cases hvw : v = w
      · exact .inl (by rw [hvw])
      · exact .inr ⟨v, rfl, by simpa [AdmissionSys.setWriter, hvw] using hv⟩
  exclusive := h.exclusive
  notWriter := h.notWriter
  apart hne := by contradiction

theorem LocksTrue.lockExclusive (h : s.LocksTrue) (g : ℕ) (hfree : s.Free) :
    { s.goTo g .locked with exclusive := some (Party.guard g) }.LocksTrue where
  shared := h.shared
  exclusive k := by
    by_cases hk : k = g
    · simp [goTo, AdmissionSys.setGuard, hk, GuardStage.locks]
    · have hfree : ¬ (s.guards k).stage.locks := by
        rw [← h.exclusive, hfree.2]
        simp
      simpa [goTo, AdmissionSys.setGuard, hk, Ne.symm hk] using hfree
  notWriter w := by simp
  apart _ := hfree.1

theorem LocksTrue.installerLock (h : s.LocksTrue) (i : ℕ) (hfree : s.Free) :
    { s with exclusive := some (Party.installer i) }.LocksTrue where
  shared := h.shared
  exclusive g := by
    have hnot : ¬ (s.guards g).stage.locks := by
      rw [← h.exclusive, hfree.2]
      simp
    simpa using hnot
  notWriter w := by simp
  apart _ := hfree.1

theorem LocksTrue.unlockWriter (h : s.LocksTrue) (w : ℕ) (hstage : stage.locks = false) :
    ((s.setWriter w stage).unlock (.writer w)).LocksTrue where
  shared p := by
    simp only [unlock, AdmissionSys.setWriter, List.mem_filter, h.shared, decide_eq_true_eq]
    constructor
    · rintro ⟨⟨v, rfl, hv⟩, hne⟩
      have hvw : v ≠ w := fun hvw => hne (by rw [hvw])
      exact ⟨v, rfl, by simpa [hvw] using hv⟩
    · rintro ⟨v, rfl, hv⟩
      have hvw : v ≠ w := by
        rintro rfl
        simp [hstage] at hv
      exact ⟨⟨v, rfl, by simpa [hvw] using hv⟩, by simpa using hvw⟩
  exclusive g := by
    apply Iff.trans _ (h.exclusive g)
    simp [unlock, AdmissionSys.setWriter, Option.filter_eq_some_iff]
  notWriter v := by
    simp only [unlock, AdmissionSys.setWriter]
    intro hv
    exact h.notWriter v (Option.filter_eq_some_iff.mp hv).1
  apart hne := by
    have hshared : s.shared = [] := by
      apply h.apart
      intro hnone
      exact hne (by simp [unlock, AdmissionSys.setWriter, hnone])
    simp [unlock, AdmissionSys.setWriter, hshared]

theorem LocksTrue.unlockGuard (h : s.LocksTrue) (g : ℕ) {stage : GuardStage}
    (hstage : stage.locks = false) : ((s.goTo g stage).unlock (.guard g)).LocksTrue where
  shared p := by
    apply Iff.trans _ (h.shared p)
    simp only [unlock, goTo, AdmissionSys.setGuard, List.mem_filter, decide_eq_true_eq,
      and_iff_left_iff_imp]
    intro hp
    obtain ⟨w, rfl, -⟩ := (h.shared p).mp hp
    simp
  exclusive k := by
    simp only [unlock, goTo, AdmissionSys.setGuard, Option.filter_eq_some_iff, h.exclusive,
      decide_eq_true_eq]
    by_cases hk : k = g
    · simp [hk, hstage]
    · simp [hk]
  notWriter v := by
    simp only [unlock, goTo, AdmissionSys.setGuard]
    intro hv
    exact h.notWriter v (Option.filter_eq_some_iff.mp hv).1
  apart hne := by
    have hshared : s.shared = [] := by
      apply h.apart
      intro hnone
      exact hne (by simp [unlock, goTo, AdmissionSys.setGuard, hnone])
    simp [unlock, goTo, AdmissionSys.setGuard, hshared]

theorem LocksTrue.die (h : s.LocksTrue) (p : ℕ) : (s.die process p).LocksTrue where
  shared party := by
    simp only [AdmissionSys.die, List.mem_filter, h.shared, decide_eq_true_eq]
    constructor
    · rintro ⟨⟨w, rfl, hw⟩, hne⟩
      exact ⟨w, rfl, by rwa [if_neg hne]⟩
    · rintro ⟨w, rfl, hw⟩
      split at hw
      · simp [WriterStage.locks] at hw
      · exact ⟨⟨w, rfl, hw⟩, ‹_›⟩
  exclusive g := by
    simp only [AdmissionSys.die, Option.filter_eq_some_iff, h.exclusive, decide_eq_true_eq]
    split
    · simp [*, GuardStage.locks]
    · simp [*]
  notWriter w := by
    simp only [AdmissionSys.die]
    intro hw
    exact h.notWriter w (Option.filter_eq_some_iff.mp hw).1
  apart hne := by
    have hshared : s.shared = [] := by
      apply h.apart
      intro hnone
      exact hne (by simp [AdmissionSys.die, hnone])
    simp [AdmissionSys.die, hshared]

theorem HandlesTrue.congr (h : s.HandlesTrue) (hhandles : s'.handles = s.handles)
    (hguards : s'.guards = s.guards) : s'.HandlesTrue where
  runs g := by
    rw [hhandles, hguards]
    exact h.runs g
  told g := by
    rw [hguards]
    exact h.told g
  writer w := by
    rw [hhandles]
    exact h.writer w

theorem HandlesTrue.setGuard (h : s.HandlesTrue)
    (hruns : (s.guards n).holder.runs → guard.holder.runs) (htold : guard.Told) :
    (s.setGuard n guard).HandlesTrue where
  runs g name hg := by
    have hrun := h.runs g name hg
    by_cases hgn : g = n
    · subst hgn
      simpa [AdmissionSys.setGuard] using hruns hrun
    · simpa [AdmissionSys.setGuard, hgn] using hrun
  told g := by
    by_cases hgn : g = n
    · subst hgn
      simpa [AdmissionSys.setGuard] using htold
    · simpa [AdmissionSys.setGuard, hgn] using h.told g
  writer := h.writer

theorem HandlesTrue.holderTo (h : s.HandlesTrue) (hruns : (s.guards n).holder.runs)
    (hholder : holder.runs) :
    (s.holderTo n holder).HandlesTrue :=
  h.setGuard (fun _ => hholder) fun _ => h.told n hruns

/-- The main thread goes on from a stage in which it was not waited for. -/
theorem HandlesTrue.goTo (h : s.HandlesTrue) {stage : GuardStage}
    (hstage : (s.guards n).stage ≠ .waiting ∧ (s.guards n).stage ≠ .held) :
    (s.goTo n stage).HandlesTrue := by
  have hset : Guard.Told { s.guards n with stage := stage } →
      (s.setGuard n { s.guards n with stage := stage }).HandlesTrue :=
    h.setGuard fun hruns => hruns
  apply hset
  intro hruns
  rcases h.told n hruns with hwaiting | hheld | hrelease
  · exact absurd hwaiting hstage.1
  · exact absurd hheld hstage.2
  · exact .inr (.inr hrelease)

theorem HandlesTrue.openHandle (h : s.HandlesTrue) (name : N) {party : Party}
    (hguard : ∀ g, party = .guard g → (s.guards g).holder.runs)
    (hwriter : ∀ w, party ≠ .writer w) : (s.openHandle name party).HandlesTrue where
  runs g other hg := by
    rcases List.mem_cons.mp hg with hg | hg
    · exact hguard g (Prod.ext_iff.mp hg).2.symm
    · exact h.runs g other hg
  told := h.told
  writer w other hw := by
    rcases List.mem_cons.mp hw with hw | hw
    · exact hwriter w (Prod.ext_iff.mp hw).2.symm
    · exact h.writer w other hw

theorem HandlesTrue.letGo (h : s.HandlesTrue) (hholder : holder.runs = false) :
    ((s.holderTo n holder).closeHandles (.guard n)).HandlesTrue where
  runs g name hg := by
    simp only [closeHandles, List.mem_filter, decide_eq_true_eq] at hg
    have hgn : g ≠ n := fun hgn => hg.2 (by rw [hgn])
    simpa [closeHandles, AdmissionSys.holderTo, AdmissionSys.setGuard, hgn] using
      h.runs g name hg.1
  told g := by
    by_cases hgn : g = n
    · intro hruns
      simp [closeHandles, AdmissionSys.holderTo, AdmissionSys.setGuard, hgn, hholder] at hruns
    · simpa [closeHandles, AdmissionSys.holderTo, AdmissionSys.setGuard, hgn] using h.told g
  writer w name hw := h.writer w name (List.mem_filter.mp hw).1

theorem HandlesTrue.closeOther (h : s.HandlesTrue) (n : ℕ) :
    (s.closeHandles (.other n)).HandlesTrue where
  runs g name hg := h.runs g name (List.mem_filter.mp hg).1
  told := h.told
  writer w name hw := h.writer w name (List.mem_filter.mp hw).1

theorem HandlesTrue.die (h : s.HandlesTrue) (p : ℕ) : (s.die process p).HandlesTrue where
  runs g name hg := by
    simp only [AdmissionSys.die, List.mem_filter, decide_eq_true_eq] at hg
    simpa only [AdmissionSys.die, if_neg hg.2] using h.runs g name hg.1
  told g := by
    simp only [AdmissionSys.die]
    split
    · exact fun hruns => by contradiction
    · exact h.told g
  writer w name hw := h.writer w name (List.mem_filter.mp hw).1

theorem Fenced.congr (h : s.Fenced names)
    (hwriters : ∀ w, s'.writers w = .admitted → s.writers w = .admitted)
    (hhandles : ∀ i, (names.fence, .installer i) ∈ s'.handles →
      (names.fence, .installer i) ∈ s.handles) : s'.Fenced names :=
  fun w i hw hi => h w i (hwriters w hw) (hhandles i hi)

theorem Fenced.setWriter (h : s.Fenced names) (hstage : stage ≠ .admitted) :
    (s.setWriter n stage).Fenced names := by
  refine Fenced.congr h (fun w hw => ?_) fun _ hi => hi
  by_cases hwn : w = n
  · subst hwn
    simp [AdmissionSys.setWriter, hstage] at hw
  · simpa [AdmissionSys.setWriter, hwn] using hw

/-- A writer is admitted when the fence does not exist. -/
theorem fenced_admit (hfree : ¬ s.Exists names.fence) :
    (s.setWriter n .admitted).Fenced names :=
  fun _ i _ hi => hfree ⟨.installer i, hi⟩

theorem LocksTrue.noWriter (h : s.LocksTrue) (hg : (s.guards g).stage.locks) (w : ℕ) :
    (s.writers w).locks = false := by
  have hexclusive := (h.exclusive g).mpr hg
  have hshared := h.apart (by simp [hexclusive])
  by_contra hw
  have hmem := (h.shared (.writer w)).mpr ⟨w, rfl, Bool.not_eq_false _ ▸ hw⟩
  rw [hshared] at hmem
  contradiction

structure Inv (names : MutexNames N) (s : AdmissionSys N) : Prop where
  locks : s.LocksTrue
  handles : s.HandlesTrue
  fenced : s.Fenced names

theorem Inv.start (h : s.Starts names) : s.Inv names := by
  obtain ⟨hshared, hexclusive, hhandles, hwriters, hguards, -⟩ := h
  refine ⟨⟨?_, ?_, ?_, ?_⟩, ⟨?_, ?_, ?_⟩, ?_⟩
  · simp [hshared, hwriters, WriterStage.locks]
  · simp [hexclusive, hguards, GuardStage.locks]
  · simp [hexclusive]
  · simp [hexclusive]
  · intro g name hg
    obtain ⟨n, hn⟩ := (hhandles _ hg).2
    contradiction
  · intro g hruns
    simp [hguards, HolderStage.runs] at hruns
  · intro w name hw
    obtain ⟨n, hn⟩ := (hhandles _ hw).2
    contradiction
  · intro w i hw
    simp [hwriters] at hw

/-- The holder thread of a guard goes on, and neither the locks nor the fence change. -/
theorem Inv.holderTo (h : s.Inv names) (hruns : (s.guards n).holder.runs) (hholder : holder.runs) :
    (s.holderTo n holder).Inv names :=
  ⟨h.locks.setGuard rfl, h.handles.holderTo hruns hholder,
    h.fenced.congr (fun _ hw => hw) fun _ hi => hi⟩

theorem Inv.openGuard (h : s.Inv names) (name : N) (hruns : (s.guards n).holder.runs) :
    (s.openHandle name (.guard n)).Inv names where
  locks := h.locks.congr rfl rfl (fun _ => rfl) fun _ => rfl
  handles := by
    apply h.handles.openHandle name
    · rintro g hg
      cases hg
      exact hruns
    · simp
  fenced := by
    refine Fenced.congr h.fenced (fun _ hw => hw) fun i hi => ?_
    rcases List.mem_cons.mp hi with hi | hi
    · simp at hi
    · exact hi

theorem Inv.letGo (h : s.Inv names) (hholder : holder.runs = false) :
    ((s.holderTo n holder).closeHandles (.guard n)).Inv names where
  locks := (h.locks.holderTo n holder).congr rfl rfl (fun _ => rfl) fun _ => rfl
  handles := h.handles.letGo hholder
  fenced := h.fenced.congr (fun _ hw => hw) fun _ hi => (List.mem_filter.mp hi).1

theorem Inv.setGuard (h : s.Inv names) (hlocks : guard.stage.locks = (s.guards n).stage.locks)
    (hruns : (s.guards n).holder.runs → guard.holder.runs) (htold : guard.Told) :
    (s.setGuard n guard).Inv names :=
  ⟨h.locks.setGuard hlocks, h.handles.setGuard hruns htold,
    h.fenced.congr (fun _ hw => hw) fun _ hi => hi⟩

theorem Inv.goTo (h : s.Inv names) {stage : GuardStage}
    (hlocks : stage.locks = (s.guards n).stage.locks)
    (hstage : (s.guards n).stage ≠ .waiting ∧ (s.guards n).stage ≠ .held) :
    (s.goTo n stage).Inv names :=
  ⟨h.locks.setGuard hlocks, h.handles.goTo hstage,
    h.fenced.congr (fun _ hw => hw) fun _ hi => hi⟩

theorem Inv.unlockGuard (h : s.Inv names) {stage : GuardStage} (hlocks : stage.locks = false)
    (hstage : (s.guards n).stage ≠ .waiting ∧ (s.guards n).stage ≠ .held) :
    ((s.goTo n stage).unlock (.guard n)).Inv names :=
  ⟨h.locks.unlockGuard n hlocks, (h.handles.goTo hstage).congr rfl rfl,
    h.fenced.congr (fun _ hw => hw) fun _ hi => hi⟩

theorem Inv.setWriter (h : s.Inv names) (hlocks : stage.locks = (s.writers n).locks)
    (hstage : stage ≠ .admitted) :
    (s.setWriter n stage).Inv names :=
  ⟨h.locks.setWriter hlocks, h.handles.congr rfl rfl, h.fenced.setWriter hstage⟩

theorem Inv.unlockWriter (h : s.Inv names) (n : ℕ) (hlocks : stage.locks = false) :
    ((s.setWriter n stage).unlock (.writer n)).Inv names where
  locks := h.locks.unlockWriter n hlocks
  handles := h.handles.congr rfl rfl
  fenced := by
    have hstage : stage ≠ .admitted := by
      rintro rfl
      contradiction
    exact (h.fenced.setWriter hstage).congr (fun _ hw => hw) fun _ hi => hi

theorem Inv.handOver (h : s.Inv names) {i : ℕ} (hheld : (s.guards g).stage = .held) :
    ({ s with installers := Function.update s.installers i .running }.openHandle names.fence
      (.installer i)).Inv names where
  locks := h.locks.congr rfl rfl (fun _ => rfl) fun _ => rfl
  handles := by
    have hopen : (s.openHandle names.fence (.installer i)).HandlesTrue := by
      apply h.handles.openHandle
      · simp
      · simp
    exact hopen.congr rfl rfl
  fenced w _ hw := by
    have hnone := h.locks.noWriter (g := g) (by simp [hheld, GuardStage.locks]) w
    have hadmitted : s.writers w = .admitted := hw
    rw [hadmitted] at hnone
    contradiction

theorem Inv.step [DecidableEq N] (h : s.Inv names) {move : AdmissionMove N}
    (hs : s.step names process move = some s') : s'.Inv names := by
  cases move with
  | lockShared w opened =>
    simp only [AdmissionSys.step] at hs
    split at hs
    · contradiction
    rename_i hidle
    split at hs
    · rename_i hfree
      cases hs
      exact ⟨h.locks.lockShared w hfree.2, h.handles.congr rfl rfl,
        (h.fenced.setWriter (by simp)).congr (fun _ hw => hw) fun _ hi => hi⟩
    · cases hs
      exact h.setWriter (by simp [not_not.mp hidle, WriterStage.locks]) (by simp)
  | checkFence w =>
    simp only [AdmissionSys.step] at hs
    split at hs
    · contradiction
    rename_i hlocked
    cases hs
    by_cases hfence : s.Exists names.fence
    · rw [if_pos hfence]
      exact h.setWriter (by simp [not_not.mp hlocked, WriterStage.locks]) (by simp)
    · -- no handle to the fence, so no installer has it
      rw [if_neg hfence]
      exact ⟨h.locks.setWriter (by simp [not_not.mp hlocked, WriterStage.locks]),
        h.handles.congr rfl rfl, fenced_admit hfence⟩
  | releaseShared w =>
    simp only [AdmissionSys.step, AdmissionSys.releaseShared] at hs
    split at hs
    · cases hs
      exact h.unlockWriter w rfl
    · cases hs
      exact h.unlockWriter w rfl
    · contradiction
  | lockExclusive g opened =>
    simp only [AdmissionSys.step] at hs
    split at hs
    · contradiction
    rename_i hidle
    have hstage : (s.guards g).stage ≠ .waiting ∧ (s.guards g).stage ≠ .held := by
      simp [not_not.mp hidle]
    split at hs
    · rename_i hfree
      cases hs
      exact ⟨h.locks.lockExclusive g hfree.2, (h.handles.goTo hstage).congr rfl rfl,
        h.fenced.congr (fun _ hw => hw) fun _ hi => hi⟩
    · cases hs
      exact h.goTo (by simp [not_not.mp hidle, GuardStage.locks]) hstage
  | startHolder g started =>
    simp only [AdmissionSys.step] at hs
    split at hs
    · contradiction
    rename_i hlocked
    split at hs
    · cases hs
      apply h.setGuard
      · simp [not_not.mp hlocked, GuardStage.locks]
      · exact fun _ => rfl
      · exact fun _ => .inl rfl
    · cases hs
      apply h.goTo
      · simp [not_not.mp hlocked, GuardStage.locks]
      · simp [not_not.mp hlocked]
  | create g created acquired =>
    simp only [AdmissionSys.step, createNext] at hs
    split at hs
    · rename_i name left hworking
      have hruns : (s.guards g).holder.runs := by simp [hworking, HolderStage.runs]
      split at hs
      · cases hs
        exact h.holderTo hruns rfl
      split at hs
      all_goals
        cases hs
        exact (h.holderTo hruns rfl).openGuard name (by simp [AdmissionSys.holderTo,
          AdmissionSys.setGuard, HolderStage.runs])
    · contradiction
  | answer g =>
    simp only [AdmissionSys.step] at hs
    split at hs
    · rename_i hworking
      cases hs
      exact h.holderTo (by simp [hworking, HolderStage.runs]) rfl
    · contradiction
  | letGo g =>
    simp only [AdmissionSys.step, AdmissionSys.letGo] at hs
    split at hs
    · cases hs
      exact h.letGo rfl
    · split at hs
      · cases hs
        exact h.letGo rfl
      · contradiction
    · contradiction
  | hear g =>
    simp only [AdmissionSys.step, hearAnswer] at hs
    split at hs
    · rename_i hwaiting
      split at hs
      · cases hs
        apply h.setGuard
        · simp [hwaiting, GuardStage.locks]
        · exact fun hruns => hruns
        · exact fun _ => .inr (.inl rfl)
      · -- the thread has let go before it answered
        rename_i hfailed
        cases hs
        apply h.setGuard
        · simp [hwaiting, GuardStage.locks]
        · exact fun hruns => hruns
        · intro hruns
          simp [hfailed, HolderStage.runs] at hruns
      · contradiction
    · contradiction
  | timeOut g =>
    simp only [AdmissionSys.step] at hs
    split at hs
    · rename_i hwaiting
      cases hs
      apply h.setGuard
      · simp [hwaiting, GuardStage.locks]
      · exact fun hruns => hruns
      · exact fun _ => .inr (.inr rfl)
    · contradiction
  | release g =>
    simp only [AdmissionSys.step] at hs
    split at hs
    · rename_i hheld
      cases hs
      apply h.setGuard
      · simp [hheld, GuardStage.locks]
      · exact fun hruns => hruns
      · exact fun _ => .inr (.inr rfl)
    · contradiction
  | releaseExclusive g =>
    simp only [AdmissionSys.step, AdmissionSys.releaseExclusive] at hs
    split at hs
    · rename_i hfailing
      cases hs
      exact h.unlockGuard rfl (by simp [hfailing])
    · rename_i hreleasing
      cases hs
      exact h.unlockGuard rfl (by simp [hreleasing])
    · contradiction
  | handOver g i =>
    simp only [AdmissionSys.step] at hs
    split at hs
    · rename_i hheld
      cases hs
      exact h.handOver hheld.1
    · contradiction
  | installerLock i =>
    simp only [AdmissionSys.step] at hs
    split at hs
    · rename_i hfree
      cases hs
      exact ⟨h.locks.installerLock i hfree.2, h.handles.congr rfl rfl,
        h.fenced.congr (fun _ hw => hw) fun _ hi => hi⟩
    · contradiction
  | otherOpens n name =>
    simp only [AdmissionSys.step] at hs
    split at hs
    · cases hs
      refine ⟨h.locks.congr rfl rfl (fun _ => rfl) fun _ => rfl,
        h.handles.openHandle name (by simp) (by simp),
        h.fenced.congr (fun _ hw => hw) fun i hi => ?_⟩
      rcases List.mem_cons.mp hi with hi | hi
      · simp at hi
      · exact hi
    · contradiction
  | otherCloses n =>
    cases hs
    exact ⟨h.locks.congr rfl rfl (fun _ => rfl) fun _ => rfl, h.handles.closeOther n,
      h.fenced.congr (fun _ hw => hw) fun _ hi => (List.mem_filter.mp hi).1⟩
  | dies p =>
    cases hs
    refine ⟨h.locks.die p, h.handles.die p, h.fenced.congr (fun w hw => ?_) fun i hi =>
      (List.mem_filter.mp hi).1⟩
    simp only [AdmissionSys.die] at hw
    split at hw
    · contradiction
    · exact hw

theorem Inv.reach [DecidableEq N] (hr : (admissionMachine names process).Reachable s) :
    s.Inv names :=
  hr.invariant (fun _ => Inv.start) fun _ _ _ h _ hs => h.step hs

theorem Inv.writer_leaves (h : s.Inv names) {w : ℕ} (hw : s.writers w = .refused) :
    .writer w ∉ s.shared ∧ s.exclusive ≠ some (.writer w) ∧
      ∀ name, (name, .writer w) ∉ s.handles := by
  refine ⟨fun hmem => ?_, h.locks.notWriter w, h.handles.writer w⟩
  obtain ⟨v, hv, hlocks⟩ := (h.locks.shared _).mp hmem
  cases hv
  simp [hw, WriterStage.locks] at hlocks

/-- A refused guard has no lock, and handles only as long as a holder thread runs that did not
answer in time and was told to let go. -/
theorem Inv.guard_leaves (h : s.Inv names) (hg : (s.guards g).stage = .refused) :
    .guard g ∉ s.shared ∧ s.exclusive ≠ some (.guard g) ∧ ∀ name, (name, .guard g) ∈ s.handles →
      (s.guards g).holder.runs ∧ (s.guards g).release := by
  refine ⟨fun hmem => ?_, fun hlock => ?_, fun name hname => ?_⟩
  · obtain ⟨v, hv, -⟩ := (h.locks.shared _).mp hmem
    contradiction
  · have hlocks := (h.locks.exclusive g).mp hlock
    simp [hg, GuardStage.locks] at hlocks
  · have hruns := h.handles.runs g name hname
    have htold := h.handles.told g hruns
    simp only [hg] at htold
    exact ⟨hruns, by simpa using htold⟩

/-- While a writer is admitted no `LaunchHold` is held and no installer has the fence; at most one
`LaunchHold` is held; and a refused admission leaves neither a lock nor a handle, but for those of
a holder thread that did not answer in time, which has been told to let go. -/
theorem writers_and_updater_exclude [DecidableEq N]
    (hr : (admissionMachine names process).Reachable s) :
    (∀ w, s.writers w = .admitted → (∀ g, (s.guards g).stage ≠ .held) ∧
      ∀ i, (names.fence, .installer i) ∉ s.handles) ∧
    (∀ g k, (s.guards g).stage = .held → (s.guards k).stage = .held → g = k) ∧
    (∀ w, s.writers w = .refused → .writer w ∉ s.shared ∧ s.exclusive ≠ some (.writer w) ∧
      ∀ name, (name, .writer w) ∉ s.handles) ∧
    ∀ g, (s.guards g).stage = .refused →
      .guard g ∉ s.shared ∧ s.exclusive ≠ some (.guard g) ∧ ∀ name, (name, .guard g) ∈ s.handles →
        (s.guards g).holder.runs ∧ (s.guards g).release := by
  have h := Inv.reach hr
  refine ⟨fun w hw => ⟨fun g hg => ?_, fun i => h.fenced w i hw⟩, fun g k hg hk => ?_,
    fun w => h.writer_leaves, fun g => h.guard_leaves⟩
  · have hnone := h.locks.noWriter (g := g) (by simp [hg, GuardStage.locks]) w
    simp [hw, WriterStage.locks] at hnone
  · have hlock := (h.locks.exclusive g).mpr (by simp [hg, GuardStage.locks])
    have hother := (h.locks.exclusive k).mpr (by simp [hk, GuardStage.locks])
    rw [hlock] at hother
    simpa using hother

/-! A run with two names, every party in one process. -/

def sampleNames : MutexNames ℕ := ⟨0, [1]⟩

def sampleAdmission : AdmissionSys ℕ where
  shared := []
  exclusive := none
  handles := []
  writers _ := .idle
  guards _ := ⟨.idle, .unstarted, false⟩
  installers _ := .idle

theorem sampleAdmission_starts : sampleAdmission.Starts sampleNames :=
  ⟨rfl, rfl, by simp [sampleAdmission], fun _ => rfl, fun _ => rfl, fun _ => rfl⟩

def sampleMachine : Machine (AdmissionSys ℕ) (AdmissionMove ℕ) :=
  admissionMachine sampleNames fun _ => 0

/-- A guard hands the fence over and lets go; then a writer asks for an admission. -/
theorem writers_and_updater_exclude_sample :
    ∃ s : AdmissionSys ℕ, (s.writers 0 = .refused ∧ (0, .installer 0) ∈ s.handles) ∧
      (∀ w, s.writers w = .admitted → (∀ g, (s.guards g).stage ≠ .held) ∧
        ∀ i, (sampleNames.fence, .installer i) ∉ s.handles) ∧
      (∀ g k, (s.guards g).stage = .held → (s.guards k).stage = .held → g = k) ∧
      (∀ w, s.writers w = .refused → .writer w ∉ s.shared ∧ s.exclusive ≠ some (.writer w) ∧
        ∀ name, (name, .writer w) ∉ s.handles) ∧
      ∀ g, (s.guards g).stage = .refused →
        .guard g ∉ s.shared ∧ s.exclusive ≠ some (.guard g) ∧
          ∀ name, (name, .guard g) ∈ s.handles →
            (s.guards g).holder.runs ∧ (s.guards g).release := by
  have hrun : (sampleMachine.exec sampleAdmission [.lockExclusive 0 true, .startHolder 0 true,
      .create 0 true true, .create 0 true true, .answer 0, .hear 0, .handOver 0 0, .release 0,
      .letGo 0, .releaseExclusive 0, .lockShared 0 true, .checkFence 0, .releaseShared 0]).any
      (fun s => s.writers 0 = .refused ∧ (0, .installer 0) ∈ s.handles) := by
    decide +kernel
  obtain ⟨s, hs, hsample⟩ := (Option.any_eq_true _ _).mp hrun
  exact ⟨s, of_decide_eq_true hsample, writers_and_updater_exclude
    (Machine.reachable_exec sampleAdmission_starts hs)⟩

/-- A holder thread that is too late leaves the fence behind for as long as it runs. -/
theorem refused_leaves_fence :
    ¬ ∀ s : AdmissionSys ℕ, sampleMachine.Reachable s → ∀ g, (s.guards g).stage = .refused →
      ∀ name, (name, .guard g) ∉ s.handles := by
  have hrun : (sampleMachine.exec sampleAdmission [.lockExclusive 0 true, .startHolder 0 true,
      .create 0 true true, .timeOut 0, .releaseExclusive 0]).any
      (fun s => (s.guards 0).stage = .refused ∧ (0, .guard 0) ∈ s.handles) := by
    decide +kernel
  obtain ⟨s, hs, hsample⟩ := (Option.any_eq_true _ _).mp hrun
  obtain ⟨hrefused, hhandle⟩ := of_decide_eq_true hsample
  intro h
  exact h s (Machine.reachable_exec sampleAdmission_starts hs) 0 hrefused 0 hhandle

end AdmissionSys
end QronosAgent.Update

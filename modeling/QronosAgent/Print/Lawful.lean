import QronosAgent.Print.Awaiting

/-! A submit is lawful over the journal: what a reading and what the journal tells keep, and where
its operation goes with them. -/
namespace QronosAgent.Print
open Lib
open Workflow (SideEffectState Failure Want Procedure Phase)

section
variable {casefold : PyStr → PyStr} {p p' : Printing} {r : Reading}

/-- The awaiting is over, or there was none. -/
def Point.follows : Point → Bool
  | .guard | .start | .poll | .exact _ | .finished | .sleep => false
  | point => !point.isFresh

def Takes (casefold : PyStr → PyStr) (p : Printing) (jobId : ℕ) : Prop :=
  ∃ found job, p.point = .exact found ∧ job.jobId = jobId ∧
    ({ p with exactId := p.worker.bind RenderedJob.jobId } : Printing).newJobs casefold found = [job]

structure Keeps (casefold : PyStr → PyStr) (r : Reading) (p p' : Printing) : Prop where
  prepared : p'.prepared = p.prepared
  approval : p'.approval = p.approval
  printer : p'.readings.printer = p.readings.printer ∨ p.phase = .fresh
  phase : p.phase.Goes p'.phase
  taken : p'.taken = p.taken ∨ ∃ jobId, r = .go ∧ Takes casefold p jobId ∧ p'.taken = some jobId ∧
    p'.point.follows = true
  follows : p.point.follows = true → p'.point.follows = true
  resumed : p.resumed = true → p'.resumed = true
  resuming : p'.point = .resuming → p.point = .resuming ∨ p.resumed = false

structure SameTask (p p' : Printing) : Prop where
  prepared : p'.prepared = p.prepared
  approval : p'.approval = p.approval
  taken : p'.taken = p.taken
  resumed : p'.resumed = p.resumed

theorem phase_closes (after : After) : (p.closes after).phase = .opened true p.states := by
  unfold Printing.closes
  split
  · rfl
  split
  · rfl
  cases after <;> rfl

theorem Keeps.over (hs : SameTask p p')
    (hprinter : p'.readings.printer = p.readings.printer ∨ p.phase = .fresh)
    (hp' : p'.point = .stopped ∨ p'.point = .dropping) : Keeps casefold r p p' := by
  refine ⟨hs.prepared, hs.approval, hprinter, ?_, .inl hs.taken, fun _ => ?_,
    fun hresumed => hs.resumed.trans hresumed, fun hresuming => ?_⟩
  · have hphase : p'.phase = .over := by
      unfold Printing.phase
      rcases hp' with hp' | hp' <;> rw [hp']
    rw [hphase]
    exact .over _
  · rcases hp' with hp' | hp' <;> rw [hp'] <;> rfl
  · rcases hp' with hp' | hp' <;> rw [hp'] at hresuming <;> cases hresuming

theorem phase_of_fresh (hfresh : p.point.isFresh = true) : p.phase = .fresh := by
  unfold Printing.phase
  cases hp : p.point <;> rw [hp] at hfresh <;> first | rfl | cases hfresh

theorem Keeps.fresh (hs : SameTask p p') (hp : p.point.isFresh = true)
    (hp' : p'.point.isFresh = true) : Keeps casefold r p p' := by
  have hphase := phase_of_fresh hp
  refine ⟨hs.prepared, hs.approval, .inr hphase, ?_, .inl hs.taken, fun hfollows => ?_,
    fun hresumed => hs.resumed.trans hresumed, fun hresuming => ?_⟩
  · rw [hphase, phase_of_fresh hp']
    exact .stays _
  · cases hpoint : p.point <;> rw [hpoint] at hp hfollows <;>
      first | cases hp; done | cases hfollows
  · rw [hresuming] at hp'
    cases hp'

/-- A point at which the attempt was begun, and it was started or will not be. -/
def Point.isSpent (point : Point) : Bool := !point.isEarly

theorem phase_of_spent (hspent : p.point.isSpent = true) : p.phase = .opened true p.states := by
  unfold Printing.phase
  cases hp : p.point <;> rw [hp] at hspent <;> first | rfl | cases hspent

theorem Keeps.opened {spent : Bool} {point : Point} (hp : p.point = point)
    (hphase : p.phase = .opened spent p.states) (hprepared : p'.prepared = p.prepared)
    (happroval : p'.approval = p.approval) (hreadings : p'.readings = p.readings)
    (hphase' : p'.phase = .opened true p.states)
    (htaken : p'.taken = p.taken ∨ ∃ jobId, r = .go ∧ Takes casefold p jobId ∧
      p'.taken = some jobId ∧ p'.point.follows = true)
    (hfollows : p'.point.follows = true ∨ point.follows = false)
    (hresumed : p.resumed = true → p'.resumed = true)
    (hresuming : p'.point ≠ .resuming ∨ p.resumed = false) : Keeps casefold r p p' := by
  refine ⟨hprepared, happroval, .inl (by rw [hreadings]), ?_, htaken, fun hold => ?_, hresumed,
    fun hnew => ?_⟩
  · rw [hphase, hphase']
    exact .opened (fun h => by cases h) (List.Subset.refl _)
  · apply hfollows.resolve_right
    rw [← hp, hold]
    simp
  · exact .inr (hresuming.resolve_left fun hne => hne hnew)

/-- It goes on from a point at which the attempt was started. -/
theorem Keeps.goTo {point next : Point} (hp : p.point = point) (hspent : point.isSpent = true)
    (hnext : next.isSpent = true) (hfollows : next.follows = true ∨ point.follows = false)
    (hresuming : next ≠ .resuming) : Keeps casefold r p (p.goTo next) :=
  .opened hp (phase_of_spent (hp ▸ hspent)) rfl rfl rfl (phase_of_spent (p := p.goTo next) hnext)
    (.inl rfl) hfollows id (.inl hresuming)

theorem closes_point (after : After) : (p.closes after).point.follows = true ∧
    (p.closes after).point ≠ .resuming := by
  unfold Printing.closes
  split
  · exact ⟨rfl, fun h => by cases h⟩
  split
  · exact ⟨rfl, fun h => by cases h⟩
  cases after <;> exact ⟨rfl, fun h => by cases h⟩

theorem Keeps.closes {q : Printing} {point : Point} (hp : p.point = point)
    (hspent : point.isSpent = true) (hs : SameTask p q) (hreadings : q.readings = p.readings)
    (hstates : q.states = p.states) (after : After) : Keeps casefold r p (q.closes after) := by
  obtain ⟨hfollows, hresuming⟩ := closes_point (p := q) after
  apply Keeps.opened hp (phase_of_spent (hp ▸ hspent))
  · exact hs.prepared
  · exact hs.approval
  · exact hreadings
  · rw [phase_closes, hstates]
  · exact .inl hs.taken
  · exact .inl hfollows
  · exact fun hresumed => hs.resumed.trans hresumed
  · exact .inl hresuming

/-- It goes on, or stops, before anything was begun. -/
theorem keeps_prepare (hr : p.prepare casefold r = some p') : Keeps casefold r p p' := by
  obtain ⟨readings, _, _, _, point, rfl, hpoint, hp⟩ := Printing.prepare_eq hr
  have hprinter : readings.printer = p.readings.printer ∨ p.phase = .fresh :=
    hp.symm.imp (fun hp => by rw [hp.2.2]) phase_of_fresh
  simp only [Point.isUnbegun, Bool.or_eq_true, decide_eq_true_eq] at hpoint
  rcases hpoint with (hfresh | hstopped) | hdropping
  · rcases hp with hp | ⟨-, rfl, -⟩
    · exact .fresh ⟨rfl, rfl, rfl, rfl⟩ hp hfresh
    · cases hfresh
  · exact .over ⟨rfl, rfl, rfl, rfl⟩ hprinter (.inl hstopped)
  · exact .over ⟨rfl, rfl, rfl, rfl⟩ hprinter (.inr hdropping)

theorem Keeps.checkFinished (hp : p.point = .finished) (expired done : Bool) :
    Keeps casefold r p (p.checkFinished expired done) := by
  have hdone : ∀ next : Point, next.isSpent = true → next ≠ .resuming →
      Keeps casefold r p (({ p with handlerDone := true } : Printing).goTo next) := by
    intro next hnext hresuming
    refine .opened hp (phase_of_spent (hp ▸ rfl)) rfl rfl rfl ?_ (.inl rfl) (.inr rfl) id
      (.inl hresuming)
    exact phase_of_spent (p := ({ p with handlerDone := true } : Printing).goTo next) hnext
  unfold Printing.checkFinished
  simp only
  -- the handler is a thread or a process
  split
  all_goals
    split
    · split
      · exact hdone _ rfl (fun h => by cases h)
      · split
        · exact hdone _ rfl (fun h => by cases h)
        · split <;> exact hdone _ rfl (fun h => by cases h)
    · split <;> exact .goTo hp rfl rfl (.inr rfl) (fun h => by cases h)

theorem Keeps.take {found : List PrintJobState} (hp : p.point = .exact found) :
    Keeps casefold .go p (p.take casefold found) := by
  have hread : ∀ next : Point, next.isSpent = true → next ≠ .resuming → Keeps casefold .go p
      (({ p with exactId := p.worker.bind RenderedJob.jobId } : Printing).goTo next) := by
    intro next hnext hresuming
    refine .opened hp (phase_of_spent (hp ▸ rfl)) rfl rfl rfl ?_ (.inl rfl) (.inr rfl) id
      (.inl hresuming)
    exact phase_of_spent
      (p := ({ p with exactId := p.worker.bind RenderedJob.jobId } : Printing).goTo next) hnext
  unfold Printing.take
  simp only
  split
  · exact hread _ rfl (fun h => by cases h)
  · rename_i job hjob
    exact .opened hp (phase_of_spent (hp ▸ rfl)) rfl rfl rfl rfl
      (.inr ⟨job.jobId, rfl, ⟨found, job, hp, rfl, hjob⟩, rfl, rfl⟩) (.inr rfl) id (.inl fun h => by cases h)
  · exact hread _ rfl (fun h => by cases h)

theorem keeps_await (hr : p.await casefold r = some p') : Keeps casefold r p p' := by
  unfold Printing.await at hr
  cases r with
  | checkpoint cancelled approvalValid detail =>
    obtain ⟨hp, ⟨⟩⟩ := Option.ite_none_right_eq_some.mp hr
    have hold : p.phase = .opened false p.states := by
      unfold Printing.phase
      rw [hp]
    split
    · refine ⟨rfl, rfl, .inl rfl, ?_, .inl rfl, fun hfollows => ?_, id, (fun h => by cases h)⟩
      · rw [hold]
        exact .stays _
      · rw [hp] at hfollows
        cases hfollows
    · exact .opened hp hold rfl rfl rfl rfl (.inl rfl) (.inr rfl) id (.inl fun h => by cases h)
  | jobs seen live =>
    obtain ⟨hp, ⟨⟩⟩ := Option.ite_none_right_eq_some.mp hr
    exact .goTo hp rfl rfl (.inr rfl) (fun h => by cases h)
  | finished expired done =>
    obtain ⟨hp, ⟨⟩⟩ := Option.ite_none_right_eq_some.mp hr
    exact .checkFinished hp expired done
  | slept cancelled =>
    obtain ⟨hp, ⟨⟩⟩ := Option.ite_none_right_eq_some.mp hr
    split <;> exact .goTo hp rfl rfl (.inr rfl) (fun h => by cases h)
  | go =>
    simp only at hr
    split at hr
    · rename_i found hp
      cases hr
      exact .take hp
    · rename_i a hp
      cases hr
      exact .closes hp rfl ⟨rfl, rfl, rfl, rfl⟩ rfl rfl _
    · rename_i after hp
      cases hr
      exact .closes (q := { p with handler := .closed }) hp rfl ⟨rfl, rfl, rfl, rfl⟩ rfl rfl _
    · rename_i after hp
      cases hr
      exact .closes (q := { p with watcher := .closed }) hp rfl ⟨rfl, rfl, rfl, rfl⟩ rfl rfl _
    · cases hr
  | _ => cases hr

theorem keeps_monitor (hr : p.monitor r = some p') : Keeps casefold r p p' := by
  have hgo : ∀ point next : Point, p.point = point → point.isSpent = true →
      next.isSpent = true → next.follows = true → next ≠ .resuming →
        Keeps casefold r p (p.goTo next) := fun point next hp hspent hnext hfollows hresuming =>
    .goTo hp hspent hnext (.inl hfollows) hresuming
  unfold Printing.monitor at hr
  cases r with
  | go =>
    simp only at hr
    split at hr
    · rename_i hp
      cases hr
      unfold Printing.judge
      split
      · exact hgo _ _ hp rfl rfl rfl (fun h => by cases h)
      split
      · rename_i hpaused
        simp only [Bool.and_eq_true, Bool.not_eq_true'] at hpaused
        exact .opened hp (phase_of_spent (hp ▸ rfl)) rfl rfl rfl rfl (.inl rfl) (.inl rfl)
          (fun _ => rfl) (.inr hpaused.2)
      split <;> exact hgo _ _ hp rfl rfl rfl (fun h => by cases h)
    · rename_i hp
      cases hr
      exact hgo _ _ hp rfl rfl rfl (fun h => by cases h)
    · cases hr
  | clock late =>
    obtain ⟨hp, ⟨⟩⟩ := Option.ite_none_right_eq_some.mp hr
    split <;> exact hgo _ _ hp rfl rfl rfl (fun h => by cases h)
  | slept cancelled =>
    obtain ⟨hp, ⟨⟩⟩ := Option.ite_none_right_eq_some.mp hr
    split <;> exact hgo _ _ hp rfl rfl rfl (fun h => by cases h)
  | live jobs =>
    obtain ⟨hp, ⟨⟩⟩ := Option.ite_none_right_eq_some.mp hr
    unfold Printing.find
    split
    · exact hgo _ _ hp rfl rfl rfl (fun h => by cases h)
    split
    · exact hgo _ _ hp rfl rfl rfl (fun h => by cases h)
    split <;>
      exact .opened hp (phase_of_spent (hp ▸ rfl)) rfl rfl rfl rfl (.inl rfl) (.inl rfl) id
        (.inl fun h => by cases h)
  | _ => cases hr

structure ControlOf (casefold : PyStr → PyStr) (p p' : Printing) (printer : PyStr) (jobId : ℕ) :
    Prop where
  resuming : p.point = .resuming
  gone : p'.point ≠ .resuming
  printer : ∃ state, p.readings.printer = some state ∧ printer = casefold state.name
  taken : p.taken = some jobId

theorem keeps_controls (hp : p.point = .resuming) {r : Reading} {gs : List Note}
    (hr : p.controls casefold r = some (p', gs)) : Keeps casefold r p p' ∧
      (gs = [] ∨ ∃ printer jobId, gs = [.control printer jobId] ∧
        ControlOf casefold p p' printer jobId) := by
  have hgo : ∀ next : Point, next.isSpent = true → next.follows = true → next ≠ .resuming →
      Keeps casefold r p (p.goTo next) := fun next hnext hfollows hresuming =>
    .goTo hp rfl hnext (.inl hfollows) hresuming
  have hnote : ∀ next : Point, next ≠ .resuming → p.controlNote casefold = [] ∨
      ∃ printer jobId, p.controlNote casefold = [.control printer jobId] ∧
        ControlOf casefold p (p.goTo next) printer jobId := by
    intro next hnext
    unfold Printing.controlNote
    cases hprinter : p.readings.printer with
    | none => exact .inl rfl
    | some state =>
      cases htaken : p.taken with
      | none => exact .inl rfl
      | some jobId => exact .inr ⟨_, jobId, rfl, hp, hnext, ⟨state, hprinter, rfl⟩, htaken⟩
  unfold Printing.controls at hr
  cases r with
  | control =>
    cases hr
    exact ⟨hgo _ rfl rfl (fun h => by cases h), hnote _ (fun h => by cases h)⟩
  | raised name =>
    cases hr
    exact ⟨hgo _ rfl rfl (fun h => by cases h), hnote _ (fun h => by cases h)⟩
  | _ => cases hr

theorem keeps_fails {name : PyStr} (hr : p.fails name = some p') : Keeps casefold r p p' := by
  unfold Printing.fails at hr
  cases hp : p.point with
  | entry | recheckFile | file | recheckPrinter | printer | handler | user | before | watch
  | submitCheck | dropping =>
    simp only [hp] at hr
    cases hr
    exact .over ⟨rfl, rfl, rfl, rfl⟩ (.inl rfl) (.inl rfl)
  | grant =>
    simp only [hp] at hr
    cases hr
    exact .over ⟨rfl, rfl, rfl, rfl⟩ (.inl rfl) (.inr rfl)
  | guard =>
    simp only [hp] at hr
    cases hr
    have hold : p.phase = .opened false p.states := by
      unfold Printing.phase
      rw [hp]
    exact .opened hp hold rfl rfl rfl rfl (.inl rfl) (.inr rfl) id (.inl fun h => by cases h)
  | poll | exact _ | finished | sleep =>
    simp only [hp] at hr
    cases hr
    exact .goTo hp rfl rfl (.inr rfl) (fun h => by cases h)
  | closeHandler _ | closeWatcher _ | judge | attention | clock | monitorSleep | follow =>
    simp only [hp] at hr
    cases hr
    exact .goTo hp rfl rfl (.inl rfl) (fun h => by cases h)
  | returned _ =>
    simp only [hp] at hr
    cases hr
    exact .closes hp rfl ⟨rfl, rfl, rfl, rfl⟩ rfl rfl _
  | _ =>
    simp only [hp] at hr
    cases hr

theorem keeps_read {gs : List Note} (hr : p.read casefold r = some (p', gs)) :
    (Keeps casefold r p p' ∧ (gs = [] ∨ ∃ printer jobId, gs = [.control printer jobId] ∧
        ControlOf casefold p p' printer jobId)) ∨
      ∃ o, r = .started o ∧ p.point = .start ∧ p' = p.starts o ∧ gs = [.started p] := by
  have hplain : ∀ r : Reading,
      ((((p.prepare casefold r).or (p.await casefold r)).or (p.monitor r)).map
        fun p => (p, ([] : List Note))) = some (p', gs) → Keeps casefold r p p' ∧ gs = [] := by
    intro r hr
    obtain ⟨q, hq, heq⟩ := Option.map_eq_some_iff.mp hr
    cases heq
    refine ⟨?_, rfl⟩
    rcases Option.or_eq_some_iff.mp hq with hq | ⟨-, hq⟩
    · rcases Option.or_eq_some_iff.mp hq with hq | ⟨-, hq⟩
      · exact keeps_prepare hq
      · exact keeps_await hq
    · exact keeps_monitor hq
  unfold Printing.read at hr
  cases r with
  | worker m =>
    obtain ⟨job', hm, heq⟩ := Option.map_eq_some_iff.mp hr
    cases heq
    exact .inl ⟨⟨rfl, rfl, .inl rfl, .stays _, .inl rfl, id, id, .inl⟩, .inl rfl⟩
  | started o =>
    obtain ⟨hp, ⟨⟩⟩ := Option.ite_none_right_eq_some.mp hr
    exact .inr ⟨o, rfl, hp, rfl, rfl⟩
  | raised name =>
    simp only at hr
    split at hr
    · rename_i hp
      exact .inl (keeps_controls hp hr)
    · obtain ⟨q, hq, heq⟩ := Option.map_eq_some_iff.mp hr
      cases heq
      exact .inl ⟨keeps_fails hq, .inl rfl⟩
  | _ =>
    simp only at hr
    split at hr
    · rename_i hp
      exact .inl (keeps_controls hp hr)
    · exact .inl ((hplain _ hr).imp_right .inl)

theorem starts_same (o : Started) : SameTask p (p.starts o) ∧
    (p.starts o).readings = p.readings ∧ (p.starts o).phase = .opened true p.states ∧
      (p.starts o).point ≠ .resuming := by
  cases o <;> exact ⟨⟨rfl, rfl, rfl, rfl⟩, rfl, rfl, fun h => by cases h⟩

theorem told_same (r : Except Failure (Option SideEffectState)) :
    SameTask p (p.told r) ∧ (p.told r).readings = p.readings := by
  unfold Printing.told
  cases p.point with
  | rescue name =>
    cases r with
    | ok x => exact ⟨⟨rfl, rfl, rfl, rfl⟩, rfl⟩
    | error e =>
      simp only
      split <;> exact ⟨⟨rfl, rfl, rfl, rfl⟩, rfl⟩
  | begin | look | settling a => cases r <;> exact ⟨⟨rfl, rfl, rfl, rfl⟩, rfl⟩
  | _ => exact ⟨⟨rfl, rfl, rfl, rfl⟩, rfl⟩

theorem told_follows (r : Except Failure (Option SideEffectState)) :
    (p.point.follows = true → (p.told r).point.follows = true) ∧
      ((p.told r).point = .resuming → p.point = .resuming) := by
  have hcloses : ∀ (point : Point) (q : Printing) after, (point.follows = true →
      (q.closes after).point.follows = true) ∧
        ((q.closes after).point = .resuming → point = .resuming) := by
    intro point q after
    obtain ⟨hfollows, hresuming⟩ := closes_point (p := q) after
    exact ⟨fun _ => hfollows, fun h => absurd h hresuming⟩
  unfold Printing.told
  cases hp : p.point with
  | refused | unclear => exact hcloses _ _ _
  | look => cases r <;> exact hcloses _ _ _
  | begin => cases r <;> exact ⟨(fun h => by cases h), (fun h => by cases h)⟩
  | rescue name =>
    cases r with
    | ok x => exact hcloses _ _ _
    | error e =>
      simp only
      split
      · exact ⟨fun _ => rfl, fun h => by cases h⟩
      · exact hcloses _ _ _
  | settling a =>
    cases r with
    | error e => exact ⟨fun _ => rfl, fun h => by cases h⟩
    | ok x => cases a <;> exact ⟨fun _ => rfl, fun h => by cases h⟩
  | _ =>
    simp only [hp]
    exact ⟨id, id⟩

theorem parts_eq {p p' : Printing} (hprepared : p'.prepared = p.prepared)
    (hprinter : p'.readings.printer = p.readings.printer) : p'.parts casefold = p.parts casefold := by
  unfold Printing.parts Printing.printerName
  rw [hprepared, hprinter]

/-- A submit keeps to the order of an approved side effect. -/
theorem submits_lawful (operationKey : PyStr → PyStr → PyStr) :
    (submits casefold operationKey).Lawful Printing.phase where
  first := by
    intro p h
    simp only [submits, Printing.isFirst, Bool.and_eq_true, decide_eq_true_eq] at h
    exact phase_of_fresh (by rw [h.1.1.1.1.1.1.1.1.1.1.1.1.1]; rfl)
  key_told := by
    intro p r
    obtain ⟨hsame, -⟩ := told_same (p := p) r
    simp only [submits, hsame.prepared, hsame.approval]
  key_input := by
    intro p r p' gs h
    rcases keeps_read h with ⟨hkeeps, -⟩ | ⟨o, -, -, rfl, -⟩
    · simp only [submits, hkeeps.prepared, hkeeps.approval]
    · simp only [submits, (starts_same o).1.prepared, (starts_same o).1.approval]
  content_told := by
    intro p r
    obtain ⟨hsame, hreadings⟩ := told_same (p := p) r
    simp only [submits, parts_eq hsame.prepared (congrArg Readings.printer hreadings)]
  content_input := by
    intro p r p' gs h
    rcases keeps_read h with ⟨hkeeps, -⟩ | ⟨o, -, -, rfl, -⟩
    · rcases hkeeps.printer with hprinter | hfresh
      · exact .inl (by simp only [submits, parts_eq hkeeps.prepared hprinter])
      · exact .inr hfresh
    · obtain ⟨hsame, hreadings, -⟩ := starts_same (p := p) o
      exact .inl (by simp only [submits, parts_eq hsame.prepared (congrArg Readings.printer hreadings)])
  begin := by
    intro p kind parts detail h
    simp only [submits, Printing.wants] at h
    split at h
    · rename_i hp
      cases h
      refine ⟨rfl, phase_of_fresh (by rw [hp]; rfl), fun x => ?_, fun e => ?_⟩
      · simp only [submits, Printing.told, hp]
        rfl
      · simp only [submits, Printing.told, hp]
        rfl
    all_goals cases h
  settle := by
    intro p state detail h
    have hspent : ∀ point : Point, p.point = point → point.isSpent = true →
        p.phase = .opened true p.states := fun point hp hpoint => phase_of_spent (hp ▸ hpoint)
    simp only [submits, Printing.wants] at h
    split at h
    all_goals first | (cases h; done) | skip
    all_goals
      rename_i hp
      cases h
      refine ⟨true, p.states, hspent _ hp rfl, fun x => ?_, fun e => ?_⟩
      all_goals simp only [submits, Printing.told, hp]
    any_goals (rw [phase_closes]; exact .stays _)
    · split
      · exact .stays _
      · rw [phase_closes]
        exact .stays _
    · rename_i a
      cases a <;> exact .stays _
    · exact .stays _
  get := by
    intro p h
    simp only [submits, Printing.wants] at h
    split at h
    all_goals first | (cases h; done) | skip
    rename_i hp
    have hold : p.phase = .opened true p.states := phase_of_spent (hp ▸ rfl)
    refine ⟨true, p.states, hold, fun r spent' states' hnew => ?_⟩
    have hclosed : (p.told r).phase = .opened true p.states := by
      simp only [Printing.told, hp]
      cases r <;> exact phase_closes _
    have heq := hclosed.symm.trans hnew
    cases heq
    exact ⟨id, fun _ _ h => h⟩
  input := by
    intro p r p' gs h
    rcases keeps_read h with ⟨hkeeps, hgs⟩ | ⟨o, -, hp, rfl, rfl⟩
    · refine .inl ⟨?_, hkeeps.phase⟩
      rcases hgs with rfl | ⟨printer, jobId, rfl, -⟩ <;> rfl
    · refine .inr ⟨.started p, p.states, p.states, rfl, ?_, (starts_same o).2.2.1,
        List.Subset.refl _⟩
      unfold Printing.phase
      rw [hp]

end
end QronosAgent.Print

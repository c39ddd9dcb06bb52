import QronosAgent.Print.Lawful

/-! An approved print is started once and reported honestly, as long as no run that holds a watcher
is stopped before it begins, what is closed does not raise, and no job is taken for another's. -/
namespace QronosAgent.Print
open Lib
open Journal (Platform)
open Workflow (SideEffectState Failure Builtins Sys Step workflowMachine)

def Note.approved : Note → Option (PyStr × PyStr)
  | .started p => some (p.approval.approvalId, p.prepared.digest)
  | .control .. => none

def Note.controlled : Note → Option (PyStr × ℕ)
  | .started _ => none
  | .control printer jobId => some (printer, jobId)

section
variable (casefold : PyStr → PyStr) (operationKey : PyStr → PyStr → PyStr)

def Point.isEnd : Point → Bool
  | .stopped | .raised | .reported _ => true
  | _ => false

def Printing.key (p : Printing) : PyStr := operationKey p.approval.approvalId p.prepared.digest

structure StartedOnce (F : Type) [PyFloat F] (plat : Platform) (s : Sys Printing Note) : Prop where
  /-- `start` is called at most once for an approval of a plan. -/
  once : (s.log.filterMap fun n => n.2.approved).Nodup
  /-- What was read by then is what was approved. -/
  checked : ∀ n ∈ s.log, ∀ p, n.2 = .started p → Checked casefold 4 p
  /-- No other attempt for the content and the printer is unresolved then. -/
  resolved : ∀ run ∈ s.runs, run.alive = true → run.stage.point = .start →
    ∀ a ∈ s.world.attempts, a.content = (py "print", run.stage.parts casefold) →
      s.world.open F plat a = true → a.operationKey = run.stage.key operationKey
  notSubmitted : ∀ run ∈ s.runs, run.stage.asked = true →
    s.world.state F plat (run.stage.key operationKey) = some .notSubmitted →
      run.stage.notLaunched = true ∨ ∃ job, run.stage.worker = some job ∧
        job.notSubmittedReason.isSome = true ∧ job.startDoc = none
  confirmed : ∀ run ∈ s.runs, ∀ report, run.stage.point = .reported report →
    report.outcome ≠ .uncertain →
      s.world.state F plat (run.stage.key operationKey) = some .confirmed
  /-- The job of the renderer's route is the one that its `StartDoc` returned. -/
  own : ∀ run ∈ s.runs, run.stage.prepared.route = .renderer → ∀ jobId,
    run.stage.taken = some jobId ∨ run.stage.point.reports = some jobId →
      run.stage.worker.bind RenderedJob.startDoc = some jobId
  resumed : (s.log.filterMap fun n => n.2.controlled).Nodup
  taken : ∀ n ∈ s.log, ∀ printer jobId, n.2 = .control printer jobId → ∃ run ∈ s.runs,
    run.stage.key operationKey = n.1 ∧ run.stage.taken = some jobId ∧
      printer = casefold run.stage.printerName
  closed : ∀ run ∈ s.runs, run.stage.point.isEnd = true →
    run.stage.handler ≠ .held ∧ run.stage.watcher ≠ .held

/-- No other run has taken the job. -/
def AloneOk (s : Sys Printing Note) (i : ℕ) (p : Printing) : Prop :=
  ∀ jobId, Takes casefold p jobId → ∀ j other, s.runs[j]? = some other → j ≠ i →
    other.stage.taken = some jobId → casefold other.stage.printerName ≠ casefold p.printerName

def Meets {F : Type} (s : Sys Printing Note) : Step F Printing Reading → Prop
  | .input i r => ∀ run, s.runs[i]? = some run → CheckpointOk run.stage r ∧ CloseOk run.stage r ∧
    (r = .go → TakeOk casefold run.stage ∧ AloneOk casefold s i run.stage)
  | _ => True

end

section
variable {F : Type} [PyFloat F] {plat : Platform} {builtins : Builtins}
variable {casefold : PyStr → PyStr} {operationKey : PyStr → PyStr → PyStr} {s : Sys Printing Note}

structure Knows (casefold : PyStr → PyStr) (p : Printing) : Prop where
  kept : Kept casefold p
  untaken : p.point.follows = false → p.taken = none

variable {p p' : Printing} {jobId i : ℕ} {r : Reading} {gs : List Note}
  {run : Workflow.Run Printing} {notes : List (PyStr × Note)}

theorem Kept.first (hfirst : p.isFirst = true) : Knows casefold p := by
  simp only [Printing.isFirst, Bool.and_eq_true, decide_eq_true_eq, Option.isNone_iff_eq_none,
    Bool.not_eq_true'] at hfirst
  obtain ⟨⟨⟨⟨⟨⟨⟨⟨⟨⟨⟨⟨⟨hp, -⟩, -⟩, -⟩, hwatcher⟩, hhandler⟩, hworker⟩, hexact⟩, -⟩, htaken⟩, -⟩, hasked⟩,
    -⟩, hstates⟩ := hfirst
  refine ⟨⟨?_, ?_, ?_, fun _ => ⟨hasked, hworker, htaken⟩, ?_, ?_, ?_, ?_, ?_, ?_, ?_, ?_, ?_, ?_,
    ?_⟩, fun _ => htaken⟩
  · rw [hp]
    exact ⟨(by rintro ⟨⟩), (by rintro ⟨⟩), (by rintro ⟨⟩), (by rintro ⟨⟩)⟩
  · rw [hhandler]
    rintro ⟨⟩
  · rw [hwatcher]
    rintro ⟨⟩
  · rw [hp]
    exact fun h => by rcases h with h | h <;> cases h
  · rw [hp]
    rintro ⟨⟩
  · rw [hp]
    rintro _ ⟨⟩
  · rw [hp]
    rintro ⟨⟩
  · rw [hstates]
    rintro ⟨⟩
  · rw [hworker]
    rintro _ ⟨⟩
  · rw [hexact]
    rintro _ ⟨⟩
  · rw [hp]
    rintro _ _ ⟨⟩
  · rw [htaken]
    rintro _ _ ⟨⟩
  · rw [hp]
    rintro _ ⟨⟩
  · rw [hp]
    rintro ⟨⟩

theorem Knows.told (h : Knows casefold p) (r : Except Failure (Option SideEffectState)) :
    Knows casefold (p.told r) := by
  refine ⟨h.kept.told r, fun hfollows => ?_⟩
  rw [(told_same r).1.taken]
  apply h.untaken
  cases hold : p.point.follows with
  | false => rfl
  | true =>
    rw [(told_follows r).1 hold] at hfollows
    cases hfollows

theorem Takes.point (h : Takes casefold p jobId) :
    p.point.follows = false := by
  obtain ⟨found, job, hp, -⟩ := h
  rw [hp]
  rfl

theorem Knows.read (h : Knows casefold p) (htake : r = .go → TakeOk casefold p)
    (hcheckpoint : CheckpointOk p r) (hclose : CloseOk p r)
    (hr : p.read casefold r = some (p', gs)) : Knows casefold p' := by
  refine ⟨h.kept.read htake hcheckpoint hclose hr, fun hfollows => ?_⟩
  rcases keeps_read hr with ⟨hkeeps, -⟩ | ⟨o, -, hp, rfl, -⟩
  · have hold : p.point.follows = false := by
      cases hold : p.point.follows with
      | false => rfl
      | true =>
        rw [hkeeps.follows hold] at hfollows
        cases hfollows
    rcases hkeeps.taken with htaken | ⟨jobId, -, -, -, hnew⟩
    · exact htaken.trans (h.untaken hold)
    · rw [hnew] at hfollows
      cases hfollows
  · exact (starts_same o).1.taken.trans (h.untaken (by rw [hp]; rfl))

theorem knows_of_reach
    (hr : (workflowMachine F plat builtins (submits casefold operationKey)).Reach (Meets casefold) s) :
    ∀ run ∈ s.runs, Knows casefold run.stage := by
  refine Workflow.stages_invariant (J := Knows casefold) ?_ ?_ ?_ hr
  · intro _ _ _ p _ hfirst
    exact Kept.first hfirst
  · intro p r h
    exact h.told r
  · intro s i run r p gs hok hi h hread
    obtain ⟨hcheckpoint, hclose, hgo⟩ := hok run hi
    exact h.read (fun hr => (hgo hr).1) hcheckpoint hclose hread

/-! The jobs that are taken and controlled. -/

structure Controlled (casefold : PyStr → PyStr) (operationKey : PyStr → PyStr → PyStr)
    (s : Sys Printing Note) : Prop where
  alone : ∀ (i j : ℕ) run run', s.runs[i]? = some run → s.runs[j]? = some run' → ∀ jobId,
    run.stage.taken = some jobId → run'.stage.taken = some jobId →
      casefold run.stage.printerName = casefold run'.stage.printerName → i = j
  taken : ∀ n ∈ s.log, ∀ printer jobId, n.2 = .control printer jobId →
    ∃ (i : ℕ) (run : Workflow.Run Printing), s.runs[i]? = some run ∧ run.stage.key operationKey = n.1 ∧
      run.stage.taken = some jobId ∧ printer = casefold run.stage.printerName ∧
        run.stage.resumed = true ∧ run.stage.point ≠ .resuming
  once : (s.log.filterMap fun n => n.2.controlled).Nodup

structure Carries (casefold : PyStr → PyStr) (operationKey : PyStr → PyStr → PyStr)
    (s : Sys Printing Note) (i : ℕ) (p p' : Printing) : Prop where
  key : p'.key operationKey = p.key operationKey
  printer : ∀ jobId, p.taken = some jobId → p'.taken = some jobId ∧ p'.printerName = p.printerName
  new : ∀ jobId, p'.taken = some jobId → p.taken = some jobId ∨
    ∀ j other, s.runs[j]? = some other → j ≠ i → other.stage.taken = some jobId →
      casefold other.stage.printerName ≠ casefold p'.printerName
  resumed : p.resumed = true → p'.resumed = true
  resuming : p.resumed = true → p.point ≠ .resuming → p'.point ≠ .resuming

theorem Controlled.set (h : Controlled casefold operationKey s) {run' : Workflow.Run Printing}
    (hi : s.runs[i]? = some run) (hc : Carries casefold operationKey s i run.stage run'.stage)
    {world : Workflow.World} :
    Controlled casefold operationKey { s with world := world, runs := s.runs.set i run' } := by
  have hlt : i < s.runs.length := (List.getElem?_eq_some_iff.mp hi).1
  have hset : ∀ j other, (s.runs.set i run')[j]? = some other →
      j = i ∧ other = run' ∨ j ≠ i ∧ s.runs[j]? = some other := by
    intro j other hj
    rw [List.getElem?_set] at hj
    by_cases hij : i = j
    · subst hij
      rw [if_pos rfl, if_pos hlt] at hj
      exact .inl ⟨rfl, (Option.some.inj hj).symm⟩
    · rw [if_neg hij] at hj
      exact .inr ⟨fun hji => hij hji.symm, hj⟩
  have hone : ∀ j other, s.runs[j]? = some other → j ≠ i → ∀ jobId,
      run'.stage.taken = some jobId → other.stage.taken = some jobId →
        casefold other.stage.printerName ≠ casefold run'.stage.printerName := by
    intro j other hj hne jobId htaken hother hsame
    rcases hc.new jobId htaken with hold | hnew
    · rw [(hc.printer jobId hold).2] at hsame
      exact hne (h.alone j i other run hj hi jobId hother hold hsame)
    · exact hnew j other hj hne hother hsame
  refine ⟨?_, ?_, h.once⟩
  · intro a b r₁ r₂ ha hb jobId h₁ h₂ hsame
    rcases hset a r₁ ha with ⟨rfl, rfl⟩ | ⟨hane, hold⟩ <;>
      rcases hset b r₂ hb with ⟨rfl, rfl⟩ | ⟨hbne, hold'⟩
    · rfl
    · exact absurd hsame.symm (hone b r₂ hold' hbne jobId h₁ h₂)
    · exact absurd hsame (hone a r₁ hold hane jobId h₂ h₁)
    · exact h.alone a b r₁ r₂ hold hold' jobId h₁ h₂ hsame
  · intro n hn printer jobId hnote
    obtain ⟨j, other, hj, hkey, htaken, hprinter, hresumed, hpoint⟩ := h.taken n hn printer jobId hnote
    by_cases hji : j = i
    · subst hji
      cases hi.symm.trans hj
      obtain ⟨htaken', hname⟩ := hc.printer jobId htaken
      refine ⟨j, run', ?_, hc.key.trans hkey, htaken', ?_, hc.resumed hresumed,
        hc.resuming hresumed hpoint⟩
      · rw [List.getElem?_set_self hlt]
      · rw [hname]
        exact hprinter
    · refine ⟨j, other, ?_, hkey, htaken, hprinter, hresumed, hpoint⟩
      rw [List.getElem?_set_ne (fun hij => hji hij.symm)]
      exact hj

theorem printerName_eq (h : p'.readings.printer = p.readings.printer) :
    p'.printerName = p.printerName := by
  unfold Printing.printerName
  rw [h]

theorem Knows.isFresh (h : Knows casefold p) (htaken : p.taken = some jobId) :
    p.phase ≠ .fresh := by
  intro hphase
  have hfollows : p.point.follows = false := by
    unfold Printing.phase at hphase
    cases hp : p.point <;> rw [hp] at hphase <;> first | rfl | cases hphase
  rw [h.untaken hfollows] at htaken
  cases htaken

theorem Carries.told (r : Except Failure (Option SideEffectState)) :
    Carries casefold operationKey s i p (p.told r) := by
  obtain ⟨hsame, hreadings⟩ := told_same (p := p) r
  refine ⟨?_, ?_, ?_, ?_, ?_⟩
  · unfold Printing.key
    rw [hsame.approval, hsame.prepared]
  · exact fun jobId htaken =>
      ⟨hsame.taken.trans htaken, printerName_eq (congrArg Readings.printer hreadings)⟩
  · exact fun jobId htaken => .inl (hsame.taken.symm.trans htaken)
  · exact fun hresumed => hsame.resumed.trans hresumed
  · exact fun _ hpoint hnew => hpoint ((told_follows r).2 hnew)

theorem Carries.read (h : Knows casefold p) (halone : r = .go → AloneOk casefold s i p)
    (hr : p.read casefold r = some (p', gs)) : Carries casefold operationKey s i p p' := by
  rcases keeps_read hr with ⟨hkeeps, -⟩ | ⟨o, -, hp, rfl, -⟩
  · have hprinter : p'.readings.printer = p.readings.printer ∨ p.phase = .fresh := hkeeps.printer
    refine ⟨?_, ?_, ?_, hkeeps.resumed, ?_⟩
    · unfold Printing.key
      rw [hkeeps.approval, hkeeps.prepared]
    · intro jobId htaken
      refine ⟨?_, printerName_eq (hprinter.resolve_right (h.isFresh htaken))⟩
      rcases hkeeps.taken with hsame | ⟨_, -, htakes, -, -⟩
      · exact hsame.trans htaken
      · rw [h.untaken htakes.point] at htaken
        cases htaken
    · intro jobId htaken
      rcases hkeeps.taken with hsame | ⟨jobId', hgo, htakes, hnew, -⟩
      · exact .inl (hsame.symm.trans htaken)
      · right
        intro j other hj hne hother hname
        obtain rfl := Option.some.inj (hnew.symm.trans htaken)
        have hfresh : p.phase ≠ .fresh := by
          obtain ⟨found, job, hp, -⟩ := htakes
          unfold Printing.phase
          rw [hp]
          rintro ⟨⟩
        rw [printerName_eq (hprinter.resolve_right hfresh)] at hname
        exact halone hgo jobId' htakes j other hj hne hother hname
    · intro hresumed hpoint hnew
      rcases hkeeps.resuming hnew with hold | hold
      · exact hpoint hold
      · rw [hresumed] at hold
        cases hold
  · obtain ⟨hsame, hreadings, -, hresuming⟩ := starts_same (p := p) o
    refine ⟨?_, ?_, ?_, ?_, ?_⟩
    · unfold Printing.key
      rw [hsame.approval, hsame.prepared]
    · exact fun jobId htaken =>
        ⟨hsame.taken.trans htaken, printerName_eq (congrArg Readings.printer hreadings)⟩
    · exact fun jobId htaken => .inl (hsame.taken.symm.trans htaken)
    · exact fun hresumed => hsame.resumed.trans hresumed
    · exact fun _ _ => hresuming

/-- What is noted is controlled by the run that took it, and was not controlled before. -/
theorem Controlled.noted (h : Controlled casefold operationKey s)
    (htaken : ∀ n ∈ notes, ∀ printer jobId, n.2 = .control printer jobId →
      ∃ (i : ℕ) (run : Workflow.Run Printing), s.runs[i]? = some run ∧
        run.stage.key operationKey = n.1 ∧ run.stage.taken = some jobId ∧
          printer = casefold run.stage.printerName ∧ run.stage.resumed = true ∧
            run.stage.point ≠ .resuming)
    (honce : ((s.log ++ notes).filterMap fun n => n.2.controlled).Nodup) :
    Controlled casefold operationKey { s with log := s.log ++ notes } := by
  refine ⟨h.alone, fun n hn printer jobId hnote => ?_, honce⟩
  rcases List.mem_append.mp hn with hn | hn
  · exact h.taken n hn printer jobId hnote
  · exact htaken n hn printer jobId hnote

theorem mem_controlled {printer : PyStr}
    (h : (printer, jobId) ∈ notes.filterMap fun n => n.2.controlled) :
    ∃ n ∈ notes, n.2 = .control printer jobId := by
  obtain ⟨n, hn, hcontrolled⟩ := List.mem_filterMap.mp h
  refine ⟨n, hn, ?_⟩
  cases hnote : n.2 with
  | started p =>
    rw [hnote] at hcontrolled
    cases hcontrolled
  | control printer' jobId' =>
    rw [hnote] at hcontrolled
    cases hcontrolled
    rfl

theorem controlled_of_reach
    (hr : (workflowMachine F plat builtins (submits casefold operationKey)).Reach (Meets casefold) s) :
    Controlled casefold operationKey s := by
  apply Machine.Reach.invariant_of (J := Controlled casefold operationKey)
    (fun _ hr => knows_of_reach hr) ?_ ?_ hr
  · rintro s₀ ⟨-, -, -, hruns, hlog⟩
    refine ⟨?_, ?_, by simp [hlog]⟩
    · intro i j run run' hi
      simp [hruns] at hi
    · intro n hn
      rw [hlog] at hn
      cases hn
  · intro s₁ a s₂ hknows h _ hok hs
    cases Workflow.step_turn hs with
    | start => exact ⟨h.alone, h.taken, h.once⟩
    | die p =>
      have hruns : ∀ (j : ℕ) run', (s₁.runs.map fun run =>
          { run with alive := run.alive && run.owner ≠ p })[j]? = some run' →
            ∃ run, s₁.runs[j]? = some run ∧ run'.stage = run.stage := by
        intro j run' hj
        rw [List.getElem?_map] at hj
        obtain ⟨run, hrun, rfl⟩ := Option.map_eq_some_iff.mp hj
        exact ⟨run, hrun, rfl⟩
      refine ⟨?_, ?_, h.once⟩
      · intro i j run run' hi hj jobId htaken htaken' hsame
        obtain ⟨run₀, hi₀, heq⟩ := hruns i run hi
        obtain ⟨run₁, hj₀, heq'⟩ := hruns j run' hj
        rw [heq] at htaken hsame
        rw [heq'] at htaken' hsame
        exact h.alone i j run₀ run₁ hi₀ hj₀ jobId htaken htaken' hsame
      · intro n hn printer jobId hnote
        obtain ⟨i, run, hi, hrest⟩ := h.taken n hn printer jobId hnote
        refine ⟨i, { run with alive := run.alive && run.owner ≠ p }, ?_, hrest⟩
        rw [List.getElem?_map, hi]
        rfl
    | enter owner psutil p hfirst =>
      have hnone : p.taken = none := by
        have hknown : Knows casefold p := Kept.first hfirst
        exact (hknown.kept.early (by
          have hp : p.isFirst = true := hfirst
          simp only [Printing.isFirst, Bool.and_eq_true, decide_eq_true_eq] at hp
          rw [hp.1.1.1.1.1.1.1.1.1.1.1.1.1]
          rfl)).2.2
      have hold : ∀ (j : ℕ) run', (s₁.runs ++ [⟨owner, psutil, true, p⟩])[j]? = some run' →
          ∀ jobId, run'.stage.taken = some jobId → s₁.runs[j]? = some run' := by
        intro j run' hj jobId htaken
        rw [List.getElem?_append] at hj
        split at hj
        · exact hj
        · obtain rfl := List.mem_singleton.mp (List.mem_of_getElem? hj)
          have hfirst : p.taken = some jobId := htaken
          rw [hnone] at hfirst
          cases hfirst
      refine ⟨?_, ?_, h.once⟩
      · intro i j run run' hi hj jobId htaken htaken' hsame
        exact h.alone i j run run' (hold i run hi jobId htaken) (hold j run' hj jobId htaken') jobId
          htaken htaken' hsame
      · intro n hn printer jobId hnote
        obtain ⟨i, run, hi, hrest⟩ := h.taken n hn printer jobId hnote
        refine ⟨i, run, ?_, hrest⟩
        rw [List.getElem?_append_left (List.getElem?_eq_some_iff.mp hi).1]
        exact hi
    | ask i fate now hi => exact h.set hi (.told _)
    | @input i r run p gs hi halive hread =>
      have hknow := hknows run (List.mem_of_getElem? hi)
      obtain ⟨-, -, hgo⟩ := hok run hi
      have hlt : i < s₁.runs.length := (List.getElem?_eq_some_iff.mp hi).1
      have hnew : (s₁.runs.set i { run with stage := p })[i]? = some { run with stage := p } :=
        List.getElem?_set_self hlt
      have hcarries : Carries casefold operationKey s₁ i run.stage p :=
        .read hknow (fun hr => (hgo hr).2) hread
      have hset : Controlled casefold operationKey
          { s₁ with runs := s₁.runs.set i { run with stage := p } } := h.set hi hcarries
      rcases keeps_read hread with ⟨hkeeps, rfl | ⟨printer, jobId, rfl, hcontrol⟩⟩ | ⟨o, -, -, -, rfl⟩
      · refine hset.noted (fun n hn => by cases hn) ?_
        rw [List.map_nil, List.append_nil]
        exact h.once
      · obtain ⟨state, hprinter, rfl⟩ := hcontrol.printer
        have hname : run.stage.printerName = state.name := by
          unfold Printing.printerName
          rw [hprinter]
          rfl
        obtain ⟨htaken, hsame⟩ := hcarries.printer jobId hcontrol.taken
        refine hset.noted (fun n hn => ?_) ?_
        · cases List.mem_singleton.mp hn
          intro printer' jobId' hnote
          cases hnote
          refine ⟨i, _, hnew, hcarries.key, htaken, ?_, ?_, hcontrol.gone⟩
          · show casefold state.name = casefold p.printerName
            rw [hsame, hname]
          · exact hkeeps.resumed (hknow.kept.resuming hcontrol.resuming)
        · rw [List.filterMap_append]
          refine List.nodup_append.mpr ⟨h.once, List.nodup_singleton _, ?_⟩
          rintro job hjob job' hjob' rfl
          cases List.mem_singleton.mp hjob'
          -- the run that controlled it before is the same, and it is not resuming
          obtain ⟨n, hn, hnote⟩ := mem_controlled hjob
          obtain ⟨j, other, hj, -, hother, hprinter', -, hpoint⟩ := h.taken n hn _ _ hnote
          have hji : j = i := h.alone j i other run hj hi jobId hother hcontrol.taken (by
            rw [← hprinter', hname])
          subst hji
          cases hi.symm.trans hj
          exact hpoint hcontrol.resuming
      · refine hset.noted (fun n hn printer jobId hnote => ?_) ?_
        · cases List.mem_singleton.mp hn
          cases hnote
        · rw [List.filterMap_append]
          refine List.nodup_append.mpr ⟨h.once, List.nodup_nil, ?_⟩
          intro job _ job' hjob'
          cases hjob'
    | other => exact ⟨h.alone, h.taken, h.once⟩

theorem stands_of
    (h : Workflow.Driven F plat builtins (submits casefold operationKey) Printing.phase s)
    (hrun : run ∈ s.runs) {spent : Bool} {states : List SideEffectState}
    (hphase : run.stage.phase = .opened spent states) :
    ∃ state, s.world.state F plat (run.stage.key operationKey) = some state ∧
      Workflow.Stands run.alive states state :=
  (h.runs run hrun).states spent states hphase

theorem stands_one {alive : Bool} {given state : SideEffectState} (hgiven : given ≠ .uncertain)
    (h : Workflow.Stands alive [given] state) (hlive : alive = true ∨ given ≠ .submitting) :
    state = given := by
  rcases h with (hmem | ⟨-, hmem⟩) | ⟨hdead, hmem, -⟩
  · exact List.mem_singleton.mp hmem
  · exact absurd (List.mem_singleton.mp hmem).symm hgiven
  · rcases hlive with hlive | hne
    · rw [hdead] at hlive
      cases hlive
    · exact absurd (List.mem_singleton.mp hmem).symm hne

theorem keys_started (h : ∀ n ∈ notes, ∀ p, n.2 = .started p → n.1 = p.key operationKey) :
    (notes.filter fun n => n.2.isStarted).map Prod.fst =
      (notes.filterMap fun n => n.2.approved).map fun a => operationKey a.1 a.2 := by
  induction notes with
  | nil => rfl
  | cons n rest ih =>
    have hrest := ih fun n' hn' => h n' (List.mem_cons_of_mem n hn')
    cases hnote : n.2 with
    | started p =>
      have hkey := h n List.mem_cons_self p hnote
      rw [List.filter_cons_of_pos (by rw [hnote]; rfl), List.map_cons, hrest, hkey,
        List.filterMap_cons_some (by rw [hnote]; rfl), List.map_cons]
      rfl
    | control printer jobId =>
      rw [List.filter_cons_of_neg (by rw [hnote]; exact Bool.false_ne_true), hrest,
        List.filterMap_cons_none (by rw [hnote]; rfl)]

/-- An approved print is started once and reported honestly. -/
theorem started_once
    (hr : (workflowMachine F plat builtins (submits casefold operationKey)).Reach (Meets casefold) s) :
    StartedOnce casefold operationKey F plat s := by
  have hdriven := Workflow.driven_of_reach (submits_lawful operationKey) hr
  have hknows := knows_of_reach hr
  have hcontrolled := controlled_of_reach hr
  have hnotes := Workflow.notes_invariant (P := fun key (note : Note) => ∀ p, note = .started p →
    Checked casefold 4 p ∧ key = p.key operationKey) (fun s hr => knows_of_reach hr) ?_ hr
  · refine ⟨?_, fun n hn p hp => (hnotes n hn p hp).1, ?_, ?_, ?_, ?_, hcontrolled.once, ?_, ?_⟩
    · have honce : ((s.log.filter fun n => n.2.isStarted).map Prod.fst).Nodup := hdriven.once
      rw [keys_started fun n hn p hp => (hnotes n hn p hp).2] at honce
      exact honce.of_map _
    · intro run hrun halive hp a ha hcontent hopen
      have hkept := (hknows run hrun).kept
      have hphase : run.stage.phase = .opened false [.submitting] := by
        unfold Printing.phase
        rw [hp, hkept.submitting (.inr hp)]
      obtain ⟨own, hown, hkey, -, hsame⟩ := (hdriven.runs run hrun).attempted _ _ hphase
      obtain ⟨state, hstate, hstands⟩ := stands_of hdriven hrun hphase
      obtain rfl := stands_one (by decide) hstands (.inl halive)
      have hownOpen : s.world.open F plat own = true := by
        unfold Workflow.World.open
        rw [hkey, show (submits casefold operationKey).operationKey run.stage =
          run.stage.key operationKey from rfl, hstate]
        rfl
      have hcontents : a.content = own.content := hcontent.trans hsame.symm
      obtain ⟨hkind, hparts⟩ := Prod.mk.inj hcontents
      have heq : a = own :=
        hdriven.exclusive a ha own hown (by rw [hkind, hparts]) hopen hownOpen
      rw [heq]
      exact hkey
    · intro run hrun hasked hstate
      have hkept := (hknows run hrun).kept
      have hspent : run.stage.point.isSpent = true := by
        cases hearly : run.stage.point.isEarly with
        | false =>
          unfold Point.isSpent
          rw [hearly]
          rfl
        | true =>
          rw [(hkept.early hearly).1] at hasked
          cases hasked
      obtain ⟨state, hstate', hstands⟩ := stands_of hdriven hrun (phase_of_spent hspent)
      cases hstate'.symm.trans hstate
      have hmem : SideEffectState.notSubmitted ∈ run.stage.states := by
        rcases hstands with (hmem | ⟨hne, -⟩) | ⟨-, -, hne | hne⟩
        · exact hmem
        all_goals cases hne
      rcases hkept.notSubmitted hmem with hnot | hlaunched | hreason
      · rw [hasked] at hnot
        cases hnot
      · exact .inl hlaunched
      · cases hworker : run.stage.worker with
        | none =>
          rw [hworker] at hreason
          cases hreason
        | some job =>
          rw [hworker] at hreason
          exact .inr ⟨job, rfl, hreason, (hkept.worker job hworker).unsubmitted hreason⟩
    · intro run hrun report hp hcertain
      have hkept := (hknows run hrun).kept
      have hphase : run.stage.phase = .opened true [.confirmed] := by
        unfold Printing.phase
        rw [hp, hkept.confirmed (by rw [hp]; exact decide_eq_true hcertain)]
        rfl
      obtain ⟨state, hstate, hstands⟩ := stands_of hdriven hrun hphase
      rw [hstate, stands_one (by decide) hstands (.inr (by decide))]
    · intro run hrun hroute jobId hjob
      have hkept := (hknows run hrun).kept
      have hpublished : run.stage.worker.bind RenderedJob.jobId = some jobId →
          run.stage.worker.bind RenderedJob.startDoc = some jobId := by
        intro hid
        obtain ⟨job, hworker, hid⟩ := Option.bind_eq_some_iff.mp hid
        rw [hworker]
        exact (hkept.worker job hworker).published jobId hid
      rcases hjob with htaken | hreports
      · exact hkept.own hroute jobId htaken
      · exact (hkept.reported jobId hreports).elim (hkept.own hroute jobId) hpublished
    · intro n hn printer jobId hnote
      obtain ⟨i, run, hi, hkey, htaken, hprinter, -⟩ := hcontrolled.taken n hn printer jobId hnote
      exact ⟨run, List.mem_of_getElem? hi, hkey, htaken, hprinter⟩
    · intro run hrun hend
      have hkept := (hknows run hrun).kept
      obtain ⟨hhandler, hwatcher⟩ := hkept.not_held rfl
      cases hp : run.stage.point <;> rw [hp] at hend hhandler hwatcher <;>
        first | cases hend; done | exact ⟨hhandler rfl, hwatcher rfl⟩
  · intro p r p' gs h hread g hg q hq
    rcases keeps_read hread with ⟨-, rfl | ⟨printer, jobId, rfl, -⟩⟩ | ⟨o, -, hp, -, rfl⟩
    · cases hg
    · cases List.mem_singleton.mp hg
      cases hq
    · cases List.mem_singleton.mp hg
      cases hq
      exact ⟨h.kept.checked.mono (.inr (by rw [hp]; decide)), rfl⟩

end
/-! A print that is reported, a watcher that is left open, and a job that is not the renderer's. -/

def sampleMachine : Machine (Sys Printing Note) (Step WholeFloat Printing Reading) :=
  workflowMachine WholeFloat Journal.cpython Workflow.sampleBuiltins
    (submits id fun approvalId digest => approvalId ++ digest)

def samplePrinter : PrinterState := ⟨py "P", py "o", py "d", 0, 0⟩

def samplePrint (route : Route) : Printing where
  prepared := ⟨py "f", py "f", py "s", 1, samplePrinter, py "h", py "p", route⟩
  approval := ⟨py "a", py "p", .requireTypedSecret, none⟩
  readings := ⟨none, none, none⟩
  user := []
  before := []
  watcher := .none
  handler := .none
  worker := none
  exactId := none
  handlerDone := false
  taken := none
  status := 0
  resumed := false
  asked := false
  notLaunched := false
  states := []
  point := .entry

def sampleStart : Sys Printing Note := ⟨Workflow.sampleWorld, [], []⟩

theorem sampleStart_start : sampleMachine.start sampleStart :=
  ⟨rfl, by decide, rfl, rfl, rfl⟩

/-- Nothing was stopped, and the approval is valid. -/
def clear : Reading := .checkpoint false true []

/-- A submit up to the first `guard.checkpoint("submit")`. -/
def prepared (route : Route) (watch : Bool) : List (Step WholeFloat Printing Reading) :=
  [.enter Workflow.sampleProcess true (samplePrint route), .input 0 (.entry true), .input 0 clear,
    .input 0 (.file (some (py "s", 1))), .input 0 clear, .input 0 (.printers [samplePrinter]),
    .input 0 (.handler (some (py "h"))), .input 0 (.user (py "u")), .input 0 (.queue []),
    .input 0 (.watch watch)]

def foundOne : List (Step WholeFloat Printing Reading) :=
  [.input 0 clear, .input 0 (.active true), .ask 0 Workflow.working ⟨0⟩, .input 0 clear,
    .input 0 (.started .returns), .input 0 (.jobs [] [⟨7, py "f", py "u", 0x80⟩]), .input 0 .go]

def isRaised : Reading → Bool
  | .raised _ => true
  | _ => false

/-- The condition, where it can be computed: there is one run, of the `printto` route, with no
watcher. -/
def meetsCheck (s : Sys Printing Note) : Step WholeFloat Printing Reading → Bool
  | .input _ r => decide (s.runs.length = 1) && !isRaised r &&
    s.runs.all fun run => run.stage.prepared.route = .printto && run.stage.watcher = .none
  | _ => true

theorem meets_of_check (s : Sys Printing Note) (a : Step WholeFloat Printing Reading)
    (h : meetsCheck s a = true) : Meets id s a := by
  cases a with
  | input i r =>
    intro run hi
    simp only [meetsCheck, Bool.and_eq_true, decide_eq_true_eq, Bool.not_eq_true',
      List.all_eq_true] at h
    obtain ⟨⟨hlength, hraised⟩, hall⟩ := h
    obtain ⟨hroute, hwatcher⟩ := hall run (List.mem_of_getElem? hi)
    have hclosed : run.stage.watcher ≠ .held := by
      rw [hwatcher]
      rintro ⟨⟩
    refine ⟨fun _ hheld => absurd hheld hclosed, ?_, fun _ => ⟨?_, ?_⟩⟩
    · rintro name rfl
      cases hraised
    · intro found job _ hrenderer
      rw [hroute] at hrenderer
      cases hrenderer
    · intro jobId _ j other hj hne
      have hlt := (List.getElem?_eq_some_iff.mp hi).1
      have hlt' := (List.getElem?_eq_some_iff.mp hj).1
      omega
  | _ => trivial

/-- A file is printed, and its job is found. -/
theorem started_once_sample : ∃ s : Sys Printing Note, s.log.length = 1 ∧
    StartedOnce id (fun approvalId digest => approvalId ++ digest) WholeFloat Journal.cpython s := by
  have hexec : ((sampleMachine.execChecked meetsCheck sampleStart
      (prepared .printto false ++ foundOne)).any fun s =>
      s.log.length = 1 && s.runs.all fun run => run.stage.taken = some 7) = true := by decide +kernel
  obtain ⟨s, hs, hall⟩ := (Option.any_eq_true _ _).mp hexec
  simp only [Bool.and_eq_true, decide_eq_true_eq] at hall
  exact ⟨s, hall.1, started_once
    (Machine.Reach.execChecked meets_of_check (.start sampleStart_start) hs)⟩

/-- Stop at the first `guard.checkpoint("submit")` leaves the watcher open. And the renderer's route
takes another job before the number of its own is set. -/
theorem left_open_and_not_own :
    (¬ ∀ s : Sys Printing Note, sampleMachine.Reachable s → ∀ run ∈ s.runs,
      run.stage.point.isEnd = true → run.stage.handler ≠ .held ∧ run.stage.watcher ≠ .held) ∧
    ¬ ∀ s : Sys Printing Note, sampleMachine.Reachable s → ∀ run ∈ s.runs,
      run.stage.prepared.route = .renderer → ∀ jobId,
        run.stage.taken = some jobId ∨ run.stage.point.reports = some jobId →
          run.stage.worker.bind RenderedJob.startDoc = some jobId := by
  constructor
  · intro h
    have hexec : ((sampleMachine.exec sampleStart (prepared .printto true ++
        [.input 0 (.checkpoint true true [])])).any fun s => s.runs.any fun run =>
          run.stage.point.isEnd && run.stage.watcher = .held) = true := by decide +kernel
    obtain ⟨s, hs, hany⟩ := (Option.any_eq_true _ _).mp hexec
    obtain ⟨run, hrun, hall⟩ := List.any_eq_true.mp hany
    simp only [Bool.and_eq_true, decide_eq_true_eq] at hall
    exact (h s (Machine.reachable_exec sampleStart_start hs) run hrun hall.1).2 hall.2
  · intro h
    have hexec : ((sampleMachine.exec sampleStart (prepared .renderer false ++ foundOne)).any
        fun s => s.runs.any fun run => run.stage.prepared.route = .renderer &&
          run.stage.taken = some 7 && (run.stage.worker.bind RenderedJob.startDoc).isNone) = true := by
      decide +kernel
    obtain ⟨s, hs, hany⟩ := (Option.any_eq_true _ _).mp hexec
    obtain ⟨run, hrun, hall⟩ := List.any_eq_true.mp hany
    simp only [Bool.and_eq_true, decide_eq_true_eq, Option.isNone_iff_eq_none] at hall
    have hown := h s (Machine.reachable_exec sampleStart_start hs) run hrun hall.1.1 7
      (.inl hall.1.2)
    rw [hall.2] at hown
    cases hown

end QronosAgent.Print

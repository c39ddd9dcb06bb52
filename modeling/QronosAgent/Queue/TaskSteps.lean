import QronosAgent.Lib.Machine
import QronosAgent.Queue.Pass

/-! Runs of the scheduler: every operation and every tick is one step, and each run that was
handed out reports once, at any later time. -/
namespace QronosAgent.Queue
open Lib

inductive TaskEvent where
  | admitted
  | pressed
  | floorSaid (refused : Bool)
  | paused
  | resumed
  | deferred
  /-- A tick considered the task and did not start it. -/
  | passedOver
  | started (level : LoadLevel)

inductive Op where
  | submit (taskId : TaskId) (weight : Weight) (summary : PyStr) (requiredVramMb : ℤ)
  | restore (taskId : TaskId) (weight : Weight) (summary : PyStr) (requiredVramMb : ℤ)
    (state : TaskState) (queuedAt : Seconds) (attempts : ℤ) (detail : PyStr)
  | pauseTask (taskId : TaskId)
  | resumeTask (taskId : TaskId)
  | override (taskId : TaskId) (sample : LoadSample)
  | cancel (taskId : TaskId) (reply : Reply)
  | interruptRunning (reply : TaskId → Reply)
  | setPaused (paused : Bool)
  | setRuntimePaused (paused : Bool)
  | tick (reading : Reading)
  | report (taskId : TaskId) (result : WorkResult)

/-- The memory a newly accepted task asks for. -/
def Op.requiredVramMb? : Op → Option ℤ
  | .submit _ _ _ vram | .restore _ _ _ vram _ _ _ _ => some vram
  | _ => none

abbrev Log := List (TaskId × TaskEvent)

def Log.about (log : Log) (taskId : TaskId) : List TaskEvent :=
  (log.filter fun p => p.1 = taskId).map Prod.snd

namespace Judgement

def considered : Judgement → Bool
  | .held | .refused _ | .loaded | .spent | .admissible => true
  | .noEntry | .deferred | .invalid _ => false

def floorSaid : Judgement → List TaskEvent
  | .refused _ => [.floorSaid true]
  | .loaded | .spent | .admissible => [.floorSaid false]
  | .held | .noEntry | .deferred | .invalid _ => []

end Judgement

namespace Scheduler

def lookEvents (level : LoadLevel) (handed : Option TaskId) (p : QueuedTask × Judgement) :
    List TaskEvent :=
  (if handed = some p.1.taskId then [.started level]
    else if p.2.considered then [.passedOver] else []) ++ p.2.floorSaid

def tickLog (level : LoadLevel) (res : TickResult) : Log :=
  res.looked.flatMap fun p => (lookEvents level res.handed p).map (p.1.taskId, ·)

def noting (s : Scheduler) (events : Log) : Except QueueError (Scheduler × Bool) → Scheduler × Log
  | .ok (s, true) => (s, events)
  | .ok (s, false) => (s, [])
  | .error _ => (s, [])

def overrideLog (s : Scheduler) (taskId : TaskId) : Except QueueError (Scheduler × Bool) → Log
  | .ok (_, true) => [(taskId, .pressed), (taskId, .floorSaid false)]
  | .ok (_, false) =>
    match s.overridable? taskId with
    | .ok (some _) => [(taskId, .floorSaid true)]
    | _ => []
  | .error _ => []

def reportLog (s : Scheduler) (taskId : TaskId) (result : WorkResult) : Log :=
  match s.entryOf taskId, s.task? taskId with
  | some entry, some task =>
    if task.state = .running ∧ result.outcome = .deferred then
      (taskId, .deferred) :: if entry.preempted.isSome then [(taskId, .floorSaid true)] else []
    else []
  | _, _ => []

def perform (cfg : Settings) (s : Scheduler) (now : Seconds) : Op → Scheduler × Log
  | .submit taskId weight summary vram =>
    s.noting [(taskId, .admitted)] ((s.submit now taskId weight summary vram).map (·, true))
  | .restore taskId weight summary vram state queuedAt attempts detail =>
    s.noting [(taskId, .admitted)]
      ((s.restore taskId weight summary vram state queuedAt attempts detail).map (·, true))
  | .pauseTask taskId => s.noting [(taskId, .paused)] (s.pauseTask taskId)
  | .resumeTask taskId => s.noting [(taskId, .resumed)] (s.resumeTask taskId)
  | .override taskId sample =>
    ((s.noting [] (s.override cfg taskId sample)).1,
      s.overrideLog taskId (s.override cfg taskId sample))
  | .cancel taskId reply => s.noting [] (s.cancel now taskId reply)
  | .interruptRunning reply => (s.interruptRunning reply, [])
  | .setPaused paused => (s.setPaused paused, [])
  | .setRuntimePaused paused => (s.setRuntimePaused paused, [])
  | .tick reading => ((s.tick cfg now reading).sched, tickLog reading.level (s.tick cfg now reading))
  | .report taskId result =>
    ((s.noting [] ((s.reportOutcome cfg now taskId result).map (·, true))).1,
      s.reportLog taskId result)

end Scheduler

/-- A scheduler with its clock, the runs handed out and not yet reported, and the log. -/
structure Sys where
  sched : Scheduler
  now : Seconds
  handed : List TaskId
  log : Log

namespace Sys

def due (s : Sys) : Op → Bool
  | .report taskId _ => taskId ∈ s.handed
  | _ => true

def handedAfter (cfg : Settings) (s : Sys) (now : Seconds) : Op → List TaskId
  | .tick reading => (s.sched.tick cfg now reading).handed.toList ++ s.handed
  | .report taskId _ => s.handed.erase taskId
  | _ => s.handed

def step (cfg : Settings) (s : Sys) (a : Seconds × Op) : Option Sys :=
  if s.now ≤ a.1 ∧ s.due a.2 then
    some ⟨(s.sched.perform cfg a.1 a.2).1, a.1, s.handedAfter cfg a.1 a.2,
      (s.sched.perform cfg a.1 a.2).2 ++ s.log⟩
  else none

end Sys

def schedulerMachine (cfg : Settings) : Machine Sys (Seconds × Op) where
  start s := s.sched = .empty ∧ s.handed = [] ∧ s.log = []
  step := Sys.step cfg

/-! What one step of a run can do to one task and its entry. The invariants of the scheduler are
read off these rules, one task at a time. -/
open Scheduler

/-- `TaskStep cfg now op s l t e evs`: the operation takes task `l` of `s` and its entry to `t` and
`e` and adds `evs` to what is known of its past. -/
inductive TaskStep (cfg : Settings) (now : Seconds) (op : Op) (s : Scheduler) (l : TaskId) :
    Option QueuedTask → Option Entry → List TaskEvent → Prop
  | same {e : Option Entry} : e.map Entry.core = (s.entryOf l).map Entry.core →
    TaskStep cfg now op s l (s.task? l) e []
  | admitted {t : QueuedTask} {vram : ℤ} {hold : HoldReason} {detail : PyStr} :
    s.task? l = none → t.state.restorable = true →
    op.requiredVramMb? = some vram →
    TaskStep cfg now op s l (some t) (some (.fresh vram hold detail)) [.admitted]
  | paused {t : QueuedTask} : op = .pauseTask l → s.task? l = some t → t.state = .queued →
    TaskStep cfg now op s l (some (t.moveTo .paused)) ((s.entryOf l).map Entry.pausedByUser)
      [.paused]
  | resumed {t : QueuedTask} : op = .resumeTask l → s.task? l = some t →
    t.state = .paused ∨ t.state = .interrupted →
    TaskStep cfg now op s l (some ((t.moveTo .queued).withAttempts fun _ => 0))
      ((s.entryOf l).map Entry.resumed) [.resumed]
  | overridden {t : QueuedTask} {e : Entry} {v : FloorVerdict} {sample : LoadSample} :
    op = .override l sample → s.task? l = some t → t.state = .queued → s.entryOf l = some e →
    checkFloor sample cfg.floor e.floorRefusal.isSome e.requiredVramMb = .ok v →
    v.passed = true →
    TaskStep cfg now op s l (some t) ((s.entryOf l).map Entry.overridden)
      [.pressed, .floorSaid false]
  | notOverridden {t : QueuedTask} {e : Entry} {v : FloorVerdict} {sample : LoadSample} :
    op = .override l sample → s.task? l = some t → t.state = .queued → s.entryOf l = some e →
    checkFloor sample cfg.floor e.floorRefusal.isSome e.requiredVramMb = .ok v →
    v.passed = false →
    TaskStep cfg now op s l (some t) ((s.entryOf l).map (Entry.notOverridden v)) [.floorSaid true]
  | cancelled {t : QueuedTask} {reply : Reply} : op = .cancel l reply → s.task? l = some t →
    t.state.terminal = false →
    TaskStep cfg now op s l (some (t.moveTo .cancelled))
      ((s.entryOf l).map (if l ∈ s.inflight then id else Entry.finished now)) []
  | interrupted {t : QueuedTask} : s.task? l = some t → t.state = .running →
    TaskStep cfg now op s l (some (t.moveTo .interrupted))
      ((s.entryOf l).map Entry.closedWhileRunning) []
  | late {t : QueuedTask} {e : Entry} {result : WorkResult} : op = .report l result →
    s.task? l = some t → t.state ≠ .running → s.entryOf l = some e →
    TaskStep cfg now op s l (some t)
      (((s.entryOf l).map Entry.stopConsumed).map (Entry.finished now)) []
  | stopped {t : QueuedTask} {e : Entry} {v : FloorVerdict} {result : WorkResult} :
    op = .report l result → s.task? l = some t → t.state = .running → s.entryOf l = some e →
    TaskStep cfg now op s l (some ((t.moveTo .queued).withAttempts (· - 1)))
      (((s.entryOf l).map Entry.stopConsumed).map (Entry.stoppedByFloor v))
      [.deferred, .floorSaid true]
  | deferred {t : QueuedTask} {e : Entry} {retryAt : Seconds} {attempts : ℕ → ℕ}
    {result : WorkResult} :
    op = .report l result → s.task? l = some t → t.state = .running → s.entryOf l = some e →
    TaskStep cfg now op s l (some ((t.moveTo .queued).withAttempts attempts))
      (((s.entryOf l).map Entry.stopConsumed).map (Entry.deferred retryAt result)) [.deferred]
  | ended {t : QueuedTask} {e : Entry} {f : Entry → Entry} {state : TaskState}
    {result : WorkResult} :
    op = .report l result → s.task? l = some t → t.state = .running → s.entryOf l = some e →
    state.terminal = true → (∀ e, (f e).core = (e.finished now).core) →
    TaskStep cfg now op s l (some (t.moveTo state))
      (((s.entryOf l).map Entry.stopConsumed).map f) []
  | looked {r : Reading} {p : QueuedTask × Judgement} {handed : Option TaskId}
    {e : Option Entry} : op = .tick r → p.1.taskId = l → s.task? l = some p.1 →
    p.1.state = .queued → p ∈ (s.tick cfg now r).looked → handed = (s.tick cfg now r).handed →
    e.map Entry.core = ((s.entryOf l).filter fun e => !s.stale cfg now l e).map
      (fun e => (entryAfter r.level now handed p e).core) →
    TaskStep cfg now op s l (some (taskAfter handed p)) e (lookEvents r.level handed p)
  /-- A tick did not look at the task; housekeeping may have forgotten it. -/
  | kept {r : Reading} {t : Option QueuedTask} {e : Option Entry} : op = .tick r →
    (∀ u, t = some u → s.task? l = some u) →
    (∀ u, s.task? l = some u → u.finished = false → t = some u) →
    e.map Entry.core = ((s.entryOf l).filter fun e => !s.stale cfg now l e).map Entry.core →
    TaskStep cfg now op s l t e []

namespace Scheduler
variable {cfg : Settings} {s s' : Scheduler} {now : Seconds} {op : Op} {taskId l : TaskId}

/-- What an operation leaves of a task, and what it adds to its past. -/
def Steps (cfg : Settings) (now : Seconds) (op : Op) (s : Scheduler) (out : Scheduler × Log) :
    Prop :=
  ∀ l, TaskStep cfg now op s l (out.1.task? l) (out.1.entryOf l) (Log.about out.2 l)

theorem steps_same (log : Log) (hlog : ∀ l, Log.about log l = []) : Steps cfg now op s (s, log) := by
  intro l
  rw [hlog]
  exact .same rfl

theorem about_nil : Log.about [] l = [] := rfl

theorem about_self {e : TaskEvent} : Log.about [(l, e)] l = [e] := by simp [Log.about]

theorem about_other {log : Log} (h : ∀ p ∈ log, p.1 ≠ l) : Log.about log l = [] := by
  rw [Log.about, List.filter_eq_nil_iff.mpr (fun p hp => by simpa using h p hp)]
  rfl

theorem steps_noting_map {x : Except QueueError Scheduler} {log : Log}
    (h : ∀ s', x = .ok s' → Steps cfg now op s (s', log)) :
    Steps cfg now op s (s.noting log (x.map (·, true))) := by
  cases x with
  | error e => exact steps_same _ fun _ => rfl
  | ok s' => exact h s' rfl

theorem steps_noting {x : Except QueueError (Scheduler × Bool)} {log : Log}
    (h : ∀ s' b, x = .ok (s', b) → Steps cfg now op s (s', if b then log else [])) :
    Steps cfg now op s (s.noting log x) := by
  cases x with
  | error e => exact steps_same _ fun _ => rfl
  | ok p =>
    obtain ⟨s', b⟩ := p
    cases b with
    | true => exact h s' true rfl
    | false => exact h s' false rfl

/-- An operation on one task leaves the others alone. -/
theorem steps_of_one (taskId : TaskId) {log : Log} (hlog : ∀ p ∈ log, p.1 = taskId)
    (hother : ∀ l, l ≠ taskId → s'.task? l = s.task? l ∧ s'.entryOf l = s.entryOf l)
    (hself : TaskStep cfg now op s taskId (s'.task? taskId) (s'.entryOf taskId)
      (Log.about log taskId)) : Steps cfg now op s (s', log) := by
  intro l
  by_cases hl : l = taskId
  · rw [hl]
    exact hself
  · rw [about_other fun p hp h => hl (h.symm.trans (hlog p hp)), (hother l hl).1, (hother l hl).2]
    exact .same rfl

theorem moved_other {state : TaskState} {f : Entry → Entry} (h : l ≠ taskId) :
    (s.moved taskId state f).task? l = s.task? l ∧
      (s.moved taskId state f).entryOf l = s.entryOf l := by
  rw [task?_moved, entryOf_moved, if_neg h, if_neg h]
  exact ⟨rfl, rfl⟩

theorem movedBack_other {attempts : ℕ → ℕ} {f : Entry → Entry} (h : l ≠ taskId) :
    (s.movedBack taskId attempts f).task? l = s.task? l ∧
      (s.movedBack taskId attempts f).entryOf l = s.entryOf l := by
  rw [task?_movedBack, entryOf_movedBack, if_neg h, if_neg h]
  exact ⟨rfl, rfl⟩

theorem submit_steps {weight : Weight} {summary : PyStr} {vram : ℤ}
    (h : s.submit now taskId weight summary vram = .ok s') :
    Steps cfg now (.submit taskId weight summary vram) s (s', [(taskId, .admitted)]) := by
  obtain ⟨hnew, _, _, ⟨e, rfl, hentry⟩, t, hst, _, htask⟩ := submit_ok h
  apply steps_of_one taskId (by simp)
  · intro l hl
    rw [htask, hentry, if_neg hl, if_neg hl]
    exact ⟨rfl, rfl⟩
  · rw [htask, hentry, if_pos rfl, if_pos rfl, about_self]
    exact .admitted hnew (by rw [hst]; rfl) rfl

theorem restore_steps {weight : Weight} {summary detail : PyStr} {vram attempts : ℤ}
    {state : TaskState} {queuedAt : Seconds}
    (h : s.restore taskId weight summary vram state queuedAt attempts detail = .ok s') :
    Steps cfg now (.restore taskId weight summary vram state queuedAt attempts detail) s
      (s', [(taskId, .admitted)]) := by
  obtain ⟨hnew, _, _, hstate, ⟨hold, text, hentry⟩, t, hst, _, htask⟩ := restore_ok h
  apply steps_of_one taskId (by simp)
  · intro l hl
    rw [htask, hentry, if_neg hl, if_neg hl]
    exact ⟨rfl, rfl⟩
  · rw [htask, hentry, if_pos rfl, if_pos rfl, about_self]
    exact .admitted hnew (by rw [hst]; exact hstate) rfl

theorem pauseTask_steps {b : Bool} (h : s.pauseTask taskId = .ok (s', b)) :
    Steps cfg now (.pauseTask taskId) s (s', if b then [(taskId, .paused)] else []) := by
  rcases pauseTask_ok h with ⟨rfl, rfl⟩ | ⟨rfl, t, ht, hst, rfl⟩
  · exact steps_same _ fun _ => rfl
  · apply steps_of_one taskId (by simp) (fun l hl => moved_other hl)
    rw [task?_moved, entryOf_moved, if_pos rfl, if_pos rfl, if_pos rfl, about_self, ht]
    exact .paused rfl ht hst

theorem resumeTask_steps {b : Bool} (h : s.resumeTask taskId = .ok (s', b)) :
    Steps cfg now (.resumeTask taskId) s (s', if b then [(taskId, .resumed)] else []) := by
  rcases resumeTask_ok h with ⟨rfl, rfl⟩ | ⟨rfl, t, ht, hst, rfl⟩
  · exact steps_same _ fun _ => rfl
  · apply steps_of_one taskId (by simp) (fun l hl => movedBack_other hl)
    rw [task?_movedBack, entryOf_movedBack, if_pos rfl, if_pos rfl, if_pos rfl, about_self, ht]
    exact .resumed rfl ht hst

theorem override_steps {sample : LoadSample} :
    Steps cfg now (.override taskId sample) s (s.perform cfg now (.override taskId sample)) := by
  rw [perform]
  cases ho : s.override cfg taskId sample with
  | error err => exact steps_same _ fun _ => rfl
  | ok p =>
    obtain ⟨s', b⟩ := p
    rcases override_ok ho with ⟨rfl, rfl, hnone⟩ | ⟨e, v, hask, hv, rfl, rfl⟩
    · refine steps_same _ fun l => ?_
      simp only [overrideLog, hnone]
      rfl
    · obtain ⟨he, t, ht, hst⟩ := overridable_ok.mp hask
      have hother : ∀ (f : Entry → Entry) l, l ≠ taskId → (s.amend taskId f).task? l = s.task? l ∧
          (s.amend taskId f).entryOf l = s.entryOf l := by
        intro f l hl
        rw [entryOf_amend, if_neg hl]
        exact ⟨rfl, rfl⟩
      cases hp : v.passed with
      | true =>
        simp only [if_true, noting, overrideLog]
        apply steps_of_one taskId (by simp) (hother _)
        rw [task?_amend, entryOf_amend, if_pos rfl, ht]
        simp only [Log.about, List.filter_cons, decide_true, if_true, List.filter_nil, List.map_cons,
          List.map_nil]
        exact .overridden rfl ht hst he hv hp
      | false =>
        simp only [Bool.false_eq_true, if_false, noting, overrideLog, hask]
        apply steps_of_one taskId (by simp) (hother _)
        rw [task?_amend, entryOf_amend, if_pos rfl, ht, about_self]
        exact .notOverridden rfl ht hst he hv hp

theorem cancel_steps {reply : Reply} {b : Bool} (h : s.cancel now taskId reply = .ok (s', b)) :
    Steps cfg now (.cancel taskId reply) s (s', if b then [] else []) := by
  rw [ite_self]
  rcases cancel_ok h with ⟨_, rfl, _⟩ | ⟨_, _, _, t, ht, hst, rfl⟩
  · exact steps_same _ fun _ => rfl
  · apply steps_of_one taskId (by simp) (fun l hl => moved_other hl)
    rw [task?_moved, entryOf_moved, if_pos rfl, if_pos rfl, about_nil, ht]
    exact .cancelled rfl ht hst

theorem interruptRunning_steps {reply : TaskId → Reply} :
    Steps cfg now (.interruptRunning reply) s
      (s.perform cfg now (.interruptRunning reply)) := by
  intro l
  obtain ⟨_, _, hrow⟩ := interruptAll_row s reply s.queue.runningTasks
  rcases hrow l with ⟨htask, hentry⟩ | ⟨t, ht, hrun, htask, hentry⟩
  · simp only [perform, interruptRunning, htask, about_nil]
    exact .same (by rw [hentry])
  · simp only [perform, interruptRunning, htask, hentry, about_nil]
    exact .interrupted ht hrun

theorem discard_core : ((s.discard taskId).entryOf l).map Entry.core = (s.entryOf l).map Entry.core := by
  rw [entryOf_discard]
  split_ifs with h
  · rw [h, Option.map_map]
    rfl
  · rfl

theorem steps_of_report {log : Log} (hlog : ∀ p ∈ log, p.1 = taskId)
    (hother : ∀ l, l ≠ taskId → s'.task? l = (s.discard taskId).task? l ∧
      s'.entryOf l = (s.discard taskId).entryOf l)
    (hself : TaskStep cfg now op s taskId (s'.task? taskId) (s'.entryOf taskId)
      (Log.about log taskId)) : Steps cfg now op s (s'.releaseRun taskId, log) := by
  apply steps_of_one taskId hlog ?_ hself
  intro l hl
  have h := hother l hl
  rw [entryOf_discard, if_neg hl] at h
  exact h

theorem report_steps {result : WorkResult} :
    Steps cfg now (.report taskId result) s (s.perform cfg now (.report taskId result)) := by
  obtain ⟨s₁, hs₁⟩ := closeRun_isOk cfg s now taskId result
  have hperform : s.perform cfg now (.report taskId result) =
      (s₁.releaseRun taskId, s.reportLog taskId result) := by
    simp only [perform, reportOutcome, hs₁, Except.map, noting]
  rw [hperform]
  rcases closeRun_cases hs₁ with ⟨hgone, rfl⟩ | ⟨e, t, he, ht, hst, rfl⟩ | ⟨e, t, he, ht, hrun, hend⟩
  · have hlog : s.reportLog taskId result = [] := by
      unfold reportLog
      rcases hgone with h | h
      · simp only [h]
      · cases s.entryOf taskId <;> simp only [h]
    rw [hlog]
    intro l
    exact .same discard_core
  · have hlog : s.reportLog taskId result = [] := by
      simp only [reportLog, he, ht, hst, false_and, if_false]
    rw [hlog]
    apply steps_of_report (by simp)
    · intro l hl
      rw [entryOf_amend, if_neg hl]
      exact ⟨rfl, rfl⟩
    · rw [entryOf_amend, if_pos rfl, entryOf_discard, if_pos rfl, task?_amend, task?_discard, ht]
      exact .late rfl ht hst he
  · have hlog : s.reportLog taskId result = if result.outcome = .deferred then
        (taskId, .deferred) :: (if e.preempted.isSome then [(taskId, .floorSaid true)] else [])
        else [] := by
      simp only [reportLog, he, ht, hrun, true_and]
    rw [hlog]
    rcases hend with ⟨v, ho, hp, rfl⟩ | ⟨ho, hp, rfl⟩ | ⟨state, f, ho, hst, hf, rfl⟩
    · simp only [ho, hp, Option.isSome_some, if_true]
      apply steps_of_report (by simp) (fun l hl => movedBack_other hl)
      rw [task?_movedBack, entryOf_movedBack, if_pos rfl, if_pos rfl, entryOf_discard, if_pos rfl,
        task?_discard, ht]
      simp only [Log.about, List.filter_cons, decide_true, if_true, List.filter_nil, List.map_cons,
        List.map_nil]
      exact .stopped rfl ht hrun he
    · simp only [ho, hp, Option.isSome_none, Bool.false_eq_true, if_true, if_false]
      apply steps_of_report (by simp) (fun l hl => movedBack_other hl)
      rw [task?_movedBack, entryOf_movedBack, if_pos rfl, if_pos rfl, entryOf_discard, if_pos rfl,
        task?_discard, ht, about_self]
      exact .deferred rfl ht hrun he
    · rw [if_neg ho]
      apply steps_of_report (by simp) (fun l hl => moved_other hl)
      rw [task?_moved, entryOf_moved, if_pos rfl, if_pos rfl, entryOf_discard, if_pos rfl,
        task?_discard, ht]
      exact .ended rfl ht hrun he hst hf

theorem about_append {log log' : Log} :
    Log.about (log ++ log') l = Log.about log l ++ Log.about log' l := by
  simp [Log.about]

theorem about_events {events : List TaskEvent} :
    Log.about (events.map (l, ·)) l = events := by
  induction events with
  | nil => rfl
  | cons e events ih => simpa [Log.about] using ih

theorem about_looked {f : QueuedTask × Judgement → List TaskEvent}
    {looked : List (QueuedTask × Judgement)}
    (hids : looked.Pairwise fun p q => p.1.taskId ≠ q.1.taskId) {p : QueuedTask × Judgement}
    (hp : p ∈ looked) :
    Log.about (looked.flatMap fun p => (f p).map (p.1.taskId, ·)) p.1.taskId = f p := by
  induction looked with
  | nil => simp at hp
  | cons q looked ih =>
    obtain ⟨hq, hids⟩ := List.pairwise_cons.mp hids
    rw [List.flatMap_cons, about_append]
    rcases List.mem_cons.mp hp with rfl | hmem
    · rw [about_events, about_other, List.append_nil]
      intro e he
      obtain ⟨q, hmem, he⟩ := List.mem_flatMap.mp he
      obtain ⟨_, _, rfl⟩ := List.mem_map.mp he
      exact (hq q hmem).symm
    · rw [ih hids hmem, about_other, List.nil_append]
      intro e he
      obtain ⟨_, _, rfl⟩ := List.mem_map.mp he
      exact hq p hmem

theorem tick_steps {r : Reading} : Steps cfg now (.tick r) s (s.perform cfg now (.tick r)) := by
  have hticked := tick_ticked cfg s now r
  have hkeep := housekeep_spec cfg s now r
  intro l
  rw [perform]
  by_cases hl : ∃ p ∈ (s.tick cfg now r).looked, p.1.taskId = l
  · obtain ⟨p, hp, rfl⟩ := hl
    obtain ⟨ht, hst⟩ := hticked.waiting p hp
    rw [hticked.task_looked p hp, tickLog, about_looked hticked.distinct hp]
    refine .looked rfl rfl (hkeep.task_sub _ _ ht) hst hp rfl ?_
    rw [hticked.entry_looked p hp]
    have hentries := congrArg
      (Option.map fun e => (entryAfter r.level now (s.tick cfg now r).handed p e).core)
      (hkeep.entries p.1.taskId)
    simp only [Option.map_map, Function.comp_def, ← entryAfter_core] at hentries
    exact hentries
  · have hnone : ∀ p ∈ (s.tick cfg now r).looked, p.1.taskId ≠ l := fun p hp h => hl ⟨p, hp, h⟩
    rw [hticked.task_other l hnone, about_other]
    · refine .kept rfl (hkeep.task_sub l) ?_ ?_
      · intro u hu hlive
        exact hkeep.task_keep l u hu (by simp [hlive])
      · rw [hticked.entry_other l hnone, hkeep.entries]
    · intro q hq
      simp only [tickLog, List.mem_flatMap, List.mem_map] at hq
      obtain ⟨p, hp, e, _, rfl⟩ := hq
      exact hnone p hp

theorem perform_steps (cfg : Settings) (s : Scheduler) (now : Seconds) (op : Op) :
    Steps cfg now op s (s.perform cfg now op) := by
  cases op with
  | submit taskId weight summary vram => exact steps_noting_map fun _ => submit_steps
  | restore taskId weight summary vram state queuedAt attempts detail =>
    exact steps_noting_map fun _ => restore_steps
  | pauseTask taskId => exact steps_noting fun _ _ => pauseTask_steps
  | resumeTask taskId => exact steps_noting fun _ _ => resumeTask_steps
  | override taskId sample => exact override_steps
  | cancel taskId reply => exact steps_noting fun _ _ => cancel_steps
  | interruptRunning reply => exact interruptRunning_steps
  | setPaused paused => exact fun l => .same rfl
  | setRuntimePaused paused => exact fun l => .same rfl
  | tick reading => exact tick_steps
  | report taskId result => exact report_steps

end Scheduler

theorem Sys.step_task {cfg : Settings} {s s' : Sys} {a : Seconds × Op}
    (h : s.step cfg a = some s') (l : TaskId) :
    ∃ evs, TaskStep cfg a.1 a.2 s.sched l (s'.sched.task? l) (s'.sched.entryOf l) evs ∧
      s'.log.about l = evs ++ s.log.about l := by
  unfold Sys.step at h
  split_ifs at h
  cases h
  exact ⟨_, perform_steps cfg s.sched a.1 a.2 l, about_append⟩

end QronosAgent.Queue

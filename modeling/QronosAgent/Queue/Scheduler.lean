import QronosAgent.Queue.HardFloor
import QronosAgent.Queue.SafeQueue

/-! `QueueScheduler` of `core/queue_scheduler.py`: its record beside the queue's, the user's
operations on it, and the pass that starts work. What the scheduler asks of a work object or of
the machine is an argument of the operation that asks it. -/
namespace QronosAgent.Queue
open Lib

inductive HoldReason where
  | sustainedLoad
  | warmingUp
  | heavyTaskInProgress
  | paused
  | safetyFloor
  | activityMode
  | foregroundActive
  | storageUnavailable
  deriving DecidableEq

/-- `_HOLD_FOR_REFUSAL`. -/
def HoldReason.forRefusal : Refusal → HoldReason
  | .heavyTaskInProgress => .heavyTaskInProgress
  | .activityMode => .activityMode
  | .resourcePressure => .sustainedLoad

/-- `_POLITENESS_HOLDS`: the holds an override can lift. -/
def HoldReason.politeness : HoldReason → Bool
  | .sustainedLoad | .warmingUp => true
  | .heavyTaskInProgress | .paused | .safetyFloor | .activityMode | .foregroundActive
  | .storageUnavailable => false

inductive LoadLevel where
  | unknown
  | free
  | busy
  deriving DecidableEq

/-- `LoadSnapshot.reason`. -/
def LoadLevel.reason : LoadLevel → PyStr
  | unknown => py "Qronos is still working out how busy the machine is."
  | busy => py "Your machine has been busy, so this is waiting for it to free up."
  | free => py "The machine is free."

inductive WorkOutcome where
  | done
  | failed
  | deferred
  | cancelled
  deriving DecidableEq

structure WorkResult where
  outcome : WorkOutcome
  detail : PyStr
  hold : Option HoldReason
  countAttempt : Bool

/-- What asking an optional method of a work object (`cancel`, `interrupt`, `pause`) comes to. -/
inductive Reply where
  | absent
  | answered (ok : Bool)
  | raised
  deriving DecidableEq

structure Entry where
  requiredVramMb : ℤ
  hold : HoldReason
  detail : PyStr
  override : Bool
  floorRefusal : Option FloorVerdict
  startedAt : Option Seconds
  finishedAt : Option Seconds
  notBefore : Option Seconds
  preempted : Option FloorVerdict
  deriving DecidableEq

/-- `SchedulerConfig` as `__post_init__` accepts it, with the floor's limits and the governor's
lease. -/
structure Settings where
  historySeconds : Seconds := 300
  maxAttempts : ℕ := 3
  retryAfterDeferralSeconds : Seconds := 30
  preemptAfterSamples : ℕ := 2
  floor : HardFloorConfig := defaultHardFloor
  leaseSeconds : Seconds := 300
  preempt_pos : 1 ≤ preemptAfterSamples := by decide

namespace Entry

def fresh (requiredVramMb : ℤ) (hold : HoldReason) (detail : PyStr) : Entry :=
  ⟨requiredVramMb, hold, detail, false, none, none, none, none, none⟩

/-- `_hold`. -/
def held (hold : HoldReason) (detail : PyStr) (e : Entry) : Entry := { e with hold, detail }

def pausedByUser (e : Entry) : Entry :=
  { e with
    hold := .paused
    detail := py "Paused by you. It waits until you resume it."
    override := false }

def resumed (e : Entry) : Entry :=
  { e with
    hold := .warmingUp
    detail := py "Resumed. Qronos will check the machine first."
    notBefore := none
    finishedAt := none }

def closedWhileRunning (e : Entry) : Entry :=
  { e with
    detail :=
      py "Qronos closed while this was running. It will not run again unless you resume it." }

def overridden (e : Entry) : Entry := { e with override := true, floorRefusal := none }

def notOverridden (v : FloorVerdict) (e : Entry) : Entry :=
  { e with floorRefusal := some v, hold := .safetyFloor, detail := v.message }

def finished (now : Seconds) (e : Entry) : Entry := { e with finishedAt := some now }

def ended (now : Seconds) (detail : PyStr) (e : Entry) : Entry :=
  { e with finishedAt := some now, detail }

/-- The run went back in line by its own choice. -/
def deferred (retryAt : Seconds) (result : WorkResult) (e : Entry) : Entry :=
  { e with
    startedAt := none
    notBefore := some retryAt
    hold := result.hold.getD .sustainedLoad
    detail :=
      if result.detail.isEmpty then
        py "Qronos found the machine busy when it came to run this and will try again."
      else result.detail }

/-- The run went back in line because the safety floor stopped it. -/
def stoppedByFloor (v : FloorVerdict) (e : Entry) : Entry :=
  { e with
    startedAt := none
    notBefore := none
    floorRefusal := some v
    override := false
    hold := .safetyFloor
    detail := v.message }

def stopConsumed (e : Entry) : Entry := { e with preempted := none }

def stopAttributed (v : FloorVerdict) (e : Entry) : Entry :=
  { e with preempted := some v, hold := .safetyFloor, detail := v.message }

def noticed (detail : PyStr) (e : Entry) : Entry := { e with detail }

def refusedByFloor (v : FloorVerdict) (e : Entry) : Entry :=
  { e with floorRefusal := some v, override := false, hold := .safetyFloor, detail := v.message }

def passedFloor (e : Entry) : Entry := { e with floorRefusal := none }

def began (now : Seconds) (e : Entry) : Entry :=
  { e with startedAt := some now, override := false, notBefore := none }

/-- Finished longer ago than the history is kept. -/
def old (cfg : Settings) (now : Seconds) (e : Entry) : Bool :=
  e.finishedAt.any fun finishedAt => decide (finishedAt ≤ now - cfg.historySeconds)

end Entry

inductive Judgement where
  | held
  | noEntry
  | deferred
  | invalid (e : QueueError)
  | refused (v : FloorVerdict)
  | loaded
  | spent
  | admissible
  deriving DecidableEq

def Judgement.stops : Judgement → Bool
  | .admissible | .invalid _ => true
  | .held | .noEntry | .deferred | .refused _ | .loaded | .spent => false

def Judgement.error? : Judgement → Option QueueError
  | .invalid e => some e
  | .held | .noEntry | .deferred | .refused _ | .loaded | .spent | .admissible => none

inductive Found where
  | nothing
  | chosen (task : QueuedTask)
  | raised (e : QueueError)

structure Reading where
  sample : LoadSample
  level : LoadLevel
  foregroundBusy : Bool
  activityMode : ActivityMode
  /-- What `pause` of a running work would answer. -/
  pauseReply : TaskId → Reply

structure Scheduler where
  queue : SafeQueue
  governor : ResourceGovernor
  entries : Dict TaskId Entry
  /-- Work that has been handed out and has not yet reported back. -/
  inflight : List TaskId
  paused : Bool
  runtimePaused : Bool
  runningBreaches : ℕ
  runningRefused : Bool
  unstoppableNotified : List TaskId

/-- The state a tick leaves, the task it hands to the runner, the exception it ends with, and
what it made of the waiting tasks it looked at. -/
structure TickResult where
  sched : Scheduler
  handed : Option TaskId
  raised : Option QueueError
  looked : List (QueuedTask × Judgement)

namespace Scheduler

def empty : Scheduler := ⟨.empty, .empty, .empty, [], false, false, 0, false, []⟩

def task? (s : Scheduler) (taskId : TaskId) : Option QueuedTask := s.queue.get? taskId

def entryOf (s : Scheduler) (taskId : TaskId) : Option Entry := s.entries.get? taskId

def amend (s : Scheduler) (taskId : TaskId) (f : Entry → Entry) : Scheduler :=
  { s with entries := s.entries.modify taskId f }

/-- Run a transition of the queue, then `after` on what it leaves. -/
def moving (s : Scheduler) (queue : Except QueueError SafeQueue)
    (after : Scheduler → Scheduler) : Except QueueError Scheduler :=
  queue.map fun queue => after { s with queue }

def checking : PyStr := py "Qronos is still working out how busy the machine is."

/-- `identifier` is the caller's `task_id`, or the one drawn when there is none. -/
def submit (s : Scheduler) (now : Seconds) (identifier : TaskId) (weight : Weight)
    (summary : PyStr) (requiredVramMb : ℤ) : Except QueueError Scheduler :=
  if summary.blank then .error (.value (py "A queued task must say what it is."))
  else
    s.moving (s.queue.submit now identifier weight summary.strip) fun s =>
      { s with
        entries := s.entries.set identifier (.fresh requiredVramMb .warmingUp checking) }

def restore (s : Scheduler) (taskId : TaskId) (weight : Weight) (summary : PyStr)
    (requiredVramMb : ℤ) (state : TaskState) (queuedAt : Seconds) (attempts : ℤ)
    (detail : PyStr) : Except QueueError Scheduler :=
  if summary.blank then .error (.value (py "A queued task must say what it is."))
  else
    s.moving (s.queue.restore taskId weight summary.strip state queuedAt attempts) fun s =>
      { s with
        entries := s.entries.set taskId
          (.fresh requiredVramMb (if state = .queued then .warmingUp else .paused)
            (if detail.isEmpty then checking else detail)) }

def pauseTask (s : Scheduler) (taskId : TaskId) : Except QueueError (Scheduler × Bool) :=
  match s.task? taskId with
  | none => .error (.unknownTask taskId)
  | some task =>
    if task.state = .queued then
      (s.moving (s.queue.pause taskId) (·.amend taskId Entry.pausedByUser)).map (·, true)
    else .ok (s, false)

def resumeTask (s : Scheduler) (taskId : TaskId) : Except QueueError (Scheduler × Bool) :=
  match s.task? taskId with
  | none => .error (.unknownTask taskId)
  | some task =>
    if task.state = .paused ∨ task.state = .interrupted then
      (s.moving (s.queue.resume taskId true) (·.amend taskId Entry.resumed)).map (·, true)
    else .ok (s, false)

/-- One turn of `interrupt_running`'s loop: work that has committed its answer is left. -/
def interruptOne (s : Scheduler) (taskId : TaskId) (reply : Reply) :
    Except QueueError (Scheduler × Bool) :=
  if reply = .raised ∧ (s.entryOf taskId).isSome then .error .work
  else if reply = .answered false ∧ (s.entryOf taskId).isSome then .ok (s, false)
  else
    (s.moving (s.queue.interrupt taskId) (·.amend taskId Entry.closedWhileRunning)).map (·, true)

def interruptAll (s : Scheduler) (reply : TaskId → Reply) : List QueuedTask → Scheduler
  | [] => s
  | task :: rest =>
    match s.interruptOne task.taskId (reply task.taskId) with
    | .error _ => s
    | .ok (s, _) => interruptAll s reply rest

def interruptRunning (s : Scheduler) (reply : TaskId → Reply) : Scheduler :=
  s.interruptAll reply s.queue.runningTasks

/-- `override` up to the floor's answer: the entry of a waiting task, or why there is none. -/
def overridable? (s : Scheduler) (taskId : TaskId) : Except QueueError (Option Entry) :=
  match s.entryOf taskId with
  | none => .ok none
  | some entry =>
    match s.task? taskId with
    | none => .error (.unknownTask taskId)
    | some task => .ok (if task.state = .queued then some entry else none)

/-- `override` from the floor's answer on. -/
def pressed (s : Scheduler) (taskId : TaskId) (v : FloorVerdict) : Scheduler × Bool :=
  if v.passed then (s.amend taskId Entry.overridden, true)
  else (s.amend taskId (Entry.notOverridden v), false)

/-- Run this now, if it is only politeness standing in the way. `sample` is the monitor's latest
reading. -/
def override (cfg : Settings) (s : Scheduler) (taskId : TaskId) (sample : LoadSample) :
    Except QueueError (Scheduler × Bool) :=
  (s.overridable? taskId).bind fun
    | none => .ok (s, false)
    | some entry =>
      (checkFloor sample cfg.floor entry.floorRefusal.isSome entry.requiredVramMb).map
        (s.pressed taskId)

def cancel (s : Scheduler) (now : Seconds) (taskId : TaskId) (reply : Reply) :
    Except QueueError (Scheduler × Bool) :=
  match s.task? taskId with
  | none => .error (.unknownTask taskId)
  | some task =>
    if reply = .raised ∧ (s.entryOf taskId).isSome then .error .work
    else if reply = .answered false ∧ (s.entryOf taskId).isSome ∧ task.state = .running then
      .ok (s, false)
    else
      (s.moving (s.queue.cancel taskId)
        (·.amend taskId (if taskId ∈ s.inflight then id else Entry.finished now))).map (·, true)

/-- The user's hold on the queue. -/
def setPaused (s : Scheduler) (paused : Bool) : Scheduler := { s with paused }

/-- Qronos as a whole paused or resumed; the `pause` of running work is the work's own affair. -/
def setRuntimePaused (s : Scheduler) (runtimePaused : Bool) : Scheduler := { s with runtimePaused }

/-- What `report_outcome` records for a task that is still RUNNING. -/
def recordOutcome (cfg : Settings) (s : Scheduler) (now : Seconds) (taskId : TaskId)
    (result : WorkResult) (pending : Option FloorVerdict) : Except QueueError Scheduler :=
  match result.outcome, pending with
  | .deferred, some v =>
    s.moving (s.queue.requeue taskId false) (·.amend taskId (Entry.stoppedByFloor v))
  | .deferred, none =>
    s.moving (s.queue.requeue taskId result.countAttempt)
      (·.amend taskId (Entry.deferred (now + cfg.retryAfterDeferralSeconds) result))
  | .cancelled, _ => s.moving (s.queue.cancel taskId) (·.amend taskId (Entry.finished now))
  | .done, _ =>
    s.moving (s.queue.finish taskId true) (·.amend taskId (Entry.ended now result.detail))
  | .failed, _ =>
    s.moving (s.queue.finish taskId false) (·.amend taskId (Entry.ended now result.detail))

/-- `self._inflight.discard(task_id)`, and the pending safety stop consumed. -/
def discard (s : Scheduler) (taskId : TaskId) : Scheduler :=
  { s.amend taskId Entry.stopConsumed with
    inflight := s.inflight.filter (· ≠ taskId) }

/-- The locked section of `report_outcome`. -/
def closeRun (cfg : Settings) (s : Scheduler) (now : Seconds) (taskId : TaskId)
    (result : WorkResult) : Except QueueError Scheduler :=
  match s.entryOf taskId, s.task? taskId with
  | some entry, some task =>
    if task.state = .running then
      (s.discard taskId).recordOutcome cfg now taskId result entry.preempted
    else .ok ((s.discard taskId).amend taskId (Entry.finished now))
  | _, _ => .ok (s.discard taskId)

/-- `self.governor.release(task_id)`. -/
def releaseRun (s : Scheduler) (taskId : TaskId) : Scheduler :=
  { s with governor := (s.governor.release taskId).1 }

def reportOutcome (cfg : Settings) (s : Scheduler) (now : Seconds) (taskId : TaskId)
    (result : WorkResult) : Except QueueError Scheduler :=
  (s.closeRun cfg now taskId result).map (·.releaseRun taskId)

def stale (cfg : Settings) (s : Scheduler) (now : Seconds) (taskId : TaskId) (e : Entry) : Bool :=
  e.old cfg now && taskId ∉ s.inflight

/-- `_forget_old_entries`. -/
def forgetOldEntries (cfg : Settings) (s : Scheduler) (now : Seconds) : Scheduler :=
  if s.entries.items.any fun kv => s.stale cfg now kv.1 kv.2 then
    { s with
      entries := s.entries.filter fun taskId e => !s.stale cfg now taskId e
      queue := s.queue.forgetFinished s.inflight }
  else s

def renewLease (cfg : Settings) (now : Seconds) (s : Scheduler) (taskId : TaskId) : Scheduler :=
  { s with governor := (s.governor.renew cfg.leaseSeconds now taskId).1 }

/-- `_renew_inflight_leases`. -/
def renewInflightLeases (cfg : Settings) (s : Scheduler) (now : Seconds) : Scheduler :=
  s.inflight.foldl (renewLease cfg now) s

def cannotStop : PyStr :=
  py " This task cannot be stopped safely while it runs, so it is left to finish."

/-- Say once per breach why work that cannot be stopped is left to finish. -/
def notifyUnstoppable (s : Scheduler) (taskId : TaskId) (v : FloorVerdict) : Scheduler :=
  if taskId ∈ s.unstoppableNotified then s
  else
    { s.amend taskId (Entry.noticed (v.message ++ cannotStop)) with
      unstoppableNotified := taskId :: s.unstoppableNotified }

/-- One running task in `_protect_running`: the stop is attributed, asked for, and withdrawn when
the work refuses it or its `pause` raises. -/
def protectOne (v : FloorVerdict) (reply : TaskId → Reply) (s : Scheduler) (taskId : TaskId) :
    Scheduler :=
  match s.entryOf taskId with
  | none => s
  | some entry =>
    if entry.preempted.isSome then s
    else
      match reply taskId with
      | .absent => s.notifyUnstoppable taskId v
      | .answered true => s.amend taskId (Entry.stopAttributed v)
      | .answered false => s
      | .raised => (s.amend taskId (Entry.noticed v.message)).notifyUnstoppable taskId v

def breachEnded (s : Scheduler) : Scheduler :=
  { s with runningBreaches := 0, runningRefused := false, unstoppableNotified := [] }

/-- `sorted(self._inflight)`, less the tasks without an entry. -/
def protectedTasks (s : Scheduler) : List TaskId :=
  (sortedBy (fun a b => decide (List.map PyChar.code a < List.map PyChar.code b)) id s.inflight).filter
    fun taskId => (s.entryOf taskId).isSome

/-- `_protect_running`: stop running work when the safety floor says it must. -/
def protectRunning (cfg : Settings) (s : Scheduler) (sample : LoadSample)
    (reply : TaskId → Reply) : Scheduler :=
  if s.protectedTasks = [] then s.breachEnded
  else
    let v := checkRunning sample cfg.floor s.runningRefused
    if v.passed then s.breachEnded
    else
      let s := { s with runningBreaches := s.runningBreaches + 1 }
      if s.runningBreaches < cfg.preemptAfterSamples then s
      else s.protectedTasks.foldl (protectOne v reply) { s with runningRefused := true }

/-- `_hold_everything`. -/
def holdEverything (s : Scheduler) (hold : HoldReason) (detail : PyStr) : Scheduler :=
  s.queue.waitingTasks.foldl (fun s task => s.amend task.taskId (Entry.held hold detail)) s

/-- The first section of `_next_admissible`: nothing while a run is out, heavy work only while
the heavy slot is free. -/
def candidates (s : Scheduler) (now : Seconds) : Scheduler × List QueuedTask :=
  if s.queue.runningTasks = [] ∧ s.inflight = [] then
    let (governor, owner) := s.governor.heavyOwner now
    ({ s with governor }, s.queue.waitingTasks.filter fun task =>
      owner.isNone || task.weight ≠ .heavy)
  else (s, [])

/-- The gates behind the floor: politeness, then the limit on attempts. -/
def judgeSafe (cfg : Settings) (level : LoadLevel) (task : QueuedTask) (entry : Entry) :
    Judgement :=
  if level ≠ .free ∧ entry.override = false then .loaded
  else if cfg.maxAttempts ≤ task.attempts then .spent
  else .admissible

/-- The gates of `_next_admissible`, in their order: the floor is asked before politeness. -/
def judge (cfg : Settings) (now : Seconds) (sample : LoadSample) (level : LoadLevel)
    (task : QueuedTask) : Option Entry → Judgement
  | none => .noEntry
  | some entry =>
    if entry.notBefore.any fun t => decide (now < t) then .deferred
    else
      match checkFloor sample cfg.floor entry.floorRefusal.isSome entry.requiredVramMb with
      | .error e => .invalid e
      | .ok v => if v.passed then judgeSafe cfg level task entry else .refused v

def triedTooOften (attempts : ℕ) : PyStr :=
  py "Qronos tried this " ++ natText attempts ++
    py " times without it completing, so it is paused for you to look at."

def note (level : LoadLevel) (task : QueuedTask) : Judgement → Entry → Entry
  | .held | .noEntry | .deferred | .invalid _ => id
  | .refused v => Entry.refusedByFloor v
  | .loaded => fun e =>
    e.passedFloor.held (if level = .busy then .sustainedLoad else .warmingUp) level.reason
  | .spent => fun e => e.passedFloor.held .paused (triedTooOften task.attempts)
  | .admissible => Entry.passedFloor

def settle (s : Scheduler) (level : LoadLevel) (task : QueuedTask) (j : Judgement) :
    Scheduler × Option QueueError :=
  if j = .spent then
    match s.queue.pause task.taskId with
    | .error e => (s.amend task.taskId Entry.passedFloor, some e)
    | .ok queue => ({ s with queue }.amend task.taskId (note level task j), none)
  else (s.amend task.taskId (note level task j), j.error?)

/-- The rest of `_next_admissible`: every waiting task is considered in turn, and what was made of
each is kept. -/
def search (cfg : Settings) (now : Seconds) (sample : LoadSample) (level : LoadLevel) :
    Scheduler → List QueuedTask → Scheduler × List (QueuedTask × Judgement) × Found
  | s, [] => (s, [], .nothing)
  | s, task :: rest =>
    let judgement := judge cfg now sample level task (s.entryOf task.taskId)
    match s.settle level task judgement with
    | (s, some e) => (s, [(task, judgement)], .raised e)
    | (s, none) =>
      if judgement = .admissible then (s, [(task, judgement)], .chosen task)
      else
        let (s, looked, found) := search cfg now sample level s rest
        (s, (task, judgement) :: looked, found)

def claim (cfg : Settings) (s : Scheduler) (now : Seconds) (mode : ActivityMode)
    (task : QueuedTask) : Except QueueError (Scheduler × Bool) :=
  (s.governor.request cfg.leaseSeconds now task.taskId task.weight mode .normal .allow false).map
    fun (governor, grant) =>
      let s := { s with governor }
      if grant.granted then (s, true)
      else
        (s.amend task.taskId (Entry.held
          ((grant.refusal.map HoldReason.forRefusal).getD .heavyTaskInProgress) grant.detail), false)

/-- The locked section of `_start`: the task is RUNNING and in flight. -/
def beginRun (s : Scheduler) (now : Seconds) (taskId : TaskId) : Except QueueError Scheduler :=
  s.moving (s.queue.start taskId) fun s =>
    { s.amend taskId (Entry.began now) with
      inflight := s.inflight.insert taskId }

/-- `_start`, up to the call of the runner. -/
def startTask (cfg : Settings) (s : Scheduler) (now : Seconds) (mode : ActivityMode)
    (task : QueuedTask) (looked : List (QueuedTask × Judgement)) : TickResult :=
  match s.claim cfg now mode task with
  | .error e => ⟨s, none, some e, looked⟩
  | .ok (s, false) => ⟨s, none, none, looked⟩
  | .ok (s, true) =>
    match s.beginRun now task.taskId with
    | .error e => ⟨s, none, some e, looked⟩
    | .ok s => ⟨s, some task.taskId, none, looked⟩

/-- `_hold_everything` as a whole tick. -/
def holdQueue (s : Scheduler) (hold : HoldReason) (detail : PyStr) : TickResult :=
  ⟨s.holdEverything hold detail, none, none, s.queue.waitingTasks.map fun task =>
    (task, if (s.entryOf task.taskId).isSome then .held else .noEntry)⟩

/-- What every tick does first, paused or not. -/
def housekeep (cfg : Settings) (s : Scheduler) (now : Seconds) (r : Reading) : Scheduler :=
  (((s.forgetOldEntries cfg now).renewInflightLeases cfg now).protectRunning cfg r.sample
    r.pauseReply)

def finishPass (cfg : Settings) (now : Seconds) (r : Reading) :
    Scheduler × List (QueuedTask × Judgement) × Found → TickResult
  | (s, looked, .nothing) => ⟨s, none, none, looked⟩
  | (s, looked, .raised e) => ⟨s, none, some e, looked⟩
  | (s, looked, .chosen task) => s.startTask cfg now r.activityMode task looked

def pass (cfg : Settings) (s : Scheduler) (now : Seconds) (r : Reading) : TickResult :=
  let (s, tasks) := s.candidates now
  finishPass cfg now r (search cfg now r.sample r.level s tasks)

/-- One pass of the whole decision. -/
def tick (cfg : Settings) (s : Scheduler) (now : Seconds) (r : Reading) : TickResult :=
  let s := s.housekeep cfg now r
  if s.paused || s.runtimePaused then
    s.holdQueue .paused (if s.paused then py "The queue is paused." else py "Qronos is paused.")
  else if r.foregroundBusy then
    s.holdQueue .foregroundActive
      (py "Qronos is answering you right now; queued work waits until that turn is finished.")
  else s.pass cfg now r

/-- What `view` shows of a task (the fields its work adds to it aside). -/
structure TaskView where
  taskId : TaskId
  summary : PyStr
  weight : Weight
  state : TaskState
  attempts : ℕ
  queuedAt : Seconds
  heldReason : Option HoldReason
  detail : PyStr
  overridable : Bool
  override : Bool
  startedAt : Option Seconds
  inFlight : Bool
  cancellable : Bool
  resumable : Bool

/-- `_describe`. -/
def describe (s : Scheduler) (task : QueuedTask) : TaskView :=
  let entry := s.entryOf task.taskId
  { taskId := task.taskId
    summary := task.summary
    weight := task.weight
    state := task.state
    attempts := task.attempts
    queuedAt := task.queuedAt
    heldReason := if task.waiting then entry.map Entry.hold else none
    detail := (entry.map Entry.detail).getD []
    overridable := task.waiting && entry.any fun e => e.hold.politeness
    override := entry.any Entry.override
    startedAt := entry.bind Entry.startedAt
    inFlight := task.taskId ∈ s.inflight
    cancellable := !task.finished
    resumable := task.state = .paused || task.state = .interrupted }

/-- The tasks of a `view()`. -/
def view (s : Scheduler) : List TaskView := s.queue.allTasks.map s.describe

end Scheduler
end QronosAgent.Queue

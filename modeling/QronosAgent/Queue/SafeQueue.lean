import QronosAgent.Queue.Governor

/-! `SafeQueue` of `core/safe_queue.py`: the waiting line, and the rules about moving through
it. -/
namespace QronosAgent.Queue
open Lib

inductive TaskState where
  | queued
  | paused
  | running
  | done
  | failed
  | cancelled
  | interrupted
  deriving DecidableEq

namespace TaskState

def value : TaskState → PyStr
  | queued => py "queued"
  | paused => py "paused"
  | running => py "running"
  | done => py "done"
  | failed => py "failed"
  | cancelled => py "cancelled"
  | interrupted => py "interrupted"

/-- `_ALLOWED`: what may follow what. -/
def allowed : TaskState → List TaskState
  | queued => [running, paused, cancelled]
  | paused => [queued, cancelled]
  | interrupted => [queued, cancelled]
  | running => [done, failed, cancelled, queued, interrupted]
  | done | failed | cancelled => []

/-- `_TERMINAL`. -/
def terminal : TaskState → Bool
  | done | failed | cancelled => true
  | queued | paused | running | interrupted => false

/-- `RESTORABLE`. -/
def restorable : TaskState → Bool
  | queued | paused | interrupted => true
  | running | done | failed | cancelled => false

theorem not_terminal_of_allowed {st st' : TaskState} (h : st' ∈ st.allowed) :
    st.terminal = false := by
  cases st <;> simp_all [allowed, terminal]

end TaskState

structure QueuedTask where
  taskId : TaskId
  weight : Weight
  summary : PyStr
  state : TaskState
  queuedAt : Seconds
  attempts : ℕ
  sequence : ℕ
  history : List TaskState
  deriving DecidableEq

namespace QueuedTask

def finished (t : QueuedTask) : Bool := t.state.terminal

def waiting (t : QueuedTask) : Bool := t.state = .queued

/-- What `transition` does to a task it lets through. -/
def moveTo (t : QueuedTask) (state : TaskState) : QueuedTask :=
  { t with
    history := t.history ++ [t.state]
    state
    attempts := if state = .running then t.attempts + 1 else t.attempts }

def withAttempts (t : QueuedTask) (f : ℕ → ℕ) : QueuedTask :=
  { t with attempts := f t.attempts }

variable {t : QueuedTask} {state : TaskState} {f : ℕ → ℕ}

@[simp] theorem withAttempts_taskId : (t.withAttempts f).taskId = t.taskId := rfl
@[simp] theorem withAttempts_weight : (t.withAttempts f).weight = t.weight := rfl
@[simp] theorem withAttempts_sequence : (t.withAttempts f).sequence = t.sequence := rfl
@[simp] theorem withAttempts_state : (t.withAttempts f).state = t.state := rfl
@[simp] theorem moveTo_taskId : (t.moveTo state).taskId = t.taskId := rfl
@[simp] theorem moveTo_weight : (t.moveTo state).weight = t.weight := rfl
@[simp] theorem moveTo_sequence : (t.moveTo state).sequence = t.sequence := rfl
@[simp] theorem moveTo_state : (t.moveTo state).state = state := rfl

end QueuedTask

/-- The line. Every task is filed under its own id, which is not blank, and has a place of its
own in the order of arrival. -/
structure SafeQueue where
  tasks : Dict TaskId QueuedTask
  nextSequence : ℕ
  keyed : ∀ taskId t, tasks.get? taskId = some t → t.taskId = taskId
  named : ∀ taskId t, tasks.get? taskId = some t → taskId.blank = false
  placed : ∀ taskId t, tasks.get? taskId = some t → t.sequence < nextSequence
  ordered : ∀ a b t u, tasks.get? a = some t → tasks.get? b = some u →
    t.sequence = u.sequence → a = b

namespace SafeQueue

def empty : SafeQueue := ⟨.empty, 0, by simp, by simp, by simp, by simp⟩

def get? (q : SafeQueue) (taskId : TaskId) : Option QueuedTask := q.tasks.get? taskId

def add (q : SafeQueue) (t : QueuedTask) (_hnew : q.get? t.taskId = none)
    (hnamed : t.taskId.blank = false) : SafeQueue where
  tasks := q.tasks.set t.taskId { t with sequence := q.nextSequence }
  nextSequence := q.nextSequence + 1
  keyed := by
    intro taskId u hu
    rw [Dict.get?_set] at hu
    split at hu
    · rename_i h
      simp only [Option.some.injEq] at hu
      rw [← hu, h]
    · exact q.keyed taskId u hu
  named := by
    intro taskId u hu
    rw [Dict.get?_set] at hu
    split at hu
    · rename_i h
      exact h ▸ hnamed
    · exact q.named taskId u hu
  placed := by
    intro taskId u hu
    rw [Dict.get?_set] at hu
    split at hu
    · simp only [Option.some.injEq] at hu
      simp [← hu]
    · exact Nat.lt_succ_of_lt (q.placed taskId u hu)
  ordered := by
    intro a b u v hu hv huv
    rw [Dict.get?_set] at hu hv
    split at hu <;> split at hv
    · rename_i ha hb
      rw [ha, hb]
    · have hlt := q.placed b v hv
      simp only [Option.some.injEq] at hu
      simp only [← hu] at huv
      omega
    · have hlt := q.placed a u hu
      simp only [Option.some.injEq] at hv
      simp only [← hv] at huv
      omega
    · exact q.ordered a b u v hu hv huv

def amend (q : SafeQueue) (taskId : TaskId) (f : QueuedTask → QueuedTask)
    (hid : ∀ t, (f t).taskId = t.taskId) (hseq : ∀ t, (f t).sequence = t.sequence) :
    SafeQueue where
  tasks := q.tasks.modify taskId f
  nextSequence := q.nextSequence
  keyed := by
    intro l u hu
    rw [Dict.get?_modify] at hu
    split at hu
    · rename_i h
      obtain ⟨t, ht, rfl⟩ := Option.map_eq_some_iff.mp hu
      rw [hid, h]
      exact q.keyed taskId t ht
    · exact q.keyed l u hu
  named := by
    intro l u hu
    rw [Dict.get?_modify] at hu
    split at hu
    · rename_i h
      obtain ⟨t, ht, rfl⟩ := Option.map_eq_some_iff.mp hu
      rw [h]
      exact q.named taskId t ht
    · exact q.named l u hu
  placed := by
    intro l u hu
    rw [Dict.get?_modify] at hu
    split at hu
    · obtain ⟨t, ht, rfl⟩ := Option.map_eq_some_iff.mp hu
      rw [hseq]
      exact q.placed taskId t ht
    · exact q.placed l u hu
  ordered := by
    have hold : ∀ l u, (q.tasks.modify taskId f).get? l = some u →
        ∃ t, q.tasks.get? l = some t ∧ t.sequence = u.sequence := by
      intro l u hu
      rw [Dict.get?_modify] at hu
      split at hu
      · rename_i h
        obtain ⟨t, ht, rfl⟩ := Option.map_eq_some_iff.mp hu
        exact ⟨t, h ▸ ht, (hseq t).symm⟩
      · exact ⟨u, hu, rfl⟩
    intro a b u v hu hv huv
    obtain ⟨t, ht, htu⟩ := hold a u hu
    obtain ⟨w, hw, hwv⟩ := hold b v hv
    exact q.ordered a b t w ht hw (by rw [htu, hwv, huv])

def moveTask (q : SafeQueue) (taskId : TaskId) (state : TaskState) : SafeQueue :=
  q.amend taskId (·.moveTo state) (fun _ => QueuedTask.moveTo_taskId)
    (fun _ => QueuedTask.moveTo_sequence)

def setAttempts (q : SafeQueue) (taskId : TaskId) (f : ℕ → ℕ) : SafeQueue :=
  q.amend taskId (·.withAttempts f) (fun _ => QueuedTask.withAttempts_taskId)
    (fun _ => QueuedTask.withAttempts_sequence)

/-- Keep the tasks that satisfy `p`. -/
def retain (q : SafeQueue) (p : TaskId → QueuedTask → Bool) : SafeQueue :=
  have hsub : ∀ l t, (q.tasks.filter p).get? l = some t → q.tasks.get? l = some t := by
    intro l t h
    rw [Dict.get?_filter, Option.filter_eq_some_iff] at h
    exact h.1
  { tasks := q.tasks.filter p
    nextSequence := q.nextSequence
    keyed := fun l t h => q.keyed l t (hsub l t h)
    named := fun l t h => q.named l t (hsub l t h)
    placed := fun l t h => q.placed l t (hsub l t h)
    ordered := fun a b t u ht hu => q.ordered a b t u (hsub a t ht) (hsub b u hu) }

variable {q q' : SafeQueue} {taskId l : TaskId}

variable {t : QueuedTask} {state : TaskState} {weight : Weight} {summary : PyStr}

@[simp] theorem get?_add {hnew : q.get? t.taskId = none} {hnamed : t.taskId.blank = false} :
    (q.add t hnew hnamed).get? l =
      if l = t.taskId then some { t with sequence := q.nextSequence } else q.get? l :=
  Dict.get?_set

@[simp] theorem get?_moveTask : (q.moveTask taskId state).get? l =
    if l = taskId then (q.get? taskId).map (·.moveTo state) else q.get? l :=
  Dict.get?_modify

@[simp] theorem get?_setAttempts {f : ℕ → ℕ} : (q.setAttempts taskId f).get? l =
    if l = taskId then (q.get? taskId).map (·.withAttempts f) else q.get? l :=
  Dict.get?_modify

@[simp] theorem get?_retain {p : TaskId → QueuedTask → Bool} :
    (q.retain p).get? l = (q.get? l).filter (p l) := Dict.get?_filter

theorem sequence_inj {m : TaskId} {u : QueuedTask} (ht : q.get? l = some t)
    (hu : q.get? m = some u) (h : t.sequence = u.sequence) : l = m := q.ordered l m t u ht hu h

def submit (q : SafeQueue) (now : Seconds) (taskId : TaskId) (weight : Weight)
    (summary : PyStr) : Except QueueError SafeQueue :=
  if hnamed : taskId.blank = false then
    if hnew : q.get? taskId = none then
      .ok (q.add ⟨taskId, weight, summary, .queued, now, 0, 0, []⟩ hnew hnamed)
    else .error (.value (taskId ++ py " is already queued."))
  else .error (.value (py "A queued task must have an id."))

def restore (q : SafeQueue) (taskId : TaskId) (weight : Weight) (summary : PyStr)
    (state : TaskState) (queuedAt : Seconds) (attempts : ℤ) : Except QueueError SafeQueue :=
  if hnamed : taskId.blank = false then
    if state.restorable = false then
      .error (.value (py "A task cannot be restored as " ++ state.value ++ py "."))
    else if hnew : q.get? taskId = none then
      .ok (q.add ⟨taskId, weight, summary, state, queuedAt, attempts.toNat, 0, []⟩ hnew hnamed)
    else .error (.value (taskId ++ py " is already queued."))
  else .error (.value (py "A queued task must have an id."))

/-! Transitions. The task object each of them returns is the queue's own. -/

def transition (q : SafeQueue) (taskId : TaskId) (state : TaskState) :
    Except QueueError SafeQueue :=
  match q.get? taskId with
  | none => .error (.unknownTask taskId)
  | some task =>
    if state ∈ task.state.allowed then
      .ok (q.moveTask taskId state)
    else
      .error (.illegalTransition (taskId ++ py " cannot go from " ++ task.state.value ++
        py " to " ++ state.value ++ py "."))

def start (q : SafeQueue) (taskId : TaskId) : Except QueueError SafeQueue :=
  q.transition taskId .running

def finish (q : SafeQueue) (taskId : TaskId) (success : Bool) : Except QueueError SafeQueue :=
  q.transition taskId (if success then .done else .failed)

def pause (q : SafeQueue) (taskId : TaskId) : Except QueueError SafeQueue :=
  q.transition taskId .paused

/-- Back into line from PAUSED or INTERRUPTED. -/
def resume (q : SafeQueue) (taskId : TaskId) (resetAttempts : Bool) :
    Except QueueError SafeQueue :=
  (q.transition taskId .queued).map fun q =>
    q.setAttempts taskId fun attempts => if resetAttempts then 0 else attempts

def interrupt (q : SafeQueue) (taskId : TaskId) : Except QueueError SafeQueue :=
  q.transition taskId .interrupted

def requeue (q : SafeQueue) (taskId : TaskId) (countAttempt : Bool) : Except QueueError SafeQueue :=
  (q.transition taskId .queued).map fun q =>
    q.setAttempts taskId fun attempts => if countAttempt then attempts else attempts - 1

def cancel (q : SafeQueue) (taskId : TaskId) : Except QueueError SafeQueue :=
  q.transition taskId .cancelled

/-- `waiting()`: everything still in line, in the order it will be taken. -/
def waitingTasks (q : SafeQueue) : List QueuedTask :=
  sortedBy (fun a b => decide (a < b)) QueuedTask.sequence (q.tasks.values.filter (·.waiting))

/-- `running()`. -/
def runningTasks (q : SafeQueue) : List QueuedTask :=
  q.tasks.values.filter fun t => t.state = .running

def allTasks (q : SafeQueue) : List QueuedTask :=
  sortedBy (fun a b => decide (a < b)) QueuedTask.sequence q.tasks.values

/-- Drop the terminal tasks `keep` does not name. -/
def forgetFinished (q : SafeQueue) (keep : List TaskId) : SafeQueue :=
  q.retain fun taskId t => !(t.finished && taskId ∉ keep)

theorem submit_ok {now : Seconds} (h : q.submit now taskId weight summary = .ok q') :
    taskId.blank = false ∧ q.get? taskId = none ∧ ∀ l, q'.get? l =
      if l = taskId then some ⟨taskId, weight, summary, .queued, now, 0, q.nextSequence, []⟩
      else q.get? l := by
  unfold submit at h
  split_ifs at h with hnamed hnew
  cases h
  exact ⟨hnamed, hnew, fun l => get?_add⟩

theorem restore_ok {queuedAt : Seconds} {attempts : ℤ}
    (h : q.restore taskId weight summary state queuedAt attempts = .ok q') :
    taskId.blank = false ∧ q.get? taskId = none ∧ state.restorable = true ∧ ∀ l, q'.get? l =
      if l = taskId then
        some ⟨taskId, weight, summary, state, queuedAt, attempts.toNat, q.nextSequence, []⟩
      else q.get? l := by
  unfold restore at h
  split_ifs at h with hnamed hstate hnew
  cases h
  exact ⟨hnamed, hnew, by simpa using hstate, fun l => get?_add⟩

theorem transition_ok : q.transition taskId state = .ok q' ↔
    ∃ t, q.get? taskId = some t ∧ state ∈ t.state.allowed ∧ q' = q.moveTask taskId state := by
  unfold transition
  cases q.get? taskId with
  | none => simp
  | some t =>
    simp only [Option.some.injEq, exists_eq_left']
    split_ifs with hst
    · simp [hst, eq_comm]
    · simp [hst]

theorem transition_of_allowed (ht : q.get? taskId = some t) (hst : state ∈ t.state.allowed) :
    q.transition taskId state = .ok (q.moveTask taskId state) :=
  transition_ok.mpr ⟨t, ht, hst, rfl⟩

theorem mem_waitingTasks :
    t ∈ q.waitingTasks ↔ q.get? t.taskId = some t ∧ t.state = .queued := by
  simp only [waitingTasks, mem_sortedBy, List.mem_filter, Dict.mem_values, QueuedTask.waiting,
    decide_eq_true_eq]
  constructor
  · rintro ⟨⟨l, hl⟩, hst⟩
    exact ⟨q.keyed l t hl ▸ hl, hst⟩
  · rintro ⟨h, hst⟩
    exact ⟨⟨_, h⟩, hst⟩

theorem mem_runningTasks :
    t ∈ q.runningTasks ↔ q.get? t.taskId = some t ∧ t.state = .running := by
  simp only [runningTasks, List.mem_filter, Dict.mem_values, decide_eq_true_eq]
  constructor
  · rintro ⟨⟨l, hl⟩, hst⟩
    exact ⟨q.keyed l t hl ▸ hl, hst⟩
  · rintro ⟨h, hst⟩
    exact ⟨⟨_, h⟩, hst⟩

theorem values_nodup : q.tasks.values.Nodup := by
  have h : q.tasks.values.map QueuedTask.taskId = q.tasks.keys := by
    simp only [Dict.values, Dict.keys, List.map_map]
    refine List.map_congr_left fun kv hkv => ?_
    exact q.keyed kv.1 kv.2 (Dict.get?_eq_some.mpr hkv)
  apply List.Nodup.of_map QueuedTask.taskId
  rw [h]
  exact q.tasks.nodup

/-- The line is in the order of arrival, each task in its own place. -/
theorem waitingTasks_sorted : q.waitingTasks.Pairwise fun t u => t.sequence < u.sequence := by
  have hchain : q.waitingTasks.IsChain
      (NotAfter (fun a b : ℕ => decide (a < b)) QueuedTask.sequence) :=
    sortedBy_chain (fun a b h => by simp only [decide_eq_true_eq, decide_eq_false_iff_not] at *; omega)
      _
  have hle : q.waitingTasks.Pairwise fun t u => t.sequence ≤ u.sequence := by
    have hmono := hchain.imp (S := fun t u : QueuedTask => t.sequence ≤ u.sequence)
      (fun t u h => by simpa [NotAfter] using h)
    have : IsTrans QueuedTask fun t u => t.sequence ≤ u.sequence := ⟨fun _ _ _ h h' => h.trans h'⟩
    exact List.isChain_iff_pairwise.mp hmono
  have hnodup : q.waitingTasks.Nodup :=
    (sortedBy_perm _).nodup_iff.mpr (values_nodup.filter _)
  refine (hle.and hnodup).imp_of_mem fun {t u} ht hu h => ?_
  refine lt_of_le_of_ne h.1 fun heq => h.2 ?_
  obtain ⟨hgt, _⟩ := mem_waitingTasks.mp ht
  obtain ⟨hgu, _⟩ := mem_waitingTasks.mp hu
  have hid := sequence_inj hgt hgu heq
  rw [hid, hgu] at hgt
  exact (Option.some.inj hgt).symm

theorem get?_forgetFinished {keep : List TaskId} :
    (q.forgetFinished keep).get? l = some t ↔
      q.get? l = some t ∧ (t.finished = true → l ∈ keep) := by
  rw [forgetFinished, get?_retain, Option.filter_eq_some_iff]
  cases t.finished <;> simp

end SafeQueue
end QronosAgent.Queue

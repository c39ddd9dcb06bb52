import QronosAgent.Queue.Scheduler

/-! What each operation of the scheduler can do to a task, its entry and the work in flight. Every
invariant is derived from these facts; none of them unfolds an operation again. -/
namespace QronosAgent.Queue
open Lib

def Entry.core (e : Entry) : Entry := { e with hold := .warmingUp, detail := [], preempted := none }

/-- Entries with one core agree on every gate. -/
theorem Entry.core_fields {e e' : Entry} (h : e.core = e'.core) :
    e.requiredVramMb = e'.requiredVramMb ∧ e.override = e'.override ∧
      e.floorRefusal = e'.floorRefusal ∧ e.finishedAt = e'.finishedAt ∧
      e.notBefore = e'.notBefore := by
  simp only [Entry.core, Entry.mk.injEq] at h
  exact ⟨h.1, h.2.2.2.1, h.2.2.2.2.1, h.2.2.2.2.2.2.1, h.2.2.2.2.2.2.2.1⟩

theorem Entry.of_map_core {o : Option Entry} {e : Entry} (h : o.map Entry.core = some e.core) :
    ∃ e', o = some e' ∧ e'.core = e.core := by
  obtain ⟨e', rfl, hcore⟩ := Option.map_eq_some_iff.mp h
  exact ⟨e', rfl, hcore⟩

namespace Scheduler
variable {cfg : Settings} {s s' : Scheduler} {now : Seconds} {taskId l : TaskId}

variable {f : Entry → Entry} {state : TaskState} {attempts : ℕ → ℕ} {weight : Weight}
  {summary : PyStr} {vram : ℤ} {b : Bool} {reply : Reply} {t : QueuedTask}

@[simp] theorem task?_amend : (s.amend taskId f).task? l = s.task? l := rfl

@[simp] theorem entryOf_amend : (s.amend taskId f).entryOf l =
    if l = taskId then (s.entryOf taskId).map f else s.entryOf l := Dict.get?_modify

@[simp] theorem amend_queue : (s.amend taskId f).queue = s.queue := rfl
@[simp] theorem amend_paused : (s.amend taskId f).paused = s.paused := rfl
def moved (s : Scheduler) (taskId : TaskId) (state : TaskState) (f : Entry → Entry) : Scheduler :=
  { s with queue := s.queue.moveTask taskId state }.amend taskId f

def movedBack (s : Scheduler) (taskId : TaskId) (attempts : ℕ → ℕ) (f : Entry → Entry) :
    Scheduler :=
  { s with queue := (s.queue.moveTask taskId .queued).setAttempts taskId attempts }.amend taskId f

@[simp] theorem task?_moved :
    (s.moved taskId state f).task? l =
      if l = taskId then (s.task? taskId).map (·.moveTo state) else s.task? l :=
  SafeQueue.get?_moveTask

@[simp] theorem entryOf_moved :
    (s.moved taskId state f).entryOf l =
      if l = taskId then (s.entryOf taskId).map f else s.entryOf l := entryOf_amend

@[simp] theorem task?_movedBack :
    (s.movedBack taskId attempts f).task? l =
      if l = taskId then (s.task? taskId).map fun t => (t.moveTo .queued).withAttempts attempts
      else s.task? l := by
  simp only [task?, movedBack, amend_queue, SafeQueue.get?_setAttempts, SafeQueue.get?_moveTask,
    if_pos, Option.map_map]
  split <;> rfl

@[simp] theorem entryOf_movedBack :
    (s.movedBack taskId attempts f).entryOf l =
      if l = taskId then (s.entryOf taskId).map f else s.entryOf l := entryOf_amend

theorem moving_transition {f : Scheduler → Scheduler} :
    s.moving (s.queue.transition taskId state) f = .ok s' ↔
      ∃ t, s.task? taskId = some t ∧ state ∈ t.state.allowed ∧
        s' = f { s with queue := s.queue.moveTask taskId state } := by
  cases hq : s.queue.transition taskId state with
  | error e =>
    simp only [moving, Except.map, reduceCtorEq, false_iff, not_exists, not_and]
    intro t ht hst
    rw [SafeQueue.transition_of_allowed ht hst] at hq
    cases hq
  | ok q =>
    obtain ⟨t, ht, hst, rfl⟩ := SafeQueue.transition_ok.mp hq
    simp only [moving, Except.map, Except.ok.injEq]
    constructor
    · intro h
      exact ⟨t, ht, hst, h.symm⟩
    · rintro ⟨_, _, _, h⟩
      exact h.symm

theorem moving_toQueued
    (h : s.moving ((s.queue.transition taskId .queued).map (·.setAttempts taskId attempts))
      (·.amend taskId f) = .ok s') :
    ∃ t, s.task? taskId = some t ∧ .queued ∈ t.state.allowed ∧
      s' = s.movedBack taskId attempts f := by
  cases hq : s.queue.transition taskId .queued with
  | error e => simp [hq, moving, Except.map] at h
  | ok q =>
    obtain ⟨t, ht, hst, rfl⟩ := SafeQueue.transition_ok.mp hq
    simp only [hq, moving, Except.map, Except.ok.injEq] at h
    exact ⟨t, ht, hst, h.symm⟩

theorem submit_ok (h : s.submit now taskId weight summary vram = .ok s') :
    s.task? taskId = none ∧ s'.inflight = s.inflight ∧ s'.governor = s.governor ∧
    (∃ e, e = Entry.fresh vram .warmingUp checking ∧ ∀ l, s'.entryOf l =
      if l = taskId then some e else s.entryOf l) ∧
    ∃ t : QueuedTask, t.state = .queued ∧ t.weight = weight ∧ ∀ l, s'.task? l =
      if l = taskId then some t else s.task? l := by
  unfold submit at h
  split_ifs at h
  cases hq : s.queue.submit now taskId weight summary.strip with
  | error e => simp [hq, moving, Except.map] at h
  | ok q =>
    obtain ⟨_, hnew, hget⟩ := SafeQueue.submit_ok hq
    simp only [hq, moving, Except.map] at h
    cases h
    exact ⟨hnew, rfl, rfl, ⟨_, rfl, fun l => Dict.get?_set⟩, _, rfl, rfl, hget⟩

theorem restore_ok {detail : PyStr} {attempts : ℤ} {queuedAt : Seconds}
    (h : s.restore taskId weight summary vram state queuedAt attempts detail = .ok s') :
    s.task? taskId = none ∧ s'.inflight = s.inflight ∧ s'.governor = s.governor ∧
    state.restorable = true ∧
    (∃ hold text, ∀ l, s'.entryOf l =
      if l = taskId then some (.fresh vram hold text) else s.entryOf l) ∧
    ∃ t : QueuedTask, t.state = state ∧ t.weight = weight ∧ ∀ l, s'.task? l =
      if l = taskId then some t else s.task? l := by
  unfold restore at h
  by_cases hb : summary.blank = true
  · simp [hb] at h
  rw [if_neg hb] at h
  cases hq : s.queue.restore taskId weight summary.strip state queuedAt attempts with
  | error e => simp [hq, moving, Except.map] at h
  | ok q =>
    obtain ⟨_, hnew, hstate, hget⟩ := SafeQueue.restore_ok hq
    simp only [hq, moving, Except.map] at h
    cases h
    exact ⟨hnew, rfl, rfl, hstate, ⟨_, _, fun l => Dict.get?_set⟩, _, rfl, rfl, hget⟩

theorem map_pair_ok {x : Except QueueError Scheduler} {b' : Bool}
    (h : x.map (·, b) = .ok (s', b')) : b' = b ∧ x = .ok s' := by
  cases x with
  | error e => simp [Except.map] at h
  | ok t =>
    simp only [Except.map, Except.ok.injEq, Prod.mk.injEq] at h
    exact ⟨h.2.symm, by rw [h.1]⟩

theorem pauseTask_ok (h : s.pauseTask taskId = .ok (s', b)) :
    (b = false ∧ s' = s) ∨
    (b = true ∧ ∃ t, s.task? taskId = some t ∧ t.state = .queued ∧
      s' = s.moved taskId .paused Entry.pausedByUser) := by
  unfold pauseTask at h
  cases ht : s.task? taskId with
  | none => simp [ht] at h
  | some t =>
    simp only [ht] at h
    split_ifs at h with hst
    · obtain ⟨rfl, hm⟩ := map_pair_ok h
      obtain ⟨_, _, _, rfl⟩ := moving_transition.mp hm
      exact .inr ⟨rfl, t, rfl, hst, rfl⟩
    · simp only [Except.ok.injEq, Prod.mk.injEq] at h
      exact .inl ⟨h.2.symm, h.1.symm⟩

theorem resumeTask_ok (h : s.resumeTask taskId = .ok (s', b)) :
    (b = false ∧ s' = s) ∨
    (b = true ∧ ∃ t, s.task? taskId = some t ∧ (t.state = .paused ∨ t.state = .interrupted) ∧
      s' = s.movedBack taskId (fun _ => 0) Entry.resumed) := by
  unfold resumeTask at h
  cases ht : s.task? taskId with
  | none => simp [ht] at h
  | some t =>
    simp only [ht] at h
    split_ifs at h with hst
    · obtain ⟨rfl, hm⟩ := map_pair_ok h
      obtain ⟨_, _, _, rfl⟩ := moving_toQueued hm
      exact .inr ⟨rfl, t, rfl, hst, rfl⟩
    · simp only [Except.ok.injEq, Prod.mk.injEq] at h
      exact .inl ⟨h.2.symm, h.1.symm⟩

theorem cancel_ok (h : s.cancel now taskId reply = .ok (s', b)) :
    (b = false ∧ s' = s ∧ reply = .answered false ∧
      ∃ t, s.task? taskId = some t ∧ t.state = .running) ∨
    (b = true ∧ (reply = .raised → s.entryOf taskId = none) ∧
      (reply = .answered false → (s.entryOf taskId).isSome →
        ∀ t, s.task? taskId = some t → t.state ≠ .running) ∧
      ∃ t, s.task? taskId = some t ∧ t.state.terminal = false ∧
      s' = s.moved taskId .cancelled
        (if taskId ∈ s.inflight then id else Entry.finished now)) := by
  unfold cancel at h
  cases ht : s.task? taskId with
  | none => simp [ht] at h
  | some t =>
    simp only [ht] at h
    by_cases hraised : reply = .raised ∧ (s.entryOf taskId).isSome
    · simp [hraised] at h
    rw [if_neg hraised] at h
    by_cases hrefused : reply = .answered false ∧ (s.entryOf taskId).isSome ∧ t.state = .running
    · rw [if_pos hrefused, Except.ok.injEq, Prod.mk.injEq] at h
      exact .inl ⟨h.2.symm, h.1.symm, hrefused.1, t, rfl, hrefused.2.2⟩
    · rw [if_neg hrefused] at h
      obtain ⟨rfl, hm⟩ := map_pair_ok h
      obtain ⟨t', ht', hst, rfl⟩ := moving_transition.mp hm
      rw [ht] at ht'
      cases ht'
      refine .inr ⟨rfl, ?_, ?_, t, rfl, TaskState.not_terminal_of_allowed hst, ?_⟩
      · intro hr
        cases he : s.entryOf taskId with
        | none => rfl
        | some e => exact absurd ⟨hr, by simp [he]⟩ hraised
      · intro hr he t' ht' hrun
        simp only [Option.some.injEq] at ht'
        exact hrefused ⟨hr, he, ht' ▸ hrun⟩
      · rfl

theorem interruptOne_ok (h : s.interruptOne taskId reply = .ok (s', b)) :
    s' = s ∨ ∃ t, s.task? taskId = some t ∧ t.state = .running ∧
      s' = s.moved taskId .interrupted Entry.closedWhileRunning := by
  unfold interruptOne at h
  split_ifs at h
  · simp only [Except.ok.injEq, Prod.mk.injEq] at h
    exact .inl h.1.symm
  · obtain ⟨rfl, hm⟩ := map_pair_ok h
    obtain ⟨t, ht, hst, rfl⟩ := moving_transition.mp hm
    refine .inr ⟨t, ht, ?_, rfl⟩
    cases hs : t.state <;> simp_all [TaskState.allowed]

theorem interruptAll_row (s : Scheduler) (reply : TaskId → Reply) (tasks : List QueuedTask) :
    (s.interruptAll reply tasks).inflight = s.inflight ∧
    (s.interruptAll reply tasks).governor = s.governor ∧
    ∀ l, ((s.interruptAll reply tasks).task? l = s.task? l ∧
        (s.interruptAll reply tasks).entryOf l = s.entryOf l) ∨
      ∃ t, s.task? l = some t ∧ t.state = .running ∧
        (s.interruptAll reply tasks).task? l = some (t.moveTo .interrupted) ∧
        (s.interruptAll reply tasks).entryOf l = (s.entryOf l).map Entry.closedWhileRunning := by
  induction tasks generalizing s with
  | nil => exact ⟨rfl, rfl, fun l => .inl ⟨rfl, rfl⟩⟩
  | cons task rest ih =>
    rw [interruptAll]
    cases ho : s.interruptOne task.taskId (reply task.taskId) with
    | error e => exact ⟨rfl, rfl, fun l => .inl ⟨rfl, rfl⟩⟩
    | ok p =>
      obtain ⟨s₁, b⟩ := p
      simp only
      rcases interruptOne_ok ho with rfl | ⟨t, ht, hrun, rfl⟩
      · exact ih _
      · obtain ⟨hin, hgov, hrow⟩ := ih (s.moved task.taskId .interrupted Entry.closedWhileRunning)
        refine ⟨hin, hgov, fun l => ?_⟩
        have hl := hrow l
        rw [task?_moved, entryOf_moved] at hl
        by_cases hid : l = task.taskId
        · rw [if_pos hid, if_pos hid, ht] at hl
          -- an interrupted task is not interrupted a second time
          rcases hl with ⟨htask, hentry⟩ | ⟨u, hu, hurun, _⟩
          · exact .inr ⟨t, hid ▸ ht, hrun, htask, hid ▸ hentry⟩
          · simp only [Option.map_some, Option.some.injEq] at hu
            rw [← hu] at hurun
            cases hurun
        · rw [if_neg hid, if_neg hid] at hl
          exact hl

theorem overridable_ok {e : Entry} : s.overridable? taskId = .ok (some e) ↔
    s.entryOf taskId = some e ∧ ∃ t, s.task? taskId = some t ∧ t.state = .queued := by
  unfold overridable?
  cases s.entryOf taskId with
  | none => simp
  | some e' =>
    cases s.task? taskId with
    | none => simp
    | some t =>
      by_cases hst : t.state = .queued <;> simp [hst]

theorem override_ok {sample : LoadSample} (h : s.override cfg taskId sample = .ok (s', b)) :
    (b = false ∧ s' = s ∧ s.overridable? taskId = .ok none) ∨
    ∃ e v, s.overridable? taskId = .ok (some e) ∧
      checkFloor sample cfg.floor e.floorRefusal.isSome e.requiredVramMb = .ok v ∧
      b = v.passed ∧
      s' = s.amend taskId (if v.passed then Entry.overridden else Entry.notOverridden v) := by
  unfold override at h
  cases ho : s.overridable? taskId with
  | error err => simp [ho, Except.bind] at h
  | ok entry =>
    cases entry with
    | none =>
      simp only [ho, Except.bind, Except.ok.injEq, Prod.mk.injEq] at h
      exact .inl ⟨h.2.symm, h.1.symm, rfl⟩
    | some e =>
      simp only [ho, Except.bind] at h
      cases hv : checkFloor sample cfg.floor e.floorRefusal.isSome e.requiredVramMb with
      | error err => simp [hv, Except.map] at h
      | ok v =>
        simp only [hv, Except.map, pressed, Except.ok.injEq] at h
        refine .inr ⟨e, v, rfl, hv, ?_⟩
        cases hp : v.passed with
        | true =>
          simp only [hp, if_true, Prod.mk.injEq] at h
          exact ⟨h.2.symm, h.1.symm⟩
        | false =>
          simp only [hp, Bool.false_eq_true, if_false, Prod.mk.injEq] at h
          exact ⟨h.2.symm, h.1.symm⟩

@[simp] theorem task?_discard : (s.discard taskId).task? l = s.task? l := rfl

@[simp] theorem entryOf_discard : (s.discard taskId).entryOf l =
    if l = taskId then (s.entryOf taskId).map Entry.stopConsumed else s.entryOf l := entryOf_amend

@[simp] theorem discard_governor : (s.discard taskId).governor = s.governor := rfl

/-- What the locked section of a report does: nothing more than giving up the place in flight
when the task or its entry is gone, the time alone when the task is no longer RUNNING, and the
outcome otherwise. -/
theorem closeRun_cases {result : WorkResult} (h : s.closeRun cfg now taskId result = .ok s') :
    ((s.entryOf taskId = none ∨ s.task? taskId = none) ∧ s' = s.discard taskId) ∨
    (∃ e t, s.entryOf taskId = some e ∧ s.task? taskId = some t ∧ t.state ≠ .running ∧
      s' = (s.discard taskId).amend taskId (Entry.finished now)) ∨
    ∃ e t, s.entryOf taskId = some e ∧ s.task? taskId = some t ∧ t.state = .running ∧
      ((∃ v, result.outcome = .deferred ∧ e.preempted = some v ∧
          s' = (s.discard taskId).movedBack taskId (· - 1) (Entry.stoppedByFloor v)) ∨
        (result.outcome = .deferred ∧ e.preempted = none ∧
          s' = (s.discard taskId).movedBack taskId
            (fun attempts => if result.countAttempt then attempts else attempts - 1)
            (Entry.deferred (now + cfg.retryAfterDeferralSeconds) result)) ∨
        ∃ state f, result.outcome ≠ .deferred ∧ state.terminal = true ∧
          (∀ e, (f e).core = (Entry.finished now e).core) ∧
          s' = (s.discard taskId).moved taskId state f) := by
  unfold closeRun at h
  cases he : s.entryOf taskId with
  | none =>
    simp only [he, Except.ok.injEq] at h
    exact .inl ⟨.inl rfl, h.symm⟩
  | some e =>
    cases ht : s.task? taskId with
    | none =>
      simp only [he, ht, Except.ok.injEq] at h
      exact .inl ⟨.inr rfl, h.symm⟩
    | some t =>
      simp only [he, ht] at h
      by_cases hrun : t.state = .running
      · rw [if_pos hrun] at h
        refine .inr (.inr ⟨e, t, rfl, rfl, hrun, ?_⟩)
        unfold recordOutcome at h
        cases ho : result.outcome with
        | deferred =>
          cases hp : e.preempted with
          | some v =>
            simp only [ho, hp] at h
            obtain ⟨_, _, _, rfl⟩ := moving_toQueued h
            exact .inl ⟨v, rfl, rfl, rfl⟩
          | none =>
            simp only [ho, hp] at h
            obtain ⟨_, _, _, rfl⟩ := moving_toQueued h
            exact .inr (.inl ⟨rfl, rfl, rfl⟩)
        | done =>
          simp only [ho] at h
          obtain ⟨_, _, _, rfl⟩ := moving_transition.mp h
          exact .inr (.inr ⟨.done, Entry.ended now result.detail, by simp, rfl, fun _ => rfl, rfl⟩)
        | failed =>
          simp only [ho] at h
          obtain ⟨_, _, _, rfl⟩ := moving_transition.mp h
          exact .inr (.inr ⟨.failed, Entry.ended now result.detail, by simp, rfl, fun _ => rfl, rfl⟩)
        | cancelled =>
          simp only [ho] at h
          obtain ⟨_, _, _, rfl⟩ := moving_transition.mp h
          exact .inr (.inr ⟨.cancelled, Entry.finished now, by simp, rfl, fun _ => rfl, rfl⟩)
      · rw [if_neg hrun, Except.ok.injEq] at h
        exact .inr (.inl ⟨e, t, rfl, rfl, hrun, h.symm⟩)

/-- Recording an outcome never fails: everything it does follows RUNNING. -/
theorem closeRun_isOk (cfg : Settings) (s : Scheduler) (now : Seconds) (taskId : TaskId)
    (result : WorkResult) : ∃ s', s.closeRun cfg now taskId result = .ok s' := by
  unfold closeRun
  cases he : s.entryOf taskId with
  | none => exact ⟨_, rfl⟩
  | some e =>
    cases ht : s.task? taskId with
    | none => exact ⟨_, rfl⟩
    | some t =>
      simp only
      by_cases hrun : t.state = .running
      · rw [if_pos hrun]
        have hto : ∀ state ∈ TaskState.running.allowed,
            (s.discard taskId).queue.transition taskId state =
              .ok ((s.discard taskId).queue.moveTask taskId state) := by
          intro state hst
          exact SafeQueue.transition_of_allowed (q := s.queue) ht (hrun ▸ hst)
        unfold recordOutcome
        cases result.outcome with
        | deferred =>
          cases e.preempted <;>
          simp only [SafeQueue.requeue, hto .queued (by simp [TaskState.allowed]), moving,
            Except.map] <;>
          exact ⟨_, rfl⟩
        | done =>
          simp only [SafeQueue.finish, if_true, hto .done (by simp [TaskState.allowed]), moving,
            Except.map]
          exact ⟨_, rfl⟩
        | failed =>
          simp only [SafeQueue.finish, Bool.false_eq_true, if_false,
            hto .failed (by simp [TaskState.allowed]), moving, Except.map]
          exact ⟨_, rfl⟩
        | cancelled =>
          simp only [SafeQueue.cancel, hto .cancelled (by simp [TaskState.allowed]), moving,
            Except.map]
          exact ⟨_, rfl⟩
      · rw [if_neg hrun]
        exact ⟨_, rfl⟩

/-- Housekeeping drops an entry exactly when it is old and its work is not in flight. -/
theorem entryOf_forgetOldEntries : (s.forgetOldEntries cfg now).entryOf l =
    (s.entryOf l).filter fun e => !s.stale cfg now l e := by
  unfold forgetOldEntries
  split_ifs with hany
  · exact Dict.get?_filter
  · cases he : s.entryOf l with
    | none => rfl
    | some e =>
      have hkeep : s.stale cfg now l e = false := by
        by_contra hne
        exact hany (List.any_eq_true.mpr ⟨(l, e), Dict.get?_eq_some.mp he, by simpa using hne⟩)
      simp only [Option.filter, hkeep, Bool.not_false, if_true]

theorem task?_forgetOldEntries_sub (h : (s.forgetOldEntries cfg now).task? l = some t) :
    s.task? l = some t := by
  unfold forgetOldEntries at h
  split_ifs at h
  · exact (SafeQueue.get?_forgetFinished.mp h).1
  · exact h

/-- A task that is not finished, or whose work is in flight, is never forgotten. -/
theorem task?_forgetOldEntries (ht : s.task? l = some t)
    (hkeep : t.finished = true → l ∈ s.inflight) :
    (s.forgetOldEntries cfg now).task? l = some t := by
  unfold forgetOldEntries
  split_ifs
  · exact SafeQueue.get?_forgetFinished.mpr ⟨ht, hkeep⟩
  · exact ht

theorem forgetOldEntries_frame (cfg : Settings) (s : Scheduler) (now : Seconds) :
    (s.forgetOldEntries cfg now).inflight = s.inflight ∧
    (s.forgetOldEntries cfg now).governor = s.governor ∧
    (s.forgetOldEntries cfg now).paused = s.paused ∧
    (s.forgetOldEntries cfg now).runtimePaused = s.runtimePaused := by
  unfold forgetOldEntries
  split_ifs <;> exact ⟨rfl, rfl, rfl, rfl⟩

theorem foldl_renewLease (ids : List TaskId) : ids.foldl (renewLease cfg now) s = { s with
    governor := ids.foldl (fun g taskId => (g.renew cfg.leaseSeconds now taskId).1) s.governor } := by
  induction ids generalizing s with
  | nil => rfl
  | cons taskId ids ih => rw [List.foldl_cons, ih, List.foldl_cons, renewLease]

theorem renewInflightLeases_eq : s.renewInflightLeases cfg now = { s with
    governor := s.inflight.foldl (fun g taskId => (g.renew cfg.leaseSeconds now taskId).1)
      s.governor } := foldl_renewLease _

/-- `t` is `s` with at most holds, their texts, pending stops and the bookkeeping of running
breaches changed. -/
structure SameGates (s t : Scheduler) : Prop where
  queue : t.queue = s.queue
  governor : t.governor = s.governor
  inflight : t.inflight = s.inflight
  paused : t.paused = s.paused
  runtimePaused : t.runtimePaused = s.runtimePaused
  entries : ∀ l, (t.entryOf l).map Entry.core = (s.entryOf l).map Entry.core

theorem SameGates.refl (s : Scheduler) : SameGates s s := ⟨rfl, rfl, rfl, rfl, rfl, fun _ => rfl⟩

theorem SameGates.trans {t u : Scheduler} (h : SameGates s t) (h' : SameGates t u) :
    SameGates s u where
  queue := h'.queue.trans h.queue
  governor := h'.governor.trans h.governor
  inflight := h'.inflight.trans h.inflight
  paused := h'.paused.trans h.paused
  runtimePaused := h'.runtimePaused.trans h.runtimePaused
  entries := fun l => (h'.entries l).trans (h.entries l)

theorem SameGates.task? {t : Scheduler} (h : SameGates s t) : t.task? l = s.task? l := by
  rw [Scheduler.task?, h.queue, Scheduler.task?]

theorem SameGates.amend (hf : ∀ e, (f e).core = e.core) :
    SameGates s (s.amend taskId f) where
  queue := rfl
  governor := rfl
  inflight := rfl
  paused := rfl
  runtimePaused := rfl
  entries := by
    intro l
    rw [entryOf_amend]
    split_ifs with h
    · rw [h, Option.map_map]
      congr 1
      exact funext hf
    · rfl

theorem SameGates.foldl {α : Type} {f : Scheduler → α → Scheduler}
    (hf : ∀ s a, SameGates s (f s a)) (as : List α) : SameGates s (as.foldl f s) := by
  induction as generalizing s with
  | nil => exact .refl s
  | cons a as ih => exact (hf s a).trans ih

theorem notifyUnstoppable_same (v : FloorVerdict) : SameGates s (s.notifyUnstoppable taskId v) := by
  unfold notifyUnstoppable
  split_ifs
  · exact .refl s
  · have h : SameGates s (s.amend taskId (Entry.noticed (v.message ++ cannotStop))) :=
      .amend fun _ => rfl
    exact { h with }

theorem protectOne_same (v : FloorVerdict) (reply : TaskId → Reply) (s : Scheduler)
    (taskId : TaskId) : SameGates s (s.protectOne v reply taskId) := by
  unfold protectOne
  split
  · exact .refl s
  · split_ifs
    · exact .refl s
    · split
      · exact notifyUnstoppable_same v
      · exact .amend fun _ => rfl
      · exact .refl s
      · exact (SameGates.amend (f := Entry.noticed v.message) fun _ => rfl).trans
          (notifyUnstoppable_same v)

theorem breachEnded_same : SameGates s s.breachEnded := ⟨rfl, rfl, rfl, rfl, rfl, fun _ => rfl⟩

theorem protectRunning_same (cfg : Settings) (s : Scheduler) (sample : LoadSample) (reply : TaskId → Reply) :
    SameGates s (s.protectRunning cfg sample reply) := by
  unfold protectRunning
  split_ifs
  · exact breachEnded_same
  · simp only
    split_ifs
    · exact breachEnded_same
    · exact ⟨rfl, rfl, rfl, rfl, rfl, fun _ => rfl⟩
    · refine SameGates.trans ?_ (SameGates.foldl (fun s taskId => protectOne_same _ _ s taskId) _)
      exact ⟨rfl, rfl, rfl, rfl, rfl, fun _ => rfl⟩

theorem holdEverything_same (hold : HoldReason) (detail : PyStr) :
    SameGates s (s.holdEverything hold detail) := by
  unfold holdEverything
  apply SameGates.foldl
  intro s task
  exact SameGates.amend (f := Entry.held hold detail) fun _ => rfl

/-- What housekeeping leaves: the tasks and entries it did not forget, with the same gates. -/
structure Housekept (cfg : Settings) (now : Seconds) (s t : Scheduler) : Prop where
  inflight : t.inflight = s.inflight
  paused : t.paused = s.paused
  runtimePaused : t.runtimePaused = s.runtimePaused
  governor : s.inflight = [] → t.governor = s.governor
  entries : ∀ l, (t.entryOf l).map Entry.core = ((s.entryOf l).filter fun e =>
    !s.stale cfg now l e).map Entry.core
  task_sub : ∀ l u, t.task? l = some u → s.task? l = some u
  task_keep : ∀ l u, s.task? l = some u → (u.finished = true → l ∈ s.inflight) →
    t.task? l = some u

theorem housekeep_spec (cfg : Settings) (s : Scheduler) (now : Seconds) (r : Reading) : Housekept cfg now s (s.housekeep cfg now r) := by
  have hsame := protectRunning_same cfg ((s.forgetOldEntries cfg now).renewInflightLeases cfg now) r.sample r.pauseReply
  obtain ⟨hin, hgov, hpaused, hruntime⟩ := forgetOldEntries_frame cfg s now
  rw [renewInflightLeases_eq] at hsame
  have heq : s.housekeep cfg now r = ({ s.forgetOldEntries cfg now with
      governor := (s.forgetOldEntries cfg now).inflight.foldl
        (fun g taskId => (g.renew cfg.leaseSeconds now taskId).1)
        (s.forgetOldEntries cfg now).governor } : Scheduler).protectRunning cfg r.sample
          r.pauseReply := by
    rw [housekeep, renewInflightLeases_eq]
  rw [← heq] at hsame
  refine ⟨hsame.inflight.trans hin, hsame.paused.trans hpaused,
    hsame.runtimePaused.trans hruntime, ?_, ?_, ?_, ?_⟩
  · intro hempty
    have hg := hsame.governor
    simp only [hin, hempty, List.foldl_nil] at hg
    rw [hg, hgov]
  · intro l
    rw [hsame.entries l, ← entryOf_forgetOldEntries]
    rfl
  · intro l u hu
    rw [hsame.task?] at hu
    exact task?_forgetOldEntries_sub hu
  · intro l u hu hkeep
    rw [hsame.task?]
    exact task?_forgetOldEntries hu hkeep

end Scheduler
end QronosAgent.Queue

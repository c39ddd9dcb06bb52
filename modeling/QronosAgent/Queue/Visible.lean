import Mathlib.Algebra.Order.Ring.Rat
import Mathlib.Tactic.Linarith
import QronosAgent.Queue.TaskSteps

/-! How long a finished task is listed: runs of the scheduler that note when each task ended and
which ticks came since. -/
namespace QronosAgent.Queue
open Lib Scheduler

namespace Scheduler

def isOver (s : Scheduler) (taskId : TaskId) : Bool :=
  (s.task? taskId).any QueuedTask.finished && taskId ∉ s.inflight

/-- Some entry is due to be forgotten. -/
def sweeps (cfg : Settings) (s : Scheduler) (now : Seconds) : Bool :=
  s.entries.items.any fun kv => s.stale cfg now kv.1 kv.2

/-- What is in flight after an operation. -/
def inflightAfter (cfg : Settings) (s : Scheduler) (now : Seconds) : Op → List TaskId
  | .tick r => (s.tick cfg now r).handed.toList ++ s.inflight
  | .report taskId _ => s.inflight.filter (· ≠ taskId)
  | _ => s.inflight

end Scheduler

structure Ended where
  taskId : TaskId
  endedAt : Seconds
  ticks : List Seconds
  deriving DecidableEq

namespace Ended

def seen (a : Seconds × Op) (e : Ended) : Ended :=
  match a.2 with
  | .tick _ => { e with ticks := a.1 :: e.ticks }
  | _ => e

/-- The id was not given to a new task. -/
def still (s : Scheduler) (e : Ended) : Bool := (s.task? e.taskId).all QueuedTask.finished

end Ended

/-- A scheduler's run, and the tasks that have ended in it, each until its id is used again. -/
structure Watched where
  sys : Sys
  ended : List Ended

namespace Watched

def newlyEnded (w : Watched) (s : Sys) : List Ended :=
  (s.sched.queue.tasks.keys.filter fun l => s.sched.isOver l && !w.sys.sched.isOver l).map
    (⟨·, s.now, []⟩)

def after (w : Watched) (a : Seconds × Op) (s : Sys) : Watched :=
  ⟨s, w.newlyEnded s ++ (w.ended.filter (·.still s.sched)).map (·.seen a)⟩

def step (cfg : Settings) (w : Watched) (a : Seconds × Op) : Option Watched :=
  (w.sys.step cfg a).map (w.after a)

end Watched

def watchedQueue (cfg : Settings) : Machine Watched (Seconds × Op) where
  start w := (w.sys.sched = .empty ∧ w.sys.handed = [] ∧ w.sys.log = []) ∧ w.ended = []
  step := Watched.step cfg

/-- A tick that finds the task listed less than the history after its end has no entry to forget; one
that finds it listed later finds its entry too, or another one to forget. -/
def Ended.InTime (cfg : Settings) (s : Scheduler) (now : Seconds) (e : Ended) : Prop :=
  if now < e.endedAt + cfg.historySeconds then s.sweeps cfg now = false
  else (s.entryOf e.taskId).isSome ∨ s.sweeps cfg now = true

instance {cfg : Settings} {s : Scheduler} {now : Seconds} {e : Ended} :
    Decidable (e.InTime cfg s now) :=
  inferInstanceAs (Decidable (if now < e.endedAt + cfg.historySeconds then
    s.sweeps cfg now = false else (s.entryOf e.taskId).isSome ∨ s.sweeps cfg now = true))

def Op.isTick : Op → Bool
  | .tick _ => true
  | _ => false

/-- Every tick comes in time for every task that is listed and has ended. -/
def KeepsHistory (cfg : Settings) (w : Watched) (a : Seconds × Op) : Prop :=
  a.2.isTick = true → ∀ e ∈ w.ended, (w.sys.sched.task? e.taskId).isSome →
    e.InTime cfg w.sys.sched a.1

instance {cfg : Settings} {w : Watched} {a : Seconds × Op} : Decidable (KeepsHistory cfg w a) :=
  inferInstanceAs (Decidable (a.2.isTick = true → ∀ e ∈ w.ended,
    (w.sys.sched.task? e.taskId).isSome → e.InTime cfg w.sys.sched a.1))

namespace Scheduler
variable {cfg : Settings} {s : Scheduler} {now : Seconds} {op : Op} {l : TaskId}

theorem mem_view : (∃ v ∈ s.view, v.taskId = l) ↔ (s.task? l).isSome := by
  unfold view SafeQueue.allTasks
  simp only [List.mem_map, mem_sortedBy, Dict.mem_values]
  constructor
  · rintro ⟨v, ⟨t, ⟨m, hm⟩, rfl⟩, rfl⟩
    have hid := s.queue.keyed m t hm
    rw [describe, hid, task?, SafeQueue.get?, hm]
    rfl
  · intro h
    obtain ⟨t, ht⟩ := Option.isSome_iff_exists.mp h
    exact ⟨_, ⟨t, ⟨l, ht⟩, rfl⟩, s.queue.keyed l t ht⟩

theorem inflight_noting {x : Except QueueError (Scheduler × Bool)} {events : Log}
    (h : ∀ s' b, x = .ok (s', b) → s'.inflight = s.inflight) :
    (s.noting events x).1.inflight = s.inflight := by
  cases x with
  | error e => rfl
  | ok p =>
    obtain ⟨s', b⟩ := p
    cases b with
    | true => exact h s' true rfl
    | false => exact h s' false rfl

theorem inflight_closeRun {result : WorkResult} {s' : Scheduler} {taskId : TaskId}
    (h : s.closeRun cfg now taskId result = .ok s') :
    s'.inflight = s.inflight.filter (· ≠ taskId) := by
  rcases closeRun_cases h with ⟨-, rfl⟩ | ⟨e, t, -, -, -, rfl⟩ | ⟨e, t, -, -, -, hend⟩
  · rfl
  · rfl
  · rcases hend with ⟨v, -, -, rfl⟩ | ⟨-, -, rfl⟩ | ⟨state, f, -, -, -, rfl⟩ <;> rfl

theorem mem_inflight (cfg : Settings) (s : Scheduler) (now : Seconds) (op : Op) (l : TaskId) :
    l ∈ (s.perform cfg now op).1.inflight ↔ l ∈ s.inflightAfter cfg now op := by
  cases op with
  | submit taskId weight summary vram =>
    unfold perform inflightAfter
    rw [inflight_noting]
    intro s' b h
    obtain ⟨-, hsub⟩ := map_pair_ok h
    exact (submit_ok hsub).2.1
  | restore taskId weight summary vram state queuedAt attempts detail =>
    unfold perform inflightAfter
    rw [inflight_noting]
    intro s' b h
    obtain ⟨-, hsub⟩ := map_pair_ok h
    exact (restore_ok hsub).2.1
  | pauseTask taskId =>
    unfold perform inflightAfter
    rw [inflight_noting]
    intro s' b h
    rcases pauseTask_ok h with ⟨-, rfl⟩ | ⟨-, t, -, -, rfl⟩ <;> rfl
  | resumeTask taskId =>
    unfold perform inflightAfter
    rw [inflight_noting]
    intro s' b h
    rcases resumeTask_ok h with ⟨-, rfl⟩ | ⟨-, t, -, -, rfl⟩ <;> rfl
  | override taskId sample =>
    unfold perform inflightAfter
    rw [inflight_noting]
    intro s' b h
    rcases override_ok h with ⟨-, rfl, -⟩ | ⟨e, v, -, -, -, rfl⟩
    · rfl
    · split_ifs <;> rfl
  | cancel taskId reply =>
    unfold perform inflightAfter
    rw [inflight_noting]
    intro s' b h
    rcases cancel_ok h with ⟨-, rfl, -⟩ | ⟨-, -, -, t, -, -, rfl⟩ <;> rfl
  | interruptRunning reply =>
    unfold perform inflightAfter interruptRunning
    rw [(interruptAll_row s reply s.queue.runningTasks).1]
  | setPaused paused => exact Iff.rfl
  | setRuntimePaused paused => exact Iff.rfl
  | tick r =>
    unfold perform inflightAfter
    rw [(tick_ticked cfg s now r).inflight, (housekeep_spec cfg s now r).inflight,
      List.mem_append, Option.mem_toList, or_comm]
  | report taskId result =>
    obtain ⟨s', hs'⟩ := closeRun_isOk cfg s now taskId result
    have hperform : (s.perform cfg now (.report taskId result)).1 = s'.releaseRun taskId := by
      simp only [perform, reportOutcome, hs', Except.map, noting]
    have hinflight : (s'.releaseRun taskId).inflight = s.inflight.filter (· ≠ taskId) :=
      (inflight_closeRun hs' :)
    rw [hperform, hinflight]
    rfl

theorem not_looked {r : Reading} {t : QueuedTask} (ht : s.task? l = some t)
    (hfin : t.finished = true) : ∀ p ∈ (s.tick cfg now r).looked, p.1.taskId ≠ l := by
  intro p hp hid
  obtain ⟨hget, hqueued⟩ := (tick_ticked cfg s now r).waiting p hp
  have hsub := (housekeep_spec cfg s now r).task_sub _ _ hget
  rw [hid, ht, Option.some.injEq] at hsub
  rw [hsub, QueuedTask.finished, hqueued] at hfin
  cases hfin

theorem task?_tick {r : Reading} {t : QueuedTask} (ht : s.task? l = some t)
    (hfin : t.finished = true) (hin : l ∉ s.inflight) :
    (s.tick cfg now r).sched.task? l = if s.sweeps cfg now then none else some t := by
  have hhouse : (s.housekeep cfg now r).task? l = (s.forgetOldEntries cfg now).task? l := by
    have hsame := protectRunning_same cfg ((s.forgetOldEntries cfg now).renewInflightLeases cfg now)
      r.sample r.pauseReply
    rw [housekeep, hsame.task?, renewInflightLeases_eq]
    rfl
  rw [(tick_ticked cfg s now r).task_other l (not_looked ht hfin), hhouse, forgetOldEntries]
  unfold sweeps
  split_ifs
  · apply Option.eq_none_iff_forall_not_mem.mpr
    intro u hu
    obtain ⟨hget, hkeep⟩ := SafeQueue.get?_forgetFinished.mp hu
    have hut : u = t := Option.some.inj (hget.symm.trans ht)
    exact hin (hkeep (hut ▸ hfin))
  · exact ht

theorem handed_idle {r : Reading} (h : (s.tick cfg now r).handed = some l) :
    s.inflight = [] ∧ ((s.tick cfg now r).sched.entryOf l).isSome := by
  have hkeep := housekeep_spec cfg s now r
  have hticked := tick_ticked cfg s now r
  rcases tick_cases cfg s now r with ⟨-, hold, detail, heq⟩ | ⟨-, heq⟩
  · rw [heq] at h
    cases h
  by_cases hidle : (s.housekeep cfg now r).queue.runningTasks = [] ∧
      (s.housekeep cfg now r).inflight = []
  swap
  · rw [heq, pass_busy hidle] at h
    cases h
  refine ⟨hkeep.inflight.symm.trans hidle.2, ?_⟩
  obtain ⟨p, hp, rfl, hadm⟩ := hticked.handed l h
  obtain ⟨s₁, looked, found, hsearch, hend⟩ := pass_idle cfg now r hidle
  -- what the tick looked at is what the search judged
  have hlooked : (s.tick cfg now r).looked = looked := by
    rw [heq]
    rcases hend with ⟨-, hpass⟩ | ⟨e, -, hpass⟩ | ⟨task, -, hpass⟩
    · rw [hpass]
    · rw [hpass]
    · rw [hpass]
      unfold startTask
      split
      · rfl
      · rfl
      · split <;> rfl
  have hjudged := hsearch.judged p (hlooked ▸ hp)
  rw [hadm] at hjudged
  obtain ⟨e, -, he, -⟩ := judge_admissible hjudged.symm
  have hentry := hticked.entry_looked p hp
  rw [show (s.housekeep cfg now r).entryOf p.1.taskId = some e from he, Option.map_some] at hentry
  obtain ⟨x, hx, -⟩ := Option.map_eq_some_iff.mp hentry
  rw [hx]
  rfl

theorem sweeps_of_stale {e : Entry} (he : s.entryOf l = some e) (h : s.stale cfg now l e = true) :
    s.sweeps cfg now = true := by
  apply List.any_eq_true.mpr
  exact ⟨(l, e), Dict.get?_eq_some.mp he, h⟩

end Scheduler

theorem not_terminal_of_restorable {state : TaskState} (h : state.restorable = true) :
    state.terminal = false := by
  cases state <;> first | rfl | cases h

variable {cfg : Settings} {now : Seconds} {op : Op} {s : Scheduler} {l : TaskId} {t : QueuedTask}
  {u : Option QueuedTask} {x : Option Entry} {evs : List TaskEvent}

theorem TaskStep.finished (h : TaskStep cfg now op s l u x evs) (ht : s.task? l = some t)
    (hfin : t.finished = true) (hreport : ∀ result, op ≠ .report l result) :
    ((∀ r, op ≠ .tick r) → u = some t) ∧
      ∀ y, x = some y → ∃ y₀, s.entryOf l = some y₀ ∧ y₀.finishedAt = y.finishedAt := by
  have hstate : ∀ {v : QueuedTask} {st : TaskState}, s.task? l = some v → v.state = st →
      st.terminal = true := by
    intro v st hv hst
    rw [ht, Option.some.injEq] at hv
    rw [← hst, ← hv]
    exact hfin
  cases h with
  | same hcore =>
    refine ⟨fun _ => ht, ?_⟩
    rintro y rfl
    rw [Option.map_some] at hcore
    obtain ⟨y₀, hy₀, heq⟩ := Option.map_eq_some_iff.mp hcore.symm
    exact ⟨y₀, hy₀, (Entry.core_fields heq).2.2.2.1⟩
  | admitted hnew =>
    rw [ht] at hnew
    cases hnew
  | paused _ hv hst => cases hstate hv hst
  | resumed _ hv hst => rcases hst with hst | hst <;> cases hstate hv hst
  | overridden _ hv hst => cases hstate hv hst
  | notOverridden _ hv hst => cases hstate hv hst
  | cancelled _ hv hst => exact absurd (hstate hv rfl) (by rw [hst]; exact Bool.false_ne_true)
  | interrupted hv hst => cases hstate hv hst
  | late hop => exact absurd hop (hreport _)
  | stopped hop => exact absurd hop (hreport _)
  | deferred hop => exact absurd hop (hreport _)
  | ended hop => exact absurd hop (hreport _)
  | looked _ _ hv hst => cases hstate hv hst
  | kept hop _ _ hcore =>
    refine ⟨fun hno => absurd hop (hno _), ?_⟩
    rintro y rfl
    rw [Option.map_some] at hcore
    obtain ⟨y₀, hy₀, heq⟩ := Option.map_eq_some_iff.mp hcore.symm
    exact ⟨y₀, (Option.filter_eq_some_iff.mp hy₀).1, (Entry.core_fields heq).2.2.2.1⟩

theorem TaskStep.absent (h : TaskStep cfg now op s l u x evs) (hnone : s.task? l = none) :
    u = none ∨ ∃ t, u = some t ∧ t.finished = false := by
  have hcontra : ∀ {v : QueuedTask}, s.task? l = some v → False := by
    intro v hv
    rw [hnone] at hv
    cases hv
  cases h with
  | same => exact .inl hnone
  | admitted _ hst => exact .inr ⟨_, rfl, not_terminal_of_restorable hst⟩
  | paused _ hv => exact (hcontra hv).elim
  | resumed _ hv => exact (hcontra hv).elim
  | overridden _ hv => exact (hcontra hv).elim
  | notOverridden _ hv => exact (hcontra hv).elim
  | cancelled _ hv => exact (hcontra hv).elim
  | interrupted hv => exact (hcontra hv).elim
  | late _ hv => exact (hcontra hv).elim
  | stopped _ hv => exact (hcontra hv).elim
  | deferred _ hv => exact (hcontra hv).elim
  | ended _ hv => exact (hcontra hv).elim
  | looked _ _ hv => exact (hcontra hv).elim
  | kept _ hsub =>
    cases u with
    | none => exact .inl rfl
    | some t => exact (hcontra (hsub t rfl)).elim

theorem inflightAfter_of_mem (h : l ∈ s.inflight) (hreport : ∀ result, op ≠ .report l result) :
    l ∈ s.inflightAfter cfg now op := by
  cases op with
  | tick r => exact List.mem_append_right _ h
  | report m result =>
    apply List.mem_filter.mpr
    refine ⟨h, decide_eq_true ?_⟩
    rintro rfl
    exact hreport result rfl
  | _ => exact h

theorem taskAfter_live {handed : Option TaskId} {p : QueuedTask × Judgement}
    (h : p.1.state = .queued) : (taskAfter handed p).finished = false := by
  unfold taskAfter
  split_ifs
  · rfl
  · rfl
  · rw [QueuedTask.finished, h]
    rfl

/-- Whatever ends a task but its own report dates its entry. -/
theorem TaskStep.newly (h : TaskStep cfg now op s l (some t) x evs) (hfin : t.finished = true)
    (hnot : s.isOver l = false) (hin : l ∉ s.inflightAfter cfg now op)
    (hreport : ∀ result, op ≠ .report l result) : ∀ y, x = some y → y.finishedAt = some now := by
  have hbefore : s.task? l ≠ some t := by
    intro ht
    rw [isOver, ht, Option.any_some, hfin, Bool.true_and, decide_eq_false_iff_not] at hnot
    exact hin (inflightAfter_of_mem (not_not.mp hnot) hreport)
  have hlive : ∀ {v : QueuedTask}, some v = some t → v.state.terminal = false → False := by
    rintro v hv hst
    rw [Option.some.injEq] at hv
    rw [hv] at hst
    rw [QueuedTask.finished, hst] at hfin
    cases hfin
  generalize hu : some t = u at h
  cases h with
  | same => exact absurd hu.symm hbefore
  | admitted _ hst => exact (hlive hu.symm (not_terminal_of_restorable hst)).elim
  | paused => exact (hlive hu.symm rfl).elim
  | resumed => exact (hlive hu.symm rfl).elim
  | overridden _ ht => exact absurd (ht.trans hu.symm) hbefore
  | notOverridden _ ht => exact absurd (ht.trans hu.symm) hbefore
  | cancelled hop =>
    subst hop
    intro y hy
    rw [if_neg (show l ∉ s.inflight from hin)] at hy
    obtain ⟨y₀, -, rfl⟩ := Option.map_eq_some_iff.mp hy
    rfl
  | interrupted => exact (hlive hu.symm rfl).elim
  | late hop => exact absurd hop (hreport _)
  | stopped hop => exact absurd hop (hreport _)
  | deferred hop => exact absurd hop (hreport _)
  | ended hop => exact absurd hop (hreport _)
  | looked _ _ _ hst => exact (hlive hu.symm (taskAfter_live hst)).elim
  | kept _ hsub => exact absurd (hsub t hu.symm) hbefore

theorem dated_report {y : Entry} {result : WorkResult} (hentry : (s.entryOf l).isSome)
    (ht : (s.perform cfg now (.report l result)).1.task? l = some t) (hfin : t.finished = true)
    (hy : (s.perform cfg now (.report l result)).1.entryOf l = some y) :
    y.finishedAt = some now := by
  obtain ⟨s', hs'⟩ := closeRun_isOk cfg s now l result
  have hperform : (s.perform cfg now (.report l result)).1 = s'.releaseRun l := by
    simp only [perform, reportOutcome, hs', Except.map, noting]
  rw [hperform] at ht hy
  change s'.task? l = some t at ht
  change s'.entryOf l = some y at hy
  rcases closeRun_cases hs' with ⟨hgone, rfl⟩ | ⟨e, u, he, hu, hst, rfl⟩ | ⟨e, u, he, hu, hrun, hend⟩
  · rcases hgone with hgone | hgone
    · rw [hgone] at hentry
      cases hentry
    · rw [task?_discard, hgone] at ht
      cases ht
  · rw [entryOf_amend, if_pos rfl] at hy
    obtain ⟨y₀, -, rfl⟩ := Option.map_eq_some_iff.mp hy
    rfl
  · rcases hend with ⟨v, -, -, rfl⟩ | ⟨-, -, rfl⟩ | ⟨state, f, -, -, hcore, rfl⟩
    · rw [task?_movedBack, if_pos rfl, task?_discard, hu, Option.map_some, Option.some.injEq] at ht
      rw [← ht] at hfin
      cases hfin
    · rw [task?_movedBack, if_pos rfl, task?_discard, hu, Option.map_some, Option.some.injEq] at ht
      rw [← ht] at hfin
      cases hfin
    · rw [entryOf_moved, if_pos rfl] at hy
      obtain ⟨y₀, -, rfl⟩ := Option.map_eq_some_iff.mp hy
      exact (Entry.core_fields (hcore y₀)).2.2.2.1

namespace Watched
variable {cfg : Settings} {w w' : Watched} {a : Seconds × Op} {s : Sys}

/-- What holds of a task that has ended: while it is listed its work is not in flight and its entry,
where there is one, has its date, and it is listed until a tick comes that is late enough. -/
structure Row (cfg : Settings) (s : Scheduler) (e : Ended) : Prop where
  ends : ∀ t, s.task? e.taskId = some t → t.finished = true ∧ e.taskId ∉ s.inflight
  dated : (s.task? e.taskId).isSome → ∀ x, s.entryOf e.taskId = some x →
    x.finishedAt = some e.endedAt
  listed : (s.task? e.taskId).isSome ↔ ∀ u ∈ e.ticks, u < e.endedAt + cfg.historySeconds

structure Inv (cfg : Settings) (w : Watched) : Prop where
  distinct : w.sys.handed.Nodup
  handed : ∀ l ∈ w.sys.handed, l ∈ w.sys.sched.inflight
  entry : ∀ l ∈ w.sys.sched.inflight, (w.sys.sched.entryOf l).isSome
  recorded : ∀ l, w.sys.sched.isOver l = true → ∃ e ∈ w.ended, e.taskId = l
  rows : ∀ e ∈ w.ended, Row cfg w.sys.sched e

theorem step_eq (h : w.step cfg a = some w') : w.sys.due a.2 = true ∧ w' = w.after a
    ⟨(w.sys.sched.perform cfg a.1 a.2).1, a.1, w.sys.handedAfter cfg a.1 a.2,
      (w.sys.sched.perform cfg a.1 a.2).2 ++ w.sys.log⟩ := by
  unfold step Sys.step at h
  split_ifs at h with hok
  · rw [Option.map_some, Option.some.injEq] at h
    exact ⟨hok.2, h.symm⟩
  · cases h

theorem mem_newlyEnded {e : Ended} : e ∈ w.newlyEnded s ↔ e.ticks = [] ∧ e.endedAt = s.now ∧
    s.sched.isOver e.taskId = true ∧ w.sys.sched.isOver e.taskId = false := by
  unfold newlyEnded
  simp only [List.mem_map, List.mem_filter, Bool.and_eq_true, Bool.not_eq_true']
  constructor
  · rintro ⟨l, ⟨-, hl⟩, rfl⟩
    exact ⟨rfl, rfl, hl⟩
  · rintro ⟨hticks, hat, hover, hnot⟩
    refine ⟨e.taskId, ⟨?_, hover, hnot⟩, ?_⟩
    · unfold isOver at hover
      obtain ⟨hfin, -⟩ := Bool.and_eq_true_iff.mp hover
      obtain ⟨t, ht, -⟩ := (Option.any_eq_true _ _).mp hfin
      apply Dict.isSome_get?.mp
      exact Option.isSome_iff_exists.mpr ⟨t, ht⟩
    · obtain ⟨l, at', ticks⟩ := e
      cases hticks
      cases hat
      rfl

theorem isOver_iff {s : Scheduler} {l : TaskId} : s.isOver l = true ↔
    (∃ t, s.task? l = some t ∧ t.finished = true) ∧ l ∉ s.inflight := by
  unfold isOver
  rw [Bool.and_eq_true, decide_eq_true_eq, Option.any_eq_true]

theorem seen_taskId (e : Ended) : (e.seen a).taskId = e.taskId := by
  unfold Ended.seen
  split <;> rfl

theorem seen_endedAt (e : Ended) : (e.seen a).endedAt = e.endedAt := by
  unfold Ended.seen
  split <;> rfl

theorem seen_of_ne_tick {e : Ended} (h : ∀ r, a.2 ≠ .tick r) : e.seen a = e := by
  unfold Ended.seen
  split
  · rename_i r heq
    exact absurd heq (h r)
  · rfl

theorem still_of {s : Scheduler} {e : Ended} {t : QueuedTask} (ht : s.task? e.taskId = some t)
    (hfin : t.finished = true) : e.still s = true := by
  rw [Ended.still, ht, Option.all_some, hfin]

section Rows
variable {s : Scheduler} {e : Ended} {now : Seconds} {op : Op}

theorem Row.absent (h : Row cfg s e) (hnone : s.task? e.taskId = none)
    (hstill : e.still (s.perform cfg now op).1 = true) :
    Row cfg (s.perform cfg now op).1 (e.seen (now, op)) := by
  have hgone : (s.perform cfg now op).1.task? e.taskId = none := by
    rcases (perform_steps cfg s now op e.taskId).absent hnone with hgone | ⟨t, ht, hlive⟩
    · exact hgone
    · rw [Ended.still, ht, Option.all_some, hlive] at hstill
      cases hstill
  have hlate : ¬ ∀ u ∈ e.ticks, u < e.endedAt + cfg.historySeconds := by
    intro hall
    have hsome := h.listed.mpr hall
    rw [hnone] at hsome
    cases hsome
  constructor
  · intro t ht
    rw [seen_taskId, hgone] at ht
    cases ht
  · intro hsome
    rw [seen_taskId, hgone] at hsome
    cases hsome
  · rw [seen_taskId, seen_endedAt, hgone]
    apply iff_of_false Bool.false_ne_true
    intro hall
    apply hlate
    intro u hu
    apply hall u
    unfold Ended.seen
    split
    · exact List.mem_cons_of_mem _ hu
    · exact hu

theorem Row.tick {r : Reading} (h : Row cfg s e) {t : QueuedTask} (ht : s.task? e.taskId = some t)
    (hok : e.InTime cfg s now) :
    Row cfg (s.perform cfg now (.tick r)).1 (e.seen (now, .tick r)) := by
  obtain ⟨hfin, hin⟩ := h.ends t ht
  have hsome : (s.task? e.taskId).isSome := Option.isSome_iff_exists.mpr ⟨t, ht⟩
  have htask : (s.perform cfg now (.tick r)).1.task? e.taskId =
      if s.sweeps cfg now then none else some t := task?_tick ht hfin hin
  have hsweeps : s.sweeps cfg now = true ↔ e.endedAt + cfg.historySeconds ≤ now := by
    unfold Ended.InTime at hok
    split_ifs at hok with hearly
    · rw [hok]
      exact iff_of_false Bool.false_ne_true (not_le.mpr hearly)
    · apply iff_of_true _ (not_lt.mp hearly)
      rcases hok with hentry | hsweeps
      · obtain ⟨x, hx⟩ := Option.isSome_iff_exists.mp hentry
        apply sweeps_of_stale hx
        rw [stale, Entry.old, h.dated hsome x hx, Option.any_some, Bool.and_eq_true,
          decide_eq_true_eq, decide_eq_true_eq]
        exact ⟨by linarith [not_lt.mp hearly], hin⟩
      · exact hsweeps
  constructor
  · intro u hu
    change (s.perform cfg now (.tick r)).1.task? e.taskId = some u at hu
    rw [htask] at hu
    split_ifs at hu
    cases hu
    refine ⟨hfin, ?_⟩
    change e.taskId ∉ _
    rw [mem_inflight]
    intro hmem
    rcases List.mem_append.mp hmem with hhanded | hmem
    · obtain ⟨p, hp, hid, -⟩ := (tick_ticked cfg s now r).handed _ (Option.mem_toList.mp hhanded)
      exact not_looked ht hfin p hp hid
    · exact hin hmem
  · intro _ x hx
    have hkept := ((perform_steps cfg s now (.tick r) e.taskId).finished ht hfin
      (fun _ h => by cases h)).2 x hx
    obtain ⟨x₀, hx₀, heq⟩ := hkept
    rw [← heq]
    exact h.dated hsome x₀ hx₀
  · change ((s.perform cfg now (.tick r)).1.task? e.taskId).isSome ↔
      ∀ u ∈ now :: e.ticks, u < e.endedAt + cfg.historySeconds
    rw [htask, List.forall_mem_cons]
    by_cases hs : s.sweeps cfg now = true
    · rw [if_pos hs]
      exact iff_of_false Bool.false_ne_true fun hall => absurd (hsweeps.mp hs) (not_le.mpr hall.1)
    · rw [if_neg hs]
      exact iff_of_true rfl ⟨not_le.mp (mt hsweeps.mpr hs), h.listed.mp hsome⟩

theorem Row.perform (h : Row cfg s e)
    (hreport : ∀ result, op = .report e.taskId result → e.taskId ∈ s.inflight)
    (hok : op.isTick = true → (s.task? e.taskId).isSome → e.InTime cfg s now)
    (hstill : e.still (s.perform cfg now op).1 = true) :
    Row cfg (s.perform cfg now op).1 (e.seen (now, op)) := by
  cases ht : s.task? e.taskId with
  | none => exact h.absent ht hstill
  | some t =>
    by_cases htick : ∃ r, op = .tick r
    · obtain ⟨r, rfl⟩ := htick
      exact h.tick ht (hok rfl (by rw [ht]; rfl))
    obtain ⟨hfin, hin⟩ := h.ends t ht
    have hsome : (s.task? e.taskId).isSome := Option.isSome_iff_exists.mpr ⟨t, ht⟩
    obtain ⟨htask, hentry⟩ := (perform_steps cfg s now op e.taskId).finished ht hfin
      fun result heq => hin (hreport result heq)
    have hstay := htask fun r heq => htick ⟨r, heq⟩
    rw [seen_of_ne_tick fun r heq => htick ⟨r, heq⟩]
    constructor
    · intro u hu
      rw [hstay, Option.some.injEq] at hu
      refine ⟨hu ▸ hfin, ?_⟩
      rw [mem_inflight]
      unfold inflightAfter
      split
      · exact absurd ⟨_, rfl⟩ htick
      · exact fun hmem => hin (List.mem_filter.mp hmem).1
      · exact hin
    · intro _ x hx
      obtain ⟨x₀, hx₀, heq⟩ := hentry x hx
      rw [← heq]
      exact h.dated hsome x₀ hx₀
    · rw [hstay, ← h.listed, ht]

theorem Row.newly (hentry : ∀ result, op = .report e.taskId result → (s.entryOf e.taskId).isSome)
    (hticks : e.ticks = []) (hat : e.endedAt = now)
    (hover : (s.perform cfg now op).1.isOver e.taskId = true) (hnot : s.isOver e.taskId = false) :
    Row cfg (s.perform cfg now op).1 e := by
  obtain ⟨⟨t, ht, hfin⟩, hin⟩ := isOver_iff.mp hover
  constructor
  · intro u hu
    rw [ht, Option.some.injEq] at hu
    exact ⟨hu ▸ hfin, hin⟩
  · intro _ x hx
    rw [hat]
    by_cases hreport : ∃ result, op = .report e.taskId result
    · obtain ⟨result, rfl⟩ := hreport
      exact dated_report (hentry result rfl) ht hfin hx
    · have hstep := perform_steps cfg s now op e.taskId
      rw [ht] at hstep
      rw [mem_inflight] at hin
      exact hstep.newly hfin hnot hin (fun result heq => hreport ⟨result, heq⟩) x hx
  · rw [ht, hticks]
    exact iff_of_true rfl fun u hu => by cases hu

/-- What is in flight keeps its entry, and what is handed out has one. -/
theorem entry_perform (hentry : ∀ l ∈ s.inflight, (s.entryOf l).isSome) :
    ∀ l ∈ (s.perform cfg now op).1.inflight, ((s.perform cfg now op).1.entryOf l).isSome := by
  intro l hl
  rw [mem_inflight] at hl
  by_cases hin : l ∈ s.inflight
  · have hold := hentry l hin
    have hkept : ∀ {x : Option Entry} {f : Entry → Entry},
        x.map Entry.core = ((s.entryOf l).filter fun e => !s.stale cfg now l e).map f →
          x.isSome := by
      intro x f hcore
      obtain ⟨e₀, he₀⟩ := Option.isSome_iff_exists.mp hold
      have hfresh : s.stale cfg now l e₀ = false := by
        rw [stale, decide_eq_false (not_not.mpr hin), Bool.and_false]
      rw [he₀, Option.filter_some, hfresh, Bool.not_false, if_pos rfl] at hcore
      obtain ⟨x₀, hx₀, -⟩ := Option.map_eq_some_iff.mp hcore
      rw [hx₀]
      rfl
    have hstep := perform_steps cfg s now op l
    generalize (s.perform cfg now op).1.entryOf l = x at hstep ⊢
    generalize (s.perform cfg now op).1.task? l = u at hstep
    generalize Log.about (s.perform cfg now op).2 l = evs at hstep
    cases hstep with
    | same hcore => rw [← Option.isSome_map, hcore, Option.isSome_map]; exact hold
    | admitted => rfl
    | paused | resumed | overridden | notOverridden | cancelled | interrupted =>
      rw [Option.isSome_map]
      exact hold
    | late | stopped | deferred | ended =>
      rw [Option.isSome_map, Option.isSome_map]
      exact hold
    | looked _ _ _ _ _ _ hcore => exact hkept hcore
    | kept _ _ _ hcore => exact hkept hcore
  · cases op with
    | tick r =>
      rcases List.mem_append.mp hl with hhanded | hmem
      · exact (handed_idle (Option.mem_toList.mp hhanded)).2
      · exact absurd hmem hin
    | report m result => exact absurd (List.mem_filter.mp hl).1 hin
    | _ => exact absurd hl hin

end Rows

theorem Inv.handedAfter (h : Inv cfg w) : (w.sys.handedAfter cfg a.1 a.2).Nodup ∧
    ∀ l ∈ w.sys.handedAfter cfg a.1 a.2, l ∈ (w.sys.sched.perform cfg a.1 a.2).1.inflight := by
  obtain ⟨now, op⟩ := a
  simp only [mem_inflight]
  cases op with
  | tick r =>
    constructor
    · change ((w.sys.sched.tick cfg now r).handed.toList ++ w.sys.handed).Nodup
      cases hr : (w.sys.sched.tick cfg now r).handed with
      | none => exact h.distinct
      | some l =>
        -- nothing is in flight, so no run is out
        have hnone : w.sys.handed = [] := by
          apply List.eq_nil_iff_forall_not_mem.mpr
          intro m hm
          have hin := h.handed m hm
          rw [(handed_idle hr).1] at hin
          cases hin
        rw [hnone]
        exact List.nodup_singleton l
    · intro l hl
      rcases List.mem_append.mp hl with hhanded | hold
      · exact List.mem_append_left _ hhanded
      · exact List.mem_append_right _ (h.handed l hold)
  | report m result =>
    refine ⟨h.distinct.erase m, fun l hl => ?_⟩
    obtain ⟨hne, hold⟩ := h.distinct.mem_erase_iff.mp hl
    exact List.mem_filter.mpr ⟨h.handed l hold, decide_eq_true hne⟩
  | _ => exact ⟨h.distinct, h.handed⟩

theorem Inv.step (h : Inv cfg w) (hok : KeepsHistory cfg w a) (hstep : w.step cfg a = some w') :
    Inv cfg w' := by
  obtain ⟨hdue, rfl⟩ := step_eq hstep
  obtain ⟨hdistinct, hhanded⟩ := h.handedAfter (a := a)
  have hout : ∀ l result, a.2 = .report l result → l ∈ w.sys.sched.inflight := by
    intro l result heq
    rw [heq] at hdue
    exact h.handed l (of_decide_eq_true hdue)
  constructor
  · exact hdistinct
  · exact hhanded
  · exact entry_perform h.entry
  · intro l hover
    by_cases hbefore : w.sys.sched.isOver l = true
    · obtain ⟨e, he, rfl⟩ := h.recorded l hbefore
      refine ⟨e.seen a, List.mem_append_right _ (List.mem_map_of_mem ?_), seen_taskId e⟩
      obtain ⟨⟨t, ht, hfin⟩, -⟩ := isOver_iff.mp hover
      exact List.mem_filter.mpr ⟨he, still_of ht hfin⟩
    · refine ⟨⟨l, a.1, []⟩, List.mem_append_left _ ?_, rfl⟩
      exact mem_newlyEnded.mpr ⟨rfl, rfl, hover, Bool.eq_false_of_not_eq_true hbefore⟩
  · intro e he
    rcases List.mem_append.mp he with hnew | hold
    · obtain ⟨hticks, hat, hover, hnot⟩ := mem_newlyEnded.mp hnew
      exact Row.newly (fun result heq => h.entry _ (hout _ result heq)) hticks hat hover hnot
    · obtain ⟨e₀, he₀, rfl⟩ := List.mem_map.mp hold
      obtain ⟨hmem, hstill⟩ := List.mem_filter.mp he₀
      exact (h.rows e₀ hmem).perform (fun result heq => hout _ result heq)
        (fun htick hsome => hok htick e₀ hmem hsome) hstill

theorem reach_inv (hr : (watchedQueue cfg).Reach (KeepsHistory cfg) w) : Inv cfg w := by
  induction hr with
  | start h0 =>
    obtain ⟨⟨hsched, hhanded, -⟩, hended⟩ := h0
    constructor
    · rw [hhanded]
      exact List.nodup_nil
    · rw [hhanded]
      exact fun l hl => by cases hl
    · rw [hsched]
      exact fun l hl => by cases hl
    · intro l hl
      rw [hsched] at hl
      cases hl
    · rw [hended]
      exact fun e he => by cases he
  | step _ hok hstep ih => exact ih.step hok hstep

end Watched

/-- A finished task stays listed until the first tick that finds it old enough, in runs whose ticks
meet the condition. -/
theorem visible_for_history (cfg : Settings) : ∀ w, (watchedQueue cfg).Reach (KeepsHistory cfg) w →
    (∀ l, w.sys.sched.isOver l = true → ∃ e ∈ w.ended, e.taskId = l) ∧
    ∀ e ∈ w.ended, (∃ v ∈ w.sys.sched.view, v.taskId = e.taskId) ↔
      ∀ u ∈ e.ticks, u < e.endedAt + cfg.historySeconds := by
  intro w hr
  have hinv := Watched.reach_inv hr
  refine ⟨hinv.recorded, fun e he => ?_⟩
  rw [mem_view]
  exact (hinv.rows e he).listed

section Samples

def watchedStart : Watched := ⟨⟨.empty, 0, [], []⟩, []⟩

def idleReading : Reading :=
  ⟨⟨20, some 8000, some 50, 0, none, none, none, false, false, none⟩, .free, false, .normal,
    fun _ => .answered true⟩

def submitAt (now : Seconds) (taskId : String) : Seconds × Op :=
  (now, .submit (py taskId) .light (py "list") 0)

def cancelAt (now : Seconds) (taskId : String) : Seconds × Op := (now, .cancel (py taskId) .absent)

theorem visible_for_history_sample : ∃ w, (watchedQueue {}).Reach (KeepsHistory {}) w ∧
    ⟨py "a", 1, [5]⟩ ∈ w.ended ∧ ∃ v ∈ w.sys.sched.view, v.taskId = py "a" := by
  have hrun : ((watchedQueue {}).execChecked (fun w a => decide (KeepsHistory {} w a)) watchedStart
      [submitAt 0 "a", cancelAt 1 "a", (5, .tick idleReading)]).any (fun w =>
        decide (⟨py "a", 1, [5]⟩ ∈ w.ended)) = true := by decide +kernel
  obtain ⟨w, hw, hmem⟩ := (Option.any_eq_true _ _).mp hrun
  have hended : ⟨py "a", 1, [5]⟩ ∈ w.ended := of_decide_eq_true hmem
  have hreach : (watchedQueue {}).Reach (KeepsHistory {}) w :=
    Machine.Reach.execChecked (fun _ _ h => of_decide_eq_true h)
      (.start ⟨⟨rfl, rfl, rfl⟩, rfl⟩) hw
  refine ⟨w, hreach, hended, ?_⟩
  apply ((visible_for_history {} w hreach).2 _ hended).mpr
  intro u hu
  cases List.mem_singleton.mp hu
  decide +kernel

/-- A task that ended a second ago goes with one that ended five minutes ago; and one that was
cancelled after its entry was forgotten stays for good. -/
theorem swept_early_and_never :
    (∃ w, (watchedQueue {}).Reachable w ∧ ⟨py "b", 300, [301]⟩ ∈ w.ended ∧
      ¬ ∃ v ∈ w.sys.sched.view, v.taskId = py "b") ∧
    ∃ w, (watchedQueue {}).Reachable w ∧ ⟨py "a", 304, [1000]⟩ ∈ w.ended ∧
      ∃ v ∈ w.sys.sched.view, v.taskId = py "a" := by
  constructor
  · have hrun : ((watchedQueue {}).exec watchedStart
        [submitAt 0 "a", submitAt 0 "b", cancelAt 1 "a", cancelAt 300 "b",
          (301, .tick idleReading)]).any (fun w =>
          decide (⟨py "b", 300, [301]⟩ ∈ w.ended ∧ w.sys.sched.task? (py "b") = none)) = true := by
      decide +kernel
    obtain ⟨w, hw, h⟩ := (Option.any_eq_true _ _).mp hrun
    obtain ⟨hended, hgone⟩ := of_decide_eq_true h
    refine ⟨w, Machine.reachable_exec ⟨⟨rfl, rfl, rfl⟩, rfl⟩ hw, hended, ?_⟩
    rw [mem_view, hgone]
    exact Bool.false_ne_true
  · have hrun : ((watchedQueue {}).exec watchedStart
        [submitAt 0 "a", (1, .tick idleReading), (2, .interruptRunning fun _ => .answered true),
          (3, .report (py "a") ⟨.cancelled, [], none, true⟩), (303, .tick idleReading),
          cancelAt 304 "a", (1000, .tick idleReading)]).any (fun w =>
          decide (⟨py "a", 304, [1000]⟩ ∈ w.ended ∧ (w.sys.sched.task? (py "a")).isSome)) =
          true := by
      decide +kernel
    obtain ⟨w, hw, h⟩ := (Option.any_eq_true _ _).mp hrun
    obtain ⟨hended, hthere⟩ := of_decide_eq_true h
    exact ⟨w, Machine.reachable_exec ⟨⟨rfl, rfl, rfl⟩, rfl⟩ hw, hended, mem_view.mpr hthere⟩

end Samples

end QronosAgent.Queue

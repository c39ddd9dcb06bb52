import Mathlib
import QronosAgent.Queue.TaskSteps

/-! No accepted task is lost: a task that is not finished keeps its entry, and once its gates are
open a tick starts it or a task ahead of it. Both need every report to find its task where the run
left it; a report that comes after the task was interrupted dates its entry, and housekeeping then
drops it. -/
namespace QronosAgent.Queue
open Lib Scheduler

/-- A run is reported while its task is still RUNNING, or finished for good, or gone; and no task
asks for a negative amount of memory. -/
def InTime (s : Sys) (a : Seconds × Op) : Prop :=
  (∀ taskId result, a.2 = .report taskId result → ∀ t, s.sched.task? taskId = some t →
    t.state = .running ∨ t.finished = true) ∧
  ∀ vram, a.2.requiredVramMb? = some vram → 0 ≤ vram

structure Kept (s : Scheduler) : Prop where
  entry : ∀ l t, s.task? l = some t → t.finished = false →
    ∃ e, s.entryOf l = some e ∧ e.finishedAt = none
  memory : ∀ l e, s.entryOf l = some e → 0 ≤ e.requiredVramMb

variable {cfg : Settings} {s s' : Sys} {a : Seconds × Op} {l : TaskId}

def KeptRow (t : Option QueuedTask) (e : Option Entry) : Prop :=
  (∀ u, t = some u → u.finished = false → ∃ e', e = some e' ∧ e'.finishedAt = none) ∧
  ∀ e', e = some e' → 0 ≤ e'.requiredVramMb

theorem entryAfter_fields (level : LoadLevel) (now : Seconds) (handed : Option TaskId)
    (p : QueuedTask × Judgement) (e : Entry) :
    (entryAfter level now handed p e).finishedAt = e.finishedAt ∧
      (entryAfter level now handed p e).requiredVramMb = e.requiredVramMb := by
  unfold entryAfter
  split_ifs <;> cases p.2 <;> exact ⟨rfl, rfl⟩

variable {now : Seconds} {e : Option Entry} {t : QueuedTask} {t' : Option QueuedTask}
  {f : Entry → Entry} {mode : ActivityMode} {g : ResourceGovernor}

/-- An entry without a date survives housekeeping. -/
theorem not_stale {s : Scheduler} {e : Entry} (h : e.finishedAt = none) :
    s.stale cfg now l e = false := by
  simp [stale, Entry.old, h]

/-- A row stays kept when its gates stay and its task is not revived. -/
theorem KeptRow.same {t : Option QueuedTask} {e' : Option Entry} (h : KeptRow t e)
    (hcore : e'.map Entry.core = e.map Entry.core)
    (htask : ∀ u, t' = some u → u.finished = false → ∃ u', t = some u' ∧ u'.finished = false) :
    KeptRow t' e' := by
  constructor
  · intro u hu hlive
    obtain ⟨u', hu', hlive'⟩ := htask u hu hlive
    obtain ⟨e₀, he₀, hnone⟩ := h.1 u' hu' hlive'
    rw [he₀] at hcore
    obtain ⟨e₁, he₁, heq⟩ := Entry.of_map_core hcore
    obtain ⟨-, -, -, hfin, -⟩ := Entry.core_fields heq
    exact ⟨e₁, he₁, hfin.trans hnone⟩
  · rintro e₁ rfl
    obtain ⟨e₀, he₀, heq⟩ := Entry.of_map_core hcore.symm
    obtain ⟨hvram, -⟩ := Entry.core_fields heq
    rw [← hvram]
    exact h.2 e₀ he₀

/-- A change of the entry that sets no date and keeps the memory asked for. -/
theorem KeptRow.amended {t : Option QueuedTask} (h : KeptRow t e)
    (hfin : ∀ e, e.finishedAt = none → (f e).finishedAt = none)
    (hvram : ∀ e, (f e).requiredVramMb = e.requiredVramMb)
    (htask : ∀ u, t' = some u → u.finished = false → ∃ u', t = some u' ∧ u'.finished = false) :
    KeptRow t' (e.map f) := by
  constructor
  · intro u hu hlive
    obtain ⟨u', hu', hlive'⟩ := htask u hu hlive
    obtain ⟨e₀, he₀, hnone⟩ := h.1 u' hu' hlive'
    exact ⟨f e₀, by rw [he₀]; rfl, hfin e₀ hnone⟩
  · intro e₁ he₁
    obtain ⟨e₀, he₀, rfl⟩ := Option.map_eq_some_iff.mp he₁
    rw [hvram]
    exact h.2 e₀ he₀

/-- A finished task needs no entry, whatever is done to the one it has. -/
theorem KeptRow.finished (ht : t.finished = true)
    (hvram : ∀ e₁, e = some e₁ → 0 ≤ e₁.requiredVramMb) : KeptRow (some t) e := by
  refine ⟨?_, hvram⟩
  rintro u hu hlive
  rw [Option.some.injEq] at hu
  rw [← hu, ht] at hlive
  cases hlive

/-- Housekeeping forgets no entry of a task that is not finished. -/
theorem KeptRow.housekept {s : Scheduler} {t : Option QueuedTask}
    (h : KeptRow (s.task? l) (s.entryOf l))
    (hf : ∀ e, (f e).finishedAt = e.finishedAt ∧ (f e).requiredVramMb = e.requiredVramMb)
    (hcore : e.map Entry.core =
      ((s.entryOf l).filter fun e => !s.stale cfg now l e).map fun e => (f e).core)
    (htask : ∀ u, t = some u → u.finished = false →
      ∃ u', s.task? l = some u' ∧ u'.finished = false) : KeptRow t e := by
  constructor
  · intro u hu hlive
    obtain ⟨u', hu', hlive'⟩ := htask u hu hlive
    obtain ⟨e₀, he₀, hnone⟩ := h.1 u' hu' hlive'
    rw [he₀, Option.filter_some, if_pos (by simp [not_stale hnone]), Option.map_some] at hcore
    obtain ⟨e₁, he₁, heq⟩ := Entry.of_map_core hcore
    obtain ⟨-, -, -, hfin, -⟩ := Entry.core_fields heq
    exact ⟨e₁, he₁, (hfin.trans (hf e₀).1).trans hnone⟩
  · rintro e₁ rfl
    rw [Option.map_some] at hcore
    obtain ⟨e₀, he₀, heq⟩ := Option.map_eq_some_iff.mp hcore.symm
    obtain ⟨hvram, -⟩ := Entry.core_fields heq
    rw [← hvram, (hf e₀).2]
    exact h.2 e₀ (Option.filter_eq_some_iff.mp he₀).1

theorem waiting_live (h : t.state = .queued) : t.finished = false := by
  simp [QueuedTask.finished, h, TaskState.terminal]

theorem running_live (h : t.state = .running) : t.finished = false := by
  simp [QueuedTask.finished, h, TaskState.terminal]

theorem taskStep_kept {op : Op} {s : Scheduler} {t : Option QueuedTask} {evs : List TaskEvent}
    (hrow : KeptRow (s.task? l) (s.entryOf l))
    (hreport : ∀ result, op = .report l result → ∀ t, s.task? l = some t →
      t.state = .running ∨ t.finished = true)
    (hvram : ∀ vram, op.requiredVramMb? = some vram → 0 ≤ vram)
    (h : TaskStep cfg now op s l t e evs) : KeptRow t e := by
  have hlive : ∀ {u : QueuedTask} {t' : Option QueuedTask}, s.task? l = some u →
      u.finished = false → ∀ v, t' = some v → v.finished = false →
      ∃ u', s.task? l = some u' ∧ u'.finished = false :=
    fun hu hst _ _ _ => ⟨_, hu, hst⟩
  cases h with
  | same hcore => exact hrow.same hcore fun u hu h => ⟨u, hu, h⟩
  | admitted hnew hstate hop =>
    refine ⟨fun u _ _ => ⟨_, rfl, rfl⟩, ?_⟩
    intro e he
    cases he
    exact hvram _ hop
  | paused _ ht hst =>
    exact hrow.amended (fun _ h => h) (fun _ => rfl) (hlive ht (waiting_live hst))
  | resumed _ ht hst =>
    refine hrow.amended (fun _ _ => rfl) (fun _ => rfl) (hlive ht ?_)
    rcases hst with hst | hst <;> simp [QueuedTask.finished, hst, TaskState.terminal]
  | overridden _ ht hst _ _ _ =>
    exact hrow.amended (fun _ h => h) (fun _ => rfl) (hlive ht (waiting_live hst))
  | notOverridden _ ht hst _ _ _ =>
    exact hrow.amended (fun _ h => h) (fun _ => rfl) (hlive ht (waiting_live hst))
  | cancelled _ ht hst =>
    apply KeptRow.finished rfl
    intro e he
    obtain ⟨e₀, he₀, rfl⟩ := Option.map_eq_some_iff.mp he
    split_ifs
    · exact hrow.2 e₀ he₀
    · exact hrow.2 e₀ he₀
  | interrupted ht hst =>
    exact hrow.amended (fun _ h => h) (fun _ => rfl) (hlive ht (running_live hst))
  | late hop ht hst _ =>
    -- the report came in time, so the task it finds has ended
    rcases hreport _ hop _ ht with hrun | hfin
    · exact absurd hrun hst
    · apply KeptRow.finished hfin
      intro e he
      obtain ⟨e₀, he₀, rfl⟩ := Option.map_eq_some_iff.mp he
      obtain ⟨e₁, he₁, rfl⟩ := Option.map_eq_some_iff.mp he₀
      exact hrow.2 e₁ he₁
  | stopped _ ht hst _ =>
    rw [Option.map_map]
    exact hrow.amended (fun _ h => h) (fun _ => rfl) (hlive ht (running_live hst))
  | deferred _ ht hst _ =>
    rw [Option.map_map]
    exact hrow.amended (fun _ h => h) (fun _ => rfl) (hlive ht (running_live hst))
  | ended _ ht hst _ hterm hcore =>
    apply KeptRow.finished (show (QueuedTask.moveTo _ _).finished = true from hterm)
    intro e he
    obtain ⟨e₀, he₀, rfl⟩ := Option.map_eq_some_iff.mp he
    obtain ⟨e₁, he₁, rfl⟩ := Option.map_eq_some_iff.mp he₀
    rw [(Entry.core_fields (hcore _)).1]
    exact hrow.2 e₁ he₁
  | looked _ hid ht hst _ _ hcore =>
    refine hrow.housekept (entryAfter_fields _ _ _ _) hcore ?_
    exact hlive ht (waiting_live hst)
  | kept _ hsub _ hcore => exact hrow.housekept (fun _ => ⟨rfl, rfl⟩) hcore fun u hu h => ⟨u, hsub u hu, h⟩

theorem kept_iff {s : Scheduler} : Kept s ↔ ∀ l, KeptRow (s.task? l) (s.entryOf l) :=
  ⟨fun h l => ⟨h.entry l, h.memory l⟩, fun h => ⟨fun l => (h l).1, fun l => (h l).2⟩⟩

theorem reach_kept (h : (schedulerMachine cfg).Reach InTime s) : Kept s.sched := by
  induction h with
  | start h0 =>
    obtain ⟨hs, -, -⟩ := h0
    rw [hs, kept_iff]
    exact fun l => ⟨fun u hu => absurd hu (by simp [task?, Scheduler.empty, SafeQueue.empty,
      SafeQueue.get?]), fun e he => absurd he (by simp [entryOf, Scheduler.empty])⟩
  | step _ hok hstep ih =>
    rw [kept_iff] at ih ⊢
    intro l
    obtain ⟨evs, htask, -⟩ := Sys.step_task hstep l
    exact taskStep_kept (ih l) (fun result h => hok.1 l result h) hok.2 htask

/-- Every gate in the way of task `t` with entry `e` is open at a tick. -/
structure GatesOpen (cfg : Settings) (s : Scheduler) (now : Seconds) (r : Reading)
    (t : QueuedTask) (e : Entry) : Prop where
  unpaused : (s.paused || s.runtimePaused || r.foregroundBusy) = false
  idle : s.queue.runningTasks = [] ∧ s.inflight = []
  free : r.level = .free
  floor : ∃ v, checkFloor r.sample cfg.floor e.floorRefusal.isSome e.requiredVramMb = .ok v ∧
    v.passed = true
  due : ∀ notBefore, e.notBefore = some notBefore → notBefore ≤ now
  attempts : t.attempts < cfg.maxAttempts
  granted : Granted cfg now r.activityMode s.governor t

def StartsInTurn (cfg : Settings) (s : Scheduler) (now : Seconds) (r : Reading)
    (t : QueuedTask) : Prop :=
  ∃ u, s.task? u.taskId = some u ∧ u.state = .queued ∧ u.sequence ≤ t.sequence ∧
    (s.tick cfg now r).handed = some u.taskId

theorem housekeep_idle (cfg : Settings) {s : Scheduler} (now : Seconds) (r : Reading)
    (h : s.queue.runningTasks = [] ∧ s.inflight = []) :
    (s.housekeep cfg now r).queue.runningTasks = [] ∧ (s.housekeep cfg now r).inflight = [] := by
  have hkeep := housekeep_spec cfg s now r
  refine ⟨?_, hkeep.inflight.trans h.2⟩
  apply List.eq_nil_iff_forall_not_mem.mpr
  intro t ht
  obtain ⟨hget, hrun⟩ := SafeQueue.mem_runningTasks.mp ht
  have hmem := SafeQueue.mem_runningTasks.mpr ⟨hkeep.task_sub _ _ hget, hrun⟩
  rw [h.1] at hmem
  cases hmem

theorem granted_of (hb : t.taskId.blank = false)
    (hheavy : t.weight = .heavy → g.heavyReservation? = none ∧ mode.performance = false) :
    Granted cfg now mode g t := by
  cases hw : t.weight with
  | light =>
    have hreq : g.request cfg.leaseSeconds now t.taskId .light mode .normal .allow false = _ :=
      ResourceGovernor.request_light hb
    rw [← hw] at hreq
    exact ⟨_, _, hreq, rfl⟩
  | heavy =>
    obtain ⟨hslot, hmode⟩ := hheavy hw
    have hreq : g.request cfg.leaseSeconds now t.taskId .heavy mode .normal .allow false = _ :=
      ResourceGovernor.request_heavy hb (ResourceGovernor.heavyReservation?_expire hslot) hmode
    rw [← hw] at hreq
    exact ⟨_, _, hreq, rfl⟩

theorem granted_heavy (h : Granted cfg now mode g t) (hw : t.weight = .heavy) :
    (g.expire now).heavyReservation? = none ∧ mode.performance = false := by
  obtain ⟨g', grant, hreq, hyes⟩ := h
  rcases (ResourceGovernor.request_cases hreq).2 with ⟨hno, -⟩ | ⟨-, -, hheavy⟩
  · rw [hno] at hyes
    cases hyes
  · exact hheavy hw

theorem tick_starts {s : Scheduler} (hs : Kept s) {r : Reading} {e : Entry}
    (ht : s.task? t.taskId = some t) (hst : t.state = .queued) (he : s.entryOf t.taskId = some e)
    (h : GatesOpen cfg s now r t e)
    (hmode : r.activityMode.performance = true → ∀ u, s.task? u.taskId = some u →
      u.state = .queued → u.sequence < t.sequence → u.weight = .light) :
    StartsInTurn cfg s now r t := by
  have hkeep := housekeep_spec cfg s now r
  have hgov := hkeep.governor h.idle.2
  have hidle := housekeep_idle cfg now r h.idle
  rcases tick_cases cfg s now r with ⟨hheld, -⟩ | ⟨-, htick⟩
  · rw [h.unpaused] at hheld
    cases hheld
  generalize s.housekeep cfg now r = k at hkeep hgov hidle htick
  obtain ⟨e₀, he₀, hnone⟩ := hs.entry _ t ht (waiting_live hst)
  rw [he] at he₀
  cases he₀
  have hcore : (k.entryOf t.taskId).map Entry.core = (some e).map Entry.core := by
    rw [hkeep.entries, he, Option.filter_some, if_pos (by simp [not_stale hnone])]
  obtain ⟨v, hv, hpassed⟩ := h.floor
  have hadm : judge cfg now r.sample r.level t (k.entryOf t.taskId) = .admissible := by
    rw [judge_core hcore]
    exact judge_of_gates h.due hv hpassed (.inl h.free) h.attempts
  have hoffered : t ∈ k.offered now := by
    refine mem_offered.mpr ⟨⟨hkeep.task_keep _ t ht (by simp [waiting_live hst]), hst⟩, ?_⟩
    cases hw : t.weight with
    | light => exact .inr rfl
    | heavy => exact .inl (hgov ▸ (granted_heavy h.granted hw).1)
  obtain ⟨s₁, looked, found, hsearch, hend⟩ := pass_idle cfg now r hidle
  obtain ⟨rest, horder, hnothing⟩ := hsearch.order
  -- a task whose gates are open ends the search, so the search ends at it or before it
  have hstop : ∀ p ∈ looked, p.1 = t → p.2.stops = true := by
    intro p hp hpt
    rw [hsearch.judged p hp, hpt, show (k.swept now).entryOf t.taskId = k.entryOf t.taskId from rfl,
      hadm]
    rfl
  rw [horder] at hoffered
  rcases hend with ⟨hfound, -⟩ | ⟨err, hfound, -⟩ | ⟨u, hfound, hpass⟩
  · rw [hnothing hfound, List.append_nil] at hoffered
    obtain ⟨p, hp, hpt⟩ := List.mem_map.mp hoffered
    have hfree := hsearch.found_by
    rw [hfound] at hfree
    have hno := hstop p hp hpt
    rw [hfree p hp] at hno
    cases hno
  · have hraised := hsearch.found_by
    rw [hfound] at hraised
    obtain ⟨before, u, hlooked, -⟩ := hraised
    have hjudged := hsearch.judged (u, .invalid err) (by simp [hlooked])
    obtain ⟨e', he', hneg⟩ := judge_invalid hjudged.symm
    have hcore' := hkeep.entries u.taskId
    rw [show (k.swept now).entryOf u.taskId = k.entryOf u.taskId from rfl] at he'
    rw [he', Option.map_some] at hcore'
    obtain ⟨e₁, he₁, heq⟩ := Option.map_eq_some_iff.mp hcore'.symm
    have hmem := hs.memory _ e₁ (Option.filter_eq_some_iff.mp he₁).1
    rw [(Entry.core_fields heq).1] at hmem
    omega
  · have hchosen := hsearch.found_by
    rw [hfound] at hchosen hsearch
    obtain ⟨before, hlooked, hbefore⟩ := hchosen
    have hmemu : (u, Judgement.admissible) ∈ looked := by simp [hlooked]
    obtain ⟨⟨hku, hsu⟩, hslot⟩ := mem_offered.mp (searched_waiting hsearch hmemu)
    have hahead : u = t ∨ u.sequence < t.sequence := by
      have hsorted := (offered_sorted : (k.offered now).Pairwise _)
      rw [horder] at hsorted
      rcases List.mem_append.mp hoffered with hin | hin
      · obtain ⟨p, hp, hpt⟩ := List.mem_map.mp hin
        rw [hlooked] at hp
        rcases List.mem_append.mp hp with hp | hp
        · have hno := hstop p (by rw [hlooked]; exact List.mem_append_left _ hp) hpt
          rw [hbefore p hp] at hno
          cases hno
        · rw [List.mem_singleton.mp hp] at hpt
          exact .inl hpt
      · exact .inr ((List.pairwise_append.mp hsorted).2.2 u
          (List.mem_map.mpr ⟨_, hmemu, rfl⟩) t hin)
    have hsource := hkeep.task_sub _ _ hku
    have hgranted : Granted cfg now r.activityMode s₁.governor u := by
      rw [hsearch.governor]
      apply granted_of (k.queue.named _ _ hku)
      intro hw
      rw [hw] at hslot
      refine ⟨hslot.resolve_right (by simp), ?_⟩
      rcases hahead with rfl | hlt
      · exact (granted_heavy h.granted hw).2
      · cases hperf : r.activityMode.performance with
        | false => rfl
        | true =>
          rw [hmode hperf u hsource hsu hlt] at hw
          cases hw
    obtain ⟨hs₁, -⟩ := chosen_waiting hsearch
      (fun p hp => (mem_offered.mp (searched_waiting hsearch hp)).1) hlooked
    refine ⟨u, hsource, hsu, ?_, ?_⟩
    · rcases hahead with rfl | hlt
      · exact le_refl _
      · exact hlt.le
    · rw [htick, hpass]
      rcases startTask_cases cfg now r.activityMode looked hs₁ hsu with ⟨hno, -⟩ | ⟨-, hres⟩
      · exact absurd hgranted hno
      · rw [hres]

/-- Every unfinished task keeps its entry, and once its gates are open a tick starts it or a task
ahead of it. In a performance mode heavy work ahead of the task stops the tick, so there the tasks
ahead have to be light. -/
theorem no_task_lost (h : (schedulerMachine cfg).Reach InTime s) :
    (∀ l t, s.sched.task? l = some t → t.finished = false → (s.sched.entryOf l).isSome) ∧
    ∀ now r t e, s.sched.task? t.taskId = some t → t.state = .queued →
      s.sched.entryOf t.taskId = some e → GatesOpen cfg s.sched now r t e →
      (r.activityMode.performance = true → ∀ u, s.sched.task? u.taskId = some u →
        u.state = .queued → u.sequence < t.sequence → u.weight = .light) →
      StartsInTurn cfg s.sched now r t := by
  have hkept := reach_kept h
  constructor
  · intro l t ht hlive
    obtain ⟨e, he, -⟩ := hkept.entry l t ht hlive
    rw [he]
    rfl
  · intro now r t e ht hst he hgates hmode
    exact tick_starts hkept ht hst he hgates hmode

/-! A task is not started again before it was put back in line. -/

namespace TaskEvent

def starts : TaskEvent → Bool
  | .started _ => true
  | _ => false

/-- The task is put in line, or taken out of it to run. -/
def turns : TaskEvent → Bool
  | .admitted | .resumed | .deferred => true
  | e => e.starts

end TaskEvent

/-- The task is in line, or would be if it were not paused. -/
def TaskState.waits : TaskState → Bool
  | .queued | .paused => true
  | _ => false

def NotAgain (later earlier : TaskEvent) : Prop := later.starts = true → earlier.starts = false

theorem taskStep_turns {op : Op} {s : Scheduler} {t : Option QueuedTask} {evs : List TaskEvent}
    (h : TaskStep cfg now op s l t e evs) :
    evs.filter TaskEvent.turns = [] ∧ (∀ u, t = some u → u.state.waits = true →
        ∃ v, s.task? l = some v ∧ v.state.waits = true) ∨
      (∃ ev, evs.filter TaskEvent.turns = [ev] ∧ ev.starts = false) ∨
      ∃ ev v, evs.filter TaskEvent.turns = [ev] ∧ s.task? l = some v ∧ v.state.waits = true ∧
        ∀ u, t = some u → u.state.waits = false := by
  cases h with
  | same => exact .inl ⟨rfl, fun u hu hw => ⟨u, hu, hw⟩⟩
  | admitted | resumed | stopped | deferred => exact .inr (.inl ⟨_, rfl, rfl⟩)
  | paused _ ht hst => exact .inl ⟨rfl, fun _ _ _ => ⟨_, ht, by rw [hst]; rfl⟩⟩
  | overridden _ ht | notOverridden _ ht | late _ ht =>
    exact .inl ⟨rfl, fun u hu hw => ⟨u, ht.trans hu, hw⟩⟩
  | cancelled | interrupted =>
    refine .inl ⟨rfl, fun u hu hw => ?_⟩
    cases hu
    cases hw
  | @ended _ _ _ state _ _ _ _ _ hterm =>
    refine .inl ⟨rfl, fun u hu hw => ?_⟩
    cases hu
    cases state <;> first | (cases hw; done) | cases hterm
  | @looked r p handed e _ hid ht hst =>
    have hwaits : p.1.state.waits = true := by rw [hst]; rfl
    have hfloor : p.2.floorSaid.filter TaskEvent.turns = [] := by cases p.2 <;> rfl
    unfold lookEvents taskAfter
    rw [List.filter_append, hfloor, List.append_nil]
    by_cases hgo : handed = some p.1.taskId
    · refine .inr (.inr ⟨.started r.level, p.1, ?_, ht, hwaits, fun u hu => ?_⟩)
      · rw [if_pos hgo]
        rfl
      · rw [if_pos hgo] at hu
        cases hu
        rfl
    · refine .inl ⟨?_, fun _ _ _ => ⟨p.1, ht, hwaits⟩⟩
      rw [if_neg hgo]
      split <;> rfl
  | kept _ hsub => exact .inl ⟨rfl, fun u hu hw => ⟨u, hsub u hu, hw⟩⟩

/-- In every run, between two starts of a task it was deferred, resumed or admitted anew, and a task
that waits was put in line after its last start. -/
theorem restarts_separated (h : (schedulerMachine cfg).Reachable s) (l : TaskId) :
    ((s.log.about l).filter TaskEvent.turns).IsChain NotAgain ∧
      ∀ t, s.sched.task? l = some t → t.state.waits = true →
        ∀ ev ∈ ((s.log.about l).filter TaskEvent.turns).head?, ev.starts = false := by
  induction h with
  | start h0 =>
    rw [h0.2.2]
    exact ⟨.nil, fun _ _ _ ev hev => by cases hev⟩
  | step _ _ hstep ih =>
    obtain ⟨evs, htask, hlog⟩ := Sys.step_task hstep l
    obtain ⟨hchain, hlast⟩ := ih
    rw [hlog, List.filter_append]
    rcases taskStep_turns htask with ⟨hnone, hback⟩ | ⟨ev, hev, hno⟩ | ⟨ev, v, hev, hv, hw, hrun⟩
    · rw [hnone, List.nil_append]
      refine ⟨hchain, fun t ht hwaits => ?_⟩
      obtain ⟨v, hv, hw⟩ := hback t ht hwaits
      exact hlast v hv hw
    · rw [hev]
      refine ⟨List.isChain_cons.mpr ⟨fun y _ hs => ?_, hchain⟩, fun _ _ _ e he => ?_⟩
      · rw [hno] at hs
        cases hs
      · cases he
        exact hno
    · rw [hev]
      refine ⟨List.isChain_cons.mpr ⟨fun y hy _ => hlast v hv hw y hy, hchain⟩, fun t ht hwaits => ?_⟩
      rw [hrun t ht] at hwaits
      cases hwaits

/-- A machine with nothing else to do. -/
def quiet : LoadSample := ⟨20, some 8000, some 50, 0, none, none, none, false, false, none⟩

def freeReading : Reading := ⟨quiet, .free, false, .normal, fun _ => .answered true⟩

def freshSys : Sys := ⟨.empty, 0, [], []⟩

def submitted : Sys :=
  ⟨(Scheduler.empty.perform {} 0 (.submit (py "a") .light (py "list files") 0)).1, 0, [],
    (Scheduler.empty.perform {} 0 (.submit (py "a") .light (py "list files") 0)).2 ++ []⟩

theorem reach_submitted : (schedulerMachine {}).Reach InTime submitted := by
  refine Machine.Reach.step (s := freshSys) (a := (0, .submit (py "a") .light (py "list files") 0))
    (.start ⟨rfl, rfl, rfl⟩) ⟨?_, ?_⟩ ?_
  · intro taskId result h
    cases h
  · intro vram h
    simp only [Op.requiredVramMb?, Option.some.injEq] at h
    omega
  · rw [show (schedulerMachine {}).step = Sys.step {} from rfl, Sys.step,
      if_pos ⟨le_refl _, rfl⟩]
    rfl

theorem no_task_lost_sample :
    (submitted.sched.entryOf (py "a")).isSome ∧
      StartsInTurn {} submitted.sched 1 freeReading
        ⟨py "a", .light, py "list files", .queued, 0, 0, 0, []⟩ := by
  have h := no_task_lost reach_submitted
  have htask : submitted.sched.task? (py "a") =
      some ⟨py "a", .light, py "list files", .queued, 0, 0, 0, []⟩ := by decide +kernel
  have hentry : submitted.sched.entryOf (py "a") = some (.fresh 0 .warmingUp checking) := by
    decide +kernel
  refine ⟨h.1 _ _ htask rfl, h.2 1 freeReading _ _ htask rfl hentry ?_ (by simp [freeReading])⟩
  refine ⟨by decide +kernel, by decide +kernel, rfl, ⟨verdict quiet 0 none false, by decide +kernel,
    rfl⟩, by simp [Entry.fresh], by decide, granted_of (by decide +kernel) (by simp)⟩

/-- A run is interrupted, and the user resumes its task. -/
theorem restarts_separated_sample : ∃ s : Sys,
    ((s.log.about (py "a")).filter TaskEvent.turns).map TaskEvent.starts =
      [true, false, true, false] ∧
    ((s.log.about (py "a")).filter TaskEvent.turns).IsChain NotAgain := by
  have hrun : ((schedulerMachine {}).exec freshSys [(0, .submit (py "a") .light (py "list") 0),
      (1, .tick freeReading), (2, .interruptRunning fun _ => .answered true),
      (3, .report (py "a") ⟨.cancelled, [], none, true⟩), (4, .resumeTask (py "a")),
      (5, .tick freeReading)]).any (fun s => decide (((s.log.about (py "a")).filter
        TaskEvent.turns).map TaskEvent.starts = [true, false, true, false])) = true := by
    decide +kernel
  obtain ⟨s, hs, h⟩ := (Option.any_eq_true _ _).mp hrun
  exact ⟨s, of_decide_eq_true h,
    (restarts_separated (Machine.reachable_exec ⟨rfl, rfl, rfl⟩ hs) (py "a")).1⟩

/-- A run is interrupted, the user resumes its task, and only then the run reports: the task waits
with a date in its entry, is forgotten five minutes later, and no tick sees it again. -/
def lateReport : List (Seconds × Op) :=
  [(0, .submit (py "a") .light (py "list files") 0), (1, .tick freeReading),
    (2, .interruptRunning fun _ => .answered true), (3, .resumeTask (py "a")),
    (4, .setPaused true), (5, .report (py "a") ⟨.cancelled, [], none, true⟩),
    (305, .tick freeReading), (306, .setPaused false)]

theorem late_report_loses_task : ∃ s, (schedulerMachine {}).Reachable s ∧
    (s.sched.task? (py "a")).map QueuedTask.state = some .queued ∧
    s.sched.entryOf (py "a") = none ∧ (s.sched.tick {} 307 freeReading).handed = none := by
  have hrun : ((schedulerMachine {}).exec freshSys lateReport).any (fun s =>
      decide ((s.sched.task? (py "a")).map QueuedTask.state = some .queued ∧
        s.sched.entryOf (py "a") = none ∧ (s.sched.tick {} 307 freeReading).handed = none)) =
      true := by
    decide +kernel
  obtain ⟨s, hs, hbad⟩ := Option.any_eq_true _ _ |>.mp hrun
  exact ⟨s, Machine.reachable_exec ⟨rfl, rfl, rfl⟩ hs, by simpa using hbad⟩

end QronosAgent.Queue

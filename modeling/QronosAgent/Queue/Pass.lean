import QronosAgent.Queue.Effects

/-! What one tick does: the search through the waiting tasks, the start of the task it chooses,
and from both the row of every task after the tick. -/
namespace QronosAgent.Queue
open Lib

namespace Scheduler
variable {cfg : Settings} {s s' : Scheduler} {now : Seconds} {l : TaskId} {level : LoadLevel}
  {sample : LoadSample}

variable {task : QueuedTask} {o : Option Entry} {j : Judgement} {rest tasks : List QueuedTask}
  {found : Found} {looked before : List (QueuedTask × Judgement)} {r : Reading}
  {p : QueuedTask × Judgement} {s₁ : Scheduler}

/-- The gates read nothing of an entry but its core. -/
theorem judge_core {o' : Option Entry} (h : o.map Entry.core = o'.map Entry.core) :
    judge cfg now sample level task o = judge cfg now sample level task o' := by
  cases o with
  | none =>
    cases o' with
    | none => rfl
    | some e' => simp at h
  | some e =>
    cases o' with
    | none => simp at h
    | some e' =>
      simp only [Option.map_some, Option.some.injEq, Entry.core, Entry.mk.injEq] at h
      obtain ⟨hvram, -, -, hover, hfloor, -, -, hnot, -⟩ := h
      simp only [judge, judgeSafe, hvram, hover, hfloor, hnot]

theorem judge_cases (cfg : Settings) (now : Seconds) (sample : LoadSample) (level : LoadLevel)
    (task : QueuedTask) (e : Entry) :
    (judge cfg now sample level task (some e) = .deferred ∧
      ∃ t, e.notBefore = some t ∧ now < t) ∨
    (∀ t, e.notBefore = some t → t ≤ now) ∧
      ((∃ err, judge cfg now sample level task (some e) = .invalid err ∧ e.requiredVramMb < 0) ∨
      ∃ v, checkFloor sample cfg.floor e.floorRefusal.isSome e.requiredVramMb = .ok v ∧
        ((v.passed = false ∧ judge cfg now sample level task (some e) = .refused v) ∨
        (v.passed = true ∧
          judge cfg now sample level task (some e) = judgeSafe cfg level task e))) := by
  by_cases hwait : ∃ t, e.notBefore = some t ∧ now < t
  · obtain ⟨t, ht, hlt⟩ := hwait
    exact .inl ⟨by simp [judge, ht, hlt], t, ht, hlt⟩
  · have hnot : ∀ t, e.notBefore = some t → t ≤ now := by
      intro t ht
      exact not_lt.mp fun hlt => hwait ⟨t, ht, hlt⟩
    have hany : (e.notBefore.any fun t => decide (now < t)) = false := by
      cases hn : e.notBefore with
      | none => rfl
      | some t => simpa using hnot t hn
    refine .inr ⟨hnot, ?_⟩
    cases hv : checkFloor sample cfg.floor e.floorRefusal.isSome e.requiredVramMb with
    | error err =>
      refine .inl ⟨err, by simp [judge, hany, hv], ?_⟩
      by_contra hneg
      obtain ⟨v, hok⟩ := checkFloor_isOk sample cfg.floor e.floorRefusal.isSome (not_lt.mp hneg)
      rw [hv] at hok
      cases hok
    | ok v =>
      refine .inr ⟨v, rfl, ?_⟩
      cases hp : v.passed with
      | false => exact .inl ⟨rfl, by simp [judge, hany, hv, hp]⟩
      | true => exact .inr ⟨rfl, by simp [judge, hany, hv, hp]⟩

theorem judgeSafe_cases (cfg : Settings) (level : LoadLevel) (task : QueuedTask) (e : Entry) :
    (judgeSafe cfg level task e = .loaded ∧ level ≠ .free ∧ e.override = false) ∨
    (level = .free ∨ e.override = true) ∧
      ((judgeSafe cfg level task e = .spent ∧ cfg.maxAttempts ≤ task.attempts) ∨
      (judgeSafe cfg level task e = .admissible ∧ task.attempts < cfg.maxAttempts)) := by
  unfold judgeSafe
  by_cases hload : level ≠ .free ∧ e.override = false
  · rw [if_pos hload]
    exact .inl ⟨rfl, hload⟩
  have hlevel : level = .free ∨ e.override = true := by
    by_cases hfree : level = .free
    · exact .inl hfree
    · exact .inr (by simpa [hfree] using hload)
  rw [if_neg hload]
  split_ifs with hspent
  · exact .inr ⟨hlevel, .inl ⟨rfl, hspent⟩⟩
  · exact .inr ⟨hlevel, .inr ⟨rfl, Nat.lt_of_not_le hspent⟩⟩

theorem judge_admissible (h : judge cfg now sample level task o = .admissible) :
    ∃ e v, o = some e ∧ (∀ t, e.notBefore = some t → t ≤ now) ∧
      checkFloor sample cfg.floor e.floorRefusal.isSome e.requiredVramMb = .ok v ∧
      v.passed = true ∧ (level = .free ∨ e.override = true) ∧ task.attempts < cfg.maxAttempts := by
  cases o with
  | none => simp [judge] at h
  | some e =>
    rcases judge_cases cfg now sample level task e with
      ⟨hd, _⟩ | ⟨hnot, ⟨err, herr, _⟩ | ⟨v, hv, ⟨_, hr⟩ | ⟨hp, hsafe⟩⟩⟩
    · simp [hd] at h
    · simp [herr] at h
    · simp [hr] at h
    · rw [hsafe] at h
      rcases judgeSafe_cases cfg level task e with
        ⟨hl, _⟩ | ⟨hlevel, ⟨hs, _⟩ | ⟨_, hattempts⟩⟩
      · simp [hl] at h
      · simp [hs] at h
      · exact ⟨e, v, rfl, hnot, hv, hp, hlevel, hattempts⟩

/-- The floor raises only on a negative amount of memory. -/
theorem judge_invalid {err : QueueError} (h : judge cfg now sample level task o = .invalid err) :
    ∃ e, o = some e ∧ e.requiredVramMb < 0 := by
  cases o with
  | none => simp [judge] at h
  | some e =>
    rcases judge_cases cfg now sample level task e with
      ⟨hd, _⟩ | ⟨_, ⟨_, _, hneg⟩ | ⟨v, _, ⟨_, hr⟩ | ⟨_, hsafe⟩⟩⟩
    · simp [hd] at h
    · exact ⟨e, rfl, hneg⟩
    · simp [hr] at h
    · rw [hsafe, judgeSafe] at h
      split_ifs at h

theorem judge_of_gates {e : Entry} {v : FloorVerdict} (hnot : ∀ t, e.notBefore = some t → t ≤ now)
    (hv : checkFloor sample cfg.floor e.floorRefusal.isSome e.requiredVramMb = .ok v)
    (hpassed : v.passed = true) (hlevel : level = .free ∨ e.override = true)
    (hattempts : task.attempts < cfg.maxAttempts) :
    judge cfg now sample level task (some e) = .admissible := by
  have hany : (e.notBefore.any fun t => decide (now < t)) = false := by
    cases hn : e.notBefore with
    | none => rfl
    | some t => simpa using hnot t hn
  simp only [judge, hany, Bool.false_eq_true, if_false, hv, hpassed, if_true]
  rcases judgeSafe_cases cfg level task e with
    ⟨_, hbusy, hover⟩ | ⟨_, ⟨_, hspent⟩ | ⟨hadm, _⟩⟩
  · rcases hlevel with hl | hl
    · exact absurd hl hbusy
    · rw [hover] at hl
      cases hl
  · omega
  · exact hadm

theorem settle_row (level : LoadLevel) (ht : s.task? task.taskId = some task)
    (hst : task.state = .queued) (j : Judgement) :
    (s.settle level task j).2 = j.error? ∧
    (s.settle level task j).1.inflight = s.inflight ∧
    (s.settle level task j).1.governor = s.governor ∧
    (∀ l, (s.settle level task j).1.entryOf l =
      if l = task.taskId then (s.entryOf l).map (note level task j) else s.entryOf l) ∧
    ∀ l, (s.settle level task j).1.task? l =
      if l = task.taskId then some (if j = .spent then task.moveTo .paused else task)
      else s.task? l := by
  by_cases hj : j = .spent
  · have hpause : s.queue.pause task.taskId = .ok (s.queue.moveTask task.taskId .paused) :=
      SafeQueue.transition_of_allowed ht (by simp [hst, TaskState.allowed])
    have hsettle : s.settle level task j = (s.moved task.taskId .paused (note level task j), none) := by
      simp only [settle, if_pos hj, hpause]
      rfl
    rw [hsettle]
    refine ⟨by rw [hj]; rfl, rfl, rfl, fun l => ?_, fun l => ?_⟩
    · rw [entryOf_moved]
      split_ifs with h
      · rw [h]
      · rfl
    · rw [task?_moved, ht, if_pos hj]
      rfl
  · rw [settle, if_neg hj]
    refine ⟨rfl, rfl, rfl, fun l => ?_, fun l => ?_⟩
    · rw [entryOf_amend]
      split_ifs with h
      · rw [h]
      · rfl
    · rw [task?_amend, if_neg hj]
      split_ifs with h
      · rw [h, ht]
      · rfl

def FoundBy (looked : List (QueuedTask × Judgement)) : Found → Prop
  | .nothing => ∀ p ∈ looked, p.2.stops = false
  | .chosen task => ∃ before, looked = before ++ [(task, .admissible)] ∧
      ∀ p ∈ before, p.2.stops = false
  | .raised e => ∃ before task, looked = before ++ [(task, .invalid e)] ∧
      ∀ p ∈ before, p.2.stops = false

/-- A search from `s` through `tasks`: what it looked at, each task judged as `s` has it, and the
state it leaves. -/
structure Searched (cfg : Settings) (now : Seconds) (sample : LoadSample) (level : LoadLevel)
    (s : Scheduler) (tasks : List QueuedTask) (s' : Scheduler)
    (looked : List (QueuedTask × Judgement)) (found : Found) : Prop where
  order : ∃ rest, tasks = looked.map Prod.fst ++ rest ∧ (found = .nothing → rest = [])
  judged : ∀ p ∈ looked, p.2 = judge cfg now sample level p.1 (s.entryOf p.1.taskId)
  found_by : FoundBy looked found
  inflight : s'.inflight = s.inflight
  governor : s'.governor = s.governor
  entry_looked : ∀ p ∈ looked,
    s'.entryOf p.1.taskId = (s.entryOf p.1.taskId).map (note level p.1 p.2)
  entry_other : ∀ l, (∀ p ∈ looked, p.1.taskId ≠ l) → s'.entryOf l = s.entryOf l
  task_looked : ∀ p ∈ looked,
    s'.task? p.1.taskId = some (if p.2 = .spent then p.1.moveTo .paused else p.1)
  task_other : ∀ l, (∀ p ∈ looked, p.1.taskId ≠ l) → s'.task? l = s.task? l

theorem stops_of_error {e : QueueError} (h : j.error? = some e) :
    j = .invalid e := by
  cases j <;> simp_all [Judgement.error?]

theorem stops_eq_false (herr : j.error? = none) (hadm : j ≠ .admissible) :
    j.stops = false := by
  cases j <;> simp_all [Judgement.error?, Judgement.stops]

theorem searched_stop (ht : s.task? task.taskId = some task) (hst : task.state = .queued)
    (hj : j = judge cfg now sample level task (s.entryOf task.taskId))
    (hfound : FoundBy [(task, j)] found) (hne : found ≠ .nothing) :
    Searched cfg now sample level s (task :: rest) (s.settle level task j).1 [(task, j)] found := by
  obtain ⟨_, hin, hgov, hentry, htask⟩ := settle_row level ht hst j
  refine ⟨⟨rest, rfl, fun h => absurd h hne⟩, ?_, hfound, hin, hgov, ?_, ?_, ?_, ?_⟩
  · simp only [List.mem_singleton, forall_eq]
    exact hj
  · simp only [List.mem_singleton, forall_eq]
    rw [hentry, if_pos rfl]
  · intro l hl
    simp only [List.mem_singleton, forall_eq] at hl
    rw [hentry, if_neg (Ne.symm hl)]
  · simp only [List.mem_singleton, forall_eq]
    rw [htask, if_pos rfl]
  · intro l hl
    simp only [List.mem_singleton, forall_eq] at hl
    rw [htask, if_neg (Ne.symm hl)]

theorem searched_cons (ht : s.task? task.taskId = some task) (hst : task.state = .queued)
    (hj : j = judge cfg now sample level task (s.entryOf task.taskId)) (hstop : j.stops = false)
    (hne : ∀ u ∈ rest, task.taskId ≠ u.taskId)
    (h : Searched cfg now sample level (s.settle level task j).1 rest s' looked found) :
    Searched cfg now sample level s (task :: rest) s' ((task, j) :: looked) found := by
  obtain ⟨_, hin, hgov, hentry, htask⟩ := settle_row level ht hst j
  obtain ⟨tail, horder, hnothing⟩ := h.order
  have hmem : ∀ p ∈ looked, p.1.taskId ≠ task.taskId := by
    intro p hp
    refine (hne p.1 ?_).symm
    rw [horder]
    exact List.mem_append_left _ (List.mem_map_of_mem hp)
  have hself : ∀ p ∈ looked, task.taskId ≠ p.1.taskId := fun p hp => (hmem p hp).symm
  refine ⟨⟨tail, by rw [horder]; rfl, hnothing⟩, ?_, ?_, h.inflight.trans hin,
    h.governor.trans hgov, ?_, ?_, ?_, ?_⟩
  · intro p hp
    rcases List.mem_cons.mp hp with rfl | hp
    · exact hj
    · rw [h.judged p hp, hentry, if_neg (hmem p hp)]
  · have hfound := h.found_by
    cases found with
    | nothing =>
      intro p hp
      rcases List.mem_cons.mp hp with rfl | hp
      · exact hstop
      · exact hfound p hp
    | chosen u =>
      obtain ⟨before, heq, hbefore⟩ := hfound
      refine ⟨(task, j) :: before, by rw [heq]; rfl, fun p hp => ?_⟩
      rcases List.mem_cons.mp hp with rfl | hp
      · exact hstop
      · exact hbefore p hp
    | raised e =>
      obtain ⟨before, u, heq, hbefore⟩ := hfound
      refine ⟨(task, j) :: before, u, by rw [heq]; rfl, fun p hp => ?_⟩
      rcases List.mem_cons.mp hp with rfl | hp
      · exact hstop
      · exact hbefore p hp
  · intro p hp
    rcases List.mem_cons.mp hp with rfl | hp
    · rw [h.entry_other _ (fun p hp => hmem p hp), hentry, if_pos rfl]
    · rw [h.entry_looked p hp, hentry, if_neg (hmem p hp)]
  · intro l hl
    have hhead : l ≠ task.taskId := Ne.symm (hl (task, j) List.mem_cons_self)
    rw [h.entry_other l fun p hp => hl p (List.mem_cons_of_mem _ hp), hentry, if_neg hhead]
  · intro p hp
    rcases List.mem_cons.mp hp with rfl | hp
    · rw [h.task_other _ (fun p hp => hmem p hp), htask, if_pos rfl]
    · exact h.task_looked p hp
  · intro l hl
    have hhead : l ≠ task.taskId := Ne.symm (hl (task, j) List.mem_cons_self)
    rw [h.task_other l fun p hp => hl p (List.mem_cons_of_mem _ hp), htask, if_neg hhead]

theorem search_spec (cfg : Settings) (now : Seconds) (sample : LoadSample) (level : LoadLevel)
    (tasks : List QueuedTask)
    (hids : tasks.Pairwise fun t u => t.taskId ≠ u.taskId)
    (hwaiting : ∀ t ∈ tasks, s.task? t.taskId = some t ∧ t.state = .queued) :
    Searched cfg now sample level s tasks (search cfg now sample level s tasks).1
      (search cfg now sample level s tasks).2.1 (search cfg now sample level s tasks).2.2 := by
  induction tasks generalizing s with
  | nil => exact ⟨⟨[], rfl, fun _ => rfl⟩, by simp [search], by simp [search, FoundBy], rfl, rfl,
      by simp [search], fun _ _ => rfl, by simp [search], fun _ _ => rfl⟩
  | cons task rest ih =>
    obtain ⟨ht, hst⟩ := hwaiting task List.mem_cons_self
    obtain ⟨hne, hids⟩ := List.pairwise_cons.mp hids
    generalize hj : judge cfg now sample level task (s.entryOf task.taskId) = j
    obtain ⟨herr, _, _, _, htask⟩ := settle_row level ht hst j
    rw [search]
    simp only [hj]
    cases he : (s.settle level task j).2 with
    | some e =>
      have hinv := stops_of_error (herr.symm.trans he)
      have hp : s.settle level task j = ((s.settle level task j).1, some e) := by rw [← he]
      rw [hp]
      refine searched_stop ht hst hj.symm ⟨[], task, ?_, by simp⟩ (by simp)
      rw [hinv]
      rfl
    | none =>
      have hp : s.settle level task j = ((s.settle level task j).1, none) := by rw [← he]
      rw [hp]
      simp only
      by_cases hadm : j = .admissible
      · rw [if_pos hadm]
        refine searched_stop ht hst hj.symm ⟨[], ?_, by simp⟩ (by simp)
        rw [hadm]
        rfl
      rw [if_neg hadm]
      have hrest := ih (s := (s.settle level task j).1) hids (fun u hu => by
        rw [htask, if_neg (hne u hu).symm]
        exact hwaiting u (List.mem_cons_of_mem _ hu))
      exact searched_cons ht hst hj.symm (stops_eq_false (herr.symm.trans he) hadm) hne hrest

def Granted (cfg : Settings) (now : Seconds) (mode : ActivityMode) (g : ResourceGovernor)
    (task : QueuedTask) : Prop :=
  ∃ g' grant, g.request cfg.leaseSeconds now task.taskId task.weight mode .normal .allow false =
    .ok (g', grant) ∧ grant.granted = true

def begun (cfg : Settings) (s : Scheduler) (now : Seconds) (task : QueuedTask) : Scheduler :=
  { ({ s with
      governor := (s.governor.expire now).file
        ⟨task.taskId, task.weight, now, now + cfg.leaseSeconds, false⟩ } : Scheduler).moved
      task.taskId .running (Entry.began now) with
    inflight := s.inflight.insert task.taskId }

def refusedBy (s : Scheduler) (now : Seconds) (task : QueuedTask) (hold : HoldReason)
    (detail : PyStr) : Scheduler :=
  ({ s with governor := s.governor.expire now } : Scheduler).amend task.taskId
    (Entry.held hold detail)

theorem claim_ok {mode : ActivityMode} {b : Bool} (h : s.claim cfg now mode task = .ok (s', b)) :
    (b = true ∧ Granted cfg now mode s.governor task ∧ s' = { s with
      governor := (s.governor.expire now).file
        ⟨task.taskId, task.weight, now, now + cfg.leaseSeconds, false⟩ }) ∨
    (b = false ∧ ¬Granted cfg now mode s.governor task ∧
      ∃ hold detail, s' = s.refusedBy now task hold detail) := by
  unfold claim at h
  cases hreq : s.governor.request cfg.leaseSeconds now task.taskId task.weight mode .normal .allow
      false with
  | error e => simp [hreq, Except.map] at h
  | ok p =>
    obtain ⟨g, grant⟩ := p
    simp only [hreq, Except.map, Except.ok.injEq] at h
    rcases (ResourceGovernor.request_cases hreq).2 with ⟨hno, _, rfl⟩ | ⟨hyes, rfl, _⟩
    · rw [hno] at h
      simp only [Bool.false_eq_true, if_false, Prod.mk.injEq] at h
      refine .inr ⟨h.2.symm, ?_, _, _, h.1.symm⟩
      rintro ⟨g', grant', hreq', hyes'⟩
      rw [hreq, Except.ok.injEq, Prod.mk.injEq] at hreq'
      rw [← hreq'.2, hno] at hyes'
      cases hyes'
    · rw [hyes] at h
      simp only [if_true, Prod.mk.injEq] at h
      exact .inl ⟨h.2.symm, ⟨_, _, hreq, hyes⟩, h.1.symm⟩

theorem claim_isOk (cfg : Settings) (s : Scheduler) (now : Seconds) (mode : ActivityMode)
    (hb : task.taskId.blank = false) :
    ∃ p, s.claim cfg now mode task = .ok p := by
  unfold claim ResourceGovernor.request
  rw [if_neg (by simp [hb])]
  simp only
  split <;> exact ⟨_, rfl⟩

theorem startTask_cases (cfg : Settings) (now : Seconds) (mode : ActivityMode)
    (looked : List (QueuedTask × Judgement)) (ht : s.task? task.taskId = some task)
    (hst : task.state = .queued) :
    (¬Granted cfg now mode s.governor task ∧ ∃ hold detail,
      s.startTask cfg now mode task looked =
        ⟨s.refusedBy now task hold detail, none, none, looked⟩) ∨
    (Granted cfg now mode s.governor task ∧
      s.startTask cfg now mode task looked =
        ⟨s.begun cfg now task, some task.taskId, none, looked⟩) := by
  obtain ⟨p, hp⟩ := claim_isOk cfg s now mode
    (s.queue.named _ _ ht)
  obtain ⟨s₁, b⟩ := p
  unfold startTask
  rcases claim_ok hp with ⟨rfl, hgrant, rfl⟩ | ⟨rfl, hno, hold, detail, rfl⟩
  · refine .inr ⟨hgrant, ?_⟩
    have hstart : s.queue.start task.taskId = .ok (s.queue.moveTask task.taskId .running) :=
      SafeQueue.transition_of_allowed ht (by simp [hst, TaskState.allowed])
    simp only [hp, beginRun, moving, hstart, Except.map]
    rfl
  · refine .inl ⟨hno, hold, detail, ?_⟩
    simp only [hp]

/-- The tasks a search goes through: those waiting, heavy ones only while the slot is free. -/
def offered (s : Scheduler) (now : Seconds) : List QueuedTask :=
  s.queue.waitingTasks.filter fun task => (s.governor.heavyOwner now).2.isNone || task.weight ≠ .heavy

theorem mem_offered : task ∈ s.offered now ↔
    (s.task? task.taskId = some task ∧ task.state = .queued) ∧
      ((s.governor.expire now).heavyReservation? = none ∨ task.weight = .light) := by
  rw [offered, List.mem_filter, SafeQueue.mem_waitingTasks, Bool.or_eq_true,
    Option.isNone_iff_eq_none, ResourceGovernor.heavyOwner_eq_none, decide_eq_true_eq]
  cases task.weight <;> simp [task?]

theorem offered_sorted : (s.offered now).Pairwise fun t u => t.sequence < u.sequence :=
  SafeQueue.waitingTasks_sorted.filter _

theorem waiting_ids : s.queue.waitingTasks.Pairwise fun t u => t.taskId ≠ u.taskId := by
  refine SafeQueue.waitingTasks_sorted.imp_of_mem fun {t u} ht hu hlt heq => ?_
  have hgt := (SafeQueue.mem_waitingTasks.mp ht).1
  have hgu := (SafeQueue.mem_waitingTasks.mp hu).1
  rw [heq, hgu, Option.some.injEq] at hgt
  rw [hgt] at hlt
  exact lt_irrefl _ hlt

theorem offered_ids : (s.offered now).Pairwise fun t u => t.taskId ≠ u.taskId :=
  waiting_ids.filter _

/-- The state the search starts from. -/
def swept (s : Scheduler) (now : Seconds) : Scheduler :=
  { s with governor := s.governor.expire now }

theorem pass_idle (cfg : Settings) (now : Seconds) (r : Reading) (hidle : s.queue.runningTasks = [] ∧ s.inflight = []) :
    ∃ s₁ looked found,
      Searched cfg now r.sample r.level (s.swept now) (s.offered now) s₁ looked found ∧
      ((found = .nothing ∧ s.pass cfg now r = ⟨s₁, none, none, looked⟩) ∨
      (∃ e, found = .raised e ∧ s.pass cfg now r = ⟨s₁, none, some e, looked⟩) ∨
      ∃ task, found = .chosen task ∧
        s.pass cfg now r = s₁.startTask cfg now r.activityMode task looked) := by
  have hcand : s.candidates now = (s.swept now, s.offered now) := by
    rw [candidates, if_pos hidle]
    rfl
  have hspec := search_spec cfg now r.sample r.level
    (s := s.swept now) (s.offered now) offered_ids (fun t ht => (mem_offered.mp ht).1)
  have hpass : s.pass cfg now r = finishPass cfg now r
      (search cfg now r.sample r.level (s.swept now) (s.offered now)) := by
    rw [pass, hcand]
  generalize search cfg now r.sample r.level (s.swept now) (s.offered now) = out at hspec hpass
  obtain ⟨s₁, looked, found⟩ := out
  refine ⟨s₁, looked, found, hspec, ?_⟩
  cases found with
  | nothing => exact .inl ⟨rfl, hpass⟩
  | raised e => exact .inr (.inl ⟨e, rfl, hpass⟩)
  | chosen task => exact .inr (.inr ⟨task, rfl, hpass⟩)

theorem pass_busy (h : ¬(s.queue.runningTasks = [] ∧ s.inflight = [])) :
    s.pass cfg now r = ⟨s, none, none, []⟩ := by
  rw [pass, candidates, if_neg h]
  rfl

def entryAfter (level : LoadLevel) (now : Seconds) (handed : Option TaskId)
    (p : QueuedTask × Judgement) (e : Entry) : Entry :=
  if handed = some p.1.taskId then (note level p.1 p.2 e).began now else note level p.1 p.2 e

def taskAfter (handed : Option TaskId) (p : QueuedTask × Judgement) : QueuedTask :=
  if handed = some p.1.taskId then p.1.moveTo .running
  else if p.2 = .spent then p.1.moveTo .paused
  else p.1

theorem entryAfter_core {handed : Option TaskId} (e : Entry) :
    (entryAfter level now handed p e).core = (entryAfter level now handed p e.core).core := by
  unfold entryAfter
  split_ifs <;> cases p.2 <;> rfl

/-- The tasks after a tick that found the scheduler housekept as `s`: only waiting tasks it looked
at changed, each as it was judged, and only an admissible one is handed out. -/
structure Ticked (level : LoadLevel) (now : Seconds) (s : Scheduler) (res : TickResult) :
    Prop where
  waiting : ∀ p ∈ res.looked, s.task? p.1.taskId = some p.1 ∧ p.1.state = .queued
  distinct : res.looked.Pairwise fun p q => p.1.taskId ≠ q.1.taskId
  handed : ∀ l, res.handed = some l → ∃ p ∈ res.looked, p.1.taskId = l ∧ p.2 = .admissible
  inflight : ∀ l, l ∈ res.sched.inflight ↔ l ∈ s.inflight ∨ res.handed = some l
  entry_looked : ∀ p ∈ res.looked, (res.sched.entryOf p.1.taskId).map Entry.core =
    (s.entryOf p.1.taskId).map fun e => (entryAfter level now res.handed p e).core
  entry_other : ∀ l, (∀ p ∈ res.looked, p.1.taskId ≠ l) →
    (res.sched.entryOf l).map Entry.core = (s.entryOf l).map Entry.core
  task_looked : ∀ p ∈ res.looked, res.sched.task? p.1.taskId = some (taskAfter res.handed p)
  task_other : ∀ l, (∀ p ∈ res.looked, p.1.taskId ≠ l) → res.sched.task? l = s.task? l

theorem holdQueue_ticked (hold : HoldReason) (detail : PyStr) :
    Ticked level now s (s.holdQueue hold detail) := by
  have hsame := holdEverything_same (s := s) hold detail
  have hnote : ∀ p ∈ (s.holdQueue hold detail).looked,
      (s.task? p.1.taskId = some p.1 ∧ p.1.state = .queued) ∧ note level p.1 p.2 = id ∧
        p.2 ≠ .spent := by
    intro p hp
    simp only [holdQueue, List.mem_map] at hp
    obtain ⟨task, htask, rfl⟩ := hp
    refine ⟨SafeQueue.mem_waitingTasks.mp htask, ?_, ?_⟩
    · simp only
      split <;> rfl
    · simp only
      split <;> simp
  refine ⟨fun p hp => (hnote p hp).1, List.pairwise_map.mpr waiting_ids, by simp [holdQueue], ?_, ?_,
    fun l _ => hsame.entries l, ?_, fun l _ => hsame.task?⟩
  · intro l
    simp [holdQueue, hsame.inflight]
  · intro p hp
    rw [show (s.holdQueue hold detail).sched = s.holdEverything hold detail from rfl,
      hsame.entries]
    simp [entryAfter, holdQueue, (hnote p hp).2.1]
  · intro p hp
    rw [show (s.holdQueue hold detail).sched = s.holdEverything hold detail from rfl,
      hsame.task?, (hnote p hp).1.1]
    simp [taskAfter, holdQueue, (hnote p hp).2.2]

theorem searched_distinct (h : Searched cfg now sample level s' (s.offered now) s₁ looked found) :
    looked.Pairwise fun p q => p.1.taskId ≠ q.1.taskId := by
  obtain ⟨rest, horder, _⟩ := h.order
  have hids := (offered_ids : (s.offered now).Pairwise _)
  rw [horder] at hids
  have hfront := (List.pairwise_append.mp hids).1
  rwa [List.pairwise_map] at hfront

theorem searched_waiting (h : Searched cfg now sample level s tasks s' looked found)
    (hp : p ∈ looked) : p.1 ∈ tasks := by
  obtain ⟨rest, horder, _⟩ := h.order
  rw [horder]
  exact List.mem_append_left _ (List.mem_map_of_mem hp)

/-- A pass that hands out nothing leaves what its search recorded. -/
theorem unstarted_ticked {s₂ : Scheduler} {raised : Option QueueError}
    (h : Searched cfg now sample level s tasks s₁ looked found)
    (hwait : ∀ p ∈ looked, s.task? p.1.taskId = some p.1 ∧ p.1.state = .queued)
    (hids : looked.Pairwise fun p q => p.1.taskId ≠ q.1.taskId) (hin : s₂.inflight = s₁.inflight)
    (htask : ∀ l, s₂.task? l = s₁.task? l)
    (hentry : ∀ l, (s₂.entryOf l).map Entry.core = (s₁.entryOf l).map Entry.core) :
    Ticked level now s ⟨s₂, none, raised, looked⟩ where
  waiting := hwait
  distinct := hids
  handed := by simp
  inflight := by simp [hin, h.inflight]
  entry_looked := by
    intro p hp
    rw [hentry, h.entry_looked p hp, Option.map_map]
    rfl
  entry_other := by
    intro l hl
    rw [hentry, h.entry_other l hl]
  task_looked := by
    intro p hp
    rw [htask, h.task_looked p hp]
    rfl
  task_other := by
    intro l hl
    rw [htask, h.task_other l hl]

theorem begun_ticked (h : Searched cfg now sample level s tasks s₁ looked (.chosen task))
    (hwait : ∀ p ∈ looked, s.task? p.1.taskId = some p.1 ∧ p.1.state = .queued)
    (hids : looked.Pairwise fun p q => p.1.taskId ≠ q.1.taskId)
    (hlooked : looked = before ++ [(task, .admissible)]) :
    Ticked level now s ⟨s₁.begun cfg now task, some task.taskId, none, looked⟩ := by
  have hmem : (task, Judgement.admissible) ∈ looked := by simp [hlooked]
  have hsame : ∀ p ∈ looked, p.1.taskId = task.taskId → p.1 = task := by
    intro p hp hid
    have hp' := (hwait p hp).1
    have ht := (hwait _ hmem).1
    rw [hid, ht, Option.some.injEq] at hp'
    exact hp'.symm
  have hentry : ∀ l, (s₁.begun cfg now task).entryOf l =
      if l = task.taskId then (s₁.entryOf l).map (Entry.began now) else s₁.entryOf l := by
    intro l
    rw [show (s₁.begun cfg now task).entryOf l = (s₁.moved task.taskId .running
      (Entry.began now)).entryOf l from rfl, entryOf_moved]
    split_ifs with hl
    · rw [hl]
    · rfl
  have htask : ∀ l, (s₁.begun cfg now task).task? l =
      if l = task.taskId then (s₁.task? l).map (·.moveTo .running) else s₁.task? l := by
    intro l
    rw [show (s₁.begun cfg now task).task? l = (s₁.moved task.taskId .running
      (Entry.began now)).task? l from rfl, task?_moved]
    split_ifs with hl
    · rw [hl]
    · rfl
  have hnone : ∀ l, (∀ p ∈ looked, p.1.taskId ≠ l) → l ≠ task.taskId :=
    fun l hl heq => hl _ hmem heq.symm
  refine ⟨hwait, hids, ?_, ?_, ?_, ?_, ?_, ?_⟩
  · intro l hl
    exact ⟨_, hmem, by simpa using hl, rfl⟩
  · intro l
    simp only [begun, List.mem_insert_iff, h.inflight, Option.some.injEq]
    rw [or_comm, eq_comm]
  · intro p hp
    rw [hentry, h.entry_looked p hp]
    simp only [entryAfter, Option.some.injEq]
    by_cases hid : p.1.taskId = task.taskId
    · rw [if_pos hid, Option.map_map, Option.map_map]
      simp only [if_pos hid.symm]
      rfl
    · rw [if_neg hid, Option.map_map]
      simp only [if_neg (Ne.symm hid)]
      rfl
  · intro l hl
    rw [hentry, if_neg (hnone l hl), h.entry_other l hl]
  · intro p hp
    rw [htask, h.task_looked p hp]
    by_cases hid : p.1.taskId = task.taskId
    · have hadm : p.2 = .admissible := by
        rw [h.judged p hp, hsame p hp hid, ← h.judged _ hmem]
      rw [if_pos hid, hadm]
      simp only [taskAfter, hid, if_true, reduceCtorEq, if_false, Option.map_some]
    · rw [if_neg hid]
      simp only [taskAfter, Option.some.injEq, if_neg (Ne.symm hid)]
  · intro l hl
    rw [htask, if_neg (hnone l hl), h.task_other l hl]

theorem chosen_waiting (h : Searched cfg now sample level s tasks s₁ looked (.chosen task))
    (hwait : ∀ p ∈ looked, s.task? p.1.taskId = some p.1 ∧ p.1.state = .queued)
    (hlooked : looked = before ++ [(task, .admissible)]) :
    s₁.task? task.taskId = some task ∧ task.state = .queued := by
  have hmem : (task, Judgement.admissible) ∈ looked := by simp [hlooked]
  exact ⟨by simpa using h.task_looked _ hmem, (hwait _ hmem).2⟩

theorem pass_ticked : Ticked r.level now s (s.pass cfg now r) := by
  by_cases hidle : s.queue.runningTasks = [] ∧ s.inflight = []
  swap
  · rw [pass_busy hidle]
    exact ⟨by simp, by simp, by simp, by simp, by simp, fun _ _ => rfl, by simp, fun _ _ => rfl⟩
  obtain ⟨s₁, looked, found, h, hend⟩ := pass_idle cfg now r hidle
  have hwait : ∀ p ∈ looked, s.task? p.1.taskId = some p.1 ∧ p.1.state = .queued :=
    fun p hp => (mem_offered.mp (searched_waiting h hp)).1
  have hticked : ∀ res, Ticked r.level now (s.swept now) res → Ticked r.level now s res :=
    fun res h => { h with }
  have hids := searched_distinct h
  apply hticked
  rcases hend with ⟨_, heq⟩ | ⟨e, _, heq⟩ | ⟨task, hfound, heq⟩
  · rw [heq]
    exact unstarted_ticked h hwait hids rfl (fun _ => rfl) (fun _ => rfl)
  · rw [heq]
    exact unstarted_ticked h hwait hids rfl (fun _ => rfl) (fun _ => rfl)
  · rw [hfound] at h
    obtain ⟨before, hlooked, _⟩ := h.found_by
    obtain ⟨ht, hst⟩ := chosen_waiting h hwait hlooked
    rcases startTask_cases cfg now r.activityMode looked ht hst with ⟨_, hold, detail, hres⟩ | ⟨_, hres⟩
    · rw [heq, hres]
      have hsame : SameGates (s₁.swept now) (s₁.refusedBy now task hold detail) :=
        SameGates.amend fun _ => rfl
      exact unstarted_ticked h hwait hids hsame.inflight (fun _ => hsame.task?) hsame.entries
    · rw [heq, hres]
      exact begun_ticked h hwait hids hlooked

theorem tick_cases (cfg : Settings) (s : Scheduler) (now : Seconds) (r : Reading) :
    ((s.paused || s.runtimePaused || r.foregroundBusy) = true ∧ ∃ hold detail,
      s.tick cfg now r = (s.housekeep cfg now r).holdQueue hold detail) ∨
    ((s.paused || s.runtimePaused || r.foregroundBusy) = false ∧
      s.tick cfg now r = (s.housekeep cfg now r).pass cfg now r) := by
  have hkeep := housekeep_spec cfg s now r
  unfold tick
  simp only [hkeep.paused, hkeep.runtimePaused]
  by_cases hp : (s.paused || s.runtimePaused) = true
  · rw [if_pos hp]
    exact .inl ⟨by simp [hp], _, _, rfl⟩
  · rw [if_neg hp]
    by_cases hf : r.foregroundBusy = true
    · rw [if_pos hf]
      exact .inl ⟨by simp [hf], _, _, rfl⟩
    · rw [if_neg hf]
      exact .inr ⟨by simp_all, rfl⟩

theorem tick_ticked (cfg : Settings) (s : Scheduler) (now : Seconds) (r : Reading) :
    Ticked r.level now (s.housekeep cfg now r) (s.tick cfg now r) := by
  rcases tick_cases cfg s now r with ⟨_, hold, detail, heq⟩ | ⟨_, heq⟩
  · rw [heq]
    exact holdQueue_ticked hold detail
  · rw [heq]
    exact pass_ticked

end Scheduler
end QronosAgent.Queue

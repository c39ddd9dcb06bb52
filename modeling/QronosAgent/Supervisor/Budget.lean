import QronosAgent.Supervisor.OneRuntime

/-! `RestartBudget` of `core/supervisor.py` over any sequence of failures. -/
namespace QronosAgent.Supervision
open Lib

/-- A failure, and what the budget answered: `none` is to give up. -/
structure Answered where
  now : ℚ
  ranFor : ℚ
  answer : Option ℚ

structure BudgetRun where
  budget : RestartBudget
  now : ℚ
  answered : List Answered
  raised : Bool

def budgetMachine (policy : SupervisorPolicy) : Machine BudgetRun (ℚ × ℚ) where
  start s := s.budget = ⟨[], 0⟩ ∧ s.answered = [] ∧ s.raised = false
  step s f :=
    if s.raised = false ∧ s.now ≤ f.1 then
      some (match s.budget.afterFailure policy f.1 f.2 with
        | none => { s with raised := true }
        | some (budget, answer) => ⟨budget, f.1, ⟨f.1, f.2, answer⟩ :: s.answered, false⟩)
    else none

/-- When restarts were granted. -/
def granted (answered : List Answered) : List ℚ :=
  (answered.filter (·.answer.isSome)).map Answered.now

/-- How many restarts were granted since the last run that was stable. -/
def streak (policy : SupervisorPolicy) : List Answered → ℕ
  | [] => 0
  | f :: older => (if policy.stableAfterSeconds ≤ f.ranFor then 0 else streak policy older) +
      if f.answer.isSome then 1 else 0

/-- What is granted from a moment on, for as long as a window is. -/
def inWindow (policy : SupervisorPolicy) (first : ℚ) (answered : List Answered) : ℕ :=
  (granted answered).countP fun t => first ≤ t ∧ t < first + policy.restartWindowSeconds

/-- Of one failure, with what came before it. -/
structure Answered.Right (policy : SupervisorPolicy) (f : Answered) (older : List Answered) :
    Prop where
  exhausted : f.answer = none ↔
    policy.maxRestarts ≤ (granted older).countP (f.now - · < policy.restartWindowSeconds)
  doubled : ∀ delay, f.answer = some delay → delay =
    min policy.restartBackoffMaxSeconds (policy.restartBackoffInitialSeconds *
      2 ^ (if policy.stableAfterSeconds ≤ f.ranFor then 0 else streak policy older))
  range : ∀ delay, f.answer = some delay →
    policy.restartBackoffInitialSeconds ≤ delay ∧ delay ≤ policy.restartBackoffMaxSeconds
  afresh : policy.stableAfterSeconds ≤ f.ranFor → ∀ delay, f.answer = some delay →
    delay = policy.restartBackoffInitialSeconds

structure Bounded (policy : SupervisorPolicy) (s : BudgetRun) : Prop where
  unraised : s.raised = false
  right : ∀ newer f older, s.answered = newer ++ f :: older → f.Right policy older
  window : ∀ first, inWindow policy first s.answered ≤ policy.maxRestarts

section
variable {policy : SupervisorPolicy} {s t : BudgetRun} {f : ℚ × ℚ}

structure BudgetRun.Inv (policy : SupervisorPolicy) (s : BudgetRun) : Prop extends
    Bounded policy s where
  consecutive : s.budget.consecutive = streak policy s.answered
  restarts : s.budget.restarts.reverse =
    (granted s.answered).filter (s.now - · < policy.restartWindowSeconds)
  past : ∀ a ∈ granted s.answered, a ≤ s.now

theorem BudgetRun.Inv.recent (h : s.Inv policy) (hnow : s.now ≤ f.1) :
    (s.budget.recent policy f.1).reverse =
      (granted s.answered).filter (f.1 - · < policy.restartWindowSeconds) := by
  rw [RestartBudget.recent, ← List.filter_reverse, h.restarts, List.filter_filter]
  apply List.filter_congr
  intro a _
  by_cases ha : f.1 - a < policy.restartWindowSeconds
  · have : s.now - a < policy.restartWindowSeconds := by linarith
    simp [ha, this]
  · simp [ha]

theorem delay_range (policy : SupervisorPolicy) (n : ℕ) :
    policy.restartBackoffInitialSeconds ≤ min policy.restartBackoffMaxSeconds
      (policy.restartBackoffInitialSeconds * 2 ^ n) := by
  apply le_min policy.initial_le
  have : (1 : ℚ) ≤ 2 ^ n := one_le_pow₀ (by norm_num)
  nlinarith [policy.initial_pos]

theorem BudgetRun.Inv.count_recent (h : s.Inv policy) (hnow : s.now ≤ f.1) :
    (granted s.answered).countP (f.1 - · < policy.restartWindowSeconds) =
      (s.budget.recent policy f.1).length := by
  rw [List.countP_eq_length_filter, ← h.recent hnow, List.length_reverse]

theorem BudgetRun.Inv.cons (h : s.Inv policy) {a : Answered} (ha : a.Right policy s.answered)
    (newer : List Answered) (g : Answered) (older : List Answered)
    (hg : a :: s.answered = newer ++ g :: older) : g.Right policy older := by
  cases newer with
  | nil =>
    cases hg
    exact ha
  | cons b newer => exact h.right newer g older (List.cons.inj hg).2

theorem BudgetRun.Inv.step (h : s.Inv policy) (hok : ¬ s.budget.Overflows policy f.1 f.2)
    (hs : (budgetMachine policy).step s f = some t) : t.Inv policy := by
  obtain ⟨now, ranFor⟩ := f
  simp only [budgetMachine, Option.ite_none_right_eq_some, Option.some.injEq] at hs
  obtain ⟨⟨-, hnow⟩, rfl⟩ := hs
  have hcount := h.count_recent (f := (now, ranFor)) hnow
  have hrecent := h.recent (f := (now, ranFor)) hnow
  have hpast : ∀ a ∈ granted s.answered, a ≤ now := fun a ha => (h.past a ha).trans hnow
  have hrow : s.budget.row policy ranFor =
      if policy.stableAfterSeconds ≤ ranFor then 0 else streak policy s.answered := by
    rw [RestartBudget.row, h.consecutive]
  simp only at hcount hrecent hnow
  unfold RestartBudget.Overflows at hok
  unfold RestartBudget.afterFailure
  simp only at hok ⊢
  split_ifs with hmax hbig
  · have hgranted : granted (⟨now, ranFor, none⟩ :: s.answered) = granted s.answered := rfl
    refine ⟨⟨rfl, h.cons ⟨by simp [hcount, hmax], ?_, ?_, ?_⟩, ?_⟩, ?_, ?_, ?_⟩
    · intro delay hd
      cases hd
    · intro delay hd
      cases hd
    · intro _ delay hd
      cases hd
    · intro first
      rw [inWindow, hgranted]
      exact h.window first
    · simp [streak, hrow]
    · simpa [hgranted] using hrecent
    · simpa [hgranted] using hpast
  · exact absurd ⟨not_le.mp hmax, hbig⟩ hok
  · rw [hrow]
    generalize hn : (if policy.stableAfterSeconds ≤ ranFor then 0 else streak policy s.answered) = n
    generalize hdelay : min policy.restartBackoffMaxSeconds
      (policy.restartBackoffInitialSeconds * 2 ^ n) = delay
    have hgranted : granted (⟨now, ranFor, some delay⟩ :: s.answered) =
        now :: granted s.answered := rfl
    have hrange := delay_range policy n
    rw [hdelay] at hrange
    refine ⟨⟨rfl, h.cons ⟨by simp [hcount, hmax], ?_, ?_, ?_⟩, ?_⟩, ?_, ?_, ?_⟩
    · intro delay' hd
      rw [← Option.some.inj hd, ← hdelay, ← hn]
    · intro delay' hd
      cases hd
      exact ⟨hrange, hdelay ▸ min_le_left _ _⟩
    · intro hstable delay' hd
      rw [if_pos hstable] at hn
      rw [← Option.some.inj hd, ← hdelay, ← hn, pow_zero, mul_one]
      exact min_eq_right policy.initial_le
    · intro first
      rw [inWindow, hgranted, List.countP_cons]
      split
      · rename_i hin
        simp only [decide_eq_true_eq] at hin
        -- what the window holds besides is recent
        have hle : inWindow policy first s.answered ≤ (s.budget.recent policy now).length := by
          rw [← hcount]
          apply List.countP_mono_left
          intro a _ ha
          simp only [decide_eq_true_eq] at ha ⊢
          linarith
        unfold inWindow at hle
        omega
      · exact h.window first
    · simp [streak, hn]
    · rw [hgranted, List.filter_cons, List.reverse_append, hrecent]
      simp [policy.window_pos]
    · rw [hgranted]
      simpa using hpast

/-- In a run in which no power of two is beyond the floats. -/
theorem restarts_bounded (policy : SupervisorPolicy) : ∀ s, (budgetMachine policy).Reach
    (fun s f => ¬ s.budget.Overflows policy f.1 f.2) s → Bounded policy s := by
  intro s hr
  apply BudgetRun.Inv.toBounded
  refine hr.invariant (I := BudgetRun.Inv policy) ?_ fun s f t h hok hs => h.step hok hs
  rintro s ⟨hbudget, hanswered, hraised⟩
  refine ⟨⟨hraised, ?_, ?_⟩, ?_, ?_, ?_⟩ <;> rw [hanswered]
  · intro newer f older hf
    exact absurd hf (by simp)
  · exact fun first => Nat.zero_le _
  · rw [hbudget]
    rfl
  · rw [hbudget]
    rfl
  · exact fun a ha => by cases ha

end

theorem restarts_bounded_once : ∃ s, (budgetMachine defaultPolicy).Reach
    (fun s f => ¬ s.budget.Overflows defaultPolicy f.1 f.2) s ∧
    granted s.answered = [3] ∧ Bounded defaultPolicy s := by
  have hr : (budgetMachine defaultPolicy).Reach
      (fun s f => ¬ s.budget.Overflows defaultPolicy f.1 f.2)
      ⟨⟨[3], 1⟩, 3, [⟨3, 3, some 1⟩], false⟩ :=
    .step (s := ⟨⟨[], 0⟩, 0, [], false⟩) (a := (3, 3)) (.start ⟨rfl, rfl, rfl⟩)
      (by decide +kernel) (by with_unfolding_all rfl)
  exact ⟨_, hr, rfl, restarts_bounded defaultPolicy _ hr⟩

/-- Failures a window apart, each of a run that was not stable. -/
theorem reach_row (n : ℕ) (hn : n ≤ 1024) : ∃ s, (budgetMachine defaultPolicy).Reachable s ∧
    s.raised = false ∧ s.now ≤ 600 * n ∧ s.budget.recent defaultPolicy (600 * n) = [] ∧
    s.budget.row defaultPolicy 60 = n := by
  have hunstable : ¬ defaultPolicy.stableAfterSeconds ≤ 60 := by decide +kernel
  induction n with
  | zero => exact ⟨⟨⟨[], 0⟩, 0, [], false⟩, .start ⟨rfl, rfl, rfl⟩, rfl, by simp, rfl, if_neg hunstable⟩
  | succ n ih =>
    obtain ⟨s, hr, hraised, hnow, hrecent, hrow⟩ := ih (by omega)
    refine ⟨_, .step hr trivial (a := (600 * n, 60)) (if_pos ⟨hraised, hnow⟩), ?_⟩
    unfold RestartBudget.afterFailure
    simp only [hrecent, hrow, if_neg (show ¬ 1024 ≤ n by omega)]
    rw [if_neg (by simp [defaultPolicy])]
    refine ⟨rfl, ?_, ?_, if_neg hunstable⟩
    · push_cast
      linarith
    · rw [RestartBudget.recent, List.filter_eq_nil_iff]
      intro a ha
      rw [List.mem_singleton.mp ha, decide_eq_true_eq, not_lt]
      change (600 : ℚ) ≤ _
      push_cast
      linarith

theorem overflows : ¬ ∀ s, (budgetMachine defaultPolicy).Reachable s → Bounded defaultPolicy s := by
  intro hall
  obtain ⟨s, hr, hraised, hnow, hrecent, hrow⟩ := reach_row 1024 le_rfl
  have hover : s.budget.afterFailure defaultPolicy (600 * (1024 : ℕ)) 60 = none := by
    rw [RestartBudget.afterFailure, hrow, hrecent]
    rfl
  have hraises := (hall _ (.step hr trivial (a := (600 * (1024 : ℕ), 60))
    (if_pos ⟨hraised, hnow⟩))).unraised
  simp only [hover] at hraises
  cases hraises

end QronosAgent.Supervision

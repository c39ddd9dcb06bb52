import Mathlib.Algebra.Order.Ring.Rat
import QronosAgent.Lib.TokenBucket

/-! `RequestBudget` of `core/link_commands.py`: the token bucket of one remote session. -/
namespace QronosAgent.Link
open Lib

abbrev RequestBudget := TokenBucket ℚ

namespace RequestBudget

/-- `__init__`, which reads the clock once. -/
def init (capacity refillPerSecond now : ℚ) : RequestBudget :=
  ⟨capacity, refillPerSecond, capacity, now⟩

/-- The tokens accrued since `at`, when there were `tokens`, less those spent by the calls, capped at
the capacity at every call and at `now`. -/
def accrued (capacity refillPerSecond : ℚ) (tokens since : ℚ) : List (ℚ × Bool) → ℚ → ℚ
  | [], now => min capacity (tokens + refillPerSecond * (now - since))
  | (t, taken) :: calls, now =>
    accrued capacity refillPerSecond
      (min capacity (tokens + refillPerSecond * (t - since)) - if taken then 1 else 0) t calls now

theorem level_eq {b : RequestBudget} {now : ℚ} (h : b.since ≤ now) :
    b.level now = min b.capacity (b.tokens + b.rate * (now - b.since)) := by
  rw [TokenBucket.level, max_eq_right (sub_nonneg.mpr h), mul_comm]

/-- Each answer is what the tokens accrued until then say. -/
theorem answers_accrued {readings : List ℚ} {b : RequestBudget}
    (hs : (b.since :: readings).Pairwise (· ≤ ·)) {calls : List (ℚ × Bool)} {now : ℚ}
    {taken : Bool} (h : calls ++ [(now, taken)] <+: b.answers readings) :
    taken = false ↔ accrued b.capacity b.rate b.tokens b.since calls now < 1 := by
  induction readings generalizing b calls with
  | nil =>
    rw [TokenBucket.answers, List.prefix_nil] at h
    exact absurd h (by simp)
  | cons t later ih =>
    obtain ⟨hle, hs'⟩ := List.pairwise_cons.mp hs
    have hlevel := level_eq (hle t List.mem_cons_self)
    rw [TokenBucket.answers] at h
    cases calls with
    | nil =>
      obtain ⟨heq, -⟩ := List.cons_prefix_cons.mp h
      cases heq
      rw [accrued, ← hlevel, TokenBucket.take]
      split <;> simp_all
    | cons c calls =>
      obtain ⟨rfl, hrest⟩ := List.cons_prefix_cons.mp h
      have hsince : (b.take t).2.since = t := by
        rw [TokenBucket.take]
        split <;> rfl
      have htokens : (b.take t).2.tokens = b.level t - if (b.take t).1 then 1 else 0 := by
        rw [TokenBucket.take]
        split <;> simp
      have := ih (b := (b.take t).2) (by rwa [hsince]) hrest
      rwa [TokenBucket.take_capacity, TokenBucket.take_rate, hsince, htokens, hlevel] at this

/-- Over no stretch of time does it admit more than its capacity and what is refilled, and it refuses
only what the accrued tokens do not pay for. -/
theorem never_over_admits {capacity refillPerSecond created : ℚ} {readings : List ℚ}
    (hclock : (created :: readings).Pairwise (· ≤ ·)) :
    (0 ≤ capacity → 0 ≤ refillPerSecond → ∀ first last, first ≤ last →
      (TokenBucket.granted first last ((init capacity refillPerSecond created).answers readings) : ℚ) ≤
        capacity + refillPerSecond * (last - first)) ∧
    ∀ calls now, calls ++ [(now, false)] <+: (init capacity refillPerSecond created).answers readings →
      accrued capacity refillPerSecond capacity created calls now < 1 := by
  constructor
  · intro hcapacity hrefill first last hle
    exact TokenBucket.Sound.granted_le (b := init capacity refillPerSecond created)
      ⟨hrefill, hcapacity, le_refl _⟩ (List.pairwise_cons.mp hclock).2 hle
  · intro calls now h
    exact (answers_accrued (b := init capacity refillPerSecond created) hclock h).mp rfl

theorem never_over_admits_two_of_three :
    TokenBucket.granted 0 0 ((init 2 1 0).answers [0, 0, 0]) = 2 ∧
    (2 : ℚ) ≤ 2 + 1 * (0 - 0) ∧ accrued 2 1 2 0 [(0, true), (0, true)] 0 < 1 := by
  have hclock : ([0, 0, 0, 0] : List ℚ).Pairwise (· ≤ ·) := by decide +kernel
  have h := @never_over_admits 2 1 0 _ hclock
  have hgranted : TokenBucket.granted 0 0 ((init 2 1 0).answers [0, 0, 0]) = 2 := by decide +kernel
  have hfirst := h.1 (by decide) (by decide) 0 0 le_rfl
  rw [hgranted] at hfirst
  exact ⟨hgranted, hfirst, h.2 _ _ (by decide +kernel)⟩

/-- A bucket of less than nothing, and one that leaks. -/
theorem negative_over_admits :
    ¬ (TokenBucket.granted 0 0 ((init (-1) 0 0).answers []) : ℚ) ≤ -1 + 0 * (0 - 0) ∧
    ¬ (TokenBucket.granted 0 2 ((init 1 (-1) 0).answers [0]) : ℚ) ≤ 1 + -1 * (2 - 0) := by
  decide +kernel

end RequestBudget
end QronosAgent.Link

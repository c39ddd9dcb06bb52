import Mathlib.Algebra.Order.Field.Basic
import Mathlib.Tactic.Linarith

/-! Token buckets: over any stretch of time a bucket lets through at most what it holds and what
flows into it. -/
namespace QronosAgent.Lib

/-- A bucket that fills at a rate, up to its capacity. `since` is when it was last looked at. -/
structure TokenBucket (K : Type*) where
  capacity : K
  rate : K
  tokens : K
  since : K

namespace TokenBucket
variable {K : Type*} [Field K] [LinearOrder K]

def level (b : TokenBucket K) (now : K) : K :=
  min b.capacity (b.tokens + max 0 (now - b.since) * b.rate)

def take (b : TokenBucket K) (now : K) : Bool × TokenBucket K :=
  if b.level now < 1 then (false, { b with tokens := b.level now, since := now })
  else (true, { b with tokens := b.level now - 1, since := now })

/-- What it answers at each reading of the clock. -/
def answers (b : TokenBucket K) : List K → List (K × Bool)
  | [] => []
  | now :: later => (now, (b.take now).1) :: (b.take now).2.answers later

/-- How many tokens were given out from one moment to another. -/
def granted (first last : K) (calls : List (K × Bool)) : ℕ :=
  calls.countP fun c => decide (first ≤ c.1 ∧ c.1 ≤ last) && c.2

/-- A bucket that holds no debt and no more than fits, and does not leak. -/
structure Sound (b : TokenBucket K) : Prop where
  rate : 0 ≤ b.rate
  tokens : 0 ≤ b.tokens
  capacity : b.tokens ≤ b.capacity

variable {b : TokenBucket K} {now : K}

theorem level_le : b.level now ≤ b.capacity := min_le_left _ _

theorem take_capacity (b : TokenBucket K) (now : K) : (b.take now).2.capacity = b.capacity := by
  unfold take
  split <;> rfl

theorem take_rate (b : TokenBucket K) (now : K) : (b.take now).2.rate = b.rate := by
  unfold take
  split <;> rfl

variable [IsStrictOrderedRing K]

omit [IsStrictOrderedRing K] in
theorem level_now (hcap : b.tokens ≤ b.capacity) : b.level b.since = b.tokens := by
  unfold level
  simpa using hcap

theorem Sound.level_nonneg (h : b.Sound) : 0 ≤ b.level now := by
  have hflow : 0 ≤ max 0 (now - b.since) * b.rate := mul_nonneg (le_max_left _ _) h.rate
  exact le_min (h.tokens.trans h.capacity) (add_nonneg h.tokens hflow)

/-- Time adds at most what flows in. -/
theorem Sound.level_later (h : b.Sound) {later : K} (hle : now ≤ later) :
    b.level later ≤ b.level now + b.rate * (later - now) := by
  have hflow : 0 ≤ b.rate * (later - now) := mul_nonneg h.rate (sub_nonneg.mpr hle)
  unfold level
  rcases le_total b.capacity (b.tokens + max 0 (now - b.since) * b.rate) with hfull | hfits
  · rw [min_eq_left hfull]
    have hcap := min_le_left b.capacity (b.tokens + max 0 (later - b.since) * b.rate)
    linarith
  · rw [min_eq_right hfits]
    have hmax : max 0 (later - b.since) ≤ max 0 (now - b.since) + (later - now) := by
      apply max_le
      · have := le_max_left 0 (now - b.since)
        linarith
      · have := le_max_right 0 (now - b.since)
        linarith
    have hmul := mul_le_mul_of_nonneg_right hmax h.rate
    have hlevel := min_le_right b.capacity (b.tokens + max 0 (later - b.since) * b.rate)
    linarith

/-- A look at the bucket takes one token, or leaves what it holds. -/
theorem Sound.take (h : b.Sound) (now : K) : (b.take now).2.Sound ∧
    (b.take now).2.level now + (if (b.take now).1 then 1 else 0) = b.level now := by
  have hnonneg : 0 ≤ b.level now := h.level_nonneg
  have hcap : b.level now ≤ b.capacity := level_le
  unfold TokenBucket.take
  split
  · refine ⟨⟨h.rate, hnonneg, hcap⟩, ?_⟩
    have hlevel := level_now (b := { b with tokens := b.level now, since := now }) hcap
    simp only at hlevel ⊢
    rw [hlevel]
    simp
  · rename_i hone
    have htaken : b.level now - 1 ≤ b.capacity := by linarith
    refine ⟨⟨h.rate, by linarith [not_lt.mp hone], htaken⟩, ?_⟩
    have hlevel := level_now (b := { b with tokens := b.level now - 1, since := now }) htaken
    simp only at hlevel ⊢
    rw [hlevel]
    simp

omit [Field K] [IsStrictOrderedRing K] in
theorem granted_cons (first last : K) (c : K × Bool) (calls : List (K × Bool)) :
    granted first last (c :: calls) =
      granted first last calls + if (first ≤ c.1 ∧ c.1 ≤ last) ∧ c.2 = true then 1 else 0 := by
  simp [granted, List.countP_cons]

omit [IsStrictOrderedRing K] in
theorem granted_late {first last : K} {readings : List K} (b : TokenBucket K)
    (h : ∀ t ∈ readings, last < t) : granted first last (b.answers readings) = 0 := by
  induction readings generalizing b with
  | nil => rfl
  | cons t later ih =>
    have ht : ¬ t ≤ last := not_le.mpr (h t List.mem_cons_self)
    rw [answers, granted_cons, ih _ fun u hu => h u (List.mem_cons_of_mem _ hu)]
    simp [ht]

/-- From some moment on it gives out at most what it holds then and what flows in. -/
theorem Sound.granted_after (first : K) {last : K} {readings : List K} (h : b.Sound)
    (hnow : ∀ t ∈ readings, now ≤ t) (hs : readings.Pairwise (· ≤ ·)) (hlast : now ≤ last) :
    (granted first last (b.answers readings) : K) ≤ b.level now + b.rate * (last - now) := by
  induction readings generalizing b now with
  | nil =>
    have := mul_nonneg h.rate (sub_nonneg.mpr hlast)
    have : 0 ≤ b.level now := h.level_nonneg
    simp only [answers, granted, List.countP_nil, Nat.cast_zero]
    linarith
  | cons t later ih =>
    obtain ⟨hlater, hs⟩ := List.pairwise_cons.mp hs
    have hle := h.level_later (hnow t List.mem_cons_self)
    by_cases ht : t ≤ last
    · obtain ⟨hsound, htaken⟩ := h.take t
      have hrest := ih hsound hlater hs ht
      rw [take_rate] at hrest
      have hone : ((if (first ≤ t ∧ t ≤ last) ∧ (b.take t).1 = true then 1 else 0 : ℕ) : K) ≤
          if (b.take t).1 then 1 else 0 := by
        cases (b.take t).1 <;> simp
        split_ifs <;> simp
      rw [answers, granted_cons, Nat.cast_add]
      linarith
    · have hnone : ∀ u ∈ t :: later, last < u := by
        intro u hu
        rcases List.mem_cons.mp hu with rfl | hu
        · exact not_le.mp ht
        · exact (not_le.mp ht).trans_le (hlater u hu)
      rw [granted_late b hnone, Nat.cast_zero]
      have := mul_nonneg h.rate (sub_nonneg.mpr hlast)
      have : 0 ≤ b.level now := h.level_nonneg
      linarith

/-- In no stretch of time does it give out more than its capacity and what flows in. -/
theorem Sound.granted_le {first last : K} {readings : List K} (h : b.Sound)
    (hs : readings.Pairwise (· ≤ ·)) (hle : first ≤ last) :
    (granted first last (b.answers readings) : K) ≤ b.capacity + b.rate * (last - first) := by
  induction readings generalizing b with
  | nil =>
    have := mul_nonneg h.rate (sub_nonneg.mpr hle)
    have := h.tokens.trans h.capacity
    simp only [answers, granted, List.countP_nil, Nat.cast_zero]
    linarith
  | cons t later ih =>
    obtain ⟨hlater, hs'⟩ := List.pairwise_cons.mp hs
    by_cases ht : first ≤ t
    · have hnow : ∀ u ∈ t :: later, first ≤ u := by
        intro u hu
        rcases List.mem_cons.mp hu with rfl | hu
        · exact ht
        · exact ht.trans (hlater u hu)
      have := h.granted_after first hnow hs hle
      have : b.level first ≤ b.capacity := level_le
      linarith
    · have hrest := ih (h.take t).1 hs'
      rw [take_capacity, take_rate] at hrest
      rw [answers, granted_cons, if_neg fun hc => ht hc.1.1]
      exact hrest

end TokenBucket
end QronosAgent.Lib

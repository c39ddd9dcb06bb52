import Mathlib.Data.List.Basic

/-! A bounded retry: attempts are made until one gives a final answer, one fails in a way that is
not caught, or there are no more. -/
namespace QronosAgent.Lib

structure Attempted (σ ε ρ τ : Type*) where
  result : Except ε ρ
  sent : Option τ
  after : σ

structure Made (σ ι ε ρ τ : Type*) extends Attempted σ ε ρ τ where
  before : σ
  input : ι

/-- How a retry ends: its result, the state it leaves, and the attempts that were made. -/
structure Retried (σ ι ε ρ τ : Type*) where
  result : Except ε ρ
  after : σ
  made : List (Made σ ι ε ρ τ)

section
variable {σ ι ε ρ τ : Type*}

structure RetryPlan (σ ι ε ρ τ : Type*) where
  attempt : σ → ι → Attempted σ ε ρ τ
  caught : ε → Bool
  final : ρ → Bool
  /-- What is raised after the last attempt, given the error it ended with. -/
  exhausted : Option ε → ε

namespace RetryPlan
variable (p : RetryPlan σ ι ε ρ τ)

/-- At most `n` attempts, the first on `inputs k`. -/
def run (inputs : ℕ → ι) : ℕ → ℕ → Option ε → σ → Retried σ ι ε ρ τ
  | 0, _, last, s => ⟨.error (p.exhausted last), s, []⟩
  | n + 1, k, _, s =>
    let a := p.attempt s (inputs k)
    let made : Made σ ι ε ρ τ := { a with before := s, input := inputs k }
    match a.result with
    | .ok r =>
      if p.final r then ⟨.ok r, a.after, [made]⟩
      else
        let rest := run inputs n (k + 1) none a.after
        { rest with made := made :: rest.made }
    | .error e =>
      if p.caught e then
        let rest := run inputs n (k + 1) (some e) a.after
        { rest with made := made :: rest.made }
      else ⟨.error e, a.after, [made]⟩

def Caught (m : Made σ ι ε ρ τ) : Prop := ∀ e, m.result = .error e → p.caught e = true

def Genuine (m : Made σ ι ε ρ τ) : Prop := m.toAttempted = p.attempt m.before m.input

variable {p} {inputs : ℕ → ι} {n k : ℕ} {last : Option ε} {s : σ}

theorem made_length_le : (p.run inputs n k last s).made.length ≤ n := by
  induction n generalizing k last s with
  | zero => simp [run]
  | succ n ih =>
    rw [run]
    cases hresult : (p.attempt s (inputs k)).result with
    | ok r =>
      simp only
      split
      · simp
      · simpa using ih
    | error e =>
      simp only
      split
      · simpa using ih
      · simp

theorem made_genuine : ∀ m ∈ (p.run inputs n k last s).made, p.Genuine m := by
  induction n generalizing k last s with
  | zero => simp [run]
  | succ n ih =>
    rw [run]
    cases hresult : (p.attempt s (inputs k)).result with
    | ok r =>
      simp only
      split
      · simp [Genuine]
      · simpa [Genuine] using ih
    | error e =>
      simp only
      split
      · simpa [Genuine] using ih
      · simp [Genuine]

/-- How a retry ends: with the final answer of the last attempt made, with the error of an attempt that is not
caught, or after all its attempts, none of which was final. -/
inductive Ending (p : RetryPlan σ ι ε ρ τ) (n : ℕ) (r : Retried σ ι ε ρ τ) : Prop where
  | answered (m) (hm : r.made.getLast? = some m) (a : ρ) (hok : m.result = .ok a)
      (hfinal : p.final a = true) (hresult : r.result = .ok a)
  | escaped (m) (hm : m ∈ r.made) (e : ε) (herror : m.result = .error e)
      (hcaught : p.caught e = false) (hresult : r.result = .error e)
  | exhausted (hall : r.made.length = n) (hcaught : ∀ m ∈ r.made, p.Caught m) (last : Option ε)
      (hlast : ∀ e, last = some e → p.caught e = true)
      (hresult : r.result = .error (p.exhausted last))

theorem Ending.cons {r : Retried σ ι ε ρ τ} {m : Made σ ι ε ρ τ} (h : p.Ending n r)
    (hcaught : p.Caught m) : p.Ending (n + 1) { r with made := m :: r.made } := by
  cases h with
  | answered m' hm a hok hfinal hresult =>
    exact .answered m' (by simp [List.getLast?_cons, hm]) a hok hfinal hresult
  | escaped m' hm e herror hnot hresult =>
    exact .escaped m' (List.mem_cons_of_mem _ hm) e herror hnot hresult
  | exhausted hall hothers last hlast hresult =>
    exact .exhausted (by simp [hall]) (List.forall_mem_cons.mpr ⟨hcaught, hothers⟩) last hlast
      hresult

theorem run_ending (hlast : ∀ e, last = some e → p.caught e = true) :
    p.Ending n (p.run inputs n k last s) := by
  induction n generalizing k last s with
  | zero => exact .exhausted rfl (by simp [run]) last hlast rfl
  | succ n ih =>
    rw [run]
    cases hresult : (p.attempt s (inputs k)).result with
    | ok a =>
      simp only
      by_cases hfinal : p.final a = true
      · rw [if_pos hfinal]
        exact .answered _ rfl a hresult hfinal rfl
      · rw [if_neg hfinal]
        apply Ending.cons (ih (by simp))
        intro e he
        rw [hresult] at he
        cases he
    | error e =>
      simp only
      by_cases hcaught : p.caught e = true
      · rw [if_pos hcaught]
        have he : ∀ e', some e = some e' → p.caught e' = true := by
          rintro e' ⟨⟩
          exact hcaught
        apply Ending.cons (ih he)
        intro e' he'
        rw [hresult] at he'
        cases he'
        exact hcaught
      · rw [if_neg hcaught]
        exact .escaped _ List.mem_cons_self e hresult (Bool.eq_false_iff.mpr hcaught) rfl

/-- An attempt whose error is not caught ends the retry with that error. -/
theorem result_of_not_caught {m : Made σ ι ε ρ τ} (hm : m ∈ (p.run inputs n k last s).made)
    {e : ε} (herror : m.result = .error e) (hcaught : p.caught e = false) :
    (p.run inputs n k last s).result = .error e := by
  induction n generalizing k last s with
  | zero => simp [run] at hm
  | succ n ih =>
    rw [run] at hm ⊢
    cases hresult : (p.attempt s (inputs k)).result with
    | ok a =>
      simp only [hresult] at hm ⊢
      by_cases hfinal : p.final a = true
      · rw [if_pos hfinal] at hm
        cases List.mem_singleton.mp hm
        rw [hresult] at herror
        cases herror
      · rw [if_neg hfinal] at hm ⊢
        rcases List.mem_cons.mp hm with rfl | hm
        · rw [hresult] at herror
          cases herror
        · exact ih hm
    | error e' =>
      simp only [hresult] at hm ⊢
      by_cases hcaught' : p.caught e' = true
      · rw [if_pos hcaught'] at hm ⊢
        rcases List.mem_cons.mp hm with rfl | hm
        · rw [hresult] at herror
          cases herror
          rw [hcaught] at hcaught'
          cases hcaught'
        · exact ih hm
      · rw [if_neg hcaught'] at hm ⊢
        cases List.mem_singleton.mp hm
        rw [hresult] at herror
        exact herror

end RetryPlan
end
end QronosAgent.Lib

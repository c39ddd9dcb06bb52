import Mathlib.Data.List.Basic

/-! Machines that answer each input, and when the inputs of one kind cannot change the answers to
the others. The condition is local: a hidden input leaves the view alone, and two states of one
view answer a visible input alike and go on with one view. -/
namespace QronosAgent.Lib

structure Transducer (σ ι ο : Type*) where
  step : σ → ι → σ × ο

namespace Transducer
variable {σ ι ο ν : Type*} (T : Transducer σ ι ο)

def answers : σ → List ι → List (ι × ο)
  | _, [] => []
  | s, i :: is => (i, (T.step s i).2) :: answers (T.step s i).1 is

variable {T}

structure Unwinding (T : Transducer σ ι ο) (visible : ι → Bool) (view : σ → ν) : Prop where
  hidden : ∀ s i, visible i = false → view (T.step s i).1 = view s
  answer : ∀ s t i, visible i = true → view s = view t → (T.step s i).2 = (T.step t i).2
  carry : ∀ s t i, visible i = true → view s = view t →
    view (T.step s i).1 = view (T.step t i).1

variable {visible : ι → Bool} {view : σ → ν}

theorem Unwinding.answers_eq (h : T.Unwinding visible view) {s t : σ} (hst : view s = view t)
    (is : List ι) :
    (T.answers s is).filter (fun a => visible a.1) = T.answers t (is.filter visible) := by
  induction is generalizing s t with
  | nil => rfl
  | cons i is ih =>
    rw [answers]
    cases hi : visible i with
    | true =>
      rw [List.filter_cons_of_pos (by exact hi), List.filter_cons_of_pos (by exact hi), answers,
        h.answer s t i hi hst, ih (h.carry s t i hi hst)]
    | false =>
      rw [List.filter_cons_of_neg (by simp [hi]), List.filter_cons_of_neg (by simp [hi])]
      exact ih ((h.hidden s i hi).trans hst)

end Transducer
end QronosAgent.Lib

import Mathlib.Data.List.Basic

/-! Answers that take their own last answer into account. -/
namespace QronosAgent.Lib.Hysteresis

variable {α : Type*} (answer : α → Bool → Bool)

def answers : Bool → List α → List Bool
  | _, [] => []
  | last, reading :: readings =>
    answer reading last :: answers (answer reading last) readings

/-- What refuses a reading from a clear state refuses it all the more once it has refused. -/
def Sticky : Prop :=
  ∀ reading, answer reading false = true → answer reading true = true

/-- Two equal readings in a row never get different answers. -/
def NeverFlaps : Prop :=
  ∀ last readings i, i + 1 < readings.length → readings[i]? = readings[i + 1]? →
    (answers answer last readings)[i]? = (answers answer last readings)[i + 1]?

variable {answer}

@[simp] theorem length_answers (last : Bool) (readings : List α) :
    (answers answer last readings).length = readings.length := by
  induction readings generalizing last with
  | nil => rfl
  | cons reading readings ih => simp [answers, ih]

theorem Sticky.again (h : Sticky answer) (reading : α) (last : Bool) :
    answer reading (answer reading last) = answer reading last := by
  have hsticky := h reading
  cases last <;> cases hfalse : answer reading false <;> cases htrue : answer reading true <;>
    simp_all

theorem Sticky.neverFlaps (h : Sticky answer) : NeverFlaps answer := by
  intro last readings
  induction readings generalizing last with
  | nil => intro i hi; simp at hi
  | cons reading readings ih =>
    intro i hi heq
    cases i with
    | zero =>
      cases readings with
      | nil => simp at hi
      | cons next readings =>
        have : reading = next := by simpa using heq
        subst this
        simp [answers, h.again]
    | succ i =>
      have hnext := ih (answer reading last) i (by simpa using hi) (by simpa using heq)
      simpa [answers] using hnext

end QronosAgent.Lib.Hysteresis

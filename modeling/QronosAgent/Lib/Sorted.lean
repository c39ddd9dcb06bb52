import Mathlib.Data.List.Chain
import Mathlib.Data.List.Sort

/-! `sorted(items, key=...)`: a stable sort by comparisons of the keys. The comparison need
not be an order (floats hold NaN); asymmetry is enough for a sorted list to stay as it is. -/
namespace QronosAgent.Lib

variable {α κ : Type*}

/-- `a` may stand directly before `b`. -/
abbrev NotAfter (lt : κ → κ → Bool) (key : α → κ) (a b : α) : Prop := lt (key b) (key a) = false

def sortedBy (lt : κ → κ → Bool) (key : α → κ) (l : List α) : List α :=
  l.insertionSort (NotAfter lt key)

variable {lt : κ → κ → Bool} {key : α → κ}

theorem sortedBy_perm (l : List α) : (sortedBy lt key l).Perm l :=
  List.perm_insertionSort _ l

@[simp] theorem mem_sortedBy {l : List α} {a : α} : a ∈ sortedBy lt key l ↔ a ∈ l :=
  (sortedBy_perm l).mem_iff

theorem orderedInsert_chain (hlt : ∀ x y, lt x y = true → lt y x = false) (a : α) {l : List α}
    (hl : l.IsChain (NotAfter lt key)) :
    (l.orderedInsert (NotAfter lt key) a).IsChain (NotAfter lt key) ∧
      ∀ b ∈ (l.orderedInsert (NotAfter lt key) a).head?, b = a ∨ b ∈ l.head? := by
  induction l with
  | nil => simp
  | cons b l ih =>
    by_cases hab : NotAfter lt key a b
    · rw [List.orderedInsert_cons, if_pos hab]
      exact ⟨List.isChain_cons_cons.mpr ⟨hab, hl⟩, by simp⟩
    · rw [List.orderedInsert_cons, if_neg hab]
      have hba : NotAfter lt key b a := hlt _ _ (by simpa using hab)
      obtain ⟨htail, hhead⟩ := ih hl.tail
      refine ⟨List.isChain_cons.mpr ⟨?_, htail⟩, by simp⟩
      intro c hc
      rcases hhead c hc with rfl | hc
      · exact hba
      · exact (List.isChain_cons.mp hl).1 c hc

theorem sortedBy_chain (hlt : ∀ x y, lt x y = true → lt y x = false) (l : List α) :
    (sortedBy lt key l).IsChain (NotAfter lt key) := by
  induction l with
  | nil => exact List.isChain_nil
  | cons a l ih =>
    rw [sortedBy, List.insertionSort_cons]
    exact (orderedInsert_chain hlt a ih).1

theorem sortedBy_of_chain {l : List α} (hl : l.IsChain (NotAfter lt key)) :
    sortedBy lt key l = l := by
  induction l with
  | nil => rfl
  | cons a l ih =>
    have htail : l.insertionSort (NotAfter lt key) = l := ih hl.tail
    rw [sortedBy, List.insertionSort_cons, htail]
    cases l with
    | nil => rfl
    | cons b l => rw [List.orderedInsert_cons, if_pos (List.isChain_cons_cons.mp hl).1]

theorem sortedBy_idem (hlt : ∀ x y, lt x y = true → lt y x = false) (l : List α) :
    sortedBy lt key (sortedBy lt key l) = sortedBy lt key l :=
  sortedBy_of_chain (sortedBy_chain hlt l)

/-- A change that keeps every key keeps the order. -/
theorem sortedBy_map {f : α → α} (hf : ∀ a, key (f a) = key a) (l : List α) :
    sortedBy lt key (l.map f) = (sortedBy lt key l).map f := by
  induction l with
  | nil => rfl
  | cons a l ih =>
    have hinsert : ∀ l : List α, (l.map f).orderedInsert (NotAfter lt key) (f a) =
        (l.orderedInsert (NotAfter lt key) a).map f := by
      intro l
      induction l with
      | nil => rfl
      | cons b l ih =>
        simp only [List.map_cons, List.orderedInsert_cons, NotAfter, hf]
        split
        · rfl
        · simp only [List.map_cons, List.cons.injEq, true_and]
          exact ih
    simp only [sortedBy, List.map_cons, List.insertionSort_cons] at ih ⊢
    rw [ih, hinsert]

end QronosAgent.Lib

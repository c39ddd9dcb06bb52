import Mathlib.Algebra.Order.BigOperators.Group.List
import Mathlib.Algebra.Order.Ring.Int
import Mathlib.Data.List.Infix

/-! Taking from the front of a list until what is left is down to a target. -/
namespace QronosAgent.Lib.Greedy

variable {α : Type*} {size : α → ℤ} {target left : ℤ} {as init : List α}

def taken (size : α → ℤ) (target : ℤ) : ℤ → List α → List α
  | _, [] => []
  | left, a :: as => if left ≤ target then [] else a :: taken size target (left - size a) as

theorem taken_of_le (h : left ≤ target) : taken size target left as = [] := by
  cases as with
  | nil => rfl
  | cons a as => exact if_pos h

theorem taken_prefix (size : α → ℤ) (target left : ℤ) (as : List α) : taken size target left as <+: as := by
  induction as generalizing left with
  | nil => exact List.prefix_rfl
  | cons a as ih =>
    unfold taken
    split
    · exact List.nil_prefix
    · exact List.cons_prefix_cons.mpr ⟨rfl, ih _⟩

theorem taken_reaches (size : α → ℤ) (target left : ℤ) (as : List α) :
    left - ((taken size target left as).map size).sum ≤ target ∨ taken size target left as = as := by
  induction as generalizing left with
  | nil => exact .inr rfl
  | cons a as ih =>
    unfold taken
    split
    · rename_i h
      exact .inl (by simpa using h)
    · rcases ih (left - size a) with h | h
      · left
        rw [List.map_cons, List.sum_cons]
        omega
      · exact .inr (congrArg _ h)

theorem taken_needed {a : α} (h : taken size target left as = init ++ [a]) :
    target < left - (init.map size).sum := by
  induction as generalizing left init with
  | nil => simp [taken] at h
  | cons b as ih =>
    unfold taken at h
    split at h
    · simp at h
    · cases init with
      | nil =>
        simp only [List.map_nil, List.sum_nil]
        omega
      | cons c init =>
        have hrest := ih (List.cons.inj h).2
        obtain rfl := (List.cons.inj h).1
        rw [List.map_cons, List.sum_cons]
        omega

theorem sum_size_nonneg (hsize : ∀ a ∈ as, 0 ≤ size a) (h : init.Sublist as) :
    0 ≤ (init.map size).sum := by
  apply List.sum_nonneg
  rintro x hx
  obtain ⟨a, ha, rfl⟩ := List.mem_map.mp hx
  exact hsize a (h.subset ha)

theorem taken_exact (hsize : ∀ a ∈ as, 0 ≤ size a) :
    left - ((taken size target left as).map size).sum = target ↔
      ∃ init, init <+: as ∧ left - (init.map size).sum = target := by
  refine ⟨fun h => ⟨_, taken_prefix size target left as, h⟩, ?_⟩
  induction as generalizing left with
  | nil =>
    rintro ⟨init, hinit, h⟩
    rwa [List.prefix_nil.mp hinit] at h
  | cons a as ih =>
    rintro ⟨init, hinit, h⟩
    unfold taken
    split
    · have := sum_size_nonneg hsize hinit.sublist
      simp only [List.map_nil, List.sum_nil]
      omega
    · cases init with
      | nil =>
        simp only [List.map_nil, List.sum_nil] at h
        omega
      | cons c init =>
        obtain ⟨rfl, hrest⟩ := List.cons_prefix_cons.mp hinit
        rw [List.map_cons, List.sum_cons] at h ⊢
        have hleft : left - size c - (init.map size).sum = target := by omega
        have := ih (fun b hb => hsize b (List.mem_cons_of_mem _ hb)) ⟨init, hrest, hleft⟩
        omega

theorem taken_reaches_iff (hsize : ∀ a ∈ as, 0 ≤ size a) :
    left - ((taken size target left as).map size).sum ≤ target ↔
      left - (as.map size).sum ≤ target := by
  obtain ⟨rest, hrest⟩ := taken_prefix size target left as
  have hsum := congrArg (fun l => (l.map size).sum) hrest
  simp only [List.map_append, List.sum_append] at hsum
  have := sum_size_nonneg hsize (hrest ▸ List.sublist_append_right _ rest)
  constructor
  · intro h
    omega
  · intro h
    rcases taken_reaches size target left as with h' | h'
    · exact h'
    · rwa [h']

end QronosAgent.Lib.Greedy

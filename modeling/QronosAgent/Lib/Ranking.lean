import Mathlib.Data.List.Chain
import QronosAgent.Lib.Sorted

/-! The items of a list in descending order of a key, and the first of them. -/
namespace QronosAgent.Lib

variable {α κ : Type*} [LinearOrder κ] {key : α → κ} {l l' : List α} {n : ℕ}

/-- `sorted(l, key=key, reverse=True)` -/
def ranked (key : α → κ) (l : List α) : List α := sortedBy (fun x y => decide (y < x)) key l

theorem ranked_perm : (ranked key l).Perm l := sortedBy_perm l

theorem ranked_pairwise (hkey : (l.map key).Nodup) :
    (ranked key l).Pairwise fun a b => key b < key a := by
  have hchain : (ranked key l).IsChain fun a b => key b ≤ key a := by
    apply (sortedBy_chain (fun x y h => ?_) l).imp
    · intro a b h
      simpa using h
    · simp only [decide_eq_true_eq, decide_eq_false_iff_not, not_lt] at h ⊢
      exact h.le
  have hnodup : (ranked key l).Pairwise fun a b => key a ≠ key b := by
    rw [← List.pairwise_map (R := (· ≠ ·))]
    exact (ranked_perm.map key).nodup_iff.mpr hkey
  have htrans : IsTrans α fun a b => key b ≤ key a := ⟨fun _ _ _ h h' => h'.trans h⟩
  apply (hchain.pairwise.and hnodup).imp
  intro a b h
  exact lt_of_le_of_ne h.1 h.2.symm

/-- Distinct keys leave one order. -/
theorem ranked_eq (hkey : (l.map key).Nodup) (h : l'.Perm l)
    (hl' : l'.Pairwise fun a b => key b < key a) : ranked key l = l' := by
  apply List.Perm.eq_of_pairwise ?_ (ranked_pairwise hkey) hl' (ranked_perm.trans h.symm)
  intro a b _ _ hab hba
  exact absurd hab hba.asymm

theorem ranked_congr (hkey : (l.map key).Nodup) (h : l'.Perm l) : ranked key l' = ranked key l :=
  (ranked_eq hkey (ranked_perm.trans h)
    (ranked_pairwise ((h.map key).nodup_iff.mpr hkey))).symm

theorem ranked_filter (hkey : (l.map key).Nodup) (p : α → Bool) :
    ranked key (l.filter p) = (ranked key l).filter p := by
  apply ranked_eq
  · exact hkey.sublist (List.filter_sublist.map key)
  · exact ranked_perm.filter p
  · exact (ranked_pairwise hkey).filter p

theorem take_filter_eq_iff (p : α → Bool) :
    (l.filter p).take n = l.take n ↔ ∀ a ∈ l.take n, p a = true := by
  constructor
  · intro h a ha
    rw [← h] at ha
    exact (List.mem_filter.mp (List.mem_of_mem_take ha)).2
  · intro h
    induction l generalizing n with
    | nil => rfl
    | cons a l ih =>
      cases n with
      | zero => rfl
      | succ n =>
        rw [List.take_succ_cons, List.forall_mem_cons] at h
        rw [List.filter_cons_of_pos h.1, List.take_succ_cons, List.take_succ_cons, ih h.2]

/-- The first `n` are those that fewer than `n` others exceed. -/
theorem take_eq_filter (h : l.Pairwise fun a b => key b < key a) :
    l.take n = l.filter fun a => (l.filter fun b => key a < key b).length < n := by
  induction l generalizing n with
  | nil => exact List.take_nil
  | cons a l ih =>
    obtain ⟨ha, hl⟩ := List.pairwise_cons.mp h
    have hself : (a :: l).filter (fun b => key a < key b) = [] := by
      simp only [List.filter_eq_nil_iff, decide_eq_true_eq, not_lt, List.forall_mem_cons]
      exact ⟨le_rfl, fun b hb => (ha b hb).le⟩
    have hrest : ∀ b ∈ l, ((a :: l).filter fun c => key b < key c).length =
        (l.filter fun c => key b < key c).length + 1 := by
      intro b hb
      rw [List.filter_cons_of_pos (by simpa using ha b hb), List.length_cons]
    cases n with
    | zero => simp
    | succ n =>
      rw [List.take_succ_cons, List.filter_cons_of_pos (by simp [hself]), ih hl]
      congr 1
      apply List.filter_congr
      intro b hb
      simp [hrest b hb]

theorem take_ranked (hkey : (l.map key).Nodup) :
    (ranked key l).take n =
      (ranked key l).filter fun a => (l.filter fun b => key a < key b).length < n := by
  rw [take_eq_filter (ranked_pairwise hkey)]
  apply List.filter_congr
  intro a _
  rw [(ranked_perm.filter _).length_eq]

end QronosAgent.Lib

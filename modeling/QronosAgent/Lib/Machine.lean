import Mathlib.Data.List.Basic

/-! Machines with atomic steps. A run is a list of step labels; a step that is not enabled
ends it. Invariants are proved once over all runs, or over the runs whose every step meets a
condition on its label and the state before it. -/
namespace QronosAgent.Lib

structure Machine (σ α : Type*) where
  start : σ → Prop
  step : σ → α → Option σ

namespace Machine
variable {σ α : Type*} (M : Machine σ α)

/-- The state a list of steps leads to; `none` when one of them is not enabled. -/
def exec : σ → List α → Option σ
  | s, [] => some s
  | s, a :: as => (M.step s a).bind fun s' => exec s' as

/-- The states reached from a start state by steps that all meet `ok`. -/
inductive Reach (ok : σ → α → Prop) : σ → Prop
  | start {s : σ} : M.start s → Reach ok s
  | step {s s' : σ} {a : α} : Reach ok s → ok s a → M.step s a = some s' → Reach ok s'

abbrev Reachable : σ → Prop := M.Reach fun _ _ => True

variable {M} {ok : σ → α → Prop}

theorem Reach.mono {ok' : σ → α → Prop} (h : ∀ s a, ok s a → ok' s a) {s : σ}
    (hr : M.Reach ok s) : M.Reach ok' s := by
  induction hr with
  | start h0 => exact .start h0
  | step _ ha hs ih => exact .step ih (h _ _ ha) hs

/-- The invariant rule: what holds at the start and is kept by every step that meets `ok`
holds in every state reached. -/
theorem Reach.invariant {I : σ → Prop} (hstart : ∀ s, M.start s → I s)
    (hstep : ∀ s a s', I s → ok s a → M.step s a = some s' → I s') {s : σ}
    (hr : M.Reach ok s) : I s := by
  induction hr with
  | start h0 => exact hstart _ h0
  | step _ ha hs ih => exact hstep _ _ _ ih ha hs

theorem Reach.invariant_of {I J : σ → Prop} (hI : ∀ s, M.Reach ok s → I s)
    (hstart : ∀ s, M.start s → J s)
    (hstep : ∀ s a s', I s → J s → I s' → ok s a → M.step s a = some s' → J s') {s : σ}
    (hr : M.Reach ok s) : J s := by
  induction hr with
  | start h0 => exact hstart _ h0
  | step hr ha hs ih => exact hstep _ _ _ (hI _ hr) ih (hI _ (.step hr ha hs)) ha hs

/-- Every step of an executed list meets `ok` in the state it is taken in. -/
def allOk (M : Machine σ α) (ok : σ → α → Prop) : σ → List α → Prop
  | _, [] => True
  | s, a :: as => ok s a ∧ ∀ s', M.step s a = some s' → allOk M ok s' as

/-- An executed list of steps that meet `ok` reaches its last state. -/
theorem Reach.exec {s t : σ} {as : List α} (hr : M.Reach ok s) (hok : M.allOk ok s as)
    (he : M.exec s as = some t) : M.Reach ok t := by
  induction as generalizing s with
  | nil =>
    simp only [Machine.exec, Option.some.injEq] at he
    exact he ▸ hr
  | cons a as ih =>
    simp only [Machine.exec, Option.bind_eq_some_iff] at he
    obtain ⟨s', hs, he⟩ := he
    exact ih (.step hr hok.1 hs) (hok.2 s' hs) he

theorem exec_invariant {I : σ → Prop}
    (hstep : ∀ s a s', I s → ok s a → M.step s a = some s' → I s') {s t : σ} {as : List α}
    (hI : I s) (hok : M.allOk ok s as) (he : M.exec s as = some t) : I t := by
  induction as generalizing s with
  | nil =>
    simp only [Machine.exec, Option.some.injEq] at he
    exact he ▸ hI
  | cons a as ih =>
    simp only [Machine.exec, Option.bind_eq_some_iff] at he
    obtain ⟨s', hs, he⟩ := he
    exact ih (hstep s a s' hI hok.1 hs) (hok.2 s' hs) he

def execChecked (M : Machine σ α) (check : σ → α → Bool) : σ → List α → Option σ
  | s, [] => some s
  | s, a :: as =>
    if check s a then (M.step s a).bind fun s' => execChecked M check s' as else none

/-- A list of steps that pass a check for `ok` reaches its last state. -/
theorem Reach.execChecked {check : σ → α → Bool} (hcheck : ∀ s a, check s a = true → ok s a)
    {s t : σ} {as : List α} (hr : M.Reach ok s) (he : M.execChecked check s as = some t) :
    M.Reach ok t := by
  induction as generalizing s with
  | nil => exact Option.some.inj he ▸ hr
  | cons a as ih =>
    rw [Machine.execChecked] at he
    split at he
    · obtain ⟨s', hs, he⟩ := Option.bind_eq_some_iff.mp he
      exact ih (.step hr (hcheck s a ‹_›) hs) he
    · contradiction

theorem allOk_true (s : σ) (as : List α) : M.allOk (fun _ _ => True) s as := by
  induction as generalizing s with
  | nil => trivial
  | cons a as ih => exact ⟨trivial, fun s' _ => ih s'⟩

/-- Steps that meet `ok` in every state. -/
theorem allOk_of {as : List α} (h : ∀ a ∈ as, ∀ s, ok s a) (s : σ) : M.allOk ok s as := by
  induction as generalizing s with
  | nil => trivial
  | cons a as ih =>
    exact ⟨h a List.mem_cons_self s, fun s' _ => ih (fun b hb => h b (List.mem_cons_of_mem _ hb)) s'⟩

theorem reachable_exec {s t : σ} {as : List α} (h0 : M.start s)
    (he : M.exec s as = some t) : M.Reachable t :=
  Reach.exec (.start h0) (allOk_true s as) he

end Machine
end QronosAgent.Lib

import Mathlib.Logic.Basic

/-! Computations over a state whose effects have names. Each effect goes, or fails for a reason,
or everything stops before it; what becomes of it is looked up by its name. `Ensures` says what a
run leaves, whichever way it ends; its rules follow the constructors of a computation. -/
namespace QronosAgent.Lib

inductive Fate (φ : Type) where
  | goes
  | fails (why : φ)
  | stops

inductive Ending (ε α : Type) where
  | returned (a : α)
  | raised (e : ε)
  | stopped

/-- A computation over `σ` with effects named in `κ`. -/
def Fated (κ φ σ ε α : Type) := (κ → Fate φ) → σ → Ending ε α × σ

namespace Fated
variable {κ φ σ ε α β : Type}

def run (m : Fated κ φ σ ε α) (fates : κ → Fate φ) (s : σ) : Ending ε α × σ := m fates s

def smooth : κ → Fate φ := fun _ => .goes

protected def pure (a : α) : Fated κ φ σ ε α := fun _ s => (.returned a, s)

protected def bind (m : Fated κ φ σ ε α) (f : α → Fated κ φ σ ε β) : Fated κ φ σ ε β :=
  fun fates s =>
    match m fates s with
    | (.returned a, s) => f a fates s
    | (.raised e, s) => (.raised e, s)
    | (.stopped, s) => (.stopped, s)

instance : Monad (Fated κ φ σ ε) where
  pure := Fated.pure
  bind := Fated.bind

def raise (e : ε) : Fated κ φ σ ε α := fun _ s => (.raised e, s)

/-- `try`: a stop is not caught. -/
def rescue (m : Fated κ φ σ ε α) (handler : ε → Fated κ φ σ ε α) : Fated κ φ σ ε α :=
  fun fates s =>
    match m fates s with
    | (.raised e, s) => handler e fates s
    | r => r

/-- What the state shows. -/
def look (f : σ → α) : Fated κ φ σ ε α := fun _ s => (.returned (f s), s)

/-- The effect of this name; `error` is what its failure raises. -/
def effect (name : κ) (error : φ → ε) (f : σ → σ) : Fated κ φ σ ε Unit := fun fates s =>
  match fates name with
  | .goes => (.returned (), f s)
  | .fails why => (.raised (error why), s)
  | .stops => (.stopped, s)

def require (p : Prop) [Decidable p] (e : ε) : Fated κ φ σ ε Unit :=
  if p then pure () else raise e

def demand (e : ε) : Option α → Fated κ φ σ ε α
  | some a => pure a
  | none => raise e

def ofExcept : Except ε α → Fated κ φ σ ε α
  | .ok a => pure a
  | .error e => raise e

/-- What a run leaves: `Q` when it returns, `R` when it raises, `C` when it is stopped. -/
def Ensures (m : Fated κ φ σ ε α) (fates : κ → Fate φ) (s : σ) (Q : α → σ → Prop)
    (R : ε → σ → Prop) (C : σ → Prop) : Prop :=
  match m fates s with
  | (.returned a, s) => Q a s
  | (.raised e, s) => R e s
  | (.stopped, s) => C s

variable {fates : κ → Fate φ} {s : σ} {Q : α → σ → Prop} {R : ε → σ → Prop} {C : σ → Prop}

@[simp]
theorem ensures_pure {a : α} :
    Ensures (pure a : Fated κ φ σ ε α) fates s Q R C ↔ Q a s := Iff.rfl

variable {e : ε} {f : σ → α} {m : Fated κ φ σ ε α} {name : κ} {error : φ → ε} {o : Option α}
  {x : Except ε α} {u : Unit}

@[simp]
theorem ensures_raise :
    Ensures (raise e : Fated κ φ σ ε α) fates s Q R C ↔ R e s := Iff.rfl

@[simp]
theorem ensures_look :
    Ensures (look f : Fated κ φ σ ε α) fates s Q R C ↔ Q (f s) s := Iff.rfl

theorem ensures_bind {f : α → Fated κ φ σ ε β} {Q : β → σ → Prop} :
    Ensures (m >>= f) fates s Q R C ↔
      Ensures m fates s (fun a s => Ensures (f a) fates s Q R C) R C := by
  change Ensures (Fated.bind m f) fates s Q R C ↔ _
  unfold Ensures Fated.bind
  rcases m fates s with ⟨ending, t⟩
  cases ending with
  | returned a => rfl
  | raised e => rfl
  | stopped => rfl

theorem ensures_rescue {handler : ε → Fated κ φ σ ε α} :
    Ensures (rescue m handler) fates s Q R C ↔
      Ensures m fates s Q (fun e s => Ensures (handler e) fates s Q R C) C := by
  unfold Ensures rescue
  rcases m fates s with ⟨ending, t⟩
  cases ending with
  | returned a => rfl
  | raised e => rfl
  | stopped => rfl

theorem ensures_effect {f : σ → σ} {Q : Unit → σ → Prop} :
    Ensures (effect name error f) fates s Q R C ↔
      (fates name = .goes → Q () (f s)) ∧ (∀ why, fates name = .fails why → R (error why) s) ∧
      (fates name = .stops → C s) := by
  unfold Ensures effect
  cases fates name with
  | goes => simp
  | fails why => simp
  | stops => simp

theorem ensures_require {p : Prop} [Decidable p] {Q : Unit → σ → Prop} :
    Ensures (require p e : Fated κ φ σ ε Unit) fates s Q R C ↔ (p → Q () s) ∧ (¬p → R e s) := by
  unfold require
  by_cases hp : p
  · simp [hp]
  · simp [hp]

theorem ensures_demand :
    Ensures (demand e o : Fated κ φ σ ε α) fates s Q R C ↔
      (∀ a, o = some a → Q a s) ∧ (o = none → R e s) := by
  cases o with
  | none => simp [demand]
  | some a => simp [demand]

theorem ensures_ofExcept :
    Ensures (ofExcept x : Fated κ φ σ ε α) fates s Q R C ↔
      (∀ a, x = .ok a → Q a s) ∧ (∀ e, x = .error e → R e s) := by
  cases x with
  | ok a => simp [ofExcept]
  | error e => simp [ofExcept]

/-- The rule of consequence. -/
theorem Ensures.mono {Q' : α → σ → Prop} {R' : ε → σ → Prop} {C' : σ → Prop}
    (h : Ensures m fates s Q R C) (hQ : ∀ a s, Q a s → Q' a s) (hR : ∀ e s, R e s → R' e s)
    (hC : ∀ s, C s → C' s) : Ensures m fates s Q' R' C' := by
  unfold Ensures at h ⊢
  rcases hm : m fates s with ⟨ending, t⟩
  rw [hm] at h
  cases ending with
  | returned a => exact hQ a t h
  | raised e => exact hR e t h
  | stopped => exact hC t h

/-- What holds of every way to end holds of the state that is left. -/
theorem Ensures.left {I : σ → Prop} (h : Ensures m fates s (fun _ => I) (fun _ => I) I) :
    I (m.run fates s).2 := by
  unfold Ensures at h
  unfold run
  rcases hm : m fates s with ⟨ending, t⟩
  rw [hm] at h
  cases ending with
  | returned a => exact h
  | raised e => exact h
  | stopped => exact h

theorem Ensures.returned {a : α} {t : σ} (h : Ensures m fates s Q R C)
    (hm : m.run fates s = (.returned a, t)) : Q a t := by
  unfold Ensures at h
  unfold run at hm
  rwa [hm] at h

theorem Ensures.raised {t : σ} (h : Ensures m fates s Q R C) (hm : m.run fates s = (.raised e, t))
    : R e t := by
  unfold Ensures at h
  unfold run at hm
  rwa [hm] at h

def Returns (m : Fated κ φ σ ε α) (fates : κ → Fate φ) (s : σ) (a : α) (t : σ) : Prop :=
  m.run fates s = (.returned a, t)

variable {t : σ} {a : α}

theorem returns_pure {b : α} :
    Returns (pure b : Fated κ φ σ ε α) fates s a t ↔ b = a ∧ s = t := by
  change ((Ending.returned b : Ending ε α), s) = (.returned a, t) ↔ _
  simp

theorem returns_raise : ¬ Returns (raise e : Fated κ φ σ ε α) fates s a t := by
  change ((Ending.raised e : Ending ε α), s) ≠ (.returned a, t)
  simp

theorem returns_look :
    Returns (look f : Fated κ φ σ ε α) fates s a t ↔ f s = a ∧ s = t := by
  change ((Ending.returned (f s) : Ending ε α), s) = (.returned a, t) ↔ _
  simp

theorem returns_bind {f : α → Fated κ φ σ ε β} {b : β} :
    Returns (m >>= f) fates s b t ↔
      ∃ a u, Returns m fates s a u ∧ Returns (f a) fates u b t := by
  change Fated.bind m f fates s = _ ↔ ∃ a u, m fates s = _ ∧ f a fates u = _
  unfold Fated.bind
  rcases m fates s with ⟨ending, u⟩
  cases ending with
  | returned a =>
    simp only [Prod.mk.injEq, Ending.returned.injEq]
    constructor
    · intro h
      exact ⟨a, u, ⟨rfl, rfl⟩, h⟩
    · rintro ⟨_, _, ⟨rfl, rfl⟩, h⟩
      exact h
  | raised e => simp
  | stopped => simp

theorem returns_effect {f : σ → σ} :
    Returns (effect name error f) fates s u t ↔ fates name = .goes ∧ f s = t := by
  unfold Returns run effect
  cases fates name with
  | goes => simp
  | fails why => simp
  | stops => simp

theorem returns_require {q : Prop} [Decidable q] :
    Returns (require q e : Fated κ φ σ ε Unit) fates s u t ↔ q ∧ s = t := by
  unfold require
  by_cases hq : q
  · rw [if_pos hq, returns_pure]
    simp [hq]
  · rw [if_neg hq]
    simp [hq, returns_raise]

theorem returns_demand :
    Returns (demand e o : Fated κ φ σ ε α) fates s a t ↔ o = some a ∧ s = t := by
  cases o with
  | none => simp [demand, returns_raise]
  | some b => simp [demand, returns_pure]

theorem returns_ofExcept :
    Returns (ofExcept x : Fated κ φ σ ε α) fates s a t ↔ x = .ok a ∧ s = t := by
  cases x with
  | ok b => simp [ofExcept, returns_pure]
  | error e => simp [ofExcept, returns_raise]

end Fated

/-! Runs of computations whose effects go or fail, step by step: what a run does, as an equation. -/

def Ending.map {ε α β : Type} (f : α → β) : Ending ε α → Ending ε β
  | .returned a => .returned (f a)
  | .raised e => .raised e
  | .stopped => .stopped

namespace Fated
variable {κ φ σ ε α β : Type}

def refusing (refusal : κ → Option φ) : κ → Fate φ := fun name => match refusal name with
  | none => .goes
  | some why => .fails why

variable {refusal : κ → Option φ} {fates : κ → Fate φ} {s t : σ}

theorem run_pure (a : α) : (pure a : Fated κ φ σ ε α).run fates s = (.returned a, s) := rfl

theorem run_look (f : σ → α) : (look f : Fated κ φ σ ε α).run fates s = (.returned (f s), s) := rfl

theorem run_bind (m : Fated κ φ σ ε α) (f : α → Fated κ φ σ ε β) :
    (m >>= f).run fates s = match m.run fates s with
      | (.returned a, t) => (f a).run fates t
      | (.raised e, t) => (.raised e, t)
      | (.stopped, t) => (.stopped, t) := rfl

theorem run_rescue (m : Fated κ φ σ ε α) (handler : ε → Fated κ φ σ ε α) :
    (rescue m handler).run fates s = match m.run fates s with
      | (.returned a, t) => (.returned a, t)
      | (.raised e, t) => (handler e).run fates t
      | (.stopped, t) => (.stopped, t) := by
  change rescue m handler fates s = _
  unfold rescue run
  rcases m fates s with ⟨ending, t⟩
  cases ending <;> rfl

theorem run_effect (name : κ) (error : φ → ε) (f : σ → σ) :
    (effect name error f).run (refusing refusal) s = match refusal name with
      | none => (.returned (), f s)
      | some why => (.raised (error why), s) := by
  change effect name error f (refusing refusal) s = _
  unfold effect refusing
  cases refusal name <;> rfl

theorem run_require (p : Prop) [Decidable p] (e : ε) :
    (require p e : Fated κ φ σ ε Unit).run fates s = if p then (.returned (), s)
      else (.raised e, s) := by
  unfold require
  split <;> rfl

theorem run_demand (e : ε) (o : Option α) :
    (demand e o : Fated κ φ σ ε α).run fates s = match o with
      | some a => (.returned a, s)
      | none => (.raised e, s) := by
  cases o <;> rfl

theorem run_ofExcept (x : Except ε α) :
    (ofExcept x : Fated κ φ σ ε α).run fates s = match x with
      | .ok a => (.returned a, s)
      | .error e => (.raised e, s) := by
  cases x <;> rfl

variable {m : Fated κ φ σ ε α} {f : α → Fated κ φ σ ε β} {a : α}

theorem run_then (h : m.run fates s = (.returned a, t)) :
    (m >>= f).run fates s = (f a).run fates t := by
  rw [run_bind, h]

theorem run_abort {e : ε} (h : m.run fates s = (.raised e, t)) :
    (m >>= f).run fates s = (.raised e, t) := by
  rw [run_bind, h]

/-- A run whose result is put otherwise. -/
theorem run_map (m : Fated κ φ σ ε α) (f : α → β) :
    (m >>= fun a => pure (f a)).run fates s = ((m.run fates s).1.map f, (m.run fates s).2) := by
  rw [run_bind]
  rcases m.run fates s with ⟨ending, t⟩
  cases ending <;> rfl

/-- Every run leaves the state as it is, and none stops. -/
def Looks (m : Fated κ φ σ ε α) (fates : κ → Fate φ) : Prop :=
  ∀ s, (∃ a, m.run fates s = (.returned a, s)) ∨ ∃ e, m.run fates s = (.raised e, s)

theorem looks_pure (a : α) : Looks (pure a : Fated κ φ σ ε α) fates := fun _ => .inl ⟨a, rfl⟩

theorem looks_raise (e : ε) : Looks (raise e : Fated κ φ σ ε α) fates := fun _ => .inr ⟨e, rfl⟩

theorem looks_look (f : σ → α) : Looks (look f : Fated κ φ σ ε α) fates :=
  fun s => .inl ⟨f s, rfl⟩

theorem looks_require (p : Prop) [Decidable p] (e : ε) :
    Looks (require p e : Fated κ φ σ ε Unit) fates := by
  unfold require
  split
  · exact looks_pure ()
  · exact looks_raise e

theorem looks_demand (e : ε) (o : Option α) : Looks (demand e o : Fated κ φ σ ε α) fates := by
  cases o with
  | none => exact looks_raise e
  | some a => exact looks_pure a

theorem looks_ofExcept (x : Except ε α) : Looks (ofExcept x : Fated κ φ σ ε α) fates := by
  cases x with
  | error e => exact looks_raise e
  | ok a => exact looks_pure a

theorem looks_effect (name : κ) (error : φ → ε) {f : σ → σ} (hf : ∀ s, f s = s) :
    Looks (effect name error f) (refusing refusal) := by
  intro s
  rw [run_effect, hf]
  cases refusal name with
  | none => exact .inl ⟨(), rfl⟩
  | some why => exact .inr ⟨error why, rfl⟩

theorem Looks.bind (hm : Looks m fates) (hf : ∀ a, Looks (f a) fates) : Looks (m >>= f) fates := by
  intro s
  rcases hm s with ⟨a, h⟩ | ⟨e, h⟩
  · rw [run_then h]
    exact hf a s
  · rw [run_abort h]
    exact .inr ⟨e, rfl⟩

theorem Looks.same (hm : Looks m fates) (h : Returns m fates s a t) : t = s := by
  rcases hm s with ⟨b, hrun⟩ | ⟨e, hrun⟩
  · exact (Prod.ext_iff.mp (hrun.symm.trans h)).2.symm
  · have hne := (Prod.ext_iff.mp (hrun.symm.trans h)).1
    cases hne

end Fated
end QronosAgent.Lib

import Mathlib.Data.List.Basic

/-! Terms with a keyed digest, and what an attacker makes of the terms that it has seen. A digest
tells nothing of what is in it, and nobody makes one without the key. -/
namespace QronosAgent.Lib

inductive Term (α ρ : Type) where
  | atom (a : α)
  /-- The digest of `data` in a role, under a key. -/
  | mac (key : Term α ρ) (role : ρ) (data : Term α ρ)
  deriving DecidableEq

namespace Term
variable {α ρ : Type} {own : α → Bool} {seen seen' : List (Term α ρ)}

inductive Derivable (own : α → Bool) (seen : List (Term α ρ)) : Term α ρ → Prop
  | seen {t : Term α ρ} : t ∈ seen → Derivable own seen t
  | own {a : α} : own a = true → Derivable own seen (.atom a)
  | mac {key data : Term α ρ} (role : ρ) : Derivable own seen key → Derivable own seen data →
      Derivable own seen (.mac key role data)

theorem Derivable.mono (h : ∀ t ∈ seen, t ∈ seen') {t : Term α ρ} (ht : Derivable own seen t) :
    Derivable own seen' t := by
  induction ht with
  | seen hmem => exact .seen (h _ hmem)
  | own ha => exact .own ha
  | mac role _ _ ihkey ihdata => exact .mac role ihkey ihdata

theorem derivable_mac {key data : Term α ρ} {role : ρ} (h : Derivable own seen (.mac key role data)) :
    .mac key role data ∈ seen ∨ Derivable own seen key := by
  cases h with
  | seen hmem => exact .inl hmem
  | mac _ hkey _ => exact .inr hkey

def derives [DecidableEq α] [DecidableEq ρ] (own : α → Bool) (seen : List (Term α ρ)) :
    Term α ρ → Bool
  | .atom a => own a || decide (.atom a ∈ seen)
  | .mac key role data =>
    decide (.mac key role data ∈ seen) || (derives own seen key && derives own seen data)

theorem derives_iff [DecidableEq α] [DecidableEq ρ] {t : Term α ρ} :
    derives own seen t = true ↔ Derivable own seen t := by
  induction t with
  | atom a =>
    simp only [derives, Bool.or_eq_true, decide_eq_true_eq]
    constructor
    · rintro (ha | hmem)
      · exact .own ha
      · exact .seen hmem
    · intro h
      cases h with
      | seen hmem => exact .inr hmem
      | own ha => exact .inl ha
  | mac key role data ihkey ihdata =>
    simp only [derives, Bool.or_eq_true, Bool.and_eq_true, decide_eq_true_eq, ihkey, ihdata]
    constructor
    · rintro (hmem | ⟨hkey, hdata⟩)
      · exact .seen hmem
      · exact .mac role hkey hdata
    · intro h
      cases h with
      | seen hmem => exact .inl hmem
      | mac _ hkey hdata => exact .inr ⟨hkey, hdata⟩

end Term
end QronosAgent.Lib

import Mathlib.Data.Char
import Mathlib.Data.List.Lex
import Mathlib.Data.Prod.Lex
import Mathlib.Data.Sum.Order
import QronosAgent.Lib.JsonBytes

/-! Versions of update packages: `parse_version` and `compare_versions` of
`core/local_update.py`, semantic versions whose build metadata is ignored. -/
namespace QronosAgent.Update
open Lib

abbrev Identifier := Lex (ℕ ⊕ List Char)

structure Version where
  core : ℕ ×ₗ ℕ ×ₗ ℕ
  pre : Option (List Identifier)

def isAsciiLetter (c : Char) : Bool := ('a' ≤ c && c ≤ 'z') || ('A' ≤ c && c ≤ 'Z')

/-- `[0-9A-Za-z-]` -/
def isIdentifierChar (c : Char) : Bool := c.isDigit || isAsciiLetter c || c = '-'

def decimal (s : List Char) : ℕ := Nat.ofDigitChars 10 s 0

/-- `0|[1-9][0-9]*` -/
def readNumeric (s : List Char) : Option ℕ :=
  if s ≠ [] ∧ s.all Char.isDigit ∧ (s = ['0'] ∨ s.head? ≠ some '0') then some (decimal s) else none

def readIdentifier (s : List Char) : Option Identifier :=
  if s ≠ [] ∧ s.all isIdentifierChar then
    if s.all Char.isDigit then (readNumeric s).map fun n => toLex (.inl n)
    else some (toLex (.inr s))
  else none

/-- What is before the first `c`, and what is behind it if there is one. -/
def cut (c : Char) (s : List Char) : List Char × Option (List Char) :=
  match s.dropWhile (· ≠ c) with
  | [] => (s, none)
  | _ :: rest => (s.takeWhile (· ≠ c), some rest)

def readCore (s : List Char) : Option (ℕ ×ₗ ℕ ×ₗ ℕ) :=
  match s.splitOn '.' with
  | [a, b, c] => do
    let major ← readNumeric a
    let minor ← readNumeric b
    let patch ← readNumeric c
    return toLex (major, toLex (minor, patch))
  | _ => none

/-- `_SEMVER`: what is behind the first plus is build metadata, and what is behind the first
hyphen before it the pre-release. -/
def readVersion (s : List Char) : Option Version := do
  let (release, build) := cut '+' s
  let (core, pre) := cut '-' release
  guard ((build.map (·.splitOn '.')).all fun parts =>
    parts.all fun part => part ≠ [] ∧ part.all isIdentifierChar)
  let core ← readCore core
  match pre with
  | none => return ⟨core, none⟩
  | some pre => return ⟨core, some (← (pre.splitOn '.').mapM readIdentifier)⟩

/-- `parse_version` on a string. -/
def parseVersion (s : PyStr) : Option Version :=
  if s.length ≤ 128 then s.scalars?.bind readVersion else none

structure VersionText where
  text : PyStr
  valid : (parseVersion text).isSome
  deriving DecidableEq

namespace VersionText

def version (v : VersionText) : Version := (parseVersion v.text).get v.valid

def of? (s : PyStr) : Option VersionText :=
  if h : (parseVersion s).isSome then some ⟨s, h⟩ else none

end VersionText

namespace Version

/-- The order of precedence as a linear order: no pre-release comes last. -/
def key (v : Version) : (ℕ ×ₗ ℕ ×ₗ ℕ) ×ₗ WithTop (List Identifier) :=
  toLex (v.core, v.pre.elim ⊤ fun pre => (pre : WithTop (List Identifier)))

/-- `compare_versions` on what was parsed. -/
def compare (l r : Version) : ℤ :=
  if l.core ≠ r.core then
    if l.core < r.core then -1 else 1
  else if l.pre = r.pre then 0
  else
    match l.pre, r.pre with
    | none, _ => 1
    | _, none => -1
    | some l, some r => if l < r then -1 else 1

theorem compare_neg {l r : Version} : l.compare r < 0 ↔ l.key < r.key := by
  obtain ⟨lcore, lpre⟩ := l
  obtain ⟨rcore, rpre⟩ := r
  unfold compare key
  rw [Prod.Lex.toLex_lt_toLex]
  by_cases hcore : lcore = rcore
  · subst hcore
    cases lpre with
    | none => cases rpre <;> simp
    | some l =>
      cases rpre with
      | none => simp
      | some r =>
        by_cases hlr : l = r
        · simp [hlr]
        · by_cases hlt : l < r
          · simp [hlr, hlt]
          · simp [hlr, hlt]
  · by_cases hlt : lcore < rcore
    · simp [hcore, hlt]
    · simp [hcore, hlt]

theorem compare_pos {l r : Version} : 0 < l.compare r ↔ r.key < l.key := by
  obtain ⟨lcore, lpre⟩ := l
  obtain ⟨rcore, rpre⟩ := r
  unfold compare key
  rw [Prod.Lex.toLex_lt_toLex]
  by_cases hcore : lcore = rcore
  · subst hcore
    cases lpre with
    | none => cases rpre <;> simp
    | some l =>
      cases rpre with
      | none => simp
      | some r =>
        by_cases hlr : l = r
        · simp [hlr]
        · rcases lt_or_gt_of_ne hlr with hlt | hgt
          · simp [hlr, hlt, hlt.not_gt]
          · simp [hlr, hgt, hgt.not_gt]
  · rcases lt_or_gt_of_ne hcore with hlt | hgt
    · simp [hcore, Ne.symm hcore, hlt, hlt.not_gt]
    · simp [hcore, hgt, hgt.not_gt]

end Version

namespace VersionText

/-- `compare_versions`. -/
def compare (l r : VersionText) : ℤ := l.version.compare r.version

theorem compare_self (v : VersionText) : v.compare v = 0 := by
  simp [compare, Version.compare]

theorem compare_nonneg {l r : VersionText} : 0 ≤ l.compare r ↔ r.version.key ≤ l.version.key := by
  calc 0 ≤ l.compare r ↔ ¬ l.version.compare r.version < 0 := Int.not_lt.symm
    _ ↔ ¬ l.version.key < r.version.key := not_congr Version.compare_neg
    _ ↔ r.version.key ≤ l.version.key := not_lt

theorem compare_nonneg_trans {a b c : VersionText} (hab : 0 ≤ a.compare b)
    (hbc : 0 ≤ b.compare c) : 0 ≤ a.compare c := by
  rw [compare_nonneg] at *
  exact hbc.trans hab

end VersionText

example : (parseVersion (py "1.10.0-rc.2+build")).isSome ∧ (parseVersion (py "01.0.0")).isNone := by
  decide +kernel

end QronosAgent.Update

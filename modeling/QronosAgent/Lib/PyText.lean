import Mathlib.Data.List.TakeWhile
import Mathlib.Tactic

/-! Python strings and text files. A string is a list of code points, lone surrogates
included; only strings without them have a UTF-8 encoding. -/
namespace QronosAgent.Lib

/-- One code point: a Unicode scalar value, or the surrogate `0xD800 + n`. -/
inductive PyChar where
  | scalar (c : Char)
  | surrogate (n : Fin 2048)
  deriving DecidableEq

abbrev PyStr := List PyChar

/-- Named, so that a membership test on strings is the same term wherever it is written. -/
instance : LawfulBEq PyStr := inferInstance

def py (s : String) : PyStr := s.toList.map .scalar

namespace PyChar

def code : PyChar → ℕ
  | scalar c => c.toNat
  | surrogate n => 0xD800 + n.val

/-- `str.isspace` on one code point, the set `str.strip` and `str.split` use. -/
def isSpace (c : PyChar) : Bool :=
  let n := c.code
  (0x9 ≤ n && n ≤ 0xD) || (0x1C ≤ n && n ≤ 0x20) || n == 0x85 || n == 0xA0 || n == 0x1680 ||
    (0x2000 ≤ n && n ≤ 0x200A) || n == 0x2028 || n == 0x2029 || n == 0x202F || n == 0x205F ||
    n == 0x3000

def toScalar? : PyChar → Option Char
  | scalar c => some c
  | surrogate _ => none

end PyChar

namespace PyStr

/-- `str.strip()`. -/
def strip (s : PyStr) : PyStr :=
  ((s.dropWhile PyChar.isSpace).reverse.dropWhile PyChar.isSpace).reverse

/-- `not s.strip()`. -/
def blank (s : PyStr) : Bool := (strip s).isEmpty

theorem blank_iff {s : PyStr} : blank s = true ↔ ∀ c ∈ s, c.isSpace = true := by
  rw [blank, strip, List.isEmpty_iff, List.reverse_eq_nil_iff, List.dropWhile_eq_nil_iff]
  simp only [List.mem_reverse]
  constructor
  · intro h c hc
    rw [← List.takeWhile_append_dropWhile (p := PyChar.isSpace) (l := s), List.mem_append] at hc
    exact hc.elim (fun hc => List.mem_takeWhile_imp hc) (h c)
  · exact fun h c hc => h c ((List.dropWhile_sublist _).subset hc)

@[simp] theorem blank_nil : blank [] = true := rfl

/-- The scalar values of a string; `none` when it holds a lone surrogate. -/
def scalars? : PyStr → Option (List Char)
  | [] => some []
  | .scalar c :: s => (scalars? s).map (c :: ·)
  | .surrogate _ :: _ => none

theorem scalars?_eq_some {s : PyStr} {cs : List Char} (h : scalars? s = some cs) :
    s = cs.map .scalar := by
  induction s generalizing cs with
  | nil =>
    simp only [scalars?, Option.some.injEq] at h
    rw [← h]
    rfl
  | cons c s ih =>
    cases c with
    | scalar a =>
      obtain ⟨as, has, rfl⟩ := Option.map_eq_some_iff.mp h
      rw [ih has]
      rfl
    | surrogate n => exact absurd h (by simp [scalars?])

/-- `s.encode("utf-8")`; `none` is `UnicodeEncodeError`. -/
def encodeUtf8 (s : PyStr) : Option ByteArray :=
  (scalars? s).map fun cs => (String.ofList cs).toByteArray

/-- `b.decode("utf-8")`; `none` is `UnicodeDecodeError`. -/
def decodeUtf8 (b : ByteArray) : Option PyStr :=
  b.utf8Decode?.map fun cs => cs.toList.map .scalar

theorem decodeUtf8_encodeUtf8 {s : PyStr} {b : ByteArray} (h : encodeUtf8 s = some b) :
    decodeUtf8 b = some s := by
  obtain ⟨cs, hcs, rfl⟩ := Option.map_eq_some_iff.mp h
  rw [decodeUtf8, String.toByteArray_ofList, List.utf8Decode?_utf8Encode, scalars?_eq_some hcs]
  simp

def Encodable (s : PyStr) : Prop := ∀ c ∈ s, c.toScalar?.isSome

instance (s : PyStr) : Decidable (Encodable s) :=
  inferInstanceAs (Decidable (∀ c ∈ s, c.toScalar?.isSome))

theorem encodable_append {s t : PyStr} :
    Encodable (s ++ t) ↔ Encodable s ∧ Encodable t := by
  simp [Encodable, or_imp, forall_and]

theorem encodable_cons {c : PyChar} {s : PyStr} :
    Encodable (c :: s) ↔ c.toScalar?.isSome ∧ Encodable s := by
  simp [Encodable]

@[simp] theorem encodable_nil : Encodable [] := by simp [Encodable]

theorem encodable_iff {s : PyStr} : Encodable s ↔ ∃ b, encodeUtf8 s = some b := by
  have hs : Encodable s ↔ ∃ cs, scalars? s = some cs := by
    induction s with
    | nil => simp [scalars?]
    | cons c s ih =>
      rw [encodable_cons, ih]
      cases c <;> simp [scalars?, PyChar.toScalar?]
  rw [hs]
  constructor
  · rintro ⟨cs, h⟩
    exact ⟨_, by rw [encodeUtf8, h]; rfl⟩
  · rintro ⟨b, h⟩
    obtain ⟨cs, hcs, _⟩ := Option.map_eq_some_iff.mp h
    exact ⟨cs, hcs⟩

theorem encodable_py (s : String) : Encodable (py s) := by
  intro c hc
  obtain ⟨a, _, rfl⟩ := List.mem_map.mp hc
  rfl

end PyStr

/-! Text files: written with the platform's line ending, read with universal newlines. -/

def lf : PyChar := .scalar '\n'

def cr : PyChar := .scalar '\r'

/-- What text mode writes for a string, on a platform whose line ending is CRLF or not. -/
def translateNewlines (crlf : Bool) (s : PyStr) : PyStr :=
  s.flatMap fun c => if crlf && c = lf then [cr, lf] else [c]

/-- What text mode reads back: every line ending becomes a line feed. -/
def universalNewlines : PyStr → PyStr
  | [] => []
  | [c] => [if c = cr then lf else c]
  | c :: d :: s =>
    if c = cr then
      if d = lf then lf :: universalNewlines s else lf :: universalNewlines (d :: s)
    else c :: universalNewlines (d :: s)

theorem universalNewlines_cons {c : PyChar} {s : PyStr} (h : c ≠ cr) :
    universalNewlines (c :: s) = c :: universalNewlines s := by
  cases s <;> simp [universalNewlines, h]

theorem universalNewlines_translate (crlf : Bool) {s : PyStr} (h : cr ∉ s) :
    universalNewlines (translateNewlines crlf s) = s := by
  induction s with
  | nil => rfl
  | cons c s ih =>
    rw [List.mem_cons, not_or] at h
    have ih := ih h.2
    have hcons : translateNewlines crlf (c :: s) =
        (if crlf && c = lf then [cr, lf] else [c]) ++ translateNewlines crlf s := rfl
    rw [hcons]
    by_cases hc : (crlf && decide (c = lf)) = true
    · have hl : c = lf := by simp_all
      rw [if_pos hc, hl]
      simp only [List.cons_append, List.nil_append, universalNewlines, if_true, ih]
    · rw [if_neg hc, List.singleton_append, universalNewlines_cons (fun e => h.1 e.symm), ih]

theorem encodable_translateNewlines {crlf : Bool} {s : PyStr} :
    PyStr.Encodable (translateNewlines crlf s) ↔ PyStr.Encodable s := by
  induction s with
  | nil => rfl
  | cons c s ih =>
    have hc : PyStr.Encodable (if crlf && decide (c = lf) then [cr, lf] else [c]) ↔
        c.toScalar?.isSome := by
      by_cases h : (crlf && decide (c = lf)) = true
      · have hl : c = lf := by simp_all
        rw [if_pos h, hl]
        decide
      · rw [if_neg h]
        simp [PyStr.Encodable]
    rw [translateNewlines] at ih ⊢
    rw [List.flatMap_cons, PyStr.encodable_append, ih, PyStr.encodable_cons, hc]

/-- `Path.read_text(encoding="utf-8")` on the bytes of a file. -/
def readText (b : ByteArray) : Option PyStr := (PyStr.decodeUtf8 b).map universalNewlines

/-- The bytes `handle.write(s)` puts in a file opened with `encoding="utf-8"`. -/
def writeText (crlf : Bool) (s : PyStr) : Option ByteArray :=
  PyStr.encodeUtf8 (translateNewlines crlf s)

theorem readText_writeText {crlf : Bool} {s : PyStr} {b : ByteArray} (hs : cr ∉ s)
    (h : writeText crlf s = some b) : readText b = some s := by
  rw [readText, PyStr.decodeUtf8_encodeUtf8 h, Option.map_some,
    universalNewlines_translate crlf hs]

theorem writeText_isSome (crlf : Bool) {s : PyStr} :
    (∃ b, writeText crlf s = some b) ↔ PyStr.Encodable s := by
  exact PyStr.encodable_iff.symm.trans encodable_translateNewlines

end QronosAgent.Lib

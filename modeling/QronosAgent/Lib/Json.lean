import QronosAgent.Lib.Dict
import QronosAgent.Lib.PyText

/-! JSON documents and the text `json.dumps(value, ensure_ascii=False, indent=2)` writes.
Floats are a parameter: what the text needs of them is that `repr` round-trips. -/
namespace QronosAgent.Lib

/-- A decimal numeral with a fraction or an exponent, so not an integer literal. -/
structure DecimalText where
  negative : Bool
  whole : ℕ
  fraction : List (Fin 10)
  exponent : Option (Bool × Fin 10 × List (Fin 10))
  isFloat : fraction ≠ [] ∨ exponent.isSome

inductive FloatText where
  | nan
  | infinity (negative : Bool)
  | decimal (t : DecimalText)

def natText (n : ℕ) : PyStr := (Nat.toDigits 10 n).map .scalar

def digitChar (d : Fin 10) : PyChar := .scalar d.val.digitChar

def signText (negative : Bool) : PyStr := if negative then py "-" else []

/-- `int.__repr__`. -/
def intText (n : ℤ) : PyStr := signText (decide (n < 0)) ++ natText n.natAbs

def DecimalText.fractionText (t : DecimalText) : PyStr :=
  match t.fraction with
  | [] => []
  | d :: ds => .scalar '.' :: digitChar d :: ds.map digitChar

def DecimalText.exponentText (t : DecimalText) : PyStr :=
  match t.exponent with
  | none => []
  | some (neg, d, ds) =>
    .scalar 'e' :: .scalar (if neg then '-' else '+') :: digitChar d :: ds.map digitChar

def DecimalText.render (t : DecimalText) : PyStr :=
  signText t.negative ++ natText t.whole ++ t.fractionText ++ t.exponentText

def FloatText.render : FloatText → PyStr
  | nan => py "NaN"
  | infinity neg => signText neg ++ py "Infinity"
  | decimal t => t.render

/-- Python's floats, as far as they are compared, written and read: `repr` round-trips and
`<` is asymmetric. `ofInt` is `float(n)`; `none` is `OverflowError`. -/
class PyFloat (F : Type) where
  text : F → FloatText
  ofLiteral : PyStr → F
  ofInt : ℤ → Option F
  lt : F → F → Bool
  ofLiteral_text : ∀ x, ofLiteral (text x).render = x
  lt_asymm : ∀ x y, lt x y = true → lt y x = false

inductive Json (F : Type) where
  | null
  | bool (b : Bool)
  | int (n : ℤ)
  | float (x : F)
  | str (s : PyStr)
  | arr (xs : List (Json F))
  | obj (ms : List (PyStr × Json F))

namespace Json
variable {F : Type}

/-- `d.get(key)` on the members of an object. -/
def member? (ms : List (PyStr × Json F)) (key : PyStr) : Option (Json F) := ms.lookup key

def hexDigit (n : ℕ) : PyChar := .scalar n.digitChar

def escape (c : PyChar) : PyStr :=
  match c with
  | .scalar '"' => py "\\\""
  | .scalar '\\' => py "\\\\"
  | .scalar '\n' => py "\\n"
  | .scalar '\r' => py "\\r"
  | .scalar '\t' => py "\\t"
  | .scalar '\x0c' => py "\\f"
  | .scalar '\x08' => py "\\b"
  | c =>
    if c.code < 0x20 then py "\\u00" ++ [hexDigit (c.code / 16), hexDigit (c.code % 16)] else [c]

def renderString (s : PyStr) : PyStr := .scalar '"' :: s.flatMap escape ++ [.scalar '"']

/-- A line break and the indent of nesting level `d`. -/
def indent (d : ℕ) : PyStr := lf :: List.replicate (2 * d) (.scalar ' ')

section Render
variable [PyFloat F]

mutual
/-- `json.dumps(value, ensure_ascii=False, indent=2)` at nesting level `d`. -/
def render (d : ℕ) : Json F → PyStr
  | .null => py "null"
  | .bool true => py "true"
  | .bool false => py "false"
  | .int n => intText n
  | .float x => (PyFloat.text x).render
  | .str s => renderString s
  | .arr [] => py "[]"
  | .arr (x :: xs) =>
    .scalar '[' :: indent (d + 1) ++ render (d + 1) x ++ renderItems (d + 1) xs ++
      indent d ++ py "]"
  | .obj [] => py "\x7b\x7d"
  | .obj ((k, v) :: ms) =>
    .scalar '\x7b' :: indent (d + 1) ++ renderString k ++ py ": " ++ render (d + 1) v ++
      renderMembers (d + 1) ms ++ indent d ++ py "\x7d"

def renderItems (d : ℕ) : List (Json F) → PyStr
  | [] => []
  | x :: xs => .scalar ',' :: indent d ++ render d x ++ renderItems d xs

def renderMembers (d : ℕ) : List (PyStr × Json F) → PyStr
  | [] => []
  | (k, v) :: ms =>
    .scalar ',' :: indent d ++ renderString k ++ py ": " ++ render d v ++ renderMembers d ms
end

end Render

mutual
def chars : Json F → PyStr
  | .null | .bool _ | .int _ | .float _ => []
  | .str s => s
  | .arr xs => charsItems xs
  | .obj ms => charsMembers ms

def charsItems : List (Json F) → PyStr
  | [] => []
  | x :: xs => chars x ++ charsItems xs

def charsMembers : List (PyStr × Json F) → PyStr
  | [] => []
  | (k, v) :: ms => k ++ chars v ++ charsMembers ms
end

mutual
/-- What `dumps` writes without an error and `loads` reads back within the limits: integers
have at most `digits` digits, containers nest at most `depth` deep, no key repeats. -/
def Storable (digits : ℕ) : ℕ → Json F → Prop
  | _, .null | _, .bool _ | _, .float _ | _, .str _ => True
  | _, .int n => (natText n.natAbs).length ≤ digits
  | 0, .arr _ | 0, .obj _ => False
  | depth + 1, .arr xs => StorableItems digits depth xs
  | depth + 1, .obj ms => (ms.map Prod.fst).Nodup ∧ StorableMembers digits depth ms

def StorableItems (digits : ℕ) (depth : ℕ) : List (Json F) → Prop
  | [] => True
  | x :: xs => Storable digits depth x ∧ StorableItems digits depth xs

def StorableMembers (digits : ℕ) (depth : ℕ) : List (PyStr × Json F) → Prop
  | [] => True
  | (_, v) :: ms => Storable digits depth v ∧ StorableMembers digits depth ms
end

theorem storableItems_iff {digits depth : ℕ} {xs : List (Json F)} :
    StorableItems digits depth xs ↔ ∀ x ∈ xs, Storable digits depth x := by
  induction xs with
  | nil => simp [StorableItems]
  | cons x xs ih => simp [StorableItems, ih]

mutual
/-- Every integer is short enough to be written; a longer one raises `ValueError`. -/
def intsFit (digits : ℕ) : Json F → Bool
  | .null | .bool _ | .float _ | .str _ => true
  | .int n => (natText n.natAbs).length ≤ digits
  | .arr xs => intsFitItems digits xs
  | .obj ms => intsFitMembers digits ms

def intsFitItems (digits : ℕ) : List (Json F) → Bool
  | [] => true
  | x :: xs => intsFit digits x && intsFitItems digits xs

def intsFitMembers (digits : ℕ) : List (PyStr × Json F) → Bool
  | [] => true
  | (_, v) :: ms => intsFit digits v && intsFitMembers digits ms
end

end Json
end QronosAgent.Lib

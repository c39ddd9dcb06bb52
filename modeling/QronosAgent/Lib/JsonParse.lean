import QronosAgent.Lib.Json

/-! `json.loads` as the standard library's scanner reads a text: left to right, failing with
`JSONDecodeError`, with `RecursionError` when containers nest deeper than the interpreter
allows, or with `ValueError` on an integer literal longer than it converts. -/
namespace QronosAgent.Lib

inductive JsonError where
  | decode
  | recursion
  /-- `ValueError` from `int(literal)`, which is not a `JSONDecodeError` -/
  | intTooLong
  /-- The parser below ran out of fuel; see `loads_fuel`. -/
  | outOfFuel
  deriving DecidableEq

/-- What the interpreter allows: nesting of containers, and digits of one integer. -/
structure JsonLimits where
  depth : ℕ
  intDigits : ℕ

namespace Json
variable {F : Type}

def isDigit (c : PyChar) : Bool :=
  match c with
  | .scalar a => a.isDigit
  | .surrogate _ => false

def isWhitespace (c : PyChar) : Bool :=
  c = .scalar ' ' || c = .scalar '\t' || c = .scalar '\n' || c = .scalar '\r'

def skipWs (s : PyStr) : PyStr := s.dropWhile isWhitespace

def digitsText (s : PyStr) : List Char := s.filterMap PyChar.toScalar?

inductive NumberToken where
  | int (negative : Bool) (digits : PyStr)
  | float (literal : PyStr)

/-- The whole part of a number: `0`, or digits that do not start with it. -/
def scanWhole : PyStr → PyStr × PyStr
  | .scalar '0' :: s => ([.scalar '0'], s)
  | s => (s.takeWhile isDigit, s.dropWhile isDigit)

def scanFraction : PyStr → PyStr × PyStr
  | .scalar '.' :: s =>
    if s.takeWhile isDigit = [] then ([], .scalar '.' :: s)
    else (.scalar '.' :: s.takeWhile isDigit, s.dropWhile isDigit)
  | s => ([], s)

/-- The digits after an exponent's letter and sign, which `head` holds. -/
def scanExponentDigits (head s whole : PyStr) : PyStr × PyStr :=
  if s.takeWhile isDigit = [] then ([], whole)
  else (head ++ s.takeWhile isDigit, s.dropWhile isDigit)

def scanExponent : PyStr → PyStr × PyStr
  | .scalar e :: .scalar g :: s =>
    if e = 'e' ∨ e = 'E' then
      if g = '+' ∨ g = '-' then
        scanExponentDigits [.scalar e, .scalar g] s (.scalar e :: .scalar g :: s)
      else scanExponentDigits [.scalar e] (.scalar g :: s) (.scalar e :: .scalar g :: s)
    else ([], .scalar e :: .scalar g :: s)
  | s => ([], s)

def scanSign : PyStr → Bool × PyStr
  | .scalar '-' :: s => (true, s)
  | s => (false, s)

/-- `_match_number`: an integer when there is neither fraction nor exponent. -/
def scanNumber (s : PyStr) : Option (NumberToken × PyStr) :=
  let sign := scanSign s
  let whole := scanWhole sign.2
  let frac := scanFraction whole.2
  let exp := scanExponent frac.2
  if whole.1 = [] then none
  else if frac.1 = [] ∧ exp.1 = [] then some (.int sign.1 whole.1, exp.2)
  else some (.float (signText sign.1 ++ whole.1 ++ frac.1 ++ exp.1), exp.2)

/-- `int(literal)` under the interpreter's limit on digits. -/
def intOfToken (limits : JsonLimits) (negative : Bool) (digits : PyStr) :
    Except JsonError ℤ :=
  if digits.length ≤ limits.intDigits then
    let n : ℤ := Nat.ofDigitChars 10 (digitsText digits) 0
    .ok (if negative then -n else n)
  else .error .intTooLong

def hexValue (c : PyChar) : Option ℕ :=
  let n := c.code
  if 0x30 ≤ n ∧ n ≤ 0x39 then some (n - 0x30)
  else if 0x41 ≤ n ∧ n ≤ 0x46 then some (n - 0x41 + 10)
  else if 0x61 ≤ n ∧ n ≤ 0x66 then some (n - 0x61 + 10)
  else none

def hex4 (a b c d : PyChar) : Option ℕ := do
  return 4096 * (← hexValue a) + 256 * (← hexValue b) + 16 * (← hexValue c) + (← hexValue d)

/-- One piece of a string literal: a code point as it stands or from a short escape, or the
16-bit unit of a `\u` escape. -/
inductive StrUnit where
  | char (c : PyChar)
  | escaped (unit : ℕ)
  deriving DecidableEq

def shortEscape : PyChar → Option PyChar
  | .scalar '"' => some (.scalar '"')
  | .scalar '\\' => some (.scalar '\\')
  | .scalar '/' => some (.scalar '/')
  | .scalar 'b' => some (.scalar '\x08')
  | .scalar 'f' => some (.scalar '\x0c')
  | .scalar 'n' => some (.scalar '\n')
  | .scalar 'r' => some (.scalar '\r')
  | .scalar 't' => some (.scalar '\t')
  | _ => none

/-- The pieces up to the closing quote; `none` is `JSONDecodeError`. -/
def scanUnits : PyStr → Option (List StrUnit × PyStr)
  | [] => none
  | .scalar '"' :: s => some ([], s)
  | .scalar '\\' :: .scalar 'u' :: a :: b :: c :: d :: s =>
    match hex4 a b c d with
    | none => none
    | some n => (scanUnits s).map fun r => (.escaped n :: r.1, r.2)
  | .scalar '\\' :: e :: s =>
    match shortEscape e with
    | none => none
    | some c => (scanUnits s).map fun r => (.char c :: r.1, r.2)
  | c :: s =>
    if c = .scalar '\\' ∨ c.code < 0x20 then none
    else (scanUnits s).map fun r => (.char c :: r.1, r.2)

def ofUnit (n : ℕ) : PyChar :=
  if h : 0xD800 ≤ n ∧ n < 0xE000 then .surrogate ⟨n - 0xD800, by omega⟩ else .scalar (Char.ofNat n)

def joinUnits : List StrUnit → PyStr
  | [] => []
  | .escaped n :: .escaped m :: us =>
    if (0xD800 ≤ n ∧ n < 0xDC00) ∧ (0xDC00 ≤ m ∧ m < 0xE000) then
      .scalar (Char.ofNat (0x10000 + (n - 0xD800) * 0x400 + (m - 0xDC00))) :: joinUnits us
    else ofUnit n :: joinUnits (.escaped m :: us)
  | .escaped n :: us => ofUnit n :: joinUnits us
  | .char c :: us => c :: joinUnits us

def scanString (s : PyStr) : Option (PyStr × PyStr) :=
  (scanUnits s).map fun r => (joinUnits r.1, r.2)

/-- `dict(pairs)`: the last value of a repeated key, at the key's first position. -/
def dictOfPairs (ms : List (PyStr × Json F)) : List (PyStr × Json F) :=
  (ms.foldl (fun d kv => d.set kv.1 kv.2) (Dict.empty : Dict PyStr (Json F))).items

section Parse
variable [PyFloat F]

def parseNumber (limits : JsonLimits) (s : PyStr) : Except JsonError (Json F × PyStr) :=
  match scanNumber s with
  | none => .error .decode
  | some (.int neg ds, rest) => (intOfToken limits neg ds).map fun n => (.int n, rest)
  | some (.float lit, rest) => .ok (.float (PyFloat.ofLiteral lit), rest)

/-- The literal names, `NaN` and the infinities among them; numbers otherwise. -/
def parseScalar (limits : JsonLimits) (s : PyStr) : Except JsonError (Json F × PyStr) :=
  if (py "null").isPrefixOf s then .ok (.null, s.drop 4)
  else if (py "true").isPrefixOf s then .ok (.bool true, s.drop 4)
  else if (py "false").isPrefixOf s then .ok (.bool false, s.drop 5)
  else if (py "NaN").isPrefixOf s then .ok (.float (PyFloat.ofLiteral (py "NaN")), s.drop 3)
  else if (py "Infinity").isPrefixOf s then
    .ok (.float (PyFloat.ofLiteral (py "Infinity")), s.drop 8)
  else if (py "-Infinity").isPrefixOf s then
    .ok (.float (PyFloat.ofLiteral (py "-Infinity")), s.drop 9)
  else parseNumber limits s

mutual
/-- `scan_once`: one value at the head of the text, and what follows it. -/
def parseValue (limits : JsonLimits) :
    ℕ → ℕ → PyStr → Except JsonError (Json F × PyStr)
  | 0, _, _ => .error .outOfFuel
  | fuel + 1, depth, s =>
    match s with
    | .scalar '"' :: r =>
      match scanString r with
      | none => .error .decode
      | some (t, r) => .ok (.str t, r)
    | .scalar '[' :: r =>
      match depth with
      | 0 => .error .recursion
      | depth + 1 =>
        match skipWs r with
        | .scalar ']' :: r => .ok (.arr [], r)
        | r => (parseItems limits fuel depth r).map fun p => (.arr p.1, p.2)
    | .scalar '\x7b' :: r =>
      match depth with
      | 0 => .error .recursion
      | depth + 1 =>
        match skipWs r with
        | .scalar '\x7d' :: r => .ok (.obj [], r)
        | r => (parseMembers limits fuel depth r).map fun p => (.obj (dictOfPairs p.1), p.2)
    | s => parseScalar limits s

def parseItems (limits : JsonLimits) :
    ℕ → ℕ → PyStr → Except JsonError (List (Json F) × PyStr)
  | 0, _, _ => .error .outOfFuel
  | fuel + 1, depth, s =>
    match parseValue limits fuel depth s with
    | .error e => .error e
    | .ok (x, r) =>
      match skipWs r with
      | .scalar ']' :: r => .ok ([x], r)
      | .scalar ',' :: r =>
        (parseItems limits fuel depth (skipWs r)).map fun p => (x :: p.1, p.2)
      | _ => .error .decode

def parseMembers (limits : JsonLimits) :
    ℕ → ℕ → PyStr → Except JsonError (List (PyStr × Json F) × PyStr)
  | 0, _, _ => .error .outOfFuel
  | fuel + 1, depth, s =>
    match s with
    | .scalar '"' :: r =>
      match scanString r with
      | none => .error .decode
      | some (k, r) =>
        match skipWs r with
        | .scalar ':' :: r =>
          match parseValue limits fuel depth (skipWs r) with
          | .error e => .error e
          | .ok (v, r) =>
            match skipWs r with
            | .scalar '\x7d' :: r => .ok ([(k, v)], r)
            | .scalar ',' :: r =>
              (parseMembers limits fuel depth (skipWs r)).map fun p => ((k, v) :: p.1, p.2)
            | _ => .error .decode
        | _ => .error .decode
    | _ => .error .decode
end

/-- `json.loads(text)`. -/
def loads (limits : JsonLimits) (s : PyStr) : Except JsonError (Json F) :=
  if s.head? = some (.scalar '\ufeff') then .error .decode
  else
    match parseValue limits (2 * s.length + 2) limits.depth (skipWs s) with
    | .error e => .error e
    | .ok (v, r) => if skipWs r = [] then .ok v else .error .decode

/-- `json.dumps(value, ensure_ascii=False, indent=2)`; `none` is the `ValueError` of an
integer too long to write. -/
def dumps (limits : JsonLimits) (v : Json F) : Option PyStr :=
  if v.intsFit limits.intDigits then some (v.render 0) else none

/-! Every call of the parser consumes text, so `loads` never runs out of fuel. -/

theorem length_skipWs_le (s : PyStr) : (skipWs s).length ≤ s.length :=
  (List.dropWhile_sublist _).length_le

theorem takeWhile_dropWhile_length (s : PyStr) :
    (s.takeWhile isDigit).length + (s.dropWhile isDigit).length = s.length := by
  rw [← List.length_append, List.takeWhile_append_dropWhile]

theorem scanWhole_length (s : PyStr) :
    (scanWhole s).1.length + (scanWhole s).2.length = s.length := by
  unfold scanWhole
  split
  · simp [Nat.add_comm]
  · exact takeWhile_dropWhile_length s

theorem scanFraction_length_le (s : PyStr) : (scanFraction s).2.length ≤ s.length := by
  unfold scanFraction
  split
  · rename_i r
    have := takeWhile_dropWhile_length r
    split <;> simp
    omega
  · exact le_rfl

variable {s r t : PyStr} {limits : JsonLimits} {v : Json F} {β : Type} {fuel : ℕ}

theorem scanExponentDigits_length_le (head : PyStr) {whole : PyStr} (h : s.length ≤ whole.length) :
    (scanExponentDigits head s whole).2.length ≤ whole.length := by
  have := takeWhile_dropWhile_length s
  unfold scanExponentDigits
  split <;> simp
  omega

theorem scanExponent_length_le (s : PyStr) : (scanExponent s).2.length ≤ s.length := by
  unfold scanExponent
  split
  · split
    · split <;> exact scanExponentDigits_length_le _ (by simp only [List.length_cons]; omega)
    · exact le_rfl
  · exact le_rfl

theorem scanSign_length_le (s : PyStr) : (scanSign s).2.length ≤ s.length := by
  unfold scanSign
  split <;> simp

theorem scanNumber_length_lt {t : NumberToken} (h : scanNumber s = some (t, r)) :
    r.length < s.length := by
  have hsign := scanSign_length_le s
  have hwhole := scanWhole_length (scanSign s).2
  have hfrac := scanFraction_length_le (scanWhole (scanSign s).2).2
  have hexp := scanExponent_length_le (scanFraction (scanWhole (scanSign s).2).2).2
  simp only [scanNumber] at h
  split at h
  · cases h
  · rename_i hne
    have hpos := List.length_pos_iff.mpr hne
    split at h <;> simp only [Option.some.injEq, Prod.mk.injEq] at h <;>
      obtain ⟨-, rfl⟩ := h <;> omega

theorem scanUnits_length_lt {us : List StrUnit} (h : scanUnits s = some (us, r)) :
    r.length < s.length := by
  induction s using scanUnits.induct generalizing us r with
  | case1 => exact absurd h (by simp [scanUnits])
  | case2 s =>
    simp only [scanUnits, Option.some.injEq, Prod.mk.injEq] at h
    simp [h.2]
  | case3 a b c d s hx => exact absurd h (by simp [scanUnits, hx])
  | case4 a b c d s n hx ih =>
    simp only [scanUnits, hx, Option.map_eq_some_iff, Prod.mk.injEq] at h
    obtain ⟨⟨us', r'⟩, hs, -, rfl⟩ := h
    have := ih hs
    simp only [List.length_cons]
    omega
  | case5 e s hu hx =>
    rw [scanUnits] at h
    · simp [hx] at h
    · exact hu
  | case6 e s hu c hx ih =>
    rw [scanUnits] at h
    · simp only [hx, Option.map_eq_some_iff, Prod.mk.injEq] at h
      obtain ⟨⟨us', r'⟩, hs, -, rfl⟩ := h
      have := ih hs
      simp only [List.length_cons]
      omega
    · exact hu
  | case7 c s hq hb hu hc =>
    rw [scanUnits.eq_def] at h
    split at h <;> simp_all
    omega
  | case8 c s hq hb hu hc ih =>
    have hstep : scanUnits (c :: s) = (scanUnits s).map fun r => (.char c :: r.1, r.2) := by
      rw [scanUnits.eq_def]
      split <;> simp_all
    rw [hstep, Option.map_eq_some_iff] at h
    obtain ⟨⟨us', r'⟩, hs, he⟩ := h
    simp only [Prod.mk.injEq] at he
    obtain ⟨-, rfl⟩ := he
    have := ih hs
    simp only [List.length_cons]
    omega

theorem scanString_length_lt (h : scanString s = some (t, r)) :
    r.length < s.length := by
  obtain ⟨⟨us, r'⟩, hs, he⟩ := Option.map_eq_some_iff.mp h
  simp only [Prod.mk.injEq] at he
  exact he.2 ▸ scanUnits_length_lt hs

theorem parseNumber_ok (h : parseNumber limits s = .ok (v, r)) : r.length < s.length := by
  unfold parseNumber at h
  split at h
  · cases h
  · rename_i neg ds rest hs
    cases hn : intOfToken limits neg ds with
    | error e => simp [hn, Except.map] at h
    | ok n =>
      simp only [hn, Except.map, Except.ok.injEq, Prod.mk.injEq] at h
      exact h.2 ▸ scanNumber_length_lt hs
  · rename_i lit rest hs
    simp only [Except.ok.injEq, Prod.mk.injEq] at h
    exact h.2 ▸ scanNumber_length_lt hs

theorem parseNumber_ne_outOfFuel (limits : JsonLimits) (s : PyStr) :
    parseNumber (F := F) limits s ≠ .error .outOfFuel := by
  unfold parseNumber intOfToken
  split
  · simp
  · split <;> simp [Except.map]
  · simp

theorem drop_length_lt {p : PyStr} (hp : p ≠ []) (h : p.isPrefixOf s = true) :
    (s.drop p.length).length < s.length := by
  have hle := (List.isPrefixOf_iff_prefix.mp h).length_le
  have hpos := List.length_pos_iff.mpr hp
  rw [List.length_drop]
  omega

theorem parseScalar_ok (h : parseScalar limits s = .ok (v, r)) : r.length < s.length := by
  unfold parseScalar at h
  split_ifs at h with h1 h2 h3 h4 h5 h6
  case neg => exact parseNumber_ok h
  all_goals
    cases h
  · exact drop_length_lt (by decide) h1
  · exact drop_length_lt (by decide) h2
  · exact drop_length_lt (by decide) h3
  · exact drop_length_lt (by decide) h4
  · exact drop_length_lt (by decide) h5
  · exact drop_length_lt (by decide) h6

theorem parseScalar_ne_outOfFuel (limits : JsonLimits) (s : PyStr) :
    parseScalar (F := F) limits s ≠ .error .outOfFuel := by
  unfold parseScalar
  split_ifs
  case neg => exact parseNumber_ne_outOfFuel limits s
  all_goals simp

/-- A result of the parser on `s`: not out of fuel, and text consumed when it succeeds. -/
def Consumes {β : Type} (s : PyStr) (x : Except JsonError (β × PyStr)) : Prop :=
  x ≠ .error .outOfFuel ∧ ∀ p, x = .ok p → p.2.length < s.length

theorem consumes_error {e : JsonError} (he : e ≠ .outOfFuel) :
    Consumes s (.error e : Except JsonError (β × PyStr)) :=
  ⟨by simpa using he, fun _ h => absurd h (by simp)⟩

theorem consumes_ok {v : β} (h : r.length < s.length) :
    Consumes s (.ok (v, r)) := by
  refine ⟨by simp, fun p hp => ?_⟩
  simp only [Except.ok.injEq] at hp
  exact hp ▸ h

theorem Consumes.map {γ : Type} {x : Except JsonError (β × PyStr)} (h : Consumes s x)
    (hst : s.length ≤ t.length) (f : β → γ) :
    Consumes t (x.map fun p => (f p.1, p.2)) := by
  cases x with
  | error e => exact consumes_error (by simpa using h.1)
  | ok p => exact consumes_ok ((h.2 p rfl).trans_le hst)

theorem consumes_parseScalar (limits : JsonLimits) (s : PyStr) :
    Consumes s (parseScalar (F := F) limits s) :=
  ⟨parseScalar_ne_outOfFuel limits s, fun _ hp => parseScalar_ok hp⟩

def ParseConsumes (F : Type) [PyFloat F] (limits : JsonLimits) (fuel : ℕ) : Prop :=
  (∀ depth s, 2 * s.length + 1 ≤ fuel → Consumes s (parseValue (F := F) limits fuel depth s)) ∧
  (∀ depth s, 2 * s.length + 2 ≤ fuel → Consumes s (parseItems (F := F) limits fuel depth s)) ∧
  (∀ depth s, 2 * s.length + 2 ≤ fuel → Consumes s (parseMembers (F := F) limits fuel depth s))

theorem consumes_parseValue (ih : ParseConsumes F limits fuel) (depth : ℕ) (s : PyStr)
    (hf : 2 * s.length + 1 ≤ fuel + 1) :
    Consumes s (parseValue (F := F) limits (fuel + 1) depth s) := by
  unfold parseValue
  split
  · rename_i r
    split
    · exact consumes_error (by decide)
    · rename_i t r' hr
      have := scanString_length_lt hr
      exact consumes_ok (by simp only [List.length_cons]; omega)
  · rename_i r
    have hws := length_skipWs_le r
    simp only [List.length_cons] at hf
    split
    · exact consumes_error (by decide)
    · split
      · rename_i r' hr
        rw [hr, List.length_cons] at hws
        exact consumes_ok (by simp only [List.length_cons]; omega)
      · exact (ih.2.1 _ _ (by omega)).map (by simp only [List.length_cons]; omega) Json.arr
  · rename_i r
    have hws := length_skipWs_le r
    simp only [List.length_cons] at hf
    split
    · exact consumes_error (by decide)
    · split
      · rename_i r' hr
        rw [hr, List.length_cons] at hws
        exact consumes_ok (by simp only [List.length_cons]; omega)
      · exact (ih.2.2 _ _ (by omega)).map (by simp only [List.length_cons]; omega)
          fun ms => Json.obj (dictOfPairs ms)
  · exact consumes_parseScalar limits _

theorem consumes_parseItems (ih : ParseConsumes F limits fuel) (depth : ℕ) (s : PyStr)
    (hf : 2 * s.length + 2 ≤ fuel + 1) :
    Consumes s (parseItems (F := F) limits (fuel + 1) depth s) := by
  have hvalue := ih.1 depth s (by omega)
  rw [parseItems]
  split
  · rename_i e he
    exact consumes_error (by simpa [he] using hvalue.1)
  · rename_i x r hx
    have hr : r.length < s.length := hvalue.2 _ hx
    have hws := length_skipWs_le r
    split
    · rename_i r' hr'
      rw [hr', List.length_cons] at hws
      exact consumes_ok (by omega)
    · rename_i r' hr'
      rw [hr', List.length_cons] at hws
      have hws' := length_skipWs_le r'
      exact (ih.2.1 depth _ (by omega)).map (by omega) fun xs => x :: xs
    · exact consumes_error (by decide)

theorem consumes_parseMembers (ih : ParseConsumes F limits fuel) (depth : ℕ) (s : PyStr)
    (hf : 2 * s.length + 2 ≤ fuel + 1) :
    Consumes s (parseMembers (F := F) limits (fuel + 1) depth s) := by
  unfold parseMembers
  split
  · rename_i r
    split
    · exact consumes_error (by decide)
    rename_i k r₁ hk
    have hk' := scanString_length_lt hk
    have hw₁ := length_skipWs_le r₁
    simp only [List.length_cons] at hf
    split
    · rename_i r₂ h₂
      rw [h₂, List.length_cons] at hw₁
      have hw₂ := length_skipWs_le r₂
      have hvalue := ih.1 depth (skipWs r₂) (by omega)
      split
      · rename_i e he
        exact consumes_error (by simpa [he] using hvalue.1)
      rename_i v r₃ hv
      have h₃ : r₃.length < (skipWs r₂).length := hvalue.2 _ hv
      have hw₃ := length_skipWs_le r₃
      split
      · rename_i r₄ h₄
        rw [h₄, List.length_cons] at hw₃
        exact consumes_ok (by simp only [List.length_cons]; omega)
      · rename_i r₄ h₄
        rw [h₄, List.length_cons] at hw₃
        have hw₄ := length_skipWs_le r₄
        exact (ih.2.2 _ _ (by omega)).map (by simp only [List.length_cons]; omega)
          fun ms => (k, v) :: ms
      · exact consumes_error (by decide)
    · exact consumes_error (by decide)
  · exact consumes_error (by decide)

theorem parseConsumes (limits : JsonLimits) (fuel : ℕ) : ParseConsumes F limits fuel := by
  induction fuel with
  | zero =>
    refine ⟨?_, ?_, ?_⟩ <;>
    · intro depth s hf
      omega
  | succ fuel ih =>
    exact ⟨consumes_parseValue ih, consumes_parseItems ih, consumes_parseMembers ih⟩

/-- `loads` fails with one of Python's errors only. -/
theorem loads_fuel (limits : JsonLimits) (s : PyStr) :
    loads (F := F) limits s ≠ .error .outOfFuel := by
  have hws := length_skipWs_le s
  have hc := (parseConsumes (F := F) limits (2 * s.length + 2)).1 limits.depth (skipWs s)
    (by omega)
  unfold loads
  split
  · simp
  · split
    · rename_i e he
      simpa [he] using hc.1
    · split <;> simp

end Parse
end Json
end QronosAgent.Lib

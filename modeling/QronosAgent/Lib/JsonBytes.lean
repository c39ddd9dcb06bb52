import QronosAgent.Lib.JsonParse

/-! `json.loads` on bytes: the encoding is told from the first four bytes, and the bytes are
decoded with lone surrogates let through (`surrogatepass`). -/
namespace QronosAgent.Lib

abbrev Bytes := List UInt8

/-- The code point `n`, when it is one and is not below `least`. -/
def codePoint? (least n : ℕ) : Option PyChar :=
  if n < least ∨ 0x110000 ≤ n then none
  else some (Json.ofUnit n)

def continuation? (b : UInt8) : Option ℕ :=
  if 0x80 ≤ b.toNat ∧ b.toNat < 0xC0 then some (b.toNat - 0x80) else none

/-- The next code point of UTF-8 and what follows it; `none` is `UnicodeDecodeError`. -/
def nextUtf8 : Bytes → Option (PyChar × Bytes)
  | [] => none
  | a :: s =>
    let n := a.toNat
    if n < 0x80 then (codePoint? 0 n).map (·, s)
    else if n < 0xC2 then none
    else if n < 0xE0 then
      match s with
      | b :: s => do
        let b ← continuation? b
        let c ← codePoint? 0x80 ((n - 0xC0) * 64 + b)
        return (c, s)
      | _ => none
    else if n < 0xF0 then
      match s with
      | b :: c :: s => do
        let b ← continuation? b
        let c ← continuation? c
        let p ← codePoint? 0x800 (((n - 0xE0) * 64 + b) * 64 + c)
        return (p, s)
      | _ => none
    else if n < 0xF5 then
      match s with
      | b :: c :: d :: s => do
        let b ← continuation? b
        let c ← continuation? c
        let d ← continuation? d
        let p ← codePoint? 0x10000 ((((n - 0xF0) * 64 + b) * 64 + c) * 64 + d)
        return (p, s)
      | _ => none
    else none

def unit16 (big : Bool) (a b : UInt8) : ℕ :=
  if big then a.toNat * 256 + b.toNat else b.toNat * 256 + a.toNat

def nextUtf16 (big : Bool) : Bytes → Option (PyChar × Bytes)
  | a :: b :: s =>
    let n := unit16 big a b
    match s with
    | c :: d :: r =>
      let m := unit16 big c d
      if (0xD800 ≤ n ∧ n < 0xDC00) ∧ (0xDC00 ≤ m ∧ m < 0xE000) then
        (codePoint? 0 (0x10000 + (n - 0xD800) * 0x400 + (m - 0xDC00))).map (·, r)
      else (codePoint? 0 n).map (·, s)
    | _ => (codePoint? 0 n).map (·, s)
  | _ => none

def nextUtf32 (big : Bool) : Bytes → Option (PyChar × Bytes)
  | a :: b :: c :: d :: s =>
    let high := unit16 big a b
    let low := unit16 big c d
    (codePoint? 0 (if big then high * 65536 + low else low * 65536 + high)).map (·, s)
  | _ => none

/-- Code point by code point; `fuel` is at least the number of bytes. -/
def decodeWith (next : Bytes → Option (PyChar × Bytes)) : ℕ → Bytes → Option PyStr
  | _, [] => some []
  | 0, _ => none
  | fuel + 1, s => do
    let (c, r) ← next s
    let t ← decodeWith next fuel r
    return c :: t

/-- `json.detect_encoding`, with what of the bytes it leaves to decode. -/
def detectEncoding (s : Bytes) : (Bytes → Option (PyChar × Bytes)) × Bytes :=
  if [0, 0, 0xFE, 0xFF].isPrefixOf s then (nextUtf32 true, s.drop 4)
  else if [0xFF, 0xFE, 0, 0].isPrefixOf s then (nextUtf32 false, s.drop 4)
  else if [0xFE, 0xFF].isPrefixOf s then (nextUtf16 true, s.drop 2)
  else if [0xFF, 0xFE].isPrefixOf s then (nextUtf16 false, s.drop 2)
  else if [0xEF, 0xBB, 0xBF].isPrefixOf s then (nextUtf8, s.drop 3)
  else
    match s with
    | [a, b] =>
      if a = 0 then (nextUtf16 true, s) else if b = 0 then (nextUtf16 false, s) else (nextUtf8, s)
    | a :: b :: c :: d :: _ =>
      if a = 0 then (if b = 0 then nextUtf32 true else nextUtf16 true, s)
      else if b = 0 then (if c = 0 ∧ d = 0 then nextUtf32 false else nextUtf16 false, s)
      else (nextUtf8, s)
    | _ => (nextUtf8, s)

/-- `s.decode(detect_encoding(s), "surrogatepass")`; `none` is `UnicodeDecodeError`. -/
def decodeJson (s : Bytes) : Option PyStr :=
  let e := detectEncoding s
  decodeWith e.1 e.2.length e.2

end QronosAgent.Lib

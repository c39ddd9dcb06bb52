import Mathlib.Tactic.IntervalCases
import QronosAgent.Lib.JsonBytes

/-! `base64` as the standard library encodes and decodes it: bytes are groups of six-bit digits,
and the decoder reads the digits of a text one at a time, strictly or skipping what is not one. -/
namespace QronosAgent.Lib.Base64

/-- The character of a digit; the URL-safe alphabet has `-` and `_` for `+` and `/`. -/
def digitChar (url : Bool) (d : Fin 64) : PyChar :=
  if d.val < 26 then .scalar (Char.ofNat (0x41 + d.val))
  else if d.val < 52 then .scalar (Char.ofNat (0x61 + (d.val - 26)))
  else if d.val < 62 then .scalar (Char.ofNat (0x30 + (d.val - 52)))
  else if d.val = 62 then .scalar (if url then '-' else '+')
  else .scalar (if url then '_' else '/')

def digit? (c : PyChar) : Option (Fin 64) :=
  let n := c.code
  if 0x41 ≤ n ∧ n ≤ 0x5a then some (Fin.ofNat 64 (n - 0x41))
  else if 0x61 ≤ n ∧ n ≤ 0x7a then some (Fin.ofNat 64 (n - 0x61 + 26))
  else if 0x30 ≤ n ∧ n ≤ 0x39 then some (Fin.ofNat 64 (n - 0x30 + 52))
  else if n = 0x2b then some 62
  else if n = 0x2f then some 63
  else none

/-- The table that `urlsafe_b64decode` translates its input through. -/
def standard (c : PyChar) : PyChar :=
  if c = .scalar '-' then .scalar '+' else if c = .scalar '_' then .scalar '/' else c

def six (n : ℕ) : Fin 64 := Fin.ofNat 64 n

def encodeDigits : Bytes → List (Fin 64)
  | [] => []
  | [a] => [six (a.toNat / 4), six (a.toNat % 4 * 16)]
  | [a, b] =>
    [six (a.toNat / 4), six (a.toNat % 4 * 16 + b.toNat / 16), six (b.toNat % 16 * 4)]
  | a :: b :: c :: bs =>
    six (a.toNat / 4) :: six (a.toNat % 4 * 16 + b.toNat / 16) ::
      six (b.toNat % 16 * 4 + c.toNat / 64) :: six (c.toNat % 64) :: encodeDigits bs

def decodeDigits : List (Fin 64) → Bytes
  | a :: b :: c :: d :: ds =>
    UInt8.ofNat (a.val * 4 + b.val / 16) :: UInt8.ofNat (b.val % 16 * 16 + c.val / 4) ::
      UInt8.ofNat (c.val % 4 * 64 + d.val) :: decodeDigits ds
  | [a, b, c] => [UInt8.ofNat (a.val * 4 + b.val / 16), UInt8.ofNat (b.val % 16 * 16 + c.val / 4)]
  | [a, b] => [UInt8.ofNat (a.val * 4 + b.val / 16)]
  | _ => []

/-- `binascii.a2b_base64` on what is left of a text: the digits read so far modulo four, the
padding seen since the last of them, and whether there was any padding. -/
def scan (strict : Bool) : ℕ → ℕ → Bool → PyStr → Option (List (Fin 64))
  | quad, _, _, [] => if quad = 0 then some [] else none
  | quad, pads, padded, c :: s =>
    if c = .scalar '=' then
      if strict && quad = 0 then none
      else if 2 ≤ quad ∧ 4 ≤ quad + (pads + 1) then
        -- the padding that ends the data: only the lenient decoder allows text after it
        if strict && !s.isEmpty then none else some []
      else scan strict quad (if 2 ≤ quad then pads + 1 else pads) true s
    else
      match digit? c with
      | none => if strict then none else scan strict quad pads padded s
      | some d =>
        if strict && padded then none
        else (scan strict ((quad + 1) % 4) 0 padded s).map (d :: ·)

def isAscii (c : PyChar) : Bool := c.code < 0x80

/-- `base64.b64decode(text, validate=strict)`; `none` is `ValueError`. -/
def b64decode (strict : Bool) (s : PyStr) : Option Bytes :=
  if s.all isAscii then (scan strict 0 0 false s).map decodeDigits else none

/-- `base64.urlsafe_b64decode(text)`. -/
def urlsafeB64decode (s : PyStr) : Option Bytes := b64decode false (s.map standard)

def unpadded (url : Bool) (bs : Bytes) : PyStr := (encodeDigits bs).map (digitChar url)

def padding (n : ℕ) : PyStr := List.replicate n (.scalar '=')

def b64encode (bs : Bytes) : PyStr := unpadded false bs ++ padding ((3 - bs.length % 3) % 3)

def urlsafeB64encode (bs : Bytes) : PyStr := unpadded true bs ++ padding ((3 - bs.length % 3) % 3)

theorem decodeDigits_encodeDigits (bs : Bytes) : decodeDigits (encodeDigits bs) = bs := by
  induction bs using encodeDigits.induct with
  | case1 => rfl
  | case2 a =>
    have ha := a.toNat_lt
    simp only [encodeDigits, decodeDigits, six, Fin.ofNat, List.cons.injEq, and_true]
    apply UInt8.toNat.inj
    rw [UInt8.toNat_ofNat']
    omega
  | case3 a b =>
    have ha := a.toNat_lt
    have hb := b.toNat_lt
    simp only [encodeDigits, decodeDigits, six, Fin.ofNat, List.cons.injEq, and_true]
    constructor <;>
    · apply UInt8.toNat.inj
      rw [UInt8.toNat_ofNat']
      omega
  | case4 a b c bs ih =>
    have ha := a.toNat_lt
    have hb := b.toNat_lt
    have hc := c.toNat_lt
    simp only [encodeDigits, decodeDigits, six, Fin.ofNat, List.cons.injEq, ih, and_true]
    refine ⟨?_, ?_, ?_⟩ <;>
    · apply UInt8.toNat.inj
      rw [UInt8.toNat_ofNat']
      omega

theorem length_encodeDigits (bs : Bytes) :
    (encodeDigits bs).length = (8 * bs.length + 5) / 6 := by
  induction bs using encodeDigits.induct with
  | case1 | case2 | case3 => simp [encodeDigits]
  | case4 a b c bs ih =>
    simp only [encodeDigits, List.length_cons, ih]
    omega

def FillsUp (ds : List (Fin 64)) : Prop :=
  ∀ d ∈ ds.getLast?, (ds.length % 4 = 3 → d.val % 4 = 0) ∧ (ds.length % 4 = 2 → d.val % 16 = 0)

variable {d : Fin 64} {ds : List (Fin 64)} {strict : Bool} {quad : ℕ} {chars : Fin 64 → PyChar}

theorem fillsUp_append {a b c : Fin 64} :
    FillsUp (a :: b :: c :: d :: ds) ↔ FillsUp ds := by
  have hmod : (a :: b :: c :: d :: ds).length % 4 = ds.length % 4 := by
    simp only [List.length_cons]
    omega
  cases ds with
  | nil => simp [FillsUp]
  | cons e ds => simp only [FillsUp, hmod, List.getLast?_cons_cons]

theorem fillsUp_encodeDigits (bs : Bytes) : FillsUp (encodeDigits bs) := by
  induction bs using encodeDigits.induct with
  | case1 => simp [encodeDigits, FillsUp]
  | case2 a =>
    simp only [encodeDigits, FillsUp, six, Fin.ofNat, List.length_cons, List.length_nil,
      List.getLast?_cons_cons, List.getLast?_singleton, Option.mem_some_iff, forall_eq']
    omega
  | case3 a b =>
    simp only [encodeDigits, FillsUp, six, Fin.ofNat, List.length_cons, List.length_nil,
      List.getLast?_cons_cons, List.getLast?_singleton, Option.mem_some_iff, forall_eq']
    omega
  | case4 a b c bs ih => exact fillsUp_append.mpr ih

theorem encodeDigits_decodeDigits (hlen : ds.length % 4 ≠ 1) (hfill : FillsUp ds) :
    encodeDigits (decodeDigits ds) = ds := by
  induction ds using decodeDigits.induct with
  | case1 a b c d ds ih =>
    have ha := a.isLt
    have hb := b.isLt
    have hc := c.isLt
    have hd := d.isLt
    have hmod : ds.length % 4 ≠ 1 := by
      simp only [List.length_cons] at hlen
      omega
    have hrest := ih hmod (fillsUp_append.mp hfill)
    simp only [decodeDigits, encodeDigits, hrest, List.cons.injEq, and_true]
    refine ⟨?_, ?_, ?_, ?_⟩ <;>
    · apply Fin.ext
      simp only [six, Fin.ofNat, UInt8.toNat_ofNat']
      omega
  | case2 a b c =>
    have ha := a.isLt
    have hb := b.isLt
    have hc := c.isLt
    have hlast : c.val % 4 = 0 := (hfill c (by simp)).1 rfl
    simp only [decodeDigits, encodeDigits, List.cons.injEq, and_true]
    refine ⟨?_, ?_, ?_⟩ <;>
    · apply Fin.ext
      simp only [six, Fin.ofNat, UInt8.toNat_ofNat']
      omega
  | case3 a b =>
    have ha := a.isLt
    have hb := b.isLt
    have hlast : b.val % 16 = 0 := (hfill b (by simp)).2 rfl
    simp only [decodeDigits, encodeDigits, List.cons.injEq, and_true]
    constructor <;>
    · apply Fin.ext
      simp only [six, Fin.ofNat, UInt8.toNat_ofNat']
      omega
  | case4 ds h₄ h₃ h₂ =>
    match ds, h₄, h₃, h₂ with
    | [], _, _, _ => rfl
    | [_], _, _, _ => exact absurd rfl hlen
    | [a, b], _, _, h => exact absurd rfl (h a b)
    | [a, b, c], _, h, _ => exact absurd rfl (h a b c)
    | a :: b :: c :: d :: r, h, _, _ => exact absurd rfl (h a b c d r)

theorem digit?_digitChar : ∀ d, digit? (digitChar false d) = some d := by decide

theorem digit?_standard : ∀ d, digit? (standard (digitChar true d)) = some d := by decide

theorem standard_ascii : ∀ d, isAscii (standard (digitChar true d)) = true := by decide

theorem digitChar_facts : ∀ url d,
    digitChar url d ≠ .scalar '=' ∧ isAscii (digitChar url d) = true := by decide

theorem scan_digit {c : PyChar} {s : PyStr} (hc : digit? c = some d) (pads : ℕ) :
    scan strict quad pads false (c :: s) =
      (scan strict ((quad + 1) % 4) 0 false s).map (d :: ·) := by
  have hne : c ≠ .scalar '=' := by
    rintro rfl
    have hpad : digit? (.scalar '=') = none := by decide
    simp [hpad] at hc
  simp [scan, hne, hc]

theorem scan_digits (hchars : ∀ d, digit? (chars d) = some d) (ds : List (Fin 64)) (s : PyStr) :
    ∀ {quad : ℕ}, quad < 4 → scan strict quad 0 false (ds.map chars ++ s) =
      (scan strict ((quad + ds.length) % 4) 0 false s).map (ds ++ ·) := by
  induction ds with
  | nil =>
    intro quad hq
    simp [Nat.mod_eq_of_lt hq]
  | cons d ds ih =>
    intro quad hq
    rw [List.map_cons, List.cons_append, scan_digit (hchars d), ih (Nat.mod_lt _ (by omega)),
      Option.map_map]
    have hmod : ((quad + 1) % 4 + ds.length) % 4 = (quad + (d :: ds).length) % 4 := by
      rw [List.length_cons]
      omega
    rw [hmod]
    rfl

/-- The padding that fills up the last four digits ends the data. -/
theorem scan_padding (strict : Bool) (hlt : quad < 4) (hne : quad ≠ 1) :
    scan strict quad 0 false (padding ((4 - quad) % 4)) = some [] := by
  interval_cases quad
  · rfl
  · exact absurd rfl hne
  · cases strict <;> rfl
  · cases strict <;> rfl

theorem scan_padded (strict : Bool) (hchars : ∀ d, digit? (chars d) = some d)
    (hlen : ds.length % 4 ≠ 1) :
    scan strict 0 0 false (ds.map chars ++ padding ((4 - ds.length % 4) % 4)) = some ds := by
  rw [scan_digits hchars _ _ (by omega), Nat.zero_add,
    scan_padding strict (Nat.mod_lt _ (by omega)) hlen, Option.map_some, List.append_nil]

theorem padding_encodeDigits (bs : Bytes) :
    (3 - bs.length % 3) % 3 = (4 - (encodeDigits bs).length % 4) % 4 ∧
      (encodeDigits bs).length % 4 ≠ 1 := by
  rw [length_encodeDigits]
  generalize bs.length = n
  obtain ⟨k, rfl | rfl | rfl⟩ : ∃ k, n = 3 * k ∨ n = 3 * k + 1 ∨ n = 3 * k + 2 :=
    ⟨n / 3, by omega⟩
  · have hdigits : (8 * (3 * k) + 5) / 6 = 4 * k := by omega
    omega
  · have hdigits : (8 * (3 * k + 1) + 5) / 6 = 4 * k + 2 := by omega
    omega
  · have hdigits : (8 * (3 * k + 2) + 5) / 6 = 4 * k + 3 := by omega
    omega

theorem map_standard (ds : List (Fin 64)) :
    (ds.map (digitChar true)).map standard = ds.map fun d => standard (digitChar true d) :=
  List.map_map

theorem all_isAscii_padded (url : Bool) (ds : List (Fin 64)) (n : ℕ) :
    (ds.map (digitChar url) ++ padding n).all isAscii = true := by
  rw [List.all_eq_true]
  intro c hc
  rcases List.mem_append.mp hc with hc | hc
  · obtain ⟨d, -, rfl⟩ := List.mem_map.mp hc
    exact (digitChar_facts url d).2
  · rw [List.eq_of_mem_replicate hc]
    decide

theorem b64decode_b64encode (strict : Bool) (bs : Bytes) :
    b64decode strict (b64encode bs) = some bs := by
  obtain ⟨hpadding, hlen⟩ := padding_encodeDigits bs
  rw [b64decode, b64encode, unpadded, if_pos (all_isAscii_padded _ _ _), hpadding,
    scan_padded strict digit?_digitChar hlen, Option.map_some, decodeDigits_encodeDigits]

theorem urlsafeB64decode_digits (hlen : ds.length % 4 ≠ 1) :
    urlsafeB64decode (ds.map (digitChar true) ++ padding ((4 - ds.length % 4) % 4)) =
      some (decodeDigits ds) := by
  have hpadding : ∀ n, (padding n).map standard = padding n := by
    intro n
    rw [padding, List.map_replicate]
    rfl
  have hascii : ((ds.map (digitChar true) ++ padding ((4 - ds.length % 4) % 4)).map
      standard).all isAscii = true := by
    rw [List.all_map, List.all_eq_true]
    intro c hc
    rcases List.mem_append.mp hc with hc | hc
    · obtain ⟨d, -, rfl⟩ := List.mem_map.mp hc
      exact standard_ascii d
    · rw [List.eq_of_mem_replicate hc]
      decide
  rw [urlsafeB64decode, b64decode, if_pos hascii, List.map_append, map_standard, hpadding,
    scan_padded false digit?_standard hlen, Option.map_some]

end QronosAgent.Lib.Base64

import Mathlib.Data.List.Basic
import QronosAgent.Lib.PyText

/-! `ipaddress`: the addresses that a text stands for, and the networks they are in. -/
namespace QronosAgent.Lib

inductive IpAddress where
  | v4 (bits : ℕ)
  | v6 (bits : ℕ)
  deriving DecidableEq

structure IpNetwork where
  first : IpAddress
  prefixlen : ℕ

namespace IpAddress

def ofDigits (base : ℕ) (digits : List ℕ) : ℕ := digits.foldl (fun n d => n * base + d) 0

def ofOctets (a b c d : ℕ) : ℕ := ofDigits 256 [a, b, c, d]

def digit? (c : PyChar) : Option ℕ :=
  if 0x30 ≤ c.code ∧ c.code ≤ 0x39 then some (c.code - 0x30) else none

def hexDigit? (c : PyChar) : Option ℕ :=
  if 0x30 ≤ c.code ∧ c.code ≤ 0x39 then some (c.code - 0x30)
  else if 0x41 ≤ c.code ∧ c.code ≤ 0x46 then some (c.code - 0x37)
  else if 0x61 ≤ c.code ∧ c.code ≤ 0x66 then some (c.code - 0x57)
  else none

/-- `_parse_octet`: up to three decimal digits without a leading zero, at most 255. -/
def parseOctet (s : PyStr) : Option ℕ :=
  if s = [] ∨ 3 < s.length ∨ (s.head? = some (.scalar '0') ∧ s ≠ py "0") then none
  else ((s.mapM digit?).map (ofDigits 10)).filter (· ≤ 255)

/-- `IPv4Address(s)`. -/
def parseV4 (s : PyStr) : Option ℕ :=
  if PyChar.scalar '/' ∈ s then none
  else
    match s.splitOn (.scalar '.') with
    | [a, b, c, d] => ([a, b, c, d].mapM parseOctet).map (ofDigits 256)
    | _ => none

/-- `_parse_hextet`. -/
def parseHextet (s : PyStr) : Option ℕ :=
  if s = [] ∨ 4 < s.length then none else (s.mapM hexDigit?).map (ofDigits 16)

/-- `_split_scope_id`, without the scope id. -/
def withoutScopeId (s : PyStr) : Option PyStr :=
  match s.splitOn (.scalar '%') with
  | [addr] => some addr
  | [addr, scopeId] => if scopeId = [] then none else some addr
  | _ => none

def hexText (n : ℕ) : PyStr := (Nat.toDigits 16 n).map .scalar

def expandV4 (parts : List PyStr) : Option (List PyStr) :=
  match parts.getLast? with
  | some last =>
    if PyChar.scalar '.' ∈ last then
      (parseV4 last).map fun bits =>
        parts.dropLast ++ [hexText (bits / 65536 % 65536), hexText (bits % 65536)]
    else some parts
  | none => some parts

def skips (parts : List PyStr) : List ℕ :=
  (List.range (parts.length - 1)).filter fun i => 0 < i ∧ parts[i]? = some []

/-- The part before or behind a `::`, of which an empty end must be all there is. -/
def half (parts : List PyStr) (emptyEnd : Bool) : Option (List PyStr) :=
  if emptyEnd then if parts.length = 1 then some [] else none else some parts

def hextets (parts : List PyStr) : Option (List ℕ) :=
  if 9 < parts.length then none
  else
    match skips parts with
    | [] => if parts.length = 8 then parts.mapM parseHextet else none
    | [i] =>
      (half (parts.take i) (parts.head? = some [])).bind fun hi =>
        (half (parts.drop (i + 1)) (parts.getLast? = some [])).bind fun lo =>
          if 8 ≤ hi.length + lo.length then none
          else
            (hi.mapM parseHextet).bind fun his => (lo.mapM parseHextet).map fun los =>
              his ++ List.replicate (8 - (hi.length + lo.length)) 0 ++ los
    | _ => none

/-- `IPv6Address(s)`. -/
def parseV6 (s : PyStr) : Option ℕ :=
  if PyChar.scalar '/' ∈ s then none
  else
    (withoutScopeId s).bind fun addr =>
      let parts := addr.splitOn (.scalar ':')
      if parts.length < 3 then none
      else ((expandV4 parts).bind hextets).map (ofDigits 65536)

/-- `ip_address(s)`; `none` is `ValueError`. -/
def parse (s : PyStr) : Option IpAddress :=
  match parseV4 s with
  | some bits => some (v4 bits)
  | none => (parseV6 s).map v6

/-- `ipv4_mapped`. -/
def v4Mapped : IpAddress → Option IpAddress
  | v4 _ => none
  | v6 bits => if bits / 2 ^ 32 = 0xFFFF then some (v4 (bits % 2 ^ 32)) else none

/-- `address in network`. -/
def inNetwork : IpAddress → IpNetwork → Bool
  | v4 bits, ⟨v4 first, n⟩ => bits / 2 ^ (32 - n) = first / 2 ^ (32 - n)
  | v6 bits, ⟨v6 first, n⟩ => bits / 2 ^ (128 - n) = first / 2 ^ (128 - n)
  | _, _ => false

example : parse (py "::ffff:192.168.1.5") = some (v6 (0xFFFF * 2 ^ 32 + ofOctets 192 168 1 5)) := by
  decide +kernel

example : parse (py "192.168.01.5") = none := by decide +kernel

end IpAddress
end QronosAgent.Lib

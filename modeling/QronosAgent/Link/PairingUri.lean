import QronosAgent.Lib.UrlText
import QronosAgent.Link.DeviceJson
import QronosAgent.Link.Pairing

/-! `PairingPayload` of `core/link_pairing.py`: the text of the QR code, and how a scanned text is
read. -/
namespace QronosAgent.Link.PairingUri
open Lib DeviceJson

structure Interpreter (F : Type) where
  decimal : PyChar → Option (Fin 10)
  intDigits : ℕ
  intDigits_ge : 640 ≤ intDigits
  /-- Which netlocs with brackets or with characters beyond ASCII `urlsplit` accepts. -/
  acceptsNetloc : PyStr → Bool
  floatOfStr : PyStr → Option F
  format0 : F → PyStr
  isFinite : F → Bool
  isWhole : F → Bool
  format0_ascii : ∀ x, format0 x ≠ [] ∧ (format0 x).all Base64.isAscii = true
  isFinite_of_isWhole : ∀ x, isWhole x = true → isFinite x = true
  floatOfStr_format0 : ∀ x, isWhole x = true → floatOfStr (format0 x) = some x
  isWhole_format0 : ∀ x y, isFinite x = true → floatOfStr (format0 x) = some y → isWhole y = true

structure PairingPayload (F : Type) where
  host : PyStr
  port : ℤ
  deviceId : DeviceId
  secret : Bytes
  expiresAt : F
  version : ℤ
  deriving DecidableEq

inductive UriError where
  | refused
  /-- `ValueError`, which `urlparse` raises outside every `try` -/
  | valueError
  deriving DecidableEq

variable {F : Type}

/-- A character as `int` sees it: a digit or a blank of any script becomes an ASCII one. -/
def asciiChar (N : Interpreter F) (c : PyChar) : Char :=
  if c.code < 0x7F then Char.ofNat c.code
  else if c.isSpace then ' '
  else
    match N.decimal c with
    | some d => d.val.digitChar
    | none => '?'

def isAsciiSpace (a : Char) : Bool := a = ' ' || (9 ≤ a.toNat && a.toNat ≤ 13)

def trim (s : List Char) : List Char :=
  ((s.dropWhile isAsciiSpace).reverse.dropWhile isAsciiSpace).reverse

def digitGroups : List Char → Option (List Char)
  | [] => none
  | [c] => if c.isDigit then some [c] else none
  | c :: d :: s =>
    if !c.isDigit then none
    else if d = '_' then (digitGroups s).map (c :: ·)
    else (digitGroups (d :: s)).map (c :: ·)

def sign : List Char → Bool × List Char
  | '-' :: s => (true, s)
  | '+' :: s => (false, s)
  | s => (false, s)

/-- `int(text)`; `none` is `ValueError`. -/
def intOfStr (N : Interpreter F) (s : PyStr) : Option ℤ :=
  let signed := sign (trim (s.map (asciiChar N)))
  (digitGroups signed.2).bind fun ds =>
    let n : ℤ := Nat.ofDigitChars 10 ds 0
    if ds.length ≤ N.intDigits then some (if signed.1 then -n else n) else none

/-- `_b64url_encode`. -/
def b64urlEncode (raw : Bytes) : PyStr :=
  ((Base64.urlsafeB64encode raw).reverse.dropWhile (· = .scalar '=')).reverse

/-- `_b64url_decode`; `none` is `ValueError`. -/
def b64urlDecode (text : PyStr) : Option Bytes :=
  Base64.urlsafeB64decode (text ++ Base64.padding ((4 - text.length % 4) % 4))

def scheme : PyStr := py "qronos"

def action : PyStr := py "pair"

def uriFields (N : Interpreter F) (p : PairingPayload F) : List (PyStr × PyStr) :=
  [(py "v", intText p.version), (py "h", p.host), (py "p", intText p.port), (py "d", p.deviceId),
    (py "k", b64urlEncode p.secret), (py "e", N.format0 p.expiresAt)]

/-- `to_uri`; `none` is `UnicodeEncodeError`. -/
def toUri (N : Interpreter F) (p : PairingPayload F) : Option PyStr :=
  (Url.urlencode (uriFields N p)).map fun query =>
    scheme ++ py "://" ++ action ++ py "?" ++ query

/-- `single`: the one value that a field has. -/
def single (fields : List (PyStr × PyStr)) (name : PyStr) : Except UriError PyStr :=
  match fields.filter fun f => f.1 = name with
  | [f] => .ok f.2
  | _ => .error .refused

/-- A conversion whose `ValueError` is raised again as `PairingPayloadError`. -/
def converted {α : Type} : Option α → Except UriError α
  | none => .error .refused
  | some a => .ok a

def require (b : Bool) : Except UriError Unit := if b then .ok () else .error .refused

/-- What `from_uri` makes of the fields of the query. -/
def ofFields (N : Interpreter F) (fields : List (PyStr × PyStr)) :
    Except UriError (PairingPayload F) := do
  let version ← single fields (py "v") >>= fun v => converted (intOfStr N v)
  let port ← single fields (py "p") >>= fun v => converted (intOfStr N v)
  let expiresAt ← single fields (py "e") >>= fun v => converted (N.floatOfStr v)
  require (version = payloadVersion)
  require (1 ≤ port && port ≤ 65535)
  let deviceId ← single fields (py "d")
  require (isValidDeviceId deviceId)
  let secret ← single fields (py "k") >>= fun k => converted (b64urlDecode k)
  require (secret.length = secretBytes)
  let host ← single fields (py "h")
  require (!host.isEmpty)
  return { host, port, deviceId, secret, expiresAt, version }

def actionOf (parsed : Url.SplitResult) : PyStr :=
  if parsed.netloc.isEmpty then parsed.path.dropWhile (· = .scalar '/') else parsed.netloc

/-- `from_uri`. A URL of this scheme has no parameters to split off its path. -/
def fromUri (N : Interpreter F) (text : PyStr) : Except UriError (PairingPayload F) :=
  match Url.urlsplit N.acceptsNetloc (PyStr.strip text) with
  | none => .error .valueError
  | some parsed => do
    require (parsed.scheme = scheme)
    require (actionOf parsed = action)
    ofFields N (Url.parseQsl parsed.query)

structure WellFormed (N : Interpreter F) (p : PairingPayload F) : Prop where
  version : p.version = payloadVersion
  host : p.host ≠ []
  port : 1 ≤ p.port ∧ p.port ≤ 65535
  deviceId : isValidDeviceId p.deviceId = true
  secret : p.secret.length = secretBytes
  expiry : N.isWhole p.expiresAt = true

/-- `from_uri(p.to_uri())` is `p`. -/
def RoundTrips (N : Interpreter F) (p : PairingPayload F) : Prop :=
  ∃ uri, toUri N p = some uri ∧ fromUri N uri = .ok p

def fieldsOf (N : Interpreter F) (text : PyStr) : List (PyStr × PyStr) :=
  match Url.urlsplit N.acceptsNetloc (PyStr.strip text) with
  | none => []
  | some parsed => Url.parseQsl parsed.query

def HasField (N : Interpreter F) (text name value : PyStr) : Prop :=
  single (fieldsOf N text) name = .ok value

def IsDecimal (s : PyStr) : Prop := s ≠ [] ∧ s.all Json.isDigit = true

/-- What is said of a text that `from_uri` accepts, and of the payload that it returns. -/
structure Canonical (N : Interpreter F) (text : PyStr) (p : PairingPayload F) : Prop where
  key : HasField N text (py "k") (b64urlEncode p.secret)
  version : ∃ v, HasField N text (py "v") v ∧ IsDecimal v
  port : ∃ v, HasField N text (py "p") v ∧ IsDecimal v
  expiry : N.isFinite p.expiresAt = true
  again : RoundTrips N p

/-- Forty-three characters of the URL-safe alphabet, of which the last has no bit to spare. -/
def IsKeyText (s : PyStr) : Prop :=
  ∃ ds : List (Fin 64), s = ds.map (Base64.digitChar true) ∧ ds.length = 43 ∧ Base64.FillsUp ds

structure WellWritten (N : Interpreter F) (text : PyStr) : Prop where
  key : ∀ k, HasField N text (py "k") k → IsKeyText k
  version : ∀ v, HasField N text (py "v") v → IsDecimal v
  port : ∀ v, HasField N text (py "p") v → IsDecimal v
  expiry : ∀ e x, HasField N text (py "e") e → N.floatOfStr e = some x → N.isWhole x = true
  host : ∀ h, HasField N text (py "h") h → PyStr.Encodable h

theorem digit_facts {a : Char} (h : a.isDigit = true) :
    a.toNat < 0x7F ∧ isAsciiSpace a = false ∧ a ≠ '_' ∧ a ≠ '-' ∧ a ≠ '+' := by
  have hcode : 0x30 ≤ a.toNat ∧ a.toNat ≤ 0x39 := by
    simp only [Char.isDigit, Bool.and_eq_true, decide_eq_true_eq, ge_iff_le,
      UInt32.le_iff_toNat_le] at h
    exact h
  refine ⟨by omega, ?_, ?_, ?_, ?_⟩
  · simp only [isAsciiSpace, Bool.or_eq_false_iff, decide_eq_false_iff_not, Bool.and_eq_false_iff]
    constructor
    · rintro rfl
      contradiction
    · omega
  · rintro rfl
    contradiction
  · rintro rfl
    contradiction
  · rintro rfl
    contradiction

theorem digitGroups_digits {ds : List Char} (hne : ds ≠ []) (h : ∀ a ∈ ds, a.isDigit = true) :
    digitGroups ds = some ds := by
  induction ds with
  | nil => exact absurd rfl hne
  | cons c ds ih =>
    have hc := h c List.mem_cons_self
    cases ds with
    | nil => simp [digitGroups, hc]
    | cons d ds =>
      have hd := (digit_facts (h d (by simp))).2.2.1
      have hrest := ih (by simp) fun a ha => h a (List.mem_cons_of_mem _ ha)
      simp [digitGroups, hc, hd, hrest]

theorem trim_digits {ds : List Char} (h : ∀ a ∈ ds, a.isDigit = true) : trim ds = ds := by
  have hdrop : ∀ l : List Char, (∀ a ∈ l, a.isDigit = true) → l.dropWhile isAsciiSpace = l := by
    intro l hl
    cases l with
    | nil => rfl
    | cons a l =>
      have ha := (digit_facts (hl a List.mem_cons_self)).2.1
      exact List.dropWhile_cons_of_neg (by simp [ha])
  rw [trim, hdrop ds h, hdrop ds.reverse fun a ha => h a (List.mem_reverse.mp ha),
    List.reverse_reverse]

theorem sign_digits {ds : List Char} (h : ∀ a ∈ ds, a.isDigit = true) : sign ds = (false, ds) := by
  cases ds with
  | nil => rfl
  | cons a ds =>
    obtain ⟨-, -, -, hminus, hplus⟩ := digit_facts (h a List.mem_cons_self)
    rw [sign]
    · intro s hs
      exact hminus (List.cons.inj hs).1
    · intro s hs
      exact hplus (List.cons.inj hs).1

/-- `int(str(n))` is `n`. -/
theorem intOfStr_natText (N : Interpreter F) {n : ℕ} (h : (natText n).length ≤ N.intDigits) :
    intOfStr N (natText n) = some (n : ℤ) := by
  have hdigits : ∀ a ∈ Nat.toDigits 10 n, a.isDigit = true := by
    intro a ha
    exact Nat.isDigit_of_mem_toDigits (by omega) (by omega) ha
  have hmap : (natText n).map (asciiChar N) = Nat.toDigits 10 n := by
    rw [natText, List.map_map]
    conv_rhs => rw [← List.map_id (Nat.toDigits 10 n)]
    apply List.map_congr_left
    intro a ha
    have hcode : (PyChar.scalar a).code < 0x7F := (digit_facts (hdigits a ha)).1
    simp only [Function.comp_apply, asciiChar, if_pos hcode]
    exact Char.ofNat_toNat a
  have hlength : (Nat.toDigits 10 n).length ≤ N.intDigits := by simpa [natText] using h
  rw [intOfStr, hmap, trim_digits hdigits, sign_digits hdigits,
    digitGroups_digits Nat.toDigits_ne_nil hdigits]
  simp [hlength, Nat.ofDigitChars_ten_toDigits]

theorem intText_natCast (n : ℕ) : intText (n : ℤ) = natText n := by
  have hneg : ¬ (n : ℤ) < 0 := by omega
  simp [intText, signText, hneg]

theorem length_natText_port {n : ℕ} (h : n ≤ 65535) : (natText n).length ≤ 640 := by
  have hlt : (Nat.toDigits 10 n).length ≤ 5 :=
    (Nat.length_toDigits_le_iff (by omega) (by omega)).mpr (by omega)
  simp only [natText, List.length_map]
  omega

theorem b64urlEncode_eq (raw : Bytes) : b64urlEncode raw = Base64.unpadded true raw := by
  have hdrop : ∀ n (s : PyStr), (∀ c ∈ s, c ≠ .scalar '=') →
      (List.replicate n (PyChar.scalar '=') ++ s).dropWhile (· = .scalar '=') = s := by
    intro n s hs
    induction n with
    | zero =>
      cases s with
      | nil => rfl
      | cons c s => simp [hs c List.mem_cons_self]
    | succ n ih => simpa [List.replicate_succ] using ih
  have hchars : ∀ c ∈ (Base64.unpadded true raw).reverse, c ≠ .scalar '=' := by
    intro c hc
    rw [List.mem_reverse, Base64.unpadded, List.mem_map] at hc
    obtain ⟨d, -, rfl⟩ := hc
    exact (Base64.digitChar_facts true d).1
  rw [b64urlEncode, Base64.urlsafeB64encode, Base64.padding, List.reverse_append,
    List.reverse_replicate, hdrop _ _ hchars, List.reverse_reverse]

theorem b64urlDecode_digits {ds : List (Fin 64)} (hlen : ds.length % 4 ≠ 1) :
    b64urlDecode (ds.map (Base64.digitChar true)) = some (Base64.decodeDigits ds) := by
  rw [b64urlDecode, List.length_map, Base64.urlsafeB64decode_digits hlen]

theorem b64urlDecode_encode (raw : Bytes) : b64urlDecode (b64urlEncode raw) = some raw := by
  rw [b64urlEncode_eq, Base64.unpadded, b64urlDecode_digits (Base64.padding_encodeDigits raw).2,
    Base64.decodeDigits_encodeDigits]

/-- Which text of a key of thirty-two bytes is the one that `to_uri` writes. -/
theorem eq_b64urlEncode_iff {k : PyStr} {raw : Bytes} (h : b64urlDecode k = some raw)
    (hlen : raw.length = secretBytes) : k = b64urlEncode raw ↔ IsKeyText k := by
  constructor
  · rintro rfl
    refine ⟨Base64.encodeDigits raw, b64urlEncode_eq raw, ?_, Base64.fillsUp_encodeDigits raw⟩
    rw [Base64.length_encodeDigits, hlen]
    rfl
  · rintro ⟨ds, rfl, hds, hfill⟩
    have hmod : ds.length % 4 ≠ 1 := by
      rw [hds]
      decide
    rw [b64urlDecode_digits hmod, Option.some.injEq] at h
    rw [← h, b64urlEncode_eq, Base64.unpadded, Base64.encodeDigits_decodeDigits hmod hfill]

theorem strip_of_code {s : PyStr} (h : ∀ c ∈ s, c.isSpace = false) : PyStr.strip s = s := by
  have hdrop : ∀ l : PyStr, (∀ c ∈ l, c.isSpace = false) → l.dropWhile PyChar.isSpace = l := by
    intro l hl
    cases l with
    | nil => rfl
    | cons c l => exact List.dropWhile_cons_of_neg (by simp [hl c List.mem_cons_self])
  rw [PyStr.strip, hdrop s h, hdrop s.reverse fun c hc => h c (List.mem_reverse.mp hc),
    List.reverse_reverse]

theorem isSpace_of_isQueryChar {c : PyChar} (h : Url.isQueryChar c = true) :
    c.isSpace = false := by
  have hlow := Url.isQueryChar_code h
  have hhigh : c.code < 0x80 := by
    unfold Url.isQueryChar Url.isQuoteChar Url.isUnreserved at h
    simp only [Bool.or_eq_true, Bool.and_eq_true, decide_eq_true_eq] at h
    rcases h with (((h | rfl) | rfl) | rfl) | rfl
    · omega
    · decide
    · decide
    · decide
    · decide
  simp only [PyChar.isSpace, Bool.or_eq_false_iff, Bool.and_eq_false_iff, decide_eq_false_iff_not,
    beq_eq_false_iff_ne]
  omega

/-- The URL of a query: what `from_uri` comes to read. -/
theorem fromUri_query (N : Interpreter F) {q : PyStr} (hq : q.all Url.isQueryChar = true) :
    fromUri N (scheme ++ py "://" ++ action ++ py "?" ++ q) = ofFields N (Url.parseQsl q) := by
  have hfixed : ∀ c ∈ scheme ++ py "://" ++ action ++ py "?", c.isSpace = false := by decide
  have hspace : ∀ c ∈ scheme ++ py "://" ++ action ++ py "?" ++ q, c.isSpace = false := by
    intro c hc
    rcases List.mem_append.mp hc with hc | hc
    · exact hfixed c hc
    · exact isSpace_of_isQueryChar (List.all_eq_true.mp hq c hc)
  have hshape : scheme ++ py "://" ++ action ++ py "?" ++ q =
      scheme ++ .scalar ':' :: .scalar '/' :: .scalar '/' :: (action ++ .scalar '?' :: q) := by
    simp [py]
  have hsplit := @Url.urlsplit_query N.acceptsNetloc scheme action q (by decide) (by decide)
    (by decide) (by decide) hq
  rw [fromUri, strip_of_code hspace, hshape, hsplit]
  rfl

structure Checked (p : PairingPayload F) : Prop where
  version : p.version = payloadVersion
  host : p.host ≠ []
  port : 1 ≤ p.port ∧ p.port ≤ 65535
  deviceId : isValidDeviceId p.deviceId = true
  secret : p.secret.length = secretBytes

theorem Checked.intOfStr_port {p : PairingPayload F} (h : Checked p) (N : Interpreter F) :
    intOfStr N (intText p.port) = some p.port := by
  obtain ⟨n, hn⟩ : ∃ n : ℕ, p.port = n := ⟨p.port.toNat, by have := h.port; omega⟩
  have hle : n ≤ 65535 := by
    have := h.port
    omega
  have := N.intDigits_ge
  have := length_natText_port hle
  rw [hn, intText_natCast, intOfStr_natText N (by omega)]

theorem Checked.intOfStr_version {p : PairingPayload F} (h : Checked p) (N : Interpreter F) :
    intOfStr N (intText p.version) = some p.version := by
  have := N.intDigits_ge
  have hlength : (natText payloadVersion).length ≤ 640 := length_natText_port (by decide)
  rw [h.version, intText_natCast, intOfStr_natText N (by omega)]

/-- Reading the fields of a payload gives it back but for its expiry, which is read anew. -/
theorem ofFields_uriFields {N : Interpreter F} {p : PairingPayload F} (h : Checked p) :
    ofFields N (uriFields N p) =
      (converted (N.floatOfStr (N.format0 p.expiresAt))).map fun x => { p with expiresAt := x } := by
  have hv : single (uriFields N p) (py "v") = .ok (intText p.version) := rfl
  have hp : single (uriFields N p) (py "p") = .ok (intText p.port) := rfl
  have he : single (uriFields N p) (py "e") = .ok (N.format0 p.expiresAt) := rfl
  have hd : single (uriFields N p) (py "d") = .ok p.deviceId := rfl
  have hk : single (uriFields N p) (py "k") = .ok (b64urlEncode p.secret) := rfl
  have hh : single (uriFields N p) (py "h") = .ok p.host := rfl
  have hhost : (!p.host.isEmpty) = true := by simpa using h.host
  simp only [ofFields, hv, hp, he, hd, hk, hh, bind, Except.bind, h.intOfStr_version N,
    h.intOfStr_port N, converted, b64urlDecode_encode]
  cases hx : N.floatOfStr (N.format0 p.expiresAt) with
  | none => rfl
  | some x =>
    simp only [require, h.version, h.port, h.deviceId, h.secret, hhost, decide_true, Bool.and_self,
      if_true, Except.map, pure, Except.pure]

theorem uriFields_plain {N : Interpreter F} {p : PairingPayload F} (h : Checked p) :
    ∀ f ∈ uriFields N p, Url.IsPlainName f.1 ∧ f.2 ≠ [] := by
  have hint : ∀ n, intText n ≠ [] := by
    intro n hn
    exact Json.natText_ne_nil n.natAbs (List.append_eq_nil_iff.mp hn).2
  have hid : p.deviceId ≠ [] := by
    intro hnil
    have hvalid := h.deviceId
    rw [hnil] at hvalid
    contradiction
  have hkey : b64urlEncode p.secret ≠ [] := by
    intro hnil
    have hread := b64urlDecode_encode p.secret
    rw [hnil] at hread
    have hempty : b64urlDecode [] = some [] := rfl
    have hlen := h.secret
    rw [← Option.some.inj (hempty.symm.trans hread)] at hlen
    contradiction
  unfold uriFields
  simp only [List.mem_cons, List.not_mem_nil, or_false, forall_eq_or_imp, forall_eq]
  exact ⟨⟨by decide, hint _⟩, ⟨by decide, h.host⟩, ⟨by decide, hint _⟩, ⟨by decide, hid⟩,
    ⟨by decide, hkey⟩, ⟨by decide, (N.format0_ascii _).1⟩⟩

theorem encodable_of_ascii {s : PyStr} (h : s.all Base64.isAscii = true) : PyStr.Encodable s := by
  intro c hc
  have hcode := List.all_eq_true.mp h c hc
  cases c with
  | scalar a => rfl
  | surrogate n =>
    have hlt : 0xD800 + n.val < 0x80 := of_decide_eq_true hcode
    omega

theorem isAscii_of_isLowerHex {c : PyChar} (h : isLowerHex c = true) : Base64.isAscii c = true := by
  simp only [isLowerHex, Bool.or_eq_true, Bool.and_eq_true, decide_eq_true_eq] at h
  simp only [Base64.isAscii, decide_eq_true_eq]
  omega

theorem all_isAscii_deviceId {id : DeviceId} (h : isValidDeviceId id = true) :
    id.all Base64.isAscii = true := by
  simp only [isValidDeviceId, Bool.and_eq_true, Bool.or_eq_true, decide_eq_true_eq,
    List.all_eq_true] at h
  obtain ⟨⟨-, hhex⟩, hrest⟩ := h
  rw [← List.take_append_drop 16 id, List.all_append, Bool.and_eq_true]
  constructor
  · rw [List.all_eq_true]
    intro c hc
    exact isAscii_of_isLowerHex (hhex c hc)
  · rcases hrest with hrest | hrest <;> rw [hrest] <;> decide

theorem all_isAscii_intText (n : ℤ) : (intText n).all Base64.isAscii = true := by
  have hprintable : ∀ c, Json.Printable c → Base64.isAscii c = true := by
    intro c hc
    have := hc.2
    simp only [Base64.isAscii, decide_eq_true_eq]
    omega
  rw [intText, List.all_append, Bool.and_eq_true, List.all_eq_true, List.all_eq_true]
  constructor
  · intro c hc
    exact hprintable c (Json.printable_signText _ c hc)
  · intro c hc
    exact hprintable c (Json.printable_natText _ c hc)

/-- `to_uri` raises exactly on a host with a lone surrogate. -/
theorem toUri_isSome {N : Interpreter F} {p : PairingPayload F} (h : Checked p) :
    (∃ uri, toUri N p = some uri) ↔ PyStr.Encodable p.host := by
  have hkey : PyStr.Encodable (b64urlEncode p.secret) := by
    apply encodable_of_ascii
    rw [b64urlEncode_eq, Base64.unpadded]
    simpa [Base64.padding] using Base64.all_isAscii_padded true (Base64.encodeDigits p.secret) 0
  have hfields := @Url.urlencode_isSome (uriFields N p)
  simp only [uriFields, List.mem_cons, List.not_mem_nil, or_false, forall_eq_or_imp, forall_eq,
    encodable_of_ascii (all_isAscii_intText _), encodable_of_ascii (all_isAscii_deviceId h.deviceId),
    hkey, encodable_of_ascii (N.format0_ascii _).2, true_and, and_true] at hfields
  rw [← hfields, toUri]
  simp [uriFields]

theorem roundTrips_iff {N : Interpreter F} {p : PairingPayload F} (h : Checked p) :
    RoundTrips N p ↔
      PyStr.Encodable p.host ∧ N.floatOfStr (N.format0 p.expiresAt) = some p.expiresAt := by
  have hread : ∀ uri, toUri N p = some uri →
      (fromUri N uri = .ok p ↔ N.floatOfStr (N.format0 p.expiresAt) = some p.expiresAt) := by
    intro uri huri
    obtain ⟨q, hq, rfl⟩ := Option.map_eq_some_iff.mp huri
    have hne : uriFields N p ≠ [] := by simp [uriFields]
    obtain ⟨hparse, hchars⟩ := Url.parseQsl_urlencode hne (uriFields_plain h) hq
    rw [fromUri_query N hchars, hparse, ofFields_uriFields h]
    cases hx : N.floatOfStr (N.format0 p.expiresAt) with
    | none => simp [converted, Except.map]
    | some x =>
      simp only [converted, Except.map, Except.ok.injEq, Option.some.injEq]
      constructor
      · intro hp
        exact congrArg PairingPayload.expiresAt hp
      · rintro rfl
        rfl
  rw [← toUri_isSome h]
  constructor
  · rintro ⟨uri, huri, hp⟩
    exact ⟨⟨uri, huri⟩, (hread uri huri).mp hp⟩
  · rintro ⟨⟨uri, huri⟩, hx⟩
    exact ⟨uri, huri, (hread uri huri).mpr hx⟩

theorem require_eq_ok {b : Bool} {u : Unit} : require b = .ok u ↔ b = true := by
  unfold require
  split <;> simp_all

theorem converted_eq_ok {α : Type} {x : Option α} {a : α} : converted x = .ok a ↔ x = some a := by
  cases x <;> simp [converted]

theorem fromUri_ok {N : Interpreter F} {text : PyStr} {p : PairingPayload F}
    (h : fromUri N text = .ok p) :
    Checked p ∧ (∃ k, HasField N text (py "k") k ∧ b64urlDecode k = some p.secret) ∧
      (∃ v, HasField N text (py "v") v) ∧ (∃ v, HasField N text (py "p") v) ∧
      (∃ e, HasField N text (py "e") e ∧ N.floatOfStr e = some p.expiresAt) ∧
      HasField N text (py "h") p.host ∧ HasField N text (py "d") p.deviceId := by
  unfold HasField fieldsOf
  unfold fromUri at h
  cases hsplit : Url.urlsplit N.acceptsNetloc (PyStr.strip text) with
  | none =>
    rw [hsplit] at h
    cases h
  | some parsed =>
    rw [hsplit] at h
    simp only [bind_eq_ok, ofFields, require_eq_ok, converted_eq_ok] at h
    obtain ⟨-, -, -, -, version, ⟨v, hv, -⟩, port, ⟨w, hw, -⟩, x, ⟨e, he, hx⟩, -, hversion, -, hport,
      id, hid, -, hvalid, secret, ⟨k, hk, hsecret⟩, -, hlen, host, hhost, -, hne, hp⟩ := h
    cases hp
    simp only [Bool.and_eq_true, decide_eq_true_eq, Bool.not_eq_true', List.isEmpty_eq_false_iff]
      at hversion hport hlen hne
    exact ⟨⟨hversion, hne, hport, hvalid, hlen⟩, ⟨k, hk, hsecret⟩, ⟨v, hv⟩, ⟨w, hw⟩, ⟨e, he, hx⟩,
      hhost, hid⟩

theorem HasField.unique {N : Interpreter F} {text name v w : PyStr} (hv : HasField N text name v)
    (hw : HasField N text name w) : v = w := Except.ok.inj (hv.symm.trans hw)

theorem canonical_iff {N : Interpreter F} {text : PyStr} {p : PairingPayload F}
    (h : fromUri N text = .ok p) : Canonical N text p ↔ WellWritten N text := by
  obtain ⟨hp, ⟨k, hk, hsecret⟩, ⟨v, hv⟩, ⟨w, hw⟩, ⟨e, he, hx⟩, hhost, -⟩ := fromUri_ok h
  have hkey := eq_b64urlEncode_iff hsecret hp.secret
  constructor
  · rintro ⟨hkey', ⟨v', hv', hdec⟩, ⟨w', hw', hdec'⟩, hfinite, hagain⟩
    obtain ⟨hencodable, hread⟩ := (roundTrips_iff hp).mp hagain
    refine ⟨?_, ?_, ?_, ?_, ?_⟩
    · intro k' hk'
      rw [← hk.unique hk']
      exact hkey.mp (hk.unique hkey')
    · intro v₂ hv₂
      rwa [← hv'.unique hv₂]
    · intro w₂ hw₂
      rwa [← hw'.unique hw₂]
    · intro e' x he' hx'
      rw [← he.unique he', hx] at hx'
      exact Option.some.inj hx' ▸ N.isWhole_format0 _ _ hfinite hread
    · intro host hh
      rwa [← hhost.unique hh]
  · intro hw'
    have hwhole := hw'.expiry e _ he hx
    refine ⟨?_, ⟨v, hv, hw'.version v hv⟩, ⟨w, hw, hw'.port w hw⟩, N.isFinite_of_isWhole _ hwhole, ?_⟩
    · rwa [← hkey.mpr (hw'.key k hk)]
    · exact (roundTrips_iff hp).mpr ⟨hw'.host _ hhost, N.floatOfStr_format0 _ hwhole⟩

/-- A payload comes back from its URI exactly when its host can be encoded, and an accepted text is
canonical exactly when it is well written. -/
theorem pairing_uri_faithful (N : Interpreter F) :
    (∀ p, WellFormed N p → (RoundTrips N p ↔ PyStr.Encodable p.host)) ∧
      ∀ text p, fromUri N text = .ok p → (Canonical N text p ↔ WellWritten N text) := by
  refine ⟨fun p hp => ?_, fun text p => canonical_iff⟩
  rw [roundTrips_iff { hp with }]
  simp only [N.floatOfStr_format0 _ hp.expiry, and_true]

/-- `float` on the texts of whole numbers. -/
def sampleFloat (s : PyStr) : Option WholeFloat :=
  let signed := Json.scanSign s
  if signed.2 ≠ [] ∧ signed.2.all Json.isDigit then
    let n : ℤ := Nat.ofDigitChars 10 (Json.digitsText signed.2) 0
    some ⟨if signed.1 then -n else n⟩
  else none

theorem sampleFloat_intText (n : ℤ) : sampleFloat (intText n) = some ⟨n⟩ := by
  have hsign : Json.scanSign (intText n) = (decide (n < 0), natText n.natAbs) := by
    have := Json.scanSign_signText (decide (n < 0)) n.natAbs []
    simpa [intText] using this
  have hdigits : (natText n.natAbs).all Json.isDigit = true :=
    List.all_eq_true.mpr (Json.natText_digits _)
  simp only [sampleFloat, hsign, Json.natText_ne_nil, hdigits, Json.digitsText_natText,
    Nat.ofDigitChars_ten_toDigits, ne_eq, not_false_eq_true, and_self, if_true, decide_eq_true_eq,
    Option.some.injEq, WholeFloat.mk.injEq]
  split <;> omega

def sampleInterpreter : Interpreter WholeFloat where
  decimal _ := none
  intDigits := 4300
  intDigits_ge := by decide
  acceptsNetloc _ := false
  floatOfStr := sampleFloat
  format0 x := intText x.value
  isFinite _ := true
  isWhole _ := true
  format0_ascii x := by
    refine ⟨?_, all_isAscii_intText _⟩
    intro hnil
    exact Json.natText_ne_nil _ (List.append_eq_nil_iff.mp hnil).2
  isFinite_of_isWhole _ _ := rfl
  floatOfStr_format0 x _ := sampleFloat_intText x.value
  isWhole_format0 _ _ _ _ := rfl

def samplePayload : PairingPayload WholeFloat where
  host := py "10.0.0.5"
  port := 47711
  deviceId := py "0123456789abcdef"
  secret := List.replicate 32 0
  expiresAt := ⟨1700000000⟩
  version := 1

theorem pairing_uri_faithful_sample :
    (RoundTrips sampleInterpreter samplePayload ↔ PyStr.Encodable samplePayload.host) ∧
      ∀ text p, fromUri sampleInterpreter text = .ok p →
        (Canonical sampleInterpreter text p ↔ WellWritten sampleInterpreter text) :=
  ⟨(pairing_uri_faithful sampleInterpreter).1 samplePayload
    ⟨rfl, by decide, by decide, by decide +kernel, rfl, rfl⟩,
    (pairing_uri_faithful sampleInterpreter).2⟩

def sampleKey : PyStr := List.replicate 42 (.scalar 'A') ++ py "B"

def sampleText : PyStr :=
  py "qronos://pair?v=1&h=10.0.0.5&p=47711&d=0123456789abcdef&k=" ++ sampleKey ++
    py "&e=1700000000"

theorem sample_accepted : fromUri sampleInterpreter sampleText = .ok samplePayload := by
  decide +kernel

theorem accepted_not_canonical :
    ¬ ∀ p, fromUri sampleInterpreter sampleText = .ok p →
      Canonical sampleInterpreter sampleText p := by
  intro h
  have hkey : HasField sampleInterpreter sampleText (py "k") sampleKey := by
    unfold HasField
    decide +kernel
  have hne : b64urlEncode samplePayload.secret ≠ sampleKey := by decide +kernel
  exact hne ((h _ sample_accepted).key.unique hkey)

end QronosAgent.Link.PairingUri

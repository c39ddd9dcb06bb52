import Mathlib.Data.List.SplitBy
import QronosAgent.Lib.Base64

/-! `urllib.parse`: quoting a text for a query and reading it back, splitting a URL into its parts
and a query into its fields. -/
namespace QronosAgent.Lib.Url

/-! UTF-8, as `str.encode` writes it and as `bytes.decode(errors="replace")` reads it. -/

def utf8 (n : ℕ) : Bytes :=
  if n < 0x80 then [UInt8.ofNat n]
  else if n < 0x800 then [UInt8.ofNat (0xC0 + n / 64), UInt8.ofNat (0x80 + n % 64)]
  else if n < 0x10000 then
    [UInt8.ofNat (0xE0 + n / 4096), UInt8.ofNat (0x80 + n / 64 % 64), UInt8.ofNat (0x80 + n % 64)]
  else
    [UInt8.ofNat (0xF0 + n / 262144), UInt8.ofNat (0x80 + n / 4096 % 64),
      UInt8.ofNat (0x80 + n / 64 % 64), UInt8.ofNat (0x80 + n % 64)]

def mayFollow (a b : UInt8) : Bool :=
  let n := b.toNat
  if a = 0xE0 then 0xA0 ≤ n && n < 0xC0
  else if a = 0xED then 0x80 ≤ n && n < 0xA0
  else if a = 0xF0 then 0x90 ≤ n && n < 0xC0
  else if a = 0xF4 then 0x80 ≤ n && n < 0x90
  else 0x80 ≤ n && n < 0xC0

def malformedLength : Bytes → ℕ
  | a :: b :: c :: _ =>
    if 0xE0 ≤ a.toNat ∧ a.toNat < 0xF5 ∧ mayFollow a b then
      if 0xF0 ≤ a.toNat ∧ (continuation? c).isSome then 3 else 2
    else 1
  | [a, b] => if 0xE0 ≤ a.toNat ∧ a.toNat < 0xF5 ∧ mayFollow a b then 2 else 1
  | _ => 1

/-- `b.decode("utf-8", "replace")`; `fuel` is at least the number of bytes. -/
def decodeReplacing : ℕ → Bytes → PyStr
  | 0, _ | _, [] => []
  | fuel + 1, s =>
    match (nextUtf8 s).filter fun p => p.1.toScalar?.isSome with
    | some (c, r) => c :: decodeReplacing fuel r
    | none => .scalar '\ufffd' :: decodeReplacing fuel (s.drop (malformedLength s))

/-- `_ALWAYS_SAFE`. -/
def isUnreserved (n : ℕ) : Bool :=
  (0x30 ≤ n && n ≤ 0x39) || (0x41 ≤ n && n ≤ 0x5A) || (0x61 ≤ n && n ≤ 0x7A) || n = 0x2D || n = 0x2E ||
    n = 0x5F || n = 0x7E

def upperHex (n : ℕ) : PyChar := .scalar (Char.ofNat (if n < 10 then 0x30 + n else 0x37 + n))

/-- `quote_plus` on one byte. -/
def quoteByte (b : UInt8) : PyStr :=
  if b = 0x20 then [.scalar '+']
  else if isUnreserved b.toNat then [.scalar (Char.ofNat b.toNat)]
  else [.scalar '%', upperHex (b.toNat / 16), upperHex (b.toNat % 16)]

def encode (cs : List Char) : Bytes := cs.flatMap fun c => utf8 c.toNat

/-- `quote_plus(text)`; `none` is `UnicodeEncodeError`. -/
def quotePlus (s : PyStr) : Option PyStr :=
  (PyStr.scalars? s).map fun cs => (encode cs).flatMap quoteByte

/-- `_unquote_impl` on a run of ASCII. -/
def percentDecode : PyStr → Bytes
  | .scalar '%' :: a :: b :: s =>
    match Json.hexValue a, Json.hexValue b with
    | some x, some y => UInt8.ofNat (16 * x + y) :: percentDecode s
    | _, _ => 0x25 :: percentDecode (a :: b :: s)
  | c :: s => UInt8.ofNat c.code :: percentDecode s
  | [] => []

def unquoteRun (run : PyStr) : PyStr :=
  if run.all Base64.isAscii then decodeReplacing (percentDecode run).length (percentDecode run)
  else run

/-- `unquote(text, errors="replace")`: run of ASCII by run of ASCII. -/
def unquote (s : PyStr) : PyStr :=
  if .scalar '%' ∈ s then
    (s.splitBy fun a b => Base64.isAscii a == Base64.isAscii b).flatMap unquoteRun
  else s

def plusToSpace (c : PyChar) : PyChar := if c = .scalar '+' then .scalar ' ' else c

def unquotePlus (s : PyStr) : PyStr := unquote (s.map plusToSpace)

/-- `text.partition(sep)`, without the separator. -/
def cut (sep : PyChar) (s : PyStr) : PyStr × PyStr :=
  (s.takeWhile (· ≠ sep), (s.dropWhile (· ≠ sep)).drop 1)

/-- `parse_qsl` on one part of a query: a field without a value is dropped. -/
def field? (part : PyStr) : Option (PyStr × PyStr) :=
  let nv := cut (.scalar '=') part
  if nv.2 = [] then none else some (unquotePlus nv.1, unquotePlus nv.2)

/-- `parse_qsl(query)`. -/
def parseQsl (query : PyStr) : List (PyStr × PyStr) := (query.splitOn (.scalar '&')).filterMap field?

/-- `urlencode` of fields whose names need no quoting. -/
def urlencode (fields : List (PyStr × PyStr)) : Option PyStr :=
  (fields.mapM fun f => (quotePlus f.2).map fun v => f.1 ++ .scalar '=' :: v).map
    [PyChar.scalar '&'].intercalate

structure SplitResult where
  scheme : PyStr
  netloc : PyStr
  path : PyStr
  query : PyStr
  fragment : PyStr

def isAsciiAlpha (c : PyChar) : Bool :=
  let n := c.code
  (0x41 ≤ n && n ≤ 0x5A) || (0x61 ≤ n && n ≤ 0x7A)

def isSchemeChar (c : PyChar) : Bool :=
  isAsciiAlpha c || (0x30 ≤ c.code && c.code ≤ 0x39) || c = .scalar '+' || c = .scalar '-' ||
    c = .scalar '.'

def lowerAscii (c : PyChar) : PyChar :=
  if 0x41 ≤ c.code ∧ c.code ≤ 0x5A then .scalar (Char.ofNat (c.code + 0x20)) else c

def splitScheme (url : PyStr) : PyStr × PyStr :=
  let head := url.takeWhile (· ≠ .scalar ':')
  if .scalar ':' ∈ url ∧ head.head?.any isAsciiAlpha ∧ head.all isSchemeChar then
    (head.map lowerAscii, url.drop (head.length + 1))
  else ([], url)

def endsNetloc (c : PyChar) : Bool := c = .scalar '/' || c = .scalar '?' || c = .scalar '#'

def splitNetloc : PyStr → PyStr × PyStr
  | .scalar '/' :: .scalar '/' :: r =>
    (r.takeWhile fun c => !endsNetloc c, r.dropWhile fun c => !endsNetloc c)
  | url => ([], url)

/-- A netloc that `urlsplit` takes as it is. -/
def isPlainNetloc (netloc : PyStr) : Bool :=
  netloc.all fun c => Base64.isAscii c && c ≠ .scalar '[' && c ≠ .scalar ']'

/-- What is dropped from the front of a URL. -/
def isC0OrSpace (c : PyChar) : Bool := c.code ≤ 0x20

/-- What is dropped from everywhere in a URL. -/
def isUnsafe (c : PyChar) : Bool := c = .scalar '\t' || c = .scalar '\r' || c = .scalar '\n'

/-- `urlsplit(url)`; `none` is `ValueError`. `accepts` says which netlocs with brackets or with
characters beyond ASCII are accepted. -/
def urlsplit (accepts : PyStr → Bool) (url : PyStr) : Option SplitResult :=
  let scheme := splitScheme ((url.dropWhile isC0OrSpace).filter fun c => !isUnsafe c)
  let netloc := splitNetloc scheme.2
  let fragment := cut (.scalar '#') netloc.2
  let query := cut (.scalar '?') fragment.1
  if isPlainNetloc netloc.1 || accepts netloc.1 then
    some ⟨scheme.1, netloc.1, query.1, query.2, fragment.2⟩
  else none

theorem ofUnit_toNat (c : Char) : Json.ofUnit c.toNat = .scalar c := by
  have hvalid : ¬ (0xD800 ≤ c.toNat ∧ c.toNat < 0xE000) := by
    have := c.valid
    simp only [UInt32.isValidChar, Nat.isValidChar] at this
    have hval : c.val.toNat = c.toNat := rfl
    omega
  rw [Json.ofUnit, dif_neg hvalid, Char.ofNat_toNat]

theorem codePoint?_toNat {c : Char} {least : ℕ} (h : least ≤ c.toNat) :
    codePoint? least c.toNat = some (.scalar c) := by
  have hlt : c.toNat < 0x110000 := by
    have := c.valid
    simp only [UInt32.isValidChar, Nat.isValidChar] at this
    have hval : c.val.toNat = c.toNat := rfl
    omega
  rw [codePoint?, if_neg (by omega), ofUnit_toNat]

theorem continuation?_ofNat {n : ℕ} (h : n < 64) :
    continuation? (UInt8.ofNat (0x80 + n)) = some n := by
  have hto : (UInt8.ofNat (0x80 + n)).toNat = 0x80 + n := by
    rw [UInt8.toNat_ofNat']
    omega
  rw [continuation?, hto, if_pos (by omega)]
  simp

theorem nextUtf8_utf8 (c : Char) (r : Bytes) :
    nextUtf8 (utf8 c.toNat ++ r) = some (.scalar c, r) := by
  have hlt : c.toNat < 0x110000 := by
    have := c.valid
    simp only [UInt32.isValidChar, Nat.isValidChar] at this
    have hval : c.val.toNat = c.toNat := rfl
    omega
  unfold utf8
  split_ifs with h1 h2 h3
  · have hto : (UInt8.ofNat c.toNat).toNat = c.toNat := by
      rw [UInt8.toNat_ofNat']
      omega
    simp [nextUtf8, hto, h1, codePoint?_toNat (Nat.zero_le _)]
  · have hto : (UInt8.ofNat (0xC0 + c.toNat / 64)).toNat = 0xC0 + c.toNat / 64 := by
      rw [UInt8.toNat_ofNat']
      omega
    have hn : (0xC0 + c.toNat / 64 - 0xC0) * 64 + c.toNat % 64 = c.toNat := by omega
    simp only [List.cons_append, List.nil_append, nextUtf8, hto]
    rw [if_neg (by omega), if_neg (by omega), if_pos (by omega), continuation?_ofNat (by omega)]
    simp only [Option.bind_eq_bind, Option.bind_some, hn, codePoint?_toNat (show 0x80 ≤ c.toNat by omega)]
    rfl
  · have hto : (UInt8.ofNat (0xE0 + c.toNat / 4096)).toNat = 0xE0 + c.toNat / 4096 := by
      rw [UInt8.toNat_ofNat']
      omega
    have hn : ((0xE0 + c.toNat / 4096 - 0xE0) * 64 + c.toNat / 64 % 64) * 64 + c.toNat % 64 =
        c.toNat := by omega
    simp only [List.cons_append, List.nil_append, nextUtf8, hto]
    rw [if_neg (by omega), if_neg (by omega), if_neg (by omega), if_pos (by omega),
      continuation?_ofNat (by omega), continuation?_ofNat (by omega)]
    simp only [Option.bind_eq_bind, Option.bind_some, hn,
      codePoint?_toNat (show 0x800 ≤ c.toNat by omega)]
    rfl
  · have hto : (UInt8.ofNat (0xF0 + c.toNat / 262144)).toNat = 0xF0 + c.toNat / 262144 := by
      rw [UInt8.toNat_ofNat']
      omega
    have hn : (((0xF0 + c.toNat / 262144 - 0xF0) * 64 + c.toNat / 4096 % 64) * 64 +
        c.toNat / 64 % 64) * 64 + c.toNat % 64 = c.toNat := by omega
    simp only [List.cons_append, List.nil_append, nextUtf8, hto]
    rw [if_neg (by omega), if_neg (by omega), if_neg (by omega), if_neg (by omega),
      if_pos (by omega), continuation?_ofNat (by omega), continuation?_ofNat (by omega),
      continuation?_ofNat (by omega)]
    simp only [Option.bind_eq_bind, Option.bind_some, hn,
      codePoint?_toNat (show 0x10000 ≤ c.toNat by omega)]
    rfl

theorem utf8_ne_nil (n : ℕ) : utf8 n ≠ [] := by
  unfold utf8
  split_ifs <;> simp

theorem encode_cons (c : Char) (cs : List Char) :
    encode (c :: cs) = utf8 c.toNat ++ encode cs := List.flatMap_cons

theorem decodeReplacing_encode (cs : List Char) :
    ∀ {fuel : ℕ}, (encode cs).length ≤ fuel → decodeReplacing fuel (encode cs) = cs.map .scalar := by
  induction cs with
  | nil =>
    intro fuel _
    cases fuel <;> rfl
  | cons c cs ih =>
    intro fuel hfuel
    have hpos := List.length_pos_iff.mpr (utf8_ne_nil c.toNat)
    rw [encode_cons, List.length_append] at hfuel
    obtain ⟨fuel, rfl⟩ : ∃ k, fuel = k + 1 := ⟨fuel - 1, by omega⟩
    rw [encode_cons]
    generalize hbytes : utf8 c.toNat ++ encode cs = bytes
    have hnext : nextUtf8 bytes = some (.scalar c, encode cs) := hbytes ▸ nextUtf8_utf8 c _
    cases bytes with
    | nil => simp [utf8_ne_nil] at hbytes
    | cons b bytes =>
      simp only [decodeReplacing, hnext, Option.filter_some, PyChar.toScalar?, Option.isSome_some,
        if_true, List.map_cons]
      rw [ih (by omega)]

/-- A character that stands in a quoted text as it is. -/
def isQuoteChar (c : PyChar) : Bool := isUnreserved c.code || c = .scalar '%' || c = .scalar '+'

theorem upperHex_facts : ∀ n < 16, Json.hexValue (upperHex n) = some n ∧
    plusToSpace (upperHex n) = upperHex n := by
  decide

theorem unreserved_facts : ∀ n < 256, isUnreserved n = true →
    plusToSpace (.scalar (Char.ofNat n)) = .scalar (Char.ofNat n) ∧
      PyChar.scalar (Char.ofNat n) ≠ .scalar '%' ∧ (PyChar.scalar (Char.ofNat n)).code = n := by
  decide +kernel

theorem isQuoteChar_quoteByte : ∀ n < 256, (quoteByte (UInt8.ofNat n)).all isQuoteChar = true := by
  decide +kernel

theorem all_isQuoteChar_quoted (bs : Bytes) : (bs.flatMap quoteByte).all isQuoteChar = true := by
  rw [List.all_flatMap, List.all_eq_true]
  intro b _
  have hb := isQuoteChar_quoteByte b.toNat b.toNat_lt
  rwa [UInt8.ofNat_toNat] at hb

theorem percentDecode_cons {c : PyChar} (h : c ≠ .scalar '%') (s : PyStr) :
    percentDecode (c :: s) = UInt8.ofNat c.code :: percentDecode s := by
  rw [percentDecode]
  intro a b r hc
  exact absurd hc h

theorem percentDecode_escape {a b : PyChar} {x y : ℕ} (ha : Json.hexValue a = some x)
    (hb : Json.hexValue b = some y) (s : PyStr) :
    percentDecode (.scalar '%' :: a :: b :: s) = UInt8.ofNat (16 * x + y) :: percentDecode s := by
  simp only [percentDecode, ha, hb]

theorem percentDecode_quoteByte (b : UInt8) (s : PyStr) :
    percentDecode ((quoteByte b).map plusToSpace ++ s) = b :: percentDecode s := by
  have hlt := b.toNat_lt
  unfold quoteByte
  split_ifs with hspace hsafe
  · subst hspace
    exact percentDecode_cons (by decide) s
  · obtain ⟨hplus, hpercent, hcode⟩ := unreserved_facts b.toNat hlt hsafe
    rw [List.map_singleton, List.singleton_append, hplus, percentDecode_cons hpercent, hcode,
      UInt8.ofNat_toNat]
  · obtain ⟨hhigh, hplus⟩ := upperHex_facts (b.toNat / 16) (by omega)
    obtain ⟨hlow, hplus'⟩ := upperHex_facts (b.toNat % 16) (by omega)
    have hpercent : plusToSpace (.scalar '%') = .scalar '%' := by decide
    have hb : 16 * (b.toNat / 16) + b.toNat % 16 = b.toNat := by omega
    simp only [List.map_cons, List.map_nil, hplus, hplus', hpercent, List.cons_append,
      List.nil_append]
    rw [percentDecode_escape hhigh hlow, hb, UInt8.ofNat_toNat]

theorem percentDecode_quoted (bs : Bytes) :
    percentDecode ((bs.flatMap quoteByte).map plusToSpace) = bs := by
  induction bs with
  | nil => rfl
  | cons b bs ih => rw [List.flatMap_cons, List.map_append, percentDecode_quoteByte, ih]

theorem percentDecode_plain {s : PyStr} (hascii : s.all Base64.isAscii = true)
    (hpercent : PyChar.scalar '%' ∉ s) :
    ∃ cs : List Char, s = cs.map .scalar ∧ percentDecode s = encode cs := by
  induction s with
  | nil => exact ⟨[], rfl, rfl⟩
  | cons c s ih =>
    rw [List.all_cons, Bool.and_eq_true] at hascii
    rw [List.mem_cons, not_or] at hpercent
    obtain ⟨cs, rfl, hcs⟩ := ih hascii.2 hpercent.2
    have hlt : c.code < 0x80 := by simpa [Base64.isAscii] using hascii.1
    cases c with
    | surrogate n =>
      simp only [PyChar.code] at hlt
      omega
    | scalar c =>
      have hutf8 : utf8 c.toNat = [UInt8.ofNat c.toNat] := if_pos hlt
      refine ⟨c :: cs, rfl, ?_⟩
      rw [percentDecode_cons (Ne.symm hpercent.1), hcs, encode_cons, hutf8]
      rfl

theorem unquoteRun_ascii {s : PyStr} {cs : List Char} (hascii : s.all Base64.isAscii = true)
    (h : percentDecode s = encode cs) : unquoteRun s = cs.map .scalar := by
  rw [unquoteRun, if_pos hascii, h, decodeReplacing_encode cs le_rfl]

theorem unquote_ascii {s : PyStr} (hascii : s.all Base64.isAscii = true) :
    unquote s = unquoteRun s := by
  unfold unquote
  split_ifs with hpercent
  · have hne : s ≠ [] := by
      rintro rfl
      cases hpercent
    have hall : ∀ c ∈ s, Base64.isAscii c = true := List.all_eq_true.mp hascii
    have hchain : s.IsChain fun a b => (Base64.isAscii a == Base64.isAscii b) = true := by
      apply List.Pairwise.isChain
      rw [List.pairwise_iff_forall_sublist]
      intro a b hab
      rw [hall a (hab.subset (by simp)), hall b (hab.subset (by simp))]
      rfl
    rw [List.splitBy_of_isChain hne hchain, List.flatMap_singleton]
  · obtain ⟨cs, rfl, hcs⟩ := percentDecode_plain hascii hpercent
    rw [unquoteRun_ascii hascii hcs]

theorem isAscii_of_isQuoteChar : ∀ c, isQuoteChar c = true → Base64.isAscii (plusToSpace c) = true := by
  intro c hc
  unfold isQuoteChar at hc
  simp only [Bool.or_eq_true, decide_eq_true_eq] at hc
  rcases hc with (hc | rfl) | rfl
  · have hne : c ≠ .scalar '+' := by
      rintro rfl
      contradiction
    rw [plusToSpace, if_neg hne]
    unfold isUnreserved at hc
    simp only [Bool.or_eq_true, Bool.and_eq_true, decide_eq_true_eq] at hc
    simp only [Base64.isAscii, decide_eq_true_eq]
    omega
  · decide
  · decide

/-- What `quote_plus` writes, `unquote_plus` reads. -/
theorem unquotePlus_quotePlus {s q : PyStr} (h : quotePlus s = some q) : unquotePlus q = s := by
  obtain ⟨cs, hcs, rfl⟩ := Option.map_eq_some_iff.mp h
  have hascii : (((encode cs).flatMap quoteByte).map plusToSpace).all Base64.isAscii = true := by
    rw [List.all_map, List.all_eq_true]
    intro c hc
    exact isAscii_of_isQuoteChar c (List.all_eq_true.mp (all_isQuoteChar_quoted _) c hc)
  rw [unquotePlus, unquote_ascii hascii, unquoteRun_ascii hascii (percentDecode_quoted _),
    PyStr.scalars?_eq_some hcs]

/-! Queries and URLs made of quoted texts. -/

theorem cut_append {sep : PyChar} {s : PyStr} (h : sep ∉ s) (t : PyStr) :
    cut sep (s ++ sep :: t) = (s, t) := by
  have hall : ∀ c ∈ s, decide (c ≠ sep) = true := by
    intro c hc
    simp only [decide_eq_true_eq]
    rintro rfl
    exact h hc
  unfold cut
  rw [List.takeWhile_append_of_pos hall, List.dropWhile_append_of_pos hall]
  simp

theorem cut_of_notMem {sep : PyChar} {s : PyStr} (h : sep ∉ s) : cut sep s = (s, []) := by
  have hall : ∀ c ∈ s, decide (c ≠ sep) = true := by
    intro c hc
    simp only [decide_eq_true_eq]
    rintro rfl
    exact h hc
  unfold cut
  rw [List.takeWhile_eq_self_iff.mpr hall, List.dropWhile_eq_nil_iff.mpr hall]
  rfl

def IsPlainName (s : PyStr) : Prop := s.all (fun c => isUnreserved c.code) = true

instance (s : PyStr) : Decidable (IsPlainName s) := inferInstanceAs (Decidable (_ = true))

theorem notMem_of_all {p : PyChar → Bool} {s : PyStr} {c : PyChar} (h : s.all p = true)
    (hc : p c = false) : c ∉ s := by
  intro hmem
  rw [List.all_eq_true] at h
  simp [h c hmem] at hc

theorem unquotePlus_plain {s : PyStr} (h : IsPlainName s) : unquotePlus s = s := by
  have hplus : s.map plusToSpace = s := by
    have hid : ∀ c ∈ s, plusToSpace c = id c := by
      intro c hc
      rw [plusToSpace, if_neg, id]
      rintro rfl
      exact notMem_of_all h (by decide) hc
    rw [List.map_congr_left hid, List.map_id]
  have hpercent : PyChar.scalar '%' ∉ s := notMem_of_all h (by decide)
  rw [unquotePlus, hplus, unquote, if_neg hpercent]

theorem quotePlus_ne_nil {s q : PyStr} (h : quotePlus s = some q) (hs : s ≠ []) : q ≠ [] := by
  rintro rfl
  exact hs (unquotePlus_quotePlus h).symm

theorem all_isQuoteChar {s q : PyStr} (h : quotePlus s = some q) : q.all isQuoteChar = true := by
  obtain ⟨cs, -, rfl⟩ := Option.map_eq_some_iff.mp h
  exact all_isQuoteChar_quoted _

theorem field?_quoted {name s q : PyStr} (hname : IsPlainName name) (h : quotePlus s = some q)
    (hs : s ≠ []) : field? (name ++ .scalar '=' :: q) = some (name, s) := by
  have heq : PyChar.scalar '=' ∉ name := notMem_of_all hname (by decide)
  simp only [field?, cut_append heq, if_neg (quotePlus_ne_nil h hs), unquotePlus_plain hname,
    unquotePlus_quotePlus h]

def isQueryChar (c : PyChar) : Bool := isQuoteChar c || c = .scalar '=' || c = .scalar '&'

theorem all_intercalate {p : PyChar → Bool} {sep : PyChar} (hsep : p sep = true)
    {parts : List PyStr} (h : ∀ part ∈ parts, part.all p = true) :
    ([sep].intercalate parts).all p = true := by
  induction parts with
  | nil => rfl
  | cons part parts ih =>
    have hpart := h part List.mem_cons_self
    have hrest := ih fun x hx => h x (List.mem_cons_of_mem _ hx)
    cases parts with
    | nil => simpa using hpart
    | cons next parts =>
      rw [List.intercalate_cons_cons, List.all_append, List.all_append, hpart, hrest]
      simp [hsep]

/-- The parts that `urlencode` joins. -/
theorem parts_read {fields : List (PyStr × PyStr)}
    (hfields : ∀ f ∈ fields, IsPlainName f.1 ∧ f.2 ≠ []) {parts : List PyStr}
    (h : (fields.mapM fun f => (quotePlus f.2).map fun v => f.1 ++ .scalar '=' :: v) = some parts) :
    parts.filterMap field? = fields ∧ parts.length = fields.length ∧
      ∀ part ∈ parts, PyChar.scalar '&' ∉ part ∧ part.all isQueryChar = true := by
  induction fields generalizing parts with
  | nil =>
    cases h
    simp
  | cons f fields ih =>
    rw [List.mapM_cons] at h
    simp only [Option.bind_eq_bind, Option.bind_eq_some_iff, Option.map_eq_some_iff] at h
    obtain ⟨part, ⟨v, hv, rfl⟩, rest, hrest, h⟩ := h
    cases h
    obtain ⟨hread, hlength, hchars⟩ := ih (fun x hx => hfields x (List.mem_cons_of_mem _ hx)) hrest
    obtain ⟨hname, hvalue⟩ := hfields f List.mem_cons_self
    have hall := all_isQuoteChar hv
    refine ⟨?_, by simp [hlength], ?_⟩
    · rw [List.filterMap_cons_some (field?_quoted hname hv hvalue), hread]
    · intro part hpart
      rcases List.mem_cons.mp hpart with rfl | hpart
      · constructor
        · rw [List.mem_append, List.mem_cons, not_or, not_or]
          exact ⟨notMem_of_all hname (by decide), by decide, notMem_of_all hall (by decide)⟩
        · rw [List.all_append, List.all_cons, Bool.and_eq_true, Bool.and_eq_true]
          refine ⟨?_, by decide, ?_⟩
          · rw [List.all_eq_true]
            intro c hc
            simp [isQueryChar, isQuoteChar, List.all_eq_true.mp hname c hc]
          · rw [List.all_eq_true]
            intro c hc
            simp [isQueryChar, List.all_eq_true.mp hall c hc]
      · exact hchars part hpart

/-- `parse_qsl` reads the fields that `urlencode` writes. -/
theorem parseQsl_urlencode {fields : List (PyStr × PyStr)} (hne : fields ≠ [])
    (hfields : ∀ f ∈ fields, IsPlainName f.1 ∧ f.2 ≠ []) {q : PyStr}
    (h : urlencode fields = some q) : parseQsl q = fields ∧ q.all isQueryChar = true := by
  obtain ⟨parts, hparts, rfl⟩ := Option.map_eq_some_iff.mp h
  obtain ⟨hread, hlength, hchars⟩ := parts_read hfields hparts
  have hparts_ne : parts ≠ [] := by
    rintro rfl
    exact hne (List.length_eq_zero_iff.mp hlength.symm)
  constructor
  · rw [parseQsl, List.splitOn_intercalate _ (fun part hpart => (hchars part hpart).1) hparts_ne, hread]
  · exact all_intercalate (by decide) fun part hpart => (hchars part hpart).2

theorem quotePlus_isSome {s : PyStr} : (∃ q, quotePlus s = some q) ↔ PyStr.Encodable s := by
  rw [PyStr.encodable_iff]
  unfold quotePlus PyStr.encodeUtf8
  cases PyStr.scalars? s <;> simp

theorem urlencode_isSome {fields : List (PyStr × PyStr)} :
    (∃ q, urlencode fields = some q) ↔ ∀ f ∈ fields, PyStr.Encodable f.2 := by
  unfold urlencode
  simp only [Option.map_eq_some_iff, exists_comm, exists_eq_right']
  induction fields with
  | nil => simp
  | cons f fields ih =>
    rw [List.forall_mem_cons, ← ih, ← quotePlus_isSome]
    simp only [List.mapM_cons, Option.bind_eq_bind, Option.bind_eq_some_iff, Option.map_eq_some_iff]
    constructor
    · rintro ⟨parts, part, ⟨v, hv, -⟩, rest, hrest, -⟩
      exact ⟨⟨v, hv⟩, rest, hrest⟩
    · rintro ⟨⟨v, hv⟩, rest, hrest⟩
      exact ⟨_, _, ⟨v, hv, rfl⟩, rest, hrest, rfl⟩

theorem isSchemeChar_facts {c : PyChar} (h : isSchemeChar c = true) :
    0x20 < c.code ∧ c ≠ .scalar ':' ∧ endsNetloc c = false ∧
      (Base64.isAscii c && c ≠ .scalar '[' && c ≠ .scalar ']') = true := by
  have hne : ∀ d, isSchemeChar d = false → c ≠ d := by
    rintro d hd rfl
    rw [h] at hd
    cases hd
  have hrange : 0x20 < c.code ∧ c.code < 0x80 := by
    unfold isSchemeChar isAsciiAlpha at h
    simp only [Bool.or_eq_true, Bool.and_eq_true, decide_eq_true_eq] at h
    rcases h with ((((h | h) | h) | rfl) | rfl) | rfl
    · omega
    · omega
    · omega
    · decide
    · decide
    · decide
  refine ⟨hrange.1, hne _ (by decide), ?_, ?_⟩
  · simp [endsNetloc, hne _ (show isSchemeChar (.scalar '/') = false by decide),
      hne _ (show isSchemeChar (.scalar '?') = false by decide),
      hne _ (show isSchemeChar (.scalar '#') = false by decide)]
  · simp [Base64.isAscii, hrange.2, hne _ (show isSchemeChar (.scalar '[') = false by decide),
      hne _ (show isSchemeChar (.scalar ']') = false by decide)]

theorem isQueryChar_code {c : PyChar} (h : isQueryChar c = true) : 0x20 < c.code := by
  unfold isQueryChar isQuoteChar isUnreserved at h
  simp only [Bool.or_eq_true, Bool.and_eq_true, decide_eq_true_eq] at h
  rcases h with (((h | rfl) | rfl) | rfl) | rfl
  · omega
  · decide
  · decide
  · decide
  · decide

theorem urlsplit_query {accepts : PyStr → Bool} {scheme netloc q : PyStr}
    (hscheme : scheme.all isSchemeChar = true) (halpha : scheme.head?.any isAsciiAlpha = true)
    (hlower : scheme.map lowerAscii = scheme) (hnetloc : netloc.all isSchemeChar = true)
    (hq : q.all isQueryChar = true) :
    urlsplit accepts (scheme ++ .scalar ':' :: .scalar '/' :: .scalar '/' ::
        (netloc ++ .scalar '?' :: q)) =
      some ⟨scheme, netloc, [], q, []⟩ := by
  have hcode : ∀ c ∈ scheme ++ .scalar ':' :: .scalar '/' :: .scalar '/' ::
      (netloc ++ .scalar '?' :: q), 0x20 < c.code := by
    simp only [List.mem_append, List.mem_cons]
    rintro c (hc | rfl | rfl | rfl | hc | rfl | hc)
    · exact (isSchemeChar_facts (List.all_eq_true.mp hscheme c hc)).1
    · decide
    · decide
    · decide
    · exact (isSchemeChar_facts (List.all_eq_true.mp hnetloc c hc)).1
    · decide
    · exact isQueryChar_code (List.all_eq_true.mp hq c hc)
  have hcolon : PyChar.scalar ':' ∉ scheme := notMem_of_all hscheme (by decide)
  have hhash : PyChar.scalar '#' ∉ PyChar.scalar '?' :: q := by
    rw [List.mem_cons, not_or]
    exact ⟨by decide, notMem_of_all hq (by decide)⟩
  have hhead : (scheme ++ .scalar ':' :: .scalar '/' :: .scalar '/' ::
      (netloc ++ .scalar '?' :: q)).takeWhile (· ≠ .scalar ':') = scheme :=
    congrArg Prod.fst (cut_append hcolon _)
  have hsplit : splitScheme (scheme ++ .scalar ':' :: .scalar '/' :: .scalar '/' ::
      (netloc ++ .scalar '?' :: q)) =
        (scheme, .scalar '/' :: .scalar '/' :: (netloc ++ .scalar '?' :: q)) := by
    simp only [splitScheme, hhead]
    rw [if_pos ⟨by simp, halpha, hscheme⟩, hlower]
    simp
  have hends : ∀ c ∈ netloc, (!endsNetloc c) = true := by
    intro c hc
    rw [(isSchemeChar_facts (List.all_eq_true.mp hnetloc c hc)).2.2.1]
    rfl
  have hnet : splitNetloc (.scalar '/' :: .scalar '/' :: (netloc ++ .scalar '?' :: q)) =
      (netloc, .scalar '?' :: q) := by
    rw [splitNetloc, List.takeWhile_append_of_pos hends, List.dropWhile_append_of_pos hends]
    simp [endsNetloc]
  have hplain : isPlainNetloc netloc = true := by
    rw [isPlainNetloc, List.all_eq_true]
    intro c hc
    exact (isSchemeChar_facts (List.all_eq_true.mp hnetloc c hc)).2.2.2
  have hquery : cut (.scalar '?') (.scalar '?' :: q) = ([], q) := @cut_append _ [] (by simp) q
  have hstart : ∀ url : PyStr, (∀ c ∈ url, 0x20 < c.code) →
      (url.dropWhile isC0OrSpace).filter (fun c => !isUnsafe c) = url := by
    intro url hurl
    have hdrop : url.dropWhile isC0OrSpace = url := by
      cases url with
      | nil => rfl
      | cons c url =>
        have hc := hurl c List.mem_cons_self
        exact List.dropWhile_cons_of_neg (by simpa [isC0OrSpace] using hc)
    rw [hdrop, List.filter_eq_self]
    intro c hc
    have hcode := hurl c hc
    simp only [isUnsafe, Bool.not_eq_true', Bool.or_eq_false_iff, decide_eq_false_iff_not]
    refine ⟨⟨?_, ?_⟩, ?_⟩ <;>
    · rintro rfl
      contradiction
  simp only [urlsplit, hstart _ hcode, hsplit, hnet, cut_of_notMem hhash, hquery, hplain,
    Bool.true_or, if_true]

end QronosAgent.Lib.Url

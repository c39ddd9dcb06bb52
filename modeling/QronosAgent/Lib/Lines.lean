import QronosAgent.Lib.PyText

/-! `str.splitlines`, and texts that are framed one line each. -/
namespace QronosAgent.Lib

/-- A boundary of `str.splitlines`. -/
def PyChar.isLineBreak (c : PyChar) : Bool :=
  let n := c.code
  (0xA ≤ n && n ≤ 0xD) || (0x1C ≤ n && n ≤ 0x1E) || n == 0x85 || n == 0x2028 || n == 0x2029

/-- The lines of a text whose first line has begun with `line`. -/
def splitlinesFrom : PyStr → PyStr → List PyStr
  | line, [] => if line = [] then [] else [line]
  | line, [c] => if c.isLineBreak then [line] else [line ++ [c]]
  | line, c :: d :: s =>
    if c.isLineBreak then
      if c = cr ∧ d = lf then line :: splitlinesFrom [] s
      else line :: splitlinesFrom [] (d :: s)
    else splitlinesFrom (line ++ [c]) (d :: s)

/-- `s.splitlines()`. -/
def PyStr.splitlines (s : PyStr) : List PyStr := splitlinesFrom [] s

def Unbroken (t : PyStr) : Prop := ∀ c ∈ t, c.isLineBreak = false

variable {t u s : PyStr} {a b c : ByteArray}

theorem Unbroken.of_isPrefix (hu : Unbroken u) (h : t <+: u) : Unbroken t :=
  fun c hc => hu c (h.subset hc)

theorem Unbroken.append (ht : Unbroken t) (hu : Unbroken u) :
    Unbroken (t ++ u) := by
  intro c hc
  rcases List.mem_append.mp hc with hc | hc
  · exact ht c hc
  · exact hu c hc

theorem splitlinesFrom_cons {c : PyChar} (hc : c.isLineBreak = false) (line s : PyStr) :
    splitlinesFrom line (c :: s) = splitlinesFrom (line ++ [c]) s := by
  cases s <;> simp [splitlinesFrom, hc]

theorem splitlinesFrom_lf (line s : PyStr) :
    splitlinesFrom line (lf :: s) = line :: splitlinesFrom [] s := by
  have hbreak : lf.isLineBreak = true := by decide
  have hcr : lf ≠ cr := by decide
  cases s <;> simp [splitlinesFrom, hbreak, hcr]

theorem splitlinesFrom_unbroken (ht : Unbroken t) (line s : PyStr) :
    splitlinesFrom line (t ++ s) = splitlinesFrom (line ++ t) s := by
  induction t generalizing line with
  | nil => simp
  | cons c t ih =>
    have hc := ht c (by simp)
    rw [List.cons_append, splitlinesFrom_cons hc, ih (fun d hd => ht d (by simp [hd])),
      List.append_assoc, List.singleton_append]

/-- Every text with a line feed behind it. -/
def framed (ts : List PyStr) : PyStr := ts.flatMap fun t => t ++ [lf]

@[simp] theorem framed_nil : framed [] = [] := rfl

theorem framed_append (ts us : List PyStr) : framed (ts ++ us) = framed ts ++ framed us :=
  List.flatMap_append

theorem framed_cons (t : PyStr) (ts : List PyStr) : framed (t :: ts) = t ++ lf :: framed ts := by
  simp [framed]

/-- Framed texts come apart again, the unfinished line behind them included. -/
theorem splitlines_framed {ts : List PyStr} {tail : PyStr} (hts : ∀ t ∈ ts, Unbroken t)
    (htail : Unbroken tail) :
    PyStr.splitlines (framed ts ++ tail) = ts ++ if tail = [] then [] else [tail] := by
  rw [PyStr.splitlines]
  induction ts with
  | nil =>
    have := splitlinesFrom_unbroken htail [] []
    simp only [List.append_nil, List.nil_append] at this
    simp [this, splitlinesFrom]
  | cons t ts ih =>
    rw [framed_cons, List.append_assoc, List.cons_append,
      splitlinesFrom_unbroken (hts t (by simp)), splitlinesFrom_lf,
      ih fun u hu => hts u (by simp [hu])]
    simp

theorem universalNewlines_eq (h : cr ∉ s) : universalNewlines s = s := by
  have := universalNewlines_translate false h
  simpa [translateNewlines, List.flatMap_singleton'] using this

theorem PyStr.scalars?_append (s t : PyStr) :
    scalars? (s ++ t) = (scalars? s).bind fun a => (scalars? t).map (a ++ ·) := by
  induction s with
  | nil => simp [scalars?]
  | cons c s ih =>
    cases c with
    | scalar a =>
      rw [List.cons_append, scalars?, ih, scalars?]
      cases scalars? s <;> cases scalars? t <;> rfl
    | surrogate n => rfl

theorem PyStr.encodeUtf8_append (hs : encodeUtf8 s = some a) (ht : encodeUtf8 t = some b) :
    encodeUtf8 (s ++ t) = some (a ++ b) := by
  obtain ⟨cs, hcs, rfl⟩ := Option.map_eq_some_iff.mp hs
  obtain ⟨ds, hds, rfl⟩ := Option.map_eq_some_iff.mp ht
  rw [encodeUtf8, scalars?_append, hcs, hds]
  simp

theorem PyStr.scalars?_map (cs : List Char) : scalars? (cs.map .scalar) = some cs := by
  induction cs with
  | nil => rfl
  | cons c cs ih => simp [scalars?, ih]

def WholeChars (b : ByteArray) : Prop := ∃ t, PyStr.encodeUtf8 t = some b

theorem wholeChars_iff : WholeChars b ↔ b.IsValidUTF8 := by
  constructor
  · rintro ⟨t, ht⟩
    obtain ⟨cs, _, rfl⟩ := Option.map_eq_some_iff.mp ht
    exact (String.ofList cs).isValidUTF8
  · rintro ⟨cs, rfl⟩
    refine ⟨cs.map .scalar, ?_⟩
    rw [PyStr.encodeUtf8, PyStr.scalars?_map, Option.map_some, String.toByteArray_ofList]

theorem wholeChars_of_decode (h : PyStr.decodeUtf8 b = some t) :
    WholeChars b := by
  rw [wholeChars_iff, ← ByteArray.isSome_utf8Decode?_iff]
  rw [PyStr.decodeUtf8, Option.map_eq_some_iff] at h
  obtain ⟨cs, hcs, -⟩ := h
  rw [hcs]
  rfl

theorem WholeChars.middle (ha : WholeChars a) (hb : WholeChars b) (h : WholeChars (a ++ c ++ b)) :
    WholeChars c := by
  rw [wholeChars_iff] at ha hb h ⊢
  let s : String := ⟨a ++ c ++ b, h⟩
  have hs : s.toByteArray = a ++ c ++ b := rfl
  have hsize : s.utf8ByteSize = a.size + c.size + b.size := by
    rw [← String.size_toByteArray, hs, ByteArray.size_append, ByteArray.size_append]
  have hfirst : (⟨a.size⟩ : String.Pos.Raw).IsValid s := by
    apply String.Pos.Raw.isValid_iff_isValidUTF8_extract_zero.mpr
    refine ⟨by simp only [String.Pos.Raw.le_iff, String.byteIdx_rawEndPos]; omega, ?_⟩
    rw [hs, ByteArray.append_assoc, ByteArray.extract_append_eq_left rfl]
    exact ha
  have hlast : (⟨a.size + c.size⟩ : String.Pos.Raw).IsValid s := by
    apply String.Pos.Raw.isValid_iff_isValidUTF8_extract_utf8ByteSize.mpr
    refine ⟨by simp only [String.Pos.Raw.le_iff, String.byteIdx_rawEndPos]; omega, ?_⟩
    rw [hs, ByteArray.extract_append_eq_right (by simp) (by simp [hsize])]
    exact hb
  have hmid := (String.Pos.Raw.isValidUTF8_extract_iff (s := s) ⟨a.size⟩ ⟨a.size + c.size⟩
    (by simp only [String.Pos.Raw.le_iff]; omega)
    (by simp only [String.Pos.Raw.le_iff, String.byteIdx_rawEndPos]; omega)).mpr
      (.inr ⟨hfirst, hlast⟩)
  rw [hs] at hmid
  have hpart : (a ++ c ++ b).extract a.size (a.size + c.size) = c := by
    have := ByteArray.extract_append_size_add (a := a) (b := c ++ b) (i := 0) (j := c.size)
    rw [ByteArray.append_assoc]
    rw [Nat.add_zero] at this
    rw [this, ByteArray.extract_append_eq_left rfl]
  rwa [hpart] at hmid

/-- The first characters of a text are those that its first bytes encode. -/
theorem prefix_of_encode (ht : PyStr.encodeUtf8 t = some b)
    (hs : PyStr.encodeUtf8 s = some (b ++ c)) : t <+: s := by
  obtain ⟨cs, hcs, rfl⟩ := Option.map_eq_some_iff.mp ht
  obtain ⟨ds, hds, hb⟩ := Option.map_eq_some_iff.mp hs
  rw [PyStr.scalars?_eq_some hcs, PyStr.scalars?_eq_some hds]
  apply List.IsPrefix.map
  apply List.isPrefix_of_utf8Encode_append_eq_utf8Encode c
  rw [← String.toByteArray_ofList, ← String.toByteArray_ofList, hb]

end QronosAgent.Lib

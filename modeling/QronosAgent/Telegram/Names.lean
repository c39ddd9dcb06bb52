import QronosAgent.Lib.PathNames

/-! The names of `core/telegram_workflow.py`: which file is the one of an attachment, and which size
the shown one allows. -/
namespace QronosAgent.Telegram
open Lib

def isDigit (c : PyChar) : Bool := 48 ≤ c.code && c.code ≤ 57

/-- ` (n)` of up to four digits -/
def isNumber : PyStr → Bool
  | c :: d :: rest =>
    c = .scalar ' ' && d = .scalar '(' && rest.getLast? = some (.scalar ')') &&
      1 ≤ rest.dropLast.length && rest.dropLast.length ≤ 4 && rest.dropLast.all isDigit
  | _ => false

/-- What `(?: \((?P<n>[0-9]{1,4})\))?$` matches; `$` allows one more line feed. -/
def endsName (rest : PyStr) : Bool :=
  rest = [] || rest = [lf] || isNumber rest ||
    rest.getLast? = some lf && isNumber rest.dropLast

/-- The stem that `_DUPLICATE_SUFFIX` finds: the shortest one. -/
def duplicateStem : PyStr → Option PyStr
  | [] => some []
  | c :: cs =>
    if endsName (c :: cs) then some []
    else if c = lf then none
    else (duplicateStem cs).map (c :: ·)

/-- What the code takes from Unicode, from `core/persian_text.py` and from floating point. -/
structure Texts where
  normalise : PyStr → PyStr
  casefold : PyStr → PyStr
  /-- The bytes for a number with so many decimals, of a unit; `none` raises `OverflowError`. -/
  bounds : PyStr → ℕ → ℕ → Option (ℕ × ℕ)

section
variable (texts : Texts)

def nameKey (value : PyStr) : PyStr := texts.casefold (texts.normalise value)

/-- `_matches_attachment` -/
def matchesAttachment (candidate expected : PyStr) : Bool :=
  texts.casefold (splitext candidate).2 = texts.casefold (splitext expected).2 &&
    (duplicateStem (splitext candidate).1).any fun stem =>
      texts.casefold stem = texts.casefold (splitext expected).1

/-- `_UNITS` -/
def units : List (PyStr × ℕ) :=
  [(py "b", 1), (py "byte", 1), (py "bytes", 1), (py "بایت", 1), (py "kb", 1024),
    (py "کیلوبایت", 1024), (py "mb", 1024 ^ 2), (py "مگابایت", 1024 ^ 2), (py "gb", 1024 ^ 3),
    (py "گیگابایت", 1024 ^ 3)]

/-- What `_SIZE` finds: the number with its decimals, and the unit. -/
def sizeParts (text : PyStr) : Option (PyStr × ℕ × PyStr) :=
  let text := PyStr.strip text
  let whole := text.takeWhile isDigit
  let rest := text.dropWhile isDigit
  if whole = [] then none
  else match rest with
    | c :: more =>
      if (c = .scalar '.' || c = .scalar ',') && !(more.takeWhile isDigit).isEmpty then
        let decimals := more.takeWhile isDigit
        some (whole ++ .scalar '.' :: decimals, decimals.length,
          PyStr.strip (more.dropWhile isDigit))
      else some (whole, 0, PyStr.strip rest)
    | [] => none

/-- `approximate_size`; `none` raises. -/
def approximateSize (text : PyStr) : Option (Option (ℕ × ℕ)) :=
  match sizeParts (texts.normalise text) with
  | none => some none
  | some (number, decimals, unit) =>
    match units.lookup (texts.casefold unit) with
    | none => some none
    | some bytes => (texts.bounds number decimals bytes).map some

/-- `plausible` -/
def fits (bounds : Option (ℕ × ℕ)) (size : ℕ) : Bool :=
  bounds.all fun b => b.1 ≤ size && size ≤ b.2

/-- `_RESERVED` -/
def reserved : List PyStr :=
  [py "con", py "prn", py "aux", py "nul"] ++
    (List.range 9).map (fun i => py "com" ++ [.scalar (Nat.digitChar (i + 1))]) ++
      (List.range 9).map (fun i => py "lpt" ++ [.scalar (Nat.digitChar (i + 1))])

/-- A character of `_FORBIDDEN_NAME` -/
def forbidden (c : PyChar) : Bool := c.code < 32 || (py "<>:\"/\\|?*").contains c

/-- `_safe_file_name` -/
def safeFileName (name : PyStr) : Bool :=
  name ≠ [] && name.length ≤ 255 && name ≠ py "." && name ≠ py ".." &&
    name = PyStr.strip name && name.getLast? ≠ some (.scalar '.') && !name.any forbidden &&
      !reserved.contains (texts.casefold (splitext name).1)

end

/-! Telegram's numbered form of a name. -/

def numbered (name number : PyStr) : PyStr := (splitext name).1 ++ number ++ (splitext name).2

def LooksNumbered (name : PyStr) : Prop := ∃ number, number <:+ (splitext name).1 ∧ isNumber number

theorem isNumber_iff {s : PyStr} : isNumber s = true ↔ ∃ ds : PyStr,
    s = .scalar ' ' :: .scalar '(' :: ds ++ [.scalar ')'] ∧ 1 ≤ ds.length ∧ ds.length ≤ 4 ∧
      ∀ d ∈ ds, isDigit d = true := by
  unfold isNumber
  split
  · rename_i c d rest
    simp only [Bool.and_eq_true, decide_eq_true_eq, List.all_eq_true]
    constructor
    · rintro ⟨⟨⟨⟨⟨rfl, rfl⟩, hlast⟩, hpos⟩, hlength⟩, hdigits⟩
      exact ⟨rest.dropLast, by simp [List.dropLast_append_getLast? _ hlast], hpos, hlength, hdigits⟩
    · rintro ⟨ds, heq, hpos, hlength, hdigits⟩
      simp only [List.cons_append, List.cons.injEq] at heq
      obtain ⟨rfl, rfl, rfl⟩ := heq
      simp only [List.getLast?_append, List.getLast?_singleton, Option.some_or,
        List.dropLast_concat]
      exact ⟨⟨⟨⟨⟨trivial, trivial⟩, trivial⟩, hpos⟩, hlength⟩, hdigits⟩
  · rename_i hnot
    constructor
    · intro h
      cases h
    · rintro ⟨ds, rfl, -⟩
      exact absurd rfl (hnot _ _ _)

/-- A number is neither in the extension nor taken for one. -/
theorem splitext_numbered {name number : PyStr} (h : isNumber number = true) :
    splitext (numbered name number) = ((splitext name).1 ++ number, (splitext name).2) := by
  obtain ⟨ds, rfl, -, -, hdigits⟩ := isNumber_iff.mp h
  have hplain : ∀ c ∈ (PyChar.scalar ' ' :: PyChar.scalar '(' :: ds ++ [PyChar.scalar ')']).reverse,
      isPlain c = true := by
    intro c hc
    simp only [List.mem_reverse, List.mem_append, List.mem_cons, List.not_mem_nil,
      or_false] at hc
    rcases hc with (rfl | rfl | hc) | rfl
    · decide
    · decide
    · have hdigit := hdigits c hc
      unfold isPlain isDot isSep
      have hne : ∀ d : Char, (d.toNat < 48 ∨ 57 < d.toNat) → c ≠ .scalar d := by
        rintro d hd rfl
        have hcode := of_decide_eq_true ((Bool.and_eq_true _ _).mp hdigit).1
        have hcode' := of_decide_eq_true ((Bool.and_eq_true _ _).mp hdigit).2
        simp only [PyChar.code] at hcode hcode'
        omega
      simp [hne '.' (by decide), hne '\\' (by decide), hne '/' (by decide)]
    · decide
  generalize hnumber : PyChar.scalar ' ' :: PyChar.scalar '(' :: ds ++ [PyChar.scalar ')'] = number at *
  unfold numbered
  have hspace : ∃ c ∈ number.reverse, isDot c = false := by
    refine ⟨.scalar ' ', ?_, by decide⟩
    rw [← hnumber]
    simp
  cases hdrop : name.reverse.dropWhile isPlain with
  | nil =>
    have hname : splitext name = (name, []) := by
      unfold splitext
      rw [hdrop]
    rw [hname]
    simp only [List.append_nil]
    unfold splitext
    rw [List.reverse_append, List.dropWhile_append_of_pos hplain, hdrop]
  | cons c root =>
    by_cases hdot : (isDot c && (root.takeWhile fun d => !isSep d).any (fun d => !isDot d)) = true
    · have hname : splitext name =
          (root.reverse, c :: (name.reverse.takeWhile isPlain).reverse) := by
        unfold splitext
        rw [hdrop]
        simp only [hdot, if_true]
      rw [hname]
      simp only
      have hc : isPlain c = false := by
        simp only [Bool.and_eq_true] at hdot
        unfold isPlain
        rw [hdot.1]
        rfl
      have htail : ∀ d ∈ name.reverse.takeWhile isPlain, isPlain d = true := fun d hd =>
        List.mem_takeWhile_imp hd
      have hnosep : ∀ d ∈ number.reverse, (!isSep d) = true := by
        intro d hd
        have hd' := hplain d hd
        simp only [isPlain, Bool.and_eq_true] at hd'
        exact hd'.2
      unfold splitext
      simp only [List.reverse_append, List.reverse_cons, List.reverse_reverse, List.append_assoc,
        List.singleton_append]
      rw [List.dropWhile_append_of_pos htail, List.takeWhile_append_of_pos htail]
      have hdropped : (c :: number.reverse ++ root).dropWhile isPlain = c :: number.reverse ++ root :=
        List.dropWhile_cons_of_neg (by simp [hc])
      have htaken : (c :: number.reverse ++ root).takeWhile isPlain = [] :=
        List.takeWhile_cons_of_neg (by simp [hc])
      rw [hdropped, htaken]
      simp only [List.cons_append, List.append_nil]
      rw [List.takeWhile_append_of_pos hnosep, List.any_append]
      have hany : (number.reverse.any fun d => !isDot d) = true := by
        obtain ⟨d, hd, hfalse⟩ := hspace
        exact List.any_eq_true.mpr ⟨d, hd, by rw [hfalse]; rfl⟩
      simp only [Bool.and_eq_true] at hdot
      simp [hany, hdot.1]
    · have hname : splitext name = (name, []) := by
        unfold splitext
        rw [hdrop]
        exact if_neg hdot
      rw [hname]
      simp only [List.append_nil]
      unfold splitext
      rw [List.reverse_append, List.dropWhile_append_of_pos hplain, hdrop]
      exact if_neg hdot

theorem isNumber_append {cs number : PyStr} {c : PyChar} (h : isNumber number = true) :
    isNumber (c :: cs ++ number) = false := by
  obtain ⟨ds, rfl, -⟩ := isNumber_iff.mp h
  rw [Bool.eq_false_iff]
  intro hlong
  obtain ⟨es, heq, -, -, hdigits⟩ := isNumber_iff.mp hlong
  simp only [List.cons_append, List.cons.injEq] at heq
  obtain ⟨-, heq⟩ := heq
  -- the space of the number would be the bracket, a digit or the last bracket of the longer one
  have hmem : PyChar.scalar ' ' ∈ PyChar.scalar '(' :: (es ++ [PyChar.scalar ')']) := by
    rw [← heq]
    simp
  simp only [List.mem_cons, List.mem_append, List.not_mem_nil, or_false] at hmem
  rcases hmem with h | h | h
  · contradiction
  · exact absurd (hdigits _ h) (by decide)
  · contradiction

theorem endsName_append {cs number : PyStr} {c : PyChar} (h : isNumber number = true) :
    endsName (c :: cs ++ number) = false := by
  obtain ⟨ds, hnumber, -⟩ := isNumber_iff.mp h
  have hlast : (c :: cs ++ number).getLast? = some (.scalar ')') := by
    rw [hnumber, ← List.append_assoc, List.getLast?_append, List.getLast?_singleton,
      Option.some_or]
  have hne : c :: cs ++ number ≠ [lf] := by
    intro heq
    rw [heq] at hlast
    cases hlast
  have hnil : c :: cs ++ number ≠ [] := List.cons_ne_nil _ _
  have hlf : PyChar.scalar ')' ≠ lf := by decide
  unfold endsName
  rw [isNumber_append h, hlast, decide_eq_false hnil, decide_eq_false hne]
  simp [hlf]

theorem duplicateStem_number {stem number : PyStr} (hlf : lf ∉ stem)
    (h : isNumber number = true) : duplicateStem (stem ++ number) = some stem := by
  induction stem with
  | nil =>
    obtain ⟨ds, rfl, -⟩ := isNumber_iff.mp h
    rw [List.nil_append, List.cons_append, duplicateStem, ← List.cons_append, endsName, h]
    simp
  | cons c cs ih =>
    rw [List.mem_cons, not_or] at hlf
    rw [List.cons_append, duplicateStem, ← List.cons_append, endsName_append h, ih hlf.2]
    simp [Ne.symm hlf.1]

theorem duplicateStem_self {stem : PyStr} (hlf : lf ∉ stem)
    (h : ∀ number, number <:+ stem → isNumber number = false) : duplicateStem stem = some stem := by
  induction stem with
  | nil => rfl
  | cons c cs ih =>
    rw [List.mem_cons, not_or] at hlf
    have hends : endsName (c :: cs) = false := by
      have hlast : (c :: cs).getLast? ≠ some lf := by
        intro hlast
        have hmem := List.mem_of_getLast? hlast
        rw [List.mem_cons] at hmem
        exact hmem.elim hlf.1 hlf.2
      have hone : c :: cs ≠ [lf] := by
        intro heq
        rw [heq] at hlast
        exact hlast rfl
      unfold endsName
      rw [h _ (List.suffix_refl _)]
      simp [hlast, hone]
    have hrest : duplicateStem cs = some cs := by
      apply ih hlf.2
      intro number hsuffix
      exact h number (hsuffix.trans (List.suffix_cons c cs))
    rw [duplicateStem, hends, hrest]
    simp [Ne.symm hlf.1]

section
variable {texts : Texts}

theorem lf_notMem_stem {name : PyStr} (h : safeFileName texts name = true) :
    lf ∉ (splitext name).1 := by
  intro hmem
  have hname : lf ∈ name := by
    rw [← splitext_join name]
    exact List.mem_append_left _ hmem
  unfold safeFileName at h
  simp only [Bool.and_eq_true, Bool.not_eq_true', List.any_eq_false] at h
  exact absurd (by decide) (h.1.2 lf hname)

theorem matches_numbered {name number : PyStr} (hsafe : safeFileName texts name = true)
    (h : isNumber number = true) : matchesAttachment texts (numbered name number) name = true := by
  unfold matchesAttachment
  rw [splitext_numbered h, duplicateStem_number (lf_notMem_stem hsafe) h]
  simp

theorem matches_self {name : PyStr} (hsafe : safeFileName texts name = true)
    (h : ¬ LooksNumbered name) : matchesAttachment texts name name = true := by
  have hstem : duplicateStem (splitext name).1 = some (splitext name).1 := by
    apply duplicateStem_self (lf_notMem_stem hsafe)
    intro number hsuffix
    rw [Bool.eq_false_iff]
    intro hnumber
    exact h ⟨number, hsuffix, hnumber⟩
  unfold matchesAttachment
  rw [hstem]
  simp

end
end QronosAgent.Telegram

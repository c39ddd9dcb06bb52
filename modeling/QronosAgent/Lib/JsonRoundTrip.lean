import QronosAgent.Lib.JsonText

/-! `json.loads` reads back what `json.dumps` wrote, and the text holds nothing a text file
could change: no carriage return, no surrogate that the document's strings did not hold. -/
namespace QronosAgent.Lib
namespace Json
variable {F : Type}

theorem natText_digits (n : ℕ) : ∀ c ∈ natText n, isDigit c = true := by
  intro c hc
  obtain ⟨a, ha, rfl⟩ := List.mem_map.mp hc
  exact Nat.isDigit_of_mem_toDigits (by omega) (by omega) ha

theorem natText_ne_nil (n : ℕ) : natText n ≠ [] := by
  simp [natText, Nat.toDigits_ne_nil]

theorem digitsText_natText (n : ℕ) : digitsText (natText n) = Nat.toDigits 10 n := by
  simp [digitsText, natText, List.filterMap_map, Function.comp_def, PyChar.toScalar?]

variable {n : ℕ} {c : PyChar} {r s : PyStr}

theorem toDigits_head (hn : 0 < n) : (Nat.toDigits 10 n).head? ≠ some '0' := by
  induction n using Nat.strong_induction_on with
  | _ n ih =>
    by_cases hlt : n < 10
    · rw [Nat.toDigits_of_lt_base hlt]
      intro h
      have hz : n.digitChar = '0' := by simpa using h
      have h10 : ∀ m < 10, m.digitChar = '0' → m = 0 := by decide
      have := h10 n hlt hz
      omega
    · rw [Nat.toDigits_of_base_le (by omega) (by omega),
        List.head?_append_of_ne_nil _ Nat.toDigits_ne_nil]
      exact ih (n / 10) (by omega) (by omega)

/-- The text after a number does not continue it. -/
def Delimited (s : PyStr) : Prop :=
  ∀ c r, s = c :: r → isDigit c = false ∧ c ∉ [.scalar '.', .scalar 'e', .scalar 'E']

theorem delimited_nil : Delimited [] := fun _ _ h => absurd h (by simp)

theorem delimited_cons (hd : isDigit c = false) (hc : c ∉ [.scalar '.', .scalar 'e', .scalar 'E'])
    : Delimited (c :: r) := by
  intro c' r' h
  cases h
  exact ⟨hd, hc⟩

theorem delimited_comma (s : PyStr) : Delimited (.scalar ',' :: s) :=
  delimited_cons (by decide) (by decide)

theorem Delimited.digit (h : Delimited s) (c : PyChar) (r : PyStr) (hs : s = c :: r) :
    isDigit c = false := (h c r hs).1

theorem Delimited.dot (h : Delimited s) (hs : s = c :: r) : c ≠ .scalar '.' := by
  rintro rfl
  exact (h _ r hs).2 (by simp)

theorem Delimited.exponent (h : Delimited s) {e : Char} (hs : s = .scalar e :: r) :
    ¬(e = 'e' ∨ e = 'E') := by
  rintro (rfl | rfl) <;> exact (h _ r hs).2 (by simp)

theorem span_digits {ds : PyStr} (hd : ∀ c ∈ ds, isDigit c = true)
    (hs : ∀ c r, s = c :: r → isDigit c = false) :
    (ds ++ s).takeWhile isDigit = ds ∧ (ds ++ s).dropWhile isDigit = s := by
  rw [List.takeWhile_append_of_pos hd, List.dropWhile_append_of_pos hd]
  cases s with
  | nil => simp
  | cons c r => simp [hs c r rfl]

theorem scanWhole_natText (n : ℕ) (hs : ∀ c r, s = c :: r → isDigit c = false) :
    scanWhole (natText n ++ s) = (natText n, s) := by
  have hspan := span_digits (natText_digits n) hs
  rcases Nat.eq_zero_or_pos n with rfl | hn
  · rfl
  · obtain ⟨c, cs, hc⟩ := List.exists_cons_of_ne_nil (natText_ne_nil n)
    have hhead : c ≠ .scalar '0' := by
      intro he
      apply toDigits_head hn
      rw [natText] at hc
      cases hd : Nat.toDigits 10 n with
      | nil => exact absurd hd Nat.toDigits_ne_nil
      | cons a as =>
        rw [hd, List.map_cons, List.cons.injEq, he, PyChar.scalar.injEq] at hc
        rw [List.head?_cons, hc.1]
    rw [scanWhole.eq_def]
    split
    · rename_i r heq
      rw [hc, List.cons_append, List.cons.injEq] at heq
      exact absurd heq.1 hhead
    · exact Prod.ext hspan.1 hspan.2

theorem scanSign_signText (neg : Bool) (n : ℕ) (s : PyStr) :
    scanSign (signText neg ++ (natText n ++ s)) = (neg, natText n ++ s) := by
  cases neg with
  | true => rfl
  | false =>
    obtain ⟨c, cs, hc⟩ := List.exists_cons_of_ne_nil (natText_ne_nil n)
    have hd := natText_digits n c (by simp [hc])
    rw [hc, List.cons_append, signText, scanSign.eq_def]
    simp only [Bool.false_eq_true, if_false, List.nil_append]
    split
    · rename_i r heq
      rw [(List.cons.inj heq).1] at hd
      contradiction
    · rfl

theorem digitChar_digit (d : Fin 10) : isDigit (digitChar d) = true := by
  revert d
  decide

theorem map_digitChar_digits (ds : List (Fin 10)) :
    ∀ c ∈ ds.map digitChar, isDigit c = true := by
  intro c hc
  obtain ⟨d, _, rfl⟩ := List.mem_map.mp hc
  exact digitChar_digit d

theorem scanFraction_text (t : DecimalText)
    (hs : ∀ c r, s = c :: r → isDigit c = false ∧ c ≠ .scalar '.') :
    scanFraction (t.fractionText ++ s) = (t.fractionText, s) := by
  rw [DecimalText.fractionText]
  cases hf : t.fraction with
  | nil =>
    simp only [List.nil_append]
    rw [scanFraction.eq_def]
    split
    · rename_i r
      exact absurd rfl (hs _ r rfl).2
    · rfl
  | cons d ds =>
    have hspan := span_digits (map_digitChar_digits (d :: ds)) fun c r h => (hs c r h).1
    simp only [List.map_cons, List.cons_append] at hspan
    simp only [List.cons_append, scanFraction, hspan.1, hspan.2, reduceCtorEq, if_false]

theorem scanExponent_text (t : DecimalText) (hs : Delimited s) :
    scanExponent (t.exponentText ++ s) = (t.exponentText, s) := by
  rw [DecimalText.exponentText]
  cases he : t.exponent with
  | none =>
    simp only [List.nil_append]
    rw [scanExponent.eq_def]
    split
    · rename_i e g r
      rw [if_neg (hs.exponent rfl)]
    · rfl
  | some x =>
    obtain ⟨neg, d, ds⟩ := x
    have hspan := span_digits (s := s) (map_digitChar_digits (d :: ds)) hs.digit
    simp only [List.map_cons, List.cons_append] at hspan
    have hsign : (if neg then '-' else '+') = '+' ∨ (if neg then '-' else '+') = '-' := by
      cases neg <;> simp
    simp only [List.cons_append, scanExponent, true_or, if_true, hsign, scanExponentDigits,
      hspan.1, hspan.2, reduceCtorEq, if_false, List.nil_append]

/-- What follows the whole part of a decimal numeral is not a digit. -/
theorem fraction_exponent_head (t : DecimalText) (hs : Delimited s) (c : PyChar) (r : PyStr)
    (h : t.fractionText ++ (t.exponentText ++ s) = c :: r) :
    isDigit c = false := by
  rw [DecimalText.fractionText, DecimalText.exponentText] at h
  cases hf : t.fraction with
  | cons d ds =>
    simp only [hf, List.cons_append, List.cons.injEq] at h
    rw [← h.1]
    decide
  | nil =>
    cases he : t.exponent with
    | some x =>
      simp only [hf, he, List.nil_append, List.cons_append, List.cons.injEq] at h
      rw [← h.1]
      decide
    | none =>
      simp only [hf, he, List.nil_append] at h
      exact hs.digit c r h

theorem exponent_head (t : DecimalText) (hs : Delimited s) (c : PyChar) (r : PyStr)
    (h : t.exponentText ++ s = c :: r) : isDigit c = false ∧ c ≠ .scalar '.' := by
  rw [DecimalText.exponentText] at h
  cases he : t.exponent with
  | some x =>
    simp only [he, List.cons_append, List.cons.injEq] at h
    rw [← h.1]
    decide
  | none =>
    simp only [he, List.nil_append] at h
    exact ⟨hs.digit c r h, hs.dot h⟩

theorem scanNumber_decimal (t : DecimalText) (hs : Delimited s) :
    scanNumber (t.render ++ s) = some (.float t.render, s) := by
  have hsplit : t.render ++ s =
      signText t.negative ++ (natText t.whole ++ (t.fractionText ++ (t.exponentText ++ s))) := by
    simp [DecimalText.render]
  have hfloat : ¬(t.fractionText = [] ∧ t.exponentText = []) := by
    rw [DecimalText.fractionText, DecimalText.exponentText]
    rcases t.isFloat with h | h
    · cases hf : t.fraction with
      | nil => exact absurd hf h
      | cons d ds => simp
    · obtain ⟨x, hx⟩ := Option.isSome_iff_exists.mp h
      simp [hx]
  rw [hsplit, scanNumber]
  simp only [scanSign_signText, scanWhole_natText _ (fraction_exponent_head t hs),
    scanFraction_text t (exponent_head t hs), scanExponent_text t hs, natText_ne_nil, hfloat,
    if_false]
  simp [DecimalText.render]

theorem scanNumber_int (n : ℤ) (hs : Delimited s) :
    scanNumber (intText n ++ s) = some (.int (decide (n < 0)) (natText n.natAbs), s) := by
  have hfrac : scanFraction s = ([], s) := by
    rw [scanFraction.eq_def]
    split
    · rename_i r
      exact absurd rfl (hs.dot rfl)
    · rfl
  have hexp : scanExponent s = ([], s) := by
    rw [scanExponent.eq_def]
    split
    · rename_i e g r
      rw [if_neg (hs.exponent rfl)]
    · rfl
  rw [intText, List.append_assoc, scanNumber]
  simp only [scanSign_signText, scanWhole_natText _ hs.digit, hfrac, hexp, natText_ne_nil,
    if_false, and_self, if_true]

theorem intOfToken_text {limits : JsonLimits} {n : ℤ}
    (h : (natText n.natAbs).length ≤ limits.intDigits) :
    intOfToken limits (decide (n < 0)) (natText n.natAbs) = .ok n := by
  rw [intOfToken, if_pos h, digitsText_natText, Nat.ofDigitChars_ten_toDigits]
  by_cases hn : n < 0
  · simp only [hn, decide_true, if_true, Except.ok.injEq]
    omega
  · simp only [hn, decide_false, Bool.false_eq_true, if_false, Except.ok.injEq]
    omega

/-- The piece the scanner makes of one escaped code point. -/
def unitOf (c : PyChar) : StrUnit :=
  match c with
  | .scalar '\n' | .scalar '\r' | .scalar '\t' | .scalar '\x0c' | .scalar '\x08' => .char c
  | c => if c.code < 0x20 then .escaped c.code else .char c

theorem scanUnits_plain (hq : c ≠ .scalar '"') (hb : c ≠ .scalar '\\') (hc : ¬c.code < 0x20) :
    scanUnits (c :: s) = (scanUnits s).map fun r => (.char c :: r.1, r.2) := by
  rw [scanUnits.eq_def]
  split <;> simp_all

theorem scanUnits_unicode {a b d : PyChar} (h : hex4 a b c d = some n) :
    scanUnits (.scalar '\\' :: .scalar 'u' :: a :: b :: c :: d :: s) =
      (scanUnits s).map fun r => (.escaped n :: r.1, r.2) := by
  simp [scanUnits, h]

theorem scanUnits_short {e : PyChar} (h : shortEscape e = some c) :
    scanUnits (.scalar '\\' :: e :: s) =
      (scanUnits s).map fun r => (.char c :: r.1, r.2) := by
  have hu : e ≠ .scalar 'u' := by
    rintro rfl
    simp [shortEscape] at h
  rw [scanUnits]
  · simp only [h]
  · intro a b c d r he
    exact absurd he hu

theorem hexValue_hexDigit : ∀ n < 16, hexValue (hexDigit n) = some n := by decide

theorem hex4_control (h : n < 0x20) :
    hex4 (.scalar '0') (.scalar '0') (hexDigit (n / 16)) (hexDigit (n % 16)) = some n := by
  have h0 : hexValue (.scalar '0') = some 0 := by decide
  rw [hex4, h0, hexValue_hexDigit _ (by omega), hexValue_hexDigit _ (by omega)]
  simp only [Option.bind_eq_bind, Option.bind_some, Option.pure_def, Option.some.injEq]
  omega

/-- The scanner reads one escape back as its piece. -/
theorem scanUnits_escape (c : PyChar) (s : PyStr) :
    scanUnits (escape c ++ s) = (scanUnits s).map fun r => (unitOf c :: r.1, r.2) := by
  unfold escape
  split
  case h_8 h1 h2 h3 h4 h5 h6 h7 =>
    have hu : unitOf c = if c.code < 0x20 then .escaped c.code else .char c := by
      rw [unitOf.eq_def]
      split <;> simp_all
    split
    · rename_i hc
      rw [hu, if_pos hc]
      exact scanUnits_unicode (hex4_control hc)
    · rename_i hc
      rw [hu, if_neg hc]
      exact scanUnits_plain h1 h2 hc
  all_goals exact scanUnits_short rfl

theorem joinUnits_unitOf (s : PyStr) : joinUnits (s.map unitOf) = s := by
  induction s with
  | nil => rfl
  | cons c s ih =>
    have hcases : unitOf c = .char c ∨ (c.code < 0x20 ∧ unitOf c = .escaped c.code) := by
      rw [unitOf.eq_def]
      split
      case h_6 =>
        split
        · rename_i h
          exact .inr ⟨h, rfl⟩
        · exact .inl rfl
      all_goals exact .inl rfl
    rw [List.map_cons]
    rcases hcases with h | ⟨hc, h⟩
    · rw [h, joinUnits, ih]
    · have hof : ofUnit c.code = c := by
        have hns : ¬(0xD800 ≤ c.code ∧ c.code < 0xE000) := by omega
        rw [ofUnit, dif_neg hns]
        cases c with
        | scalar a => simp [PyChar.code, Char.ofNat_toNat]
        | surrogate n =>
          simp only [PyChar.code] at hc
          omega
      have hjoin : ∀ us, joinUnits (.escaped c.code :: us) = ofUnit c.code :: joinUnits us := by
        intro us
        rw [joinUnits.eq_def]
        split
        · simp_all
        · rename_i heq
          simp only [List.cons.injEq, StrUnit.escaped.injEq] at heq
          obtain ⟨rfl, rfl⟩ := heq
          rw [if_neg (by omega)]
        · rename_i heq
          simp only [List.cons.injEq, StrUnit.escaped.injEq] at heq
          obtain ⟨rfl, rfl⟩ := heq
          rfl
        · simp_all
      rw [h, hjoin, hof, ih]

theorem scanString_render (t s : PyStr) :
    scanString (t.flatMap escape ++ (.scalar '"' :: s)) = some (t, s) := by
  have hunits : scanUnits (t.flatMap escape ++ (.scalar '"' :: s)) =
      some (t.map unitOf, s) := by
    induction t with
    | nil => rfl
    | cons c t ih =>
      rw [List.flatMap_cons, List.append_assoc, scanUnits_escape, ih]
      rfl
  rw [scanString, hunits, Option.map_some, joinUnits_unitOf]

theorem dictOfPairs_nodup {ms : List (PyStr × Json F)} (hn : (ms.map Prod.fst).Nodup) :
    dictOfPairs ms = ms := by
  refine (Dict.items_foldl_set (d := Dict.empty) Prod.fst Prod.snd hn).trans ?_
  simp [Dict.empty]

/-! The code points of the text: printable ASCII, the layout's white space, or what a string
of the document holds. -/

def Printable (c : PyChar) : Prop := 0x20 ≤ c.code ∧ c.code < 0x7f

instance (c : PyChar) : Decidable (Printable c) := inferInstanceAs (Decidable (_ ∧ _))

theorem printable_of_isDigit (h : isDigit c = true) : Printable c := by
  cases c with
  | surrogate n => exact absurd h (by simp [isDigit])
  | scalar a =>
    simp only [isDigit, Char.isDigit, Bool.and_eq_true, decide_eq_true_eq] at h
    have h0 : 48 ≤ a.toNat := h.1
    have h9 : a.toNat ≤ 57 := h.2
    constructor <;>
    · simp only [PyChar.code]
      omega

theorem printable_natText (n : ℕ) : ∀ c ∈ natText n, Printable c :=
  fun c hc => printable_of_isDigit (natText_digits n c hc)

theorem printable_signText (neg : Bool) : ∀ c ∈ signText neg, Printable c := by
  cases neg <;> decide

theorem printable_floatText (x : FloatText) : ∀ c ∈ x.render, Printable c := by
  have hdigits : ∀ ds : List (Fin 10), ∀ c ∈ ds.map digitChar, Printable c :=
    fun ds c hc => printable_of_isDigit (map_digitChar_digits ds c hc)
  cases x with
  | nan => decide
  | infinity neg => cases neg <;> decide
  | decimal t =>
    have hfrac : ∀ c ∈ t.fractionText, Printable c := by
      rw [DecimalText.fractionText]
      cases t.fraction with
      | nil => simp
      | cons d ds =>
        intro c hc
        rcases List.mem_cons.mp hc with rfl | hc
        · decide
        · exact hdigits (d :: ds) c hc
    have hexp : ∀ c ∈ t.exponentText, Printable c := by
      rw [DecimalText.exponentText]
      cases t.exponent with
      | none => simp
      | some x =>
        obtain ⟨neg, d, ds⟩ := x
        intro c hc
        rcases List.mem_cons.mp hc with rfl | hc
        · decide
        rcases List.mem_cons.mp hc with rfl | hc
        · cases neg <;> decide
        · exact hdigits (d :: ds) c hc
    intro c hc
    simp only [FloatText.render, DecimalText.render, List.mem_append] at hc
    rcases hc with ((hc | hc) | hc) | hc
    · exact printable_signText _ c hc
    · exact printable_natText _ c hc
    · exact hfrac c hc
    · exact hexp c hc

section Chars
variable [PyFloat F] {P : PyChar → Prop}

theorem forall_mem_renderString {s : PyStr} (hp : ∀ c, Printable c → P c)
    (hs : ∀ b ∈ s, ∀ c ∈ escape b, P c) : ∀ c ∈ renderString s, P c := by
  intro c hc
  simp only [renderString, List.cons_append, List.mem_cons, List.mem_append, List.mem_flatMap,
    List.not_mem_nil, or_false] at hc
  rcases hc with rfl | ⟨b, hb, hc⟩ | rfl
  · exact hp _ (by decide)
  · exact hs b hb c hc
  · exact hp _ (by decide)

variable (lay : Layout)

mutual
/-- What holds of the layout's white space, of printable ASCII and of the escapes of the
document's strings holds of the whole text. -/
theorem forall_mem_text
    (hlay : ∀ d, ∀ c ∈ lay.opening d ++ lay.comma d ++ lay.closing d, P c)
    (hp : ∀ c, Printable c → P c) (d : ℕ) :
    ∀ v : Json F, (∀ b ∈ v.chars, ∀ c ∈ escape b, P c) → ∀ c ∈ v.text lay d, P c
  | .null => fun _ c hc => hp c ((show ∀ c ∈ py "null", Printable c by decide) c hc)
  | .bool true => fun _ c hc => hp c ((show ∀ c ∈ py "true", Printable c by decide) c hc)
  | .bool false => fun _ c hc => hp c ((show ∀ c ∈ py "false", Printable c by decide) c hc)
  | .int n => by
    intro _ c hc
    simp only [text, intText, List.mem_append] at hc
    exact hp c (hc.elim (printable_signText _ c) (printable_natText _ c))
  | .float x => fun _ c hc => hp c (printable_floatText _ c hc)
  | .str s => fun hs => forall_mem_renderString hp hs
  | .arr [] => fun _ c hc => hp c ((show ∀ c ∈ py "[]", Printable c by decide) c hc)
  | .obj [] => fun _ c hc => hp c ((show ∀ c ∈ py "\x7b\x7d", Printable c by decide) c hc)
  | .arr (x :: xs) => by
    intro hs
    obtain ⟨hx, hxs⟩ := List.forall_mem_append.mp hs
    have hblank := fun d => List.forall_mem_append.mp (hlay d)
    simp only [text, List.cons_append, List.forall_mem_cons, List.forall_mem_append]
    exact ⟨hp _ (by decide), ⟨⟨⟨fun c hc => (hblank _).1 c (List.mem_append_left _ hc),
      forall_mem_text hlay hp _ x hx⟩, forall_mem_textItems hlay hp _ xs hxs⟩, (hblank d).2⟩,
      fun c hc => hp c ((show ∀ c ∈ py "]", Printable c by decide) c hc)⟩
  | .obj ((k, v) :: ms) => by
    intro hs
    simp only [chars, charsMembers, List.forall_mem_append] at hs
    have hblank := fun d => List.forall_mem_append.mp (hlay d)
    simp only [text, List.cons_append, List.forall_mem_cons, List.forall_mem_append]
    exact ⟨hp _ (by decide), ⟨⟨⟨⟨⟨fun c hc => (hblank _).1 c (List.mem_append_left _ hc),
      forall_mem_renderString hp hs.1.1⟩,
      fun c hc => hp c ((show ∀ c ∈ py ": ", Printable c by decide) c hc)⟩,
      forall_mem_text hlay hp _ v hs.1.2⟩, forall_mem_textMembers hlay hp _ ms hs.2⟩, (hblank d).2⟩,
      fun c hc => hp c ((show ∀ c ∈ py "\x7d", Printable c by decide) c hc)⟩

theorem forall_mem_textItems
    (hlay : ∀ d, ∀ c ∈ lay.opening d ++ lay.comma d ++ lay.closing d, P c)
    (hp : ∀ c, Printable c → P c) (d : ℕ) :
    ∀ xs : List (Json F), (∀ b ∈ charsItems xs, ∀ c ∈ escape b, P c) →
      ∀ c ∈ textItems lay d xs, P c
  | [] => by simp [textItems]
  | x :: xs => by
    intro hs
    obtain ⟨hx, hxs⟩ := List.forall_mem_append.mp hs
    simp only [textItems, List.cons_append, List.forall_mem_cons, List.forall_mem_append]
    exact ⟨hp _ (by decide), ⟨fun c hc => hlay d c (by simp [hc]), forall_mem_text hlay hp d x hx⟩,
      forall_mem_textItems hlay hp d xs hxs⟩

theorem forall_mem_textMembers
    (hlay : ∀ d, ∀ c ∈ lay.opening d ++ lay.comma d ++ lay.closing d, P c)
    (hp : ∀ c, Printable c → P c) (d : ℕ) :
    ∀ ms : List (PyStr × Json F), (∀ b ∈ charsMembers ms, ∀ c ∈ escape b, P c) →
      ∀ c ∈ textMembers lay d ms, P c
  | [] => by simp [textMembers]
  | (k, v) :: ms => by
    intro hs
    simp only [charsMembers, List.forall_mem_append] at hs
    simp only [textMembers, List.cons_append, List.forall_mem_cons, List.forall_mem_append]
    exact ⟨hp _ (by decide), ⟨⟨⟨fun c hc => hlay d c (by simp [hc]),
      forall_mem_renderString hp hs.1.1⟩,
      fun c hc => hp c ((show ∀ c ∈ py ": ", Printable c by decide) c hc)⟩,
      forall_mem_text hlay hp d v hs.1.2⟩, forall_mem_textMembers hlay hp d ms hs.2⟩
end

/-- Escaping keeps a code point that is neither ASCII control nor quote nor backslash. -/
theorem escape_surrogate (n : Fin 2048) : escape (.surrogate n) = [.surrogate n] := by
  have hn : ¬(PyChar.surrogate n).code < 0x20 := by
    simp only [PyChar.code]
    omega
  simp only [escape, if_neg hn]

theorem surrogate_mem_renderString {n : Fin 2048} {s : PyStr} (h : .surrogate n ∈ s) :
    .surrogate n ∈ renderString s := by
  simp only [renderString, List.cons_append, List.mem_cons, List.mem_append, List.mem_flatMap]
  exact .inr (.inl ⟨_, h, by simp [escape_surrogate]⟩)

mutual
theorem surrogate_mem_text (d : ℕ) {n : Fin 2048} :
    ∀ v : Json F, .surrogate n ∈ v.chars → .surrogate n ∈ v.text lay d
  | .null | .bool _ | .int _ | .float _ => by simp [chars]
  | .str s => surrogate_mem_renderString
  | .arr [] | .obj [] => by simp [chars, charsItems, charsMembers]
  | .arr (x :: xs) => fun h => by
    have hx := surrogate_mem_text (d + 1) (n := n) x
    have hxs := surrogate_mem_textItems (d + 1) (n := n) xs
    simp only [chars, charsItems, text, List.mem_append] at h ⊢
    grind
  | .obj ((k, v) :: ms) => fun h => by
    have hk := surrogate_mem_renderString (n := n) (s := k)
    have hv := surrogate_mem_text (d + 1) (n := n) v
    have hms := surrogate_mem_textMembers (d + 1) (n := n) ms
    simp only [chars, charsMembers, text, List.mem_append] at h ⊢
    grind

theorem surrogate_mem_textItems (d : ℕ) {n : Fin 2048} :
    ∀ xs : List (Json F), .surrogate n ∈ charsItems xs → .surrogate n ∈ textItems lay d xs
  | [] => by simp [charsItems]
  | x :: xs => fun h => by
    have hx := surrogate_mem_text d (n := n) x
    have hxs := surrogate_mem_textItems d (n := n) xs
    simp only [charsItems, textItems, List.mem_append] at h ⊢
    grind

theorem surrogate_mem_textMembers (d : ℕ) {n : Fin 2048} :
    ∀ ms : List (PyStr × Json F), .surrogate n ∈ charsMembers ms →
      .surrogate n ∈ textMembers lay d ms
  | [] => by simp [charsMembers]
  | (k, v) :: ms => fun h => by
    have hk := surrogate_mem_renderString (n := n) (s := k)
    have hv := surrogate_mem_text d (n := n) v
    have hms := surrogate_mem_textMembers d (n := n) ms
    simp only [charsMembers, textMembers, List.mem_append] at h ⊢
    grind
end

variable {c : PyChar} {d : ℕ} {v : Json F}

/-- An escape is printable ASCII, or the code point itself when that is not a control
character. -/
theorem mem_escape {e : PyChar} (h : e ∈ escape c) : e = c ∧ 0x20 ≤ c.code ∨ Printable e := by
  unfold escape at h
  split at h
  case h_8 =>
    split at h
    · rename_i hc
      have hhex : ∀ m < 32, Printable (hexDigit (m / 16)) ∧ Printable (hexDigit (m % 16)) := by
        decide
      simp only [List.mem_append, List.mem_cons, List.not_mem_nil, or_false] at h
      rcases h with h | rfl | rfl
      · exact .inr ((show ∀ e ∈ py "\\u00", Printable e by decide) e h)
      · exact .inr (hhex _ hc).1
      · exact .inr (hhex _ hc).2
    · rename_i hc
      exact .inl ⟨by simpa using h, by omega⟩
  case h_1 => exact .inr ((show ∀ e ∈ py "\\\"", Printable e by decide) e h)
  case h_2 => exact .inr ((show ∀ e ∈ py "\\\\", Printable e by decide) e h)
  case h_3 => exact .inr ((show ∀ e ∈ py "\\n", Printable e by decide) e h)
  case h_4 => exact .inr ((show ∀ e ∈ py "\\r", Printable e by decide) e h)
  case h_5 => exact .inr ((show ∀ e ∈ py "\\t", Printable e by decide) e h)
  case h_6 => exact .inr ((show ∀ e ∈ py "\\f", Printable e by decide) e h)
  case h_7 => exact .inr ((show ∀ e ∈ py "\\b", Printable e by decide) e h)

theorem Layout.lf_or_space (h : c ∈ lay.opening d ++ lay.comma d ++ lay.closing d) :
    c.code = 0xA ∨ c.code = 0x20 := by
  rcases lay.blank d c h with rfl | rfl
  · exact .inl (by decide)
  · exact .inr (by decide)

theorem encodable_text :
    PyStr.Encodable (v.text lay d) ↔ PyStr.Encodable v.chars := by
  constructor
  · intro h c hc
    cases c with
    | scalar a => rfl
    | surrogate n => exact h _ (surrogate_mem_text lay d v hc)
  · intro h c hc
    have hlow : ∀ e : PyChar, e.code < 0x7f → e.toScalar?.isSome := by
      intro e he
      cases e with
      | scalar a => rfl
      | surrogate n =>
        simp only [PyChar.code] at he
        omega
    refine forall_mem_text lay (P := fun c => c.toScalar?.isSome) ?_ (fun c hp => hlow c hp.2) d v
      ?_ c hc
    · intro e c hc
      have := lay.lf_or_space hc
      exact hlow c (by omega)
    · intro b hb e he
      rcases mem_escape he with ⟨rfl, _⟩ | hp
      · exact h _ hb
      · exact hlow e hp.2

theorem encodable_render :
    PyStr.Encodable (v.render d) ↔ PyStr.Encodable v.chars := by
  rw [render_eq_text]
  exact encodable_text .indented

/-- A control character inside a string is escaped, so the text holds those of its layout
only. -/
theorem control_of_mem_text (hc : c ∈ v.text lay d) (hlow : c.code < 0x20) : c = lf := by
  refine forall_mem_text lay (P := fun c => c.code < 0x20 → c = lf) ?_ ?_ d v ?_ c hc hlow
  · intro e c hc hlow
    rcases lay.blank e c hc with rfl | rfl
    · rfl
    · contradiction
  · intro c hp hlow
    have := hp.1
    omega
  · intro b _ e he hlow
    rcases mem_escape he with ⟨rfl, _⟩ | ⟨_, _⟩ <;> omega

theorem cr_notMem_text (d : ℕ) (v : Json F) : cr ∉ v.text lay d :=
  fun h => absurd (control_of_mem_text lay h (by decide)) (by decide)

theorem cr_notMem_render (d : ℕ) (v : Json F) : cr ∉ v.render d := by
  rw [render_eq_text]
  exact cr_notMem_text .indented d v

/-- A text on one line holds no control character, and beyond ASCII what the document's
strings hold. -/
theorem mem_text_oneLine (hc : c ∈ v.text .oneLine d) :
    Printable c ∨ c ∈ v.chars ∧ 0x20 ≤ c.code := by
  refine forall_mem_text .oneLine (P := fun c => Printable c ∨ c ∈ v.chars ∧ 0x20 ≤ c.code) ?_
    (fun c hp => .inl hp) d v ?_ c hc
  · intro e c hc
    exact .inl ((show ∀ c ∈ py " ", Printable c by decide) c (by simpa [Layout.oneLine] using hc))
  · intro b hb e he
    rcases mem_escape he with ⟨rfl, hlow⟩ | hp
    · exact .inr ⟨hb, hlow⟩
    · exact .inl hp

end Chars

section RoundTrip
variable [PyFloat F]

variable {c : PyChar} {r s : PyStr} {d fuel depth : ℕ} {limits : JsonLimits} {lay : Layout}
  {v : Json F}

theorem isPrefixOf_head_ne {x : PyChar} {xs : PyStr} (h : x ≠ c) :
    (x :: xs).isPrefixOf (c :: r) = false := by
  simp [List.isPrefixOf, h]

/-- No literal name starts like a number. -/
theorem parseScalar_number (limits : JsonLimits) (neg : Bool) (n : ℕ) (s : PyStr) :
    parseScalar (F := F) limits (signText neg ++ (natText n ++ s)) =
      parseNumber limits (signText neg ++ (natText n ++ s)) := by
  obtain ⟨c, cs, hc⟩ := List.exists_cons_of_ne_nil (natText_ne_nil n)
  have hd := natText_digits n c (by simp [hc])
  have hne : ∀ a : PyChar, isDigit a = false → a ≠ c := by
    rintro a ha rfl
    rw [ha] at hd
    contradiction
  rw [parseScalar, hc]
  cases neg with
  | false =>
    have hp : ∀ (a : PyChar) (as : PyStr), isDigit a = false →
        ((a :: as).isPrefixOf (signText false ++ (c :: cs ++ s))) = false :=
      fun a as ha => isPrefixOf_head_ne (hne a ha)
    rw [if_neg, if_neg, if_neg, if_neg, if_neg, if_neg] <;>
      exact Bool.eq_false_iff.mp (hp _ _ (by decide))
  | true =>
    have hp : ∀ (a : PyChar) (as : PyStr), a ≠ .scalar '-' →
        ((a :: as).isPrefixOf (signText true ++ (c :: cs ++ s))) = false :=
      fun a as ha => isPrefixOf_head_ne ha
    have hinf : (py "-Infinity").isPrefixOf (signText true ++ (c :: cs ++ s)) = false := by
      change (PyChar.scalar '-' == .scalar '-' && (py "Infinity").isPrefixOf (c :: cs ++ s)) = _
      rw [beq_self_eq_true, Bool.true_and]
      exact isPrefixOf_head_ne (hne _ (by decide))
    rw [if_neg, if_neg, if_neg, if_neg, if_neg, if_neg]
    · exact Bool.eq_false_iff.mp hinf
    all_goals exact Bool.eq_false_iff.mp (hp _ _ (by decide))

theorem parseScalar_int (limits : JsonLimits) {n : ℤ} (hs : Delimited s)
    (hn : (natText n.natAbs).length ≤ limits.intDigits) :
    parseScalar (F := F) limits (intText n ++ s) = .ok (.int n, s) := by
  have hnum : parseScalar (F := F) limits (intText n ++ s) =
      parseNumber limits (intText n ++ s) := by
    rw [intText, List.append_assoc]
    exact parseScalar_number limits _ _ s
  rw [hnum, parseNumber, scanNumber_int n hs]
  simp only [intOfToken_text hn, Except.map]

theorem parseScalar_float (limits : JsonLimits) (x : F) (hs : Delimited s) :
    parseScalar limits ((PyFloat.text x).render ++ s) = .ok (.float x, s) := by
  have hx := PyFloat.ofLiteral_text x
  cases ht : PyFloat.text x with
  | nan =>
    rw [ht] at hx
    rw [← hx]
    rfl
  | infinity neg =>
    rw [ht] at hx
    rw [← hx]
    cases neg <;> rfl
  | decimal t =>
    rw [ht] at hx
    have hnum : parseScalar (F := F) limits (t.render ++ s) = parseNumber limits (t.render ++ s) := by
      have hsplit : t.render ++ s = signText t.negative ++
          (natText t.whole ++ (t.fractionText ++ (t.exponentText ++ s))) := by
        simp [DecimalText.render]
      rw [hsplit]
      exact parseScalar_number limits _ _ _
    simp only [FloatText.render] at hx ⊢
    rw [hnum, parseNumber, scanNumber_decimal t hs]
    simp only [hx]

/-- How a value's text starts: not with white space, a closing bracket or a byte order mark. -/
def ValueHead (s : PyStr) : Prop :=
  ∃ c r, s = c :: r ∧ isWhitespace c = false ∧ c ∉ [.scalar ']', .scalar '\ufeff']

theorem valueHead_number (neg : Bool) (n : ℕ) (s : PyStr) :
    ValueHead (signText neg ++ (natText n ++ s)) := by
  cases neg with
  | true => exact ⟨_, _, rfl, by decide, by decide⟩
  | false =>
    obtain ⟨c, cs, hc⟩ := List.exists_cons_of_ne_nil (natText_ne_nil n)
    have hd := natText_digits n c (by simp [hc])
    refine ⟨c, cs ++ s, by rw [hc]; rfl, ?_, ?_⟩
    · by_contra hw
      simp only [isWhitespace, Bool.or_eq_true, decide_eq_true_eq, Bool.not_eq_false] at hw
      rcases hw with ((rfl | rfl) | rfl) | rfl <;> contradiction
    · simp only [List.mem_cons, List.not_mem_nil, or_false]
      rintro (rfl | rfl) <;> contradiction

theorem ValueHead.append {t : PyStr} (h : ValueHead s) : ValueHead (s ++ t) := by
  obtain ⟨c, r, rfl, hc⟩ := h
  exact ⟨c, r ++ t, rfl, hc⟩

def isScalar : Json F → Bool
  | .arr _ | .obj _ => false
  | _ => true

/-- A way to write values, where a scalar has one text: its layout, and what follows a colon. -/
structure Spelling (F : Type) [PyFloat F] extends Layout where
  colon : PyStr
  colon_blank : ∀ c ∈ colon, isWhitespace c = true
  value : ℕ → Json F → PyStr
  items : ℕ → List (Json F) → PyStr
  members : ℕ → List (PyStr × Json F) → PyStr
  value_scalar : ∀ d v, v.isScalar = true → value d v = v.text .oneLine 0
  value_arr_nil : ∀ d, value d (.arr []) = py "[]"
  value_arr : ∀ d x xs, value d (.arr (x :: xs)) =
    .scalar '[' :: (opening (d + 1) ++ (value (d + 1) x ++ (items (d + 1) xs ++
      (closing d ++ py "]"))))
  value_obj_nil : ∀ d, value d (.obj []) = py "\x7b\x7d"
  value_obj : ∀ d k w ms, value d (.obj ((k, w) :: ms)) =
    .scalar '\x7b' :: (opening (d + 1) ++ (renderString k ++ .scalar ':' :: (colon ++
      (value (d + 1) w ++ (members (d + 1) ms ++ (closing d ++ py "\x7d"))))))
  items_nil : ∀ d, items d [] = []
  items_cons : ∀ d x xs, items d (x :: xs) = .scalar ',' :: (comma d ++ (value d x ++ items d xs))
  members_nil : ∀ d, members d [] = []
  members_cons : ∀ d k w ms, members d ((k, w) :: ms) =
    .scalar ',' :: (comma d ++ (renderString k ++ .scalar ':' :: (colon ++
      (value d w ++ members d ms))))

def Layout.spelling (lay : Layout) : Spelling F where
  toLayout := lay
  colon := py " "
  colon_blank := by decide
  value := text lay
  items := textItems lay
  members := textMembers lay
  value_scalar d v hv := by
    cases v with
    | bool b => cases b <;> rfl
    | arr xs => contradiction
    | obj ms => contradiction
    | _ => rfl
  value_arr_nil _ := rfl
  value_arr d x xs := by simp [text, py]
  value_obj_nil _ := rfl
  value_obj d k w ms := by simp [text, py]
  items_nil _ := rfl
  items_cons d x xs := by simp [textItems]
  members_nil _ := rfl
  members_cons d k w ms := by simp [textMembers, py]

theorem Spelling.valueHead (sp : Spelling F) (d : ℕ) (v : Json F) : ValueHead (sp.value d v) := by
  cases v with
  | arr xs =>
    cases xs with
    | nil => exact ⟨_, _, sp.value_arr_nil d, by decide, by decide⟩
    | cons x xs => exact ⟨_, _, sp.value_arr d x xs, by decide, by decide⟩
  | obj ms =>
    cases ms with
    | nil => exact ⟨_, _, sp.value_obj_nil d, by decide, by decide⟩
    | cons m ms => exact ⟨_, _, sp.value_obj d m.1 m.2 ms, by decide, by decide⟩
  | null => exact ⟨_, _, sp.value_scalar d _ rfl, by decide, by decide⟩
  | bool b => cases b <;> exact ⟨_, _, sp.value_scalar d _ rfl, by decide, by decide⟩
  | str s => exact ⟨_, _, sp.value_scalar d _ rfl, by decide, by decide⟩
  | int n =>
    rw [sp.value_scalar d _ rfl, text, intText, ← List.append_nil (natText _)]
    exact valueHead_number _ _ []
  | float x =>
    rw [sp.value_scalar d _ rfl, text]
    cases PyFloat.text x with
    | nan => exact ⟨_, _, rfl, by decide, by decide⟩
    | infinity neg => cases neg <;> exact ⟨_, _, rfl, by decide, by decide⟩
    | decimal t =>
      simp only [FloatText.render, DecimalText.render, List.append_assoc]
      exact valueHead_number _ _ _

theorem skipWs_head (h : isWhitespace c = false) :
    skipWs (c :: r) = c :: r := by
  simp [skipWs, h]

theorem ValueHead.skipWs (h : ValueHead s) : skipWs s = s := by
  obtain ⟨c, r, rfl, hc, _⟩ := h
  exact skipWs_head hc

theorem Layout.isWhitespace (lay : Layout) (h : c ∈ lay.opening d ++ lay.comma d ++ lay.closing d)
    : isWhitespace c = true := by
  rcases lay.blank d c h with rfl | rfl <;> decide

theorem skipWs_append {w : PyStr} (hw : ∀ c ∈ w, isWhitespace c = true) :
    skipWs (w ++ s) = skipWs s := by
  rw [skipWs, List.dropWhile_append_of_pos hw, skipWs]

theorem skipWs_opening (lay : Layout) (d : ℕ) (s : PyStr) :
    skipWs (lay.opening d ++ s) = skipWs s :=
  skipWs_append fun _ hc => lay.isWhitespace (d := d) (by simp [hc])

theorem skipWs_comma (lay : Layout) (d : ℕ) (s : PyStr) :
    skipWs (lay.comma d ++ s) = skipWs s :=
  skipWs_append fun _ hc => lay.isWhitespace (d := d) (by simp [hc])

theorem skipWs_closing (lay : Layout) (d : ℕ) (s : PyStr) :
    skipWs (lay.closing d ++ s) = skipWs s :=
  skipWs_append fun _ hc => lay.isWhitespace (d := d) (by simp [hc])

/-- What closes a container ends a number before it. -/
theorem delimited_closing (lay : Layout) (d : ℕ) {b : PyChar} (s : PyStr)
    (hb : b = .scalar ']' ∨ b = .scalar '\x7d') : Delimited (lay.closing d ++ b :: s) := by
  cases hw : lay.closing d with
  | nil => rcases hb with rfl | rfl <;> exact delimited_cons (by decide) (by decide)
  | cons c w =>
    have hc := lay.blank d c (by simp [hw])
    rcases hc with rfl | rfl <;> exact delimited_cons (by decide) (by decide)

theorem parseValue_scalar (limits : JsonLimits) (fuel depth : ℕ)
    (hc : c ∉ [.scalar '"', .scalar '[', .scalar '\x7b']) : parseValue (F := F) limits (fuel + 1) depth (c :: r) = parseScalar limits (c :: r) := by
  simp only [List.mem_cons, List.not_mem_nil, or_false, not_or] at hc
  rw [parseValue.eq_def]
  split <;> simp_all

theorem parseValue_number (limits : JsonLimits) (fuel depth : ℕ) (neg : Bool) (n : ℕ)
    (s : PyStr) :
    parseValue (F := F) limits (fuel + 1) depth (signText neg ++ (natText n ++ s)) =
      parseScalar limits (signText neg ++ (natText n ++ s)) := by
  cases neg with
  | true => exact parseValue_scalar limits fuel depth (by decide)
  | false =>
    obtain ⟨c, cs, hc⟩ := List.exists_cons_of_ne_nil (natText_ne_nil n)
    have hd := natText_digits n c (by simp [hc])
    rw [hc]
    refine parseValue_scalar limits fuel depth ?_
    simp only [List.mem_cons, List.not_mem_nil, or_false]
    rintro (rfl | rfl | rfl) <;> contradiction

theorem parseValue_float (limits : JsonLimits) (fuel depth : ℕ) (x : F) (hs : Delimited s) :
    parseValue limits (fuel + 1) depth ((PyFloat.text x).render ++ s) = .ok (.float x, s) := by
  have hvalue : parseValue (F := F) limits (fuel + 1) depth ((PyFloat.text x).render ++ s) =
      parseScalar limits ((PyFloat.text x).render ++ s) := by
    cases PyFloat.text x with
    | nan => exact parseValue_scalar limits fuel depth (by decide)
    | infinity neg => cases neg <;> exact parseValue_scalar limits fuel depth (by decide)
    | decimal t =>
      simp only [FloatText.render, DecimalText.render, List.append_assoc]
      exact parseValue_number limits fuel depth _ _ _
  rw [hvalue, parseScalar_float limits x hs]

variable {sp : Spelling F}

theorem delimited_items (sp : Spelling F) (d e : ℕ) (xs : List (Json F)) (s : PyStr) :
    Delimited (sp.items d xs ++ (sp.closing e ++ .scalar ']' :: s)) := by
  cases xs with
  | nil =>
    rw [sp.items_nil]
    exact delimited_closing sp.toLayout e s (.inl rfl)
  | cons x xs =>
    rw [sp.items_cons]
    exact delimited_comma _

theorem delimited_members (sp : Spelling F) (d e : ℕ) (ms : List (PyStr × Json F)) (s : PyStr) :
    Delimited (sp.members d ms ++ (sp.closing e ++ .scalar '\x7d' :: s)) := by
  cases ms with
  | nil =>
    rw [sp.members_nil]
    exact delimited_closing sp.toLayout e s (.inr rfl)
  | cons m ms =>
    rw [sp.members_cons d m.1 m.2]
    exact delimited_comma _

/-- With this fuel the parser reads every value back and stops right behind it, unless it meets its
limit because the value nests too deep. -/
def ValuesRead (sp : Spelling F) (limits : JsonLimits) (fuel : ℕ) : Prop :=
  ∀ (v : Json F) (depth d : ℕ) (s : PyStr), v.intsFit limits.intDigits = true → v.UniqueKeys →
    Delimited s → 2 * (sp.value d v).length + 1 ≤ fuel →
    parseValue limits fuel depth (sp.value d v ++ s) =
      if v.nestsWithin depth then .ok (v, s) else .error .recursion

def ItemsRead (sp : Spelling F) (limits : JsonLimits) (fuel : ℕ) : Prop :=
  ∀ (x : Json F) (xs : List (Json F)) (depth d e : ℕ) (s : PyStr),
    intsFitItems limits.intDigits (x :: xs) = true → UniqueKeysItems (x :: xs) →
    2 * (sp.value d x ++ sp.items d xs).length + 2 ≤ fuel →
    parseItems limits fuel depth
      (sp.value d x ++ (sp.items d xs ++ (sp.closing e ++ .scalar ']' :: s))) =
      if nestsWithinItems depth (x :: xs) then .ok (x :: xs, s) else .error .recursion

def Spelling.member (sp : Spelling F) (d : ℕ) (k : PyStr) (w : Json F) : PyStr :=
  renderString k ++ .scalar ':' :: (sp.colon ++ sp.value d w)

def MembersRead (sp : Spelling F) (limits : JsonLimits) (fuel : ℕ) : Prop :=
  ∀ (k : PyStr) (w : Json F) (ms : List (PyStr × Json F)) (depth d e : ℕ) (s : PyStr),
    intsFitMembers limits.intDigits ((k, w) :: ms) = true → UniqueKeysMembers ((k, w) :: ms) →
    2 * (sp.member d k w ++ sp.members d ms).length + 2 ≤ fuel →
    parseMembers limits fuel depth
      (sp.member d k w ++ (sp.members d ms ++ (sp.closing e ++ .scalar '\x7d' :: s))) =
      if nestsWithinMembers depth ((k, w) :: ms) then .ok ((k, w) :: ms, s) else .error .recursion

theorem skipWs_member (d : ℕ) (k s : PyStr) (w : Json F) :
    skipWs (sp.member d k w ++ s) = sp.member d k w ++ s :=
  skipWs_head (by decide)

omit [PyFloat F] in
theorem nestsWithin_scalar (hv : v.isScalar = true) (depth : ℕ) : v.nestsWithin depth = true := by
  cases v with
  | arr xs => contradiction
  | obj ms => contradiction
  | _ => simp only [nestsWithin]

theorem parseValue_text (hv : v.isScalar = true) (hfit : v.intsFit limits.intDigits = true)
    (hs : Delimited s) (fuel depth : ℕ) :
    parseValue limits (fuel + 1) depth (v.text .oneLine 0 ++ s) = .ok (v, s) := by
  cases v with
  | null => exact parseValue_scalar (c := .scalar 'n') limits fuel depth (by decide)
  | bool b =>
    cases b with
    | false => exact parseValue_scalar (c := .scalar 'f') limits fuel depth (by decide)
    | true => exact parseValue_scalar (c := .scalar 't') limits fuel depth (by decide)
  | int n =>
    have hn : (natText n.natAbs).length ≤ limits.intDigits := by simpa [intsFit] using hfit
    rw [text, ← parseScalar_int limits hs hn, intText, List.append_assoc]
    exact parseValue_number limits fuel depth _ _ _
  | float x =>
    rw [text]
    exact parseValue_float limits fuel depth x hs
  | str t =>
    have htext : (Json.str t : Json F).text .oneLine 0 ++ s =
        .scalar '"' :: (t.flatMap escape ++ (.scalar '"' :: s)) := by
      simp [text, renderString]
    rw [htext, parseValue, scanString_render]
  | arr xs => contradiction
  | obj ms => contradiction

theorem valuesRead_succ (hi : ItemsRead sp limits fuel) (hm : MembersRead sp limits fuel) :
    ValuesRead sp limits (fuel + 1) := by
  intro v depth d s hv hu hs hf
  by_cases hscalar : v.isScalar = true
  · rw [if_pos (nestsWithin_scalar hscalar depth), sp.value_scalar d v hscalar]
    exact parseValue_text hscalar hv hs fuel depth
  cases v with
  | arr xs =>
    cases xs with
    | nil =>
      rw [sp.value_arr_nil]
      cases depth <;> rfl
    | cons x xs =>
      have hlen : (sp.value (d + 1) x ++ sp.items (d + 1) xs).length + 2 ≤
          (sp.value d (.arr (x :: xs))).length := by
        simp [sp.value_arr, py]
        omega
      have htext : sp.value d (.arr (x :: xs)) ++ s =
          .scalar '[' :: (sp.opening (d + 1) ++ (sp.value (d + 1) x ++ (sp.items (d + 1) xs ++
            (sp.closing d ++ .scalar ']' :: s)))) := by
        simp [sp.value_arr, py]
      cases depth with
      | zero =>
        rw [htext, parseValue]
        rfl
      | succ depth =>
        obtain ⟨c, r, hr, hhead⟩ := (sp.valueHead (d + 1) x).append
          (t := sp.items (d + 1) xs ++ (sp.closing d ++ .scalar ']' :: s))
        have hskip := ValueHead.skipWs ⟨c, r, hr, hhead⟩
        rw [htext, parseValue, skipWs_opening, hskip]
        split
        · rename_i heq
          rw [hr] at heq
          exact absurd (List.cons.inj heq).1 fun h => hhead.2 (by simp [h])
        · rw [hi x xs depth (d + 1) d s hv hu (by omega), nestsWithin]
          split <;> rfl
  | obj ms =>
    cases ms with
    | nil =>
      rw [sp.value_obj_nil]
      cases depth <;> rfl
    | cons m ms =>
      obtain ⟨k, w⟩ := m
      have hlen : (sp.member (d + 1) k w ++ sp.members (d + 1) ms).length + 2 ≤
          (sp.value d (.obj ((k, w) :: ms))).length := by
        simp [sp.value_obj, Spelling.member, py]
        omega
      have htext : sp.value d (.obj ((k, w) :: ms)) ++ s =
          .scalar '{' :: (sp.opening (d + 1) ++ (sp.member (d + 1) k w ++
            (sp.members (d + 1) ms ++ (sp.closing d ++ .scalar '}' :: s)))) := by
        simp [sp.value_obj, Spelling.member, py]
      cases depth with
      | zero =>
        rw [htext, parseValue]
        rfl
      | succ depth =>
        rw [htext, parseValue, skipWs_opening, skipWs_member]
        split
        · rename_i heq
          exact absurd (List.cons.inj heq).1 (by decide)
        · rw [hm k w ms depth (d + 1) d s hv hu.2 (by omega), nestsWithin]
          split
          · rw [Except.map, dictOfPairs_nodup hu.1]
          · rfl
  | _ => exact absurd rfl hscalar

theorem itemsRead_succ (hv : ValuesRead sp limits fuel) (hi : ItemsRead sp limits fuel) :
    ItemsRead sp limits (fuel + 1) := by
  intro x xs depth d e s hfit hu hf
  rw [List.length_append] at hf
  simp only [intsFitItems, Bool.and_eq_true] at hfit
  rw [parseItems, hv x depth d _ hfit.1 hu.1 (delimited_items sp d e xs s) (by omega)]
  cases hx : x.nestsWithin depth with
  | false => simp [nestsWithinItems, hx]
  | true =>
    rw [if_pos rfl]
    cases xs with
    | nil =>
      have hskip : skipWs (sp.closing e ++ .scalar ']' :: s) = .scalar ']' :: s := by
        rw [skipWs_closing, skipWs_head (by decide)]
      simp [sp.items_nil, nestsWithinItems, hx, hskip]
    | cons y ys =>
      have hlen : (sp.value d y ++ sp.items d ys).length + 1 ≤ (sp.items d (y :: ys)).length := by
        simp [sp.items_cons]
      have hpos : 0 < (sp.value d x).length := by
        obtain ⟨c, r, hr, -⟩ := sp.valueHead d x
        simp [hr]
      have hys := hi y ys depth d e s hfit.2 hu.2 (by omega)
      have htext : sp.items d (y :: ys) ++ (sp.closing e ++ .scalar ']' :: s) =
          .scalar ',' :: (sp.comma d ++ (sp.value d y ++ (sp.items d ys ++
            (sp.closing e ++ .scalar ']' :: s)))) := by
        simp [sp.items_cons]
      have hskip := ((sp.valueHead d y).append
        (t := sp.items d ys ++ (sp.closing e ++ .scalar ']' :: s))).skipWs
      have hn : nestsWithinItems depth (x :: y :: ys) = nestsWithinItems depth (y :: ys) := by
        simp [nestsWithinItems, hx]
      simp only [htext, skipWs_head (show isWhitespace (.scalar ',') = false by decide),
        skipWs_comma, hskip, hys, hn]
      split <;> rfl

theorem membersRead_succ (hv : ValuesRead sp limits fuel) (hm : MembersRead sp limits fuel) :
    MembersRead sp limits (fuel + 1) := by
  intro k w ms depth d e s hfit hu hf
  simp only [intsFitMembers, Bool.and_eq_true] at hfit
  have hread := hv w depth d _ hfit.1 hu.1 (delimited_members sp d e ms s)
    (by simp [Spelling.member] at hf; omega)
  have hkey : sp.member d k w ++ (sp.members d ms ++ (sp.closing e ++ .scalar '}' :: s)) =
      .scalar '"' :: (k.flatMap escape ++ (.scalar '"' :: .scalar ':' :: (sp.colon ++
        (sp.value d w ++ (sp.members d ms ++ (sp.closing e ++ .scalar '}' :: s)))))) := by
    simp [Spelling.member, renderString]
  have hcolon : ∀ r, skipWs (.scalar ':' :: r) = .scalar ':' :: r :=
    fun r => skipWs_head (by decide)
  have hskip := ((sp.valueHead d w).append
    (t := sp.members d ms ++ (sp.closing e ++ .scalar '}' :: s))).skipWs
  rw [hkey, parseMembers, scanString_render]
  simp only [hcolon, skipWs_append sp.colon_blank, hskip, hread]
  cases hw : w.nestsWithin depth with
  | false => simp [nestsWithinMembers, hw]
  | true =>
    rw [if_pos rfl]
    cases ms with
    | nil =>
      have hclose : skipWs (sp.closing e ++ .scalar '}' :: s) = .scalar '}' :: s := by
        rw [skipWs_closing, skipWs_head (by decide)]
      simp [sp.members_nil, nestsWithinMembers, hw, hclose]
    | cons m ms =>
      obtain ⟨l, u⟩ := m
      have htext : sp.members d ((l, u) :: ms) ++ (sp.closing e ++ .scalar '}' :: s) =
          .scalar ',' :: (sp.comma d ++ (sp.member d l u ++ (sp.members d ms ++
            (sp.closing e ++ .scalar '}' :: s)))) := by
        simp [sp.members_cons, Spelling.member]
      have hlen : (sp.member d l u ++ sp.members d ms).length + 1 ≤
          (sp.members d ((l, u) :: ms)).length := by
        simp [sp.members_cons, Spelling.member]
      have hpos : 0 < (sp.member d k w).length := by simp [Spelling.member, renderString]
      have hms := hm l u ms depth d e s hfit.2 hu.2 (by rw [List.length_append] at hf; omega)
      have hn : nestsWithinMembers depth ((k, w) :: (l, u) :: ms) =
          nestsWithinMembers depth ((l, u) :: ms) := by
        simp [nestsWithinMembers, hw]
      simp only [htext, skipWs_head (show isWhitespace (.scalar ',') = false by decide),
        skipWs_comma, skipWs_member, hms, hn]
      split <;> rfl

theorem allRead (sp : Spelling F) (limits : JsonLimits) (fuel : ℕ) :
    ValuesRead sp limits fuel ∧ ItemsRead sp limits fuel ∧ MembersRead sp limits fuel := by
  induction fuel with
  | zero =>
    refine ⟨?_, ?_, ?_⟩
    · intro v depth d s _ _ _ hf
      omega
    · intro x xs depth d e s _ _ hf
      omega
    · intro k w ms depth d e s _ _ hf
      omega
  | succ fuel ih =>
    obtain ⟨hv, hi, hm⟩ := ih
    exact ⟨valuesRead_succ hi hm, itemsRead_succ hv hi, membersRead_succ hv hm⟩

/-- What is written, `loads` reads back, unless it nests deeper than the parser goes. -/
theorem loads_value (sp : Spelling F) (hv : v.intsFit limits.intDigits = true)
    (hu : v.UniqueKeys) : loads limits (sp.value 0 v) =
      if v.nestsWithin limits.depth then .ok v else .error .recursion := by
  have hhead := sp.valueHead 0 v
  have hvalue := (allRead sp limits (2 * (sp.value 0 v).length + 2)).1 v limits.depth 0 [] hv hu
    delimited_nil (by omega)
  rw [List.append_nil] at hvalue
  have hbom : (sp.value 0 v).head? ≠ some (.scalar '﻿') := by
    obtain ⟨c, r, hr, _, hc⟩ := hhead
    rw [hr, List.head?_cons, ne_eq, Option.some.injEq]
    exact fun h => hc (by simp [h])
  rw [loads, if_neg hbom, hhead.skipWs, hvalue]
  cases v.nestsWithin limits.depth <;> rfl

theorem loads_text (lay : Layout) (hv : v.Storable limits.intDigits limits.depth) :
    loads limits (v.text lay 0) = .ok v := by
  obtain ⟨hfit, hnests, hunique⟩ := (storable_iff _ v).mp hv
  exact (loads_value lay.spelling hfit hunique).trans (if_pos hnests)

theorem loads_render (hv : v.Storable limits.intDigits limits.depth) :
    loads limits (v.render 0) = .ok v := by
  rw [render_eq_text]
  exact loads_text .indented hv

end RoundTrip
end Json

structure WholeFloat where
  value : ℤ
  deriving DecidableEq

namespace WholeFloat

def text (x : WholeFloat) : DecimalText where
  negative := decide (x.value < 0)
  whole := x.value.natAbs
  fraction := [0]
  exponent := none
  isFloat := .inl (by simp)

def ofLiteral (s : PyStr) : WholeFloat :=
  let sign := Json.scanSign s
  let n : ℤ := Nat.ofDigitChars 10 (Json.digitsText (Json.scanWhole sign.2).1) 0
  ⟨if sign.1 then -n else n⟩

theorem ofLiteral_text (x : WholeFloat) : ofLiteral x.text.render = x := by
  have hrender : x.text.render =
      signText (decide (x.value < 0)) ++ (natText x.value.natAbs ++ py ".0") := by
    simp [DecimalText.render, DecimalText.fractionText, DecimalText.exponentText, text]
    rfl
  have hdot : ∀ c r, py ".0" = c :: r → Json.isDigit c = false := by
    intro c r h
    rw [← (List.cons.inj h).1]
    decide
  rw [hrender, ofLiteral]
  simp only [Json.scanSign_signText, Json.scanWhole_natText _ hdot, Json.digitsText_natText,
    Nat.ofDigitChars_ten_toDigits, decide_eq_true_eq]
  cases x with
  | mk n =>
    simp only [mk.injEq]
    split <;> omega

instance : PyFloat WholeFloat where
  text x := .decimal x.text
  ofLiteral := ofLiteral
  ofInt n := if n.natAbs < 2 ^ 1024 then some ⟨n⟩ else none
  lt x y := decide (x.value < y.value)
  ofLiteral_text := ofLiteral_text
  lt_asymm x y h := by
    simp only [decide_eq_true_eq, decide_eq_false_iff_not] at h ⊢
    omega

end WholeFloat
end QronosAgent.Lib

import QronosAgent.Lib.JsonRoundTrip

/-! The bracket structure of a document, followed from left to right: what `json.loads`
accepts closes every bracket and string it opens. So a document that was cut off and runs on
into another one is not accepted. -/
namespace QronosAgent.Lib
namespace Json
variable {F : Type}

/-- A code point that numbers are written with. -/
def Numeral (c : PyChar) : Prop :=
  isDigit c = true ∨ c ∈ [.scalar '-', .scalar '+', .scalar '.', .scalar 'e', .scalar 'E']

/-- Where a scan stands: outside strings or in one, behind a backslash, in the four digits of
a `\u` escape; with the number of brackets open. -/
inductive Scan where
  | outside (depth : ℕ)
  | inString (depth : ℕ)
  | escape (depth : ℕ)
  | hex (depth left : ℕ)
  | stuck

namespace Scan

def next : Scan → PyChar → Scan
  | .outside 0, c => if isWhitespace c then .outside 0 else .stuck
  | .outside (d + 1), c =>
    if c = .scalar '"' then .inString (d + 1)
    else if c = .scalar '[' ∨ c = .scalar '\x7b' then .outside (d + 2)
    else if c = .scalar ']' ∨ c = .scalar '\x7d' then .outside d
    else if c = .scalar '\\' then .stuck
    else .outside (d + 1)
  | .inString d, c =>
    if c = .scalar '"' then .outside d
    else if c = .scalar '\\' then .escape d
    else if c.code < 0x20 then .stuck
    else .inString d
  | .escape d, c =>
    if c = .scalar 'u' then .hex d 3
    else if (shortEscape c).isSome then .inString d
    else .stuck
  | .hex d 0, c => if (hexValue c).isSome then .inString d else .stuck
  | .hex d (n + 1), c => if (hexValue c).isSome then .hex d n else .stuck
  | .stuck, _ => .stuck

def run (σ : Scan) (s : PyStr) : Scan := s.foldl next σ

@[simp] theorem run_nil (σ : Scan) : σ.run [] = σ := rfl

@[simp] theorem run_cons (σ : Scan) (c : PyChar) (s : PyStr) :
    σ.run (c :: s) = (σ.next c).run s := rfl

theorem run_append (σ : Scan) (s t : PyStr) : σ.run (s ++ t) = (σ.run s).run t :=
  List.foldl_append

theorem run_stuck (s : PyStr) : stuck.run s = .stuck := by
  induction s with
  | nil => rfl
  | cons c s ih => exact ih

/-- A code point that means nothing to the scan outside strings. -/
def Inert (c : PyChar) : Prop :=
  c ∉ [.scalar '"', .scalar '[', .scalar '\x7b', .scalar ']', .scalar '\x7d', .scalar '\\']

instance (c : PyChar) : Decidable (Inert c) := inferInstanceAs (Decidable (c ∉ _))

theorem next_inert {c : PyChar} (h : Inert c) (d : ℕ) :
    (outside (d + 1)).next c = .outside (d + 1) := by
  simp only [Inert, List.mem_cons, List.not_mem_nil, or_false, not_or] at h
  obtain ⟨h1, h2, h3, h4, h5, h6⟩ := h
  simp [next, h1, h2, h3, h4, h5, h6]

theorem run_inert {s : PyStr} (h : ∀ c ∈ s, Inert c) (d : ℕ) :
    (outside (d + 1)).run s = .outside (d + 1) := by
  induction s with
  | nil => rfl
  | cons c s ih =>
    rw [run_cons, next_inert (h c (by simp)), ih fun e he => h e (by simp [he])]

theorem inert_of_isWhitespace {c : PyChar} (h : isWhitespace c = true) : Inert c := by
  simp only [isWhitespace, Bool.or_eq_true, decide_eq_true_eq] at h
  rcases h with ((rfl | rfl) | rfl) | rfl <;> decide

theorem inert_of_numeral {c : PyChar} (h : Numeral c) : Inert c := by
  rcases h with h | h
  · intro hc
    simp only [List.mem_cons, List.not_mem_nil, or_false] at hc
    rcases hc with rfl | rfl | rfl | rfl | rfl | rfl <;> contradiction
  · simp only [List.mem_cons, List.not_mem_nil, or_false] at h
    rcases h with rfl | rfl | rfl | rfl | rfl <;> decide

end Scan

/-- The text that was read, `s` up to `r`, takes the scan from `f d` to `g d`. -/
def Goes (f g : ℕ → Scan) (s r : PyStr) : Prop := ∃ u, s = u ++ r ∧ ∀ d, (f d).run u = g d

theorem Goes.trans {f g h : ℕ → Scan} {s t r : PyStr} (hs : Goes f g s t) (ht : Goes g h t r) :
    Goes f h s r := by
  obtain ⟨u, rfl, hu⟩ := hs
  obtain ⟨w, rfl, hw⟩ := ht
  exact ⟨u ++ w, (List.append_assoc ..).symm, fun d => by rw [Scan.run_append, hu, hw]⟩

theorem Goes.cons {f g : ℕ → Scan} {c : PyChar} (h : ∀ d, (f d).next c = g d) (s : PyStr) :
    Goes f g (c :: s) s := ⟨[c], rfl, h⟩

theorem Goes.shift {f g : ℕ → Scan} {s r : PyStr} (h : Goes f g s r) :
    Goes (fun d => f (d + 1)) (fun d => g (d + 1)) s r := by
  obtain ⟨u, rfl, hu⟩ := h
  exact ⟨u, rfl, fun d => hu (d + 1)⟩

/-- As many brackets are left open. -/
abbrev Stays (s r : PyStr) : Prop :=
  Goes (fun d => .outside (d + 1)) (fun d => .outside (d + 1)) s r

/-- The bracket it stands in is closed. -/
abbrev Closes (s r : PyStr) : Prop := Goes (fun d => .outside (d + 1)) .outside s r

theorem goes_inert {u r : PyStr} (h : ∀ c ∈ u, Scan.Inert c) : Stays (u ++ r) r :=
  ⟨u, rfl, fun d => Scan.run_inert h d⟩

theorem goes_skipWs (s : PyStr) : Stays s (skipWs s) := by
  have hsplit : s = s.takeWhile isWhitespace ++ skipWs s := by
    rw [skipWs, List.takeWhile_append_dropWhile]
  have := goes_inert (u := s.takeWhile isWhitespace) (r := skipWs s) fun c hc =>
    Scan.inert_of_isWhitespace (List.mem_takeWhile_imp hc)
  rwa [← hsplit] at this

theorem hex4_isSome {a b c d : PyChar} {n : ℕ} (h : hex4 a b c d = some n) :
    (hexValue a).isSome ∧ (hexValue b).isSome ∧ (hexValue c).isSome ∧ (hexValue d).isSome := by
  simp only [hex4, Option.bind_eq_bind, Option.bind_eq_some_iff] at h
  obtain ⟨w, hw, x, hx, y, hy, z, hz, -⟩ := h
  simp [hw, hx, hy, hz]

theorem goes_scanUnits {s r : PyStr} {us : List StrUnit} (h : scanUnits s = some (us, r)) :
    Goes .inString .outside s r := by
  induction s using scanUnits.induct generalizing us r with
  | case1 => exact absurd h (by simp [scanUnits])
  | case2 s =>
    simp only [scanUnits] at h
    cases h
    exact Goes.cons (fun d => rfl) s
  | case3 a b c d s hx => exact absurd h (by simp [scanUnits, hx])
  | case4 a b c d s n hx ih =>
    simp only [scanUnits, hx, Option.map_eq_some_iff, Prod.mk.injEq] at h
    obtain ⟨⟨us', r'⟩, hs, -, rfl⟩ := h
    obtain ⟨ha, hb, hc, hd⟩ := hex4_isSome hx
    refine Goes.trans ⟨[.scalar '\\', .scalar 'u', a, b, c, d], rfl, fun e => ?_⟩ (ih hs)
    simp [Scan.next, ha, hb, hc, hd]
  | case5 e s hu hx =>
    rw [scanUnits] at h
    · simp [hx] at h
    · exact hu
  | case6 e s hu c hx ih =>
    rw [scanUnits] at h
    · simp only [hx, Option.map_eq_some_iff, Prod.mk.injEq] at h
      obtain ⟨⟨us', r'⟩, hs, -, rfl⟩ := h
      have he : e ≠ .scalar 'u' := by
        rintro rfl
        exact absurd hx (by simp [shortEscape])
      refine Goes.trans ⟨[.scalar '\\', e], rfl, fun d => ?_⟩ (ih hs)
      simp [Scan.next, he, hx]
    · exact hu
  | case7 c s hq hb hu hc =>
    rw [scanUnits.eq_def] at h
    split at h <;> simp_all
    omega
  | case8 c s hq hb hu hc ih =>
    have hc' : c ≠ .scalar '\\' ∧ ¬c.code < 0x20 := not_or.mp hc
    have hq' : c ≠ .scalar '"' := fun he => hq he
    rw [scanUnits_plain hq' hc'.1 hc'.2, Option.map_eq_some_iff] at h
    obtain ⟨⟨us', r'⟩, hs, he⟩ := h
    simp only [Prod.mk.injEq] at he
    obtain ⟨-, rfl⟩ := he
    refine Goes.trans (Goes.cons (fun d => ?_) s) (ih hs)
    simp [Scan.next, hq', hc'.1, hc'.2]

theorem goes_scanString {s t r : PyStr} (h : scanString s = some (t, r)) :
    Goes .inString .outside s r := by
  obtain ⟨⟨us, r'⟩, hs, he⟩ := Option.map_eq_some_iff.mp h
  simp only [Prod.mk.injEq] at he
  exact he.2 ▸ goes_scanUnits hs

/-- The text up to `r` consists of numerals. -/
def NumeralTo (s r : PyStr) : Prop := ∃ u, s = u ++ r ∧ ∀ c ∈ u, Numeral c

theorem NumeralTo.refl (s : PyStr) : NumeralTo s s := ⟨[], rfl, by simp⟩

theorem NumeralTo.cons {c : PyChar} {s r : PyStr} (hc : Numeral c) (h : NumeralTo s r) :
    NumeralTo (c :: s) r := by
  obtain ⟨u, rfl, hu⟩ := h
  exact ⟨c :: u, rfl, List.forall_mem_cons.mpr ⟨hc, hu⟩⟩

theorem NumeralTo.trans {s t r : PyStr} (hs : NumeralTo s t) (ht : NumeralTo t r) :
    NumeralTo s r := by
  obtain ⟨u, rfl, hu⟩ := hs
  obtain ⟨w, rfl, hw⟩ := ht
  exact ⟨u ++ w, (List.append_assoc ..).symm, List.forall_mem_append.mpr ⟨hu, hw⟩⟩

theorem numeralTo_digits (s : PyStr) : NumeralTo s (s.dropWhile isDigit) :=
  ⟨s.takeWhile isDigit, List.takeWhile_append_dropWhile.symm,
    fun _ hc => .inl (List.mem_takeWhile_imp hc)⟩

theorem numeralTo_scanSign (s : PyStr) : NumeralTo s (scanSign s).2 := by
  rw [scanSign.eq_def]
  split
  · exact (NumeralTo.refl _).cons (.inr (by decide))
  · exact .refl _

theorem numeralTo_scanWhole (s : PyStr) : NumeralTo s (scanWhole s).2 := by
  rw [scanWhole.eq_def]
  split
  · exact (NumeralTo.refl _).cons (.inl (by decide))
  · exact numeralTo_digits _

theorem numeralTo_scanFraction (s : PyStr) : NumeralTo s (scanFraction s).2 := by
  rw [scanFraction.eq_def]
  split
  · split
    · exact .refl _
    · exact (numeralTo_digits _).cons (.inr (by decide))
  · exact .refl _

theorem numeralTo_scanExponentDigits (head : PyStr) {s whole : PyStr} (h : NumeralTo whole s) :
    NumeralTo whole (scanExponentDigits head s whole).2 := by
  rw [scanExponentDigits]
  split
  · exact .refl _
  · exact h.trans (numeralTo_digits s)

theorem numeralTo_scanExponent (s : PyStr) : NumeralTo s (scanExponent s).2 := by
  rw [scanExponent.eq_def]
  split
  · rename_i e g r
    split
    · rename_i he
      have hnum : Numeral (.scalar e) := by
        rcases he with rfl | rfl <;> exact .inr (by decide)
      split
      · rename_i hg
        have hsign : Numeral (.scalar g) := by
          rcases hg with rfl | rfl <;> exact .inr (by decide)
        exact numeralTo_scanExponentDigits _ (((NumeralTo.refl r).cons hsign).cons hnum)
      · exact numeralTo_scanExponentDigits _ ((NumeralTo.refl _).cons hnum)
    · exact .refl _
  · exact .refl _

theorem numeralTo_scanNumber {s r : PyStr} {t : NumberToken} (h : scanNumber s = some (t, r)) :
    NumeralTo s r := by
  have hall : NumeralTo s
      (scanExponent (scanFraction (scanWhole (scanSign s).2).2).2).2 :=
    (numeralTo_scanSign s).trans <| (numeralTo_scanWhole _).trans <|
      (numeralTo_scanFraction _).trans (numeralTo_scanExponent _)
  simp only [scanNumber] at h
  split at h
  · cases h
  · split at h <;>
    · simp only [Option.some.injEq, Prod.mk.injEq] at h
      exact h.2 ▸ hall

section Parse
variable [PyFloat F] {limits : JsonLimits} {fuel depth : ℕ} {s r t : PyStr} {v : Json F}
  {xs : List (Json F)} {ms : List (PyStr × Json F)}

theorem goes_parseNumber (h : parseNumber limits s = .ok (v, r)) : Stays s r := by
  have hnum : NumeralTo s r := by
    rw [parseNumber] at h
    split at h
    · cases h
    · rename_i neg ds rest hs
      cases hn : intOfToken limits neg ds with
      | error e => simp [hn, Except.map] at h
      | ok n =>
        simp only [hn, Except.map, Except.ok.injEq, Prod.mk.injEq] at h
        exact h.2 ▸ numeralTo_scanNumber hs
    · rename_i lit rest hs
      simp only [Except.ok.injEq, Prod.mk.injEq] at h
      exact h.2 ▸ numeralTo_scanNumber hs
  obtain ⟨u, rfl, hu⟩ := hnum
  exact goes_inert fun c hc => Scan.inert_of_numeral (hu c hc)

theorem goes_literal (ht : ∀ c ∈ t, Scan.Inert c) (h : t.isPrefixOf s = true) :
    Stays s (s.drop t.length) := by
  obtain ⟨r, rfl⟩ := List.isPrefixOf_iff_prefix.mp h
  rw [List.drop_left]
  exact goes_inert ht

theorem goes_parseScalar (h : parseScalar limits s = .ok (v, r)) : Stays s r := by
  unfold parseScalar at h
  split_ifs at h with h1 h2 h3 h4 h5 h6
  case neg => exact goes_parseNumber h
  all_goals
    cases h
  · exact goes_literal (by decide) h1
  · exact goes_literal (by decide) h2
  · exact goes_literal (by decide) h3
  · exact goes_literal (by decide) h4
  · exact goes_literal (by decide) h5
  · exact goes_literal (by decide) h6

/-- With this fuel, what the parser accepts leaves as many brackets open as it found; items
and members close the bracket they stand in. -/
def ParsesBalanced (F : Type) [PyFloat F] (limits : JsonLimits) (fuel : ℕ) : Prop :=
  (∀ depth s v r, parseValue (F := F) limits fuel depth s = .ok (v, r) →
    Stays s r) ∧
  (∀ depth s xs r, parseItems (F := F) limits fuel depth s = .ok (xs, r) →
    Closes s r) ∧
  (∀ depth s ms r, parseMembers (F := F) limits fuel depth s = .ok (ms, r) →
    Closes s r)

theorem goes_container {c : PyChar} (hc : c = .scalar '[' ∨ c = .scalar '\x7b')
    (h : Closes s r) : Stays (c :: s) r := by
  have hopen : Goes (fun d => .outside (d + 1)) (fun d => .outside (d + 1 + 1)) (c :: s) s :=
    Goes.cons (fun d => by rcases hc with rfl | rfl <;> simp [Scan.next]) s
  exact hopen.trans h.shift

theorem goes_close {c : PyChar} (hc : c = .scalar ']' ∨ c = .scalar '\x7d') (s : PyStr) :
    Closes (c :: s) s :=
  Goes.cons (fun d => by rcases hc with rfl | rfl <;> simp [Scan.next]) s

theorem goes_separator {c : PyChar} (hc : Scan.Inert c) (s : PyStr) : Stays (c :: s) s :=
  Goes.cons (fun d => Scan.next_inert hc d) s

theorem goes_quote (s : PyStr) :
    Goes (fun d => .outside (d + 1)) (fun d => .inString (d + 1)) (.scalar '"' :: s) s :=
  Goes.cons (fun d => by simp [Scan.next]) s

theorem goes_string (h : scanString s = some (t, r)) : Stays (.scalar '"' :: s) r :=
  (goes_quote s).trans (goes_scanString h).shift

theorem map_eq_ok {β γ : Type} {x : Except JsonError (β × PyStr)} {f : β → γ} {v : γ} {r : PyStr}
    (h : (x.map fun p => (f p.1, p.2)) = .ok (v, r)) : ∃ w, x = .ok (w, r) := by
  cases x with
  | error e => exact absurd h (by simp [Except.map])
  | ok p =>
    simp only [Except.map, Except.ok.injEq, Prod.mk.injEq] at h
    exact ⟨p.1, by rw [← h.2]⟩

/-- An object's own bracket is the last that it closes. -/
theorem goes_parseObject (ih : ParsesBalanced F limits fuel)
    (h : parseValue limits (fuel + 1) depth (.scalar '\x7b' :: s) = .ok (v, r)) : Closes s r := by
  simp only [parseValue] at h
  split at h
  · cases h
  · apply (goes_skipWs s).trans
    split at h
    · rename_i r' hr
      simp only [Except.ok.injEq, Prod.mk.injEq] at h
      rw [hr, ← h.2]
      exact goes_close (.inr rfl) r'
    · obtain ⟨ms, hms⟩ := map_eq_ok (f := fun ms => Json.obj (dictOfPairs ms)) h
      exact ih.2.2 _ _ _ _ hms

theorem goes_parseValue (ih : ParsesBalanced F limits fuel)
    (h : parseValue limits (fuel + 1) depth s = .ok (v, r)) : Stays s r := by
  unfold parseValue at h
  split at h
  · split at h
    · cases h
    · rename_i t r' hr
      simp only [Except.ok.injEq, Prod.mk.injEq] at h
      exact h.2 ▸ goes_string hr
  · rename_i s
    split at h
    · cases h
    · apply goes_container (.inl rfl)
      apply (goes_skipWs s).trans
      split at h
      · rename_i r' hr
        simp only [Except.ok.injEq, Prod.mk.injEq] at h
        rw [hr, ← h.2]
        exact goes_close (.inl rfl) r'
      · obtain ⟨xs, hxs⟩ := map_eq_ok h
        exact ih.2.1 _ _ _ _ hxs
  · apply goes_container (.inr rfl)
    apply goes_parseObject (v := v) ih
    simpa only [parseValue] using h
  · exact goes_parseScalar h

theorem goes_parseItems (ih : ParsesBalanced F limits fuel)
    (h : parseItems limits (fuel + 1) depth s = .ok (xs, r)) : Closes s r := by
  rw [parseItems] at h
  split at h
  · cases h
  · rename_i x r₁ hx
    have hvalue := (ih.1 _ _ _ _ hx).trans (goes_skipWs r₁)
    split at h
    · rename_i r₂ h₂
      simp only [Except.ok.injEq, Prod.mk.injEq] at h
      rw [h₂] at hvalue
      exact h.2 ▸ hvalue.trans (goes_close (.inl rfl) r₂)
    · rename_i r₂ h₂
      rw [h₂] at hvalue
      obtain ⟨ys, hys⟩ := map_eq_ok (f := fun ys => x :: ys) h
      exact hvalue.trans <| (goes_separator (by decide) r₂).trans <|
        (goes_skipWs r₂).trans (ih.2.1 _ _ _ _ hys)
    · cases h

theorem goes_parseMembers (ih : ParsesBalanced F limits fuel)
    (h : parseMembers limits (fuel + 1) depth s = .ok (ms, r)) : Closes s r := by
  unfold parseMembers at h
  split at h
  · rename_i s
    split at h
    · cases h
    · rename_i k r₁ hk
      have hkey := (goes_string hk).trans (goes_skipWs r₁)
      split at h
      · rename_i r₂ h₂
        rw [h₂] at hkey
        have hcolon := hkey.trans ((goes_separator (by decide) r₂).trans (goes_skipWs r₂))
        split at h
        · cases h
        · rename_i v r₃ hv
          have hvalue := hcolon.trans ((ih.1 _ _ _ _ hv).trans (goes_skipWs r₃))
          split at h
          · rename_i r₄ h₄
            simp only [Except.ok.injEq, Prod.mk.injEq] at h
            rw [h₄] at hvalue
            exact h.2 ▸ hvalue.trans (goes_close (.inr rfl) r₄)
          · rename_i r₄ h₄
            rw [h₄] at hvalue
            obtain ⟨rest, hrest⟩ := map_eq_ok (f := fun rest => (k, v) :: rest) h
            exact hvalue.trans <| (goes_separator (by decide) r₄).trans <|
              (goes_skipWs r₄).trans (ih.2.2 _ _ _ _ hrest)
          · cases h
      · cases h
  · cases h

theorem parsesBalanced (limits : JsonLimits) (fuel : ℕ) : ParsesBalanced F limits fuel := by
  induction fuel with
  | zero =>
    refine ⟨?_, ?_, ?_⟩ <;>
    · intro depth s x r h
      exact absurd h (by simp [parseValue, parseItems, parseMembers])
  | succ fuel ih =>
    exact ⟨fun _ _ _ _ h => goes_parseValue ih h, fun _ _ _ _ h => goes_parseItems ih h,
      fun _ _ _ _ h => goes_parseMembers ih h⟩

end Parse

theorem Scan.run_white {s : PyStr} (h : ∀ c ∈ s, isWhitespace c = true) :
    (Scan.outside 0).run s = .outside 0 := by
  induction s with
  | nil => rfl
  | cons c s ih =>
    rw [run_cons, next, if_pos (h c (by simp))]
    exact ih fun e he => h e (by simp [he])

inductive Scan.Flipped : Scan → Scan → Prop where
  | outside (d e : ℕ) : Flipped (.outside d) (.inString e)
  | inString (d e : ℕ) : Flipped (.inString d) (.outside e)
  | stuck (σ : Scan) : Flipped σ .stuck

theorem Scan.Flipped.next {σ τ : Scan} (h : Flipped σ τ) (c : PyChar) (hc : σ.next c ≠ .stuck) :
    Flipped (σ.next c) (τ.next c) := by
  cases h with
  | outside d e =>
    cases d with
    | zero =>
      by_cases hw : isWhitespace c = true
      · have hσ : (Scan.outside 0).next c = .outside 0 := by rw [Scan.next, if_pos hw]
        rw [hσ, Scan.next]
        have hi := inert_of_isWhitespace hw
        simp only [Inert, List.mem_cons, List.not_mem_nil, or_false, not_or] at hi
        rw [if_neg hi.1, if_neg hi.2.2.2.2.2]
        split
        · exact .stuck _
        · exact .outside _ _
      · exact absurd (by rw [Scan.next, if_neg hw]) hc
    | succ d =>
      simp only [Scan.next] at hc ⊢
      by_cases h1 : c = .scalar '"'
      · simp only [h1, if_true]
        exact .inString _ _
      by_cases h2 : c = .scalar '\\'
      · simp [h2] at hc
      simp only [h1, h2, if_false]
      split_ifs <;> first | exact .stuck _ | exact .outside _ _
  | inString d e =>
    simp only [Scan.next] at hc ⊢
    by_cases h1 : c = .scalar '"'
    · have hw : isWhitespace (.scalar '"') = false := by decide
      cases e with
      | zero =>
        simp only [h1, hw, Bool.false_eq_true, if_false]
        exact .stuck _
      | succ e =>
        simp only [h1, if_true]
        exact .outside _ _
    by_cases h2 : c = .scalar '\\'
    · have hw : isWhitespace (.scalar '\\') = false := by decide
      cases e with
      | zero =>
        simp only [h2, hw, Bool.false_eq_true, if_false]
        exact .stuck _
      | succ e =>
        simp [h2, Flipped.stuck]
    simp only [h1, h2, if_false] at hc ⊢
    split_ifs at hc ⊢
    · exact absurd rfl hc
    cases e with
    | zero =>
      simp only
      split_ifs
      · exact .inString _ _
      · exact .stuck _
    | succ e =>
      simp only [h1, h2, if_false]
      split_ifs <;> exact .inString _ _
  | stuck σ => exact .stuck _

theorem Scan.Flipped.run {σ τ : Scan} (h : Flipped σ τ) {s : PyStr} (hs : σ.run s ≠ .stuck) :
    Flipped (σ.run s) (τ.run s) := by
  induction s generalizing σ τ with
  | nil => exact h
  | cons c s ih =>
    rw [run_cons] at hs ⊢
    have hc : σ.next c ≠ .stuck := by
      intro he
      rw [he, run_stuck] at hs
      exact hs rfl
    exact ih (h.next c hc) hs

/-- The end of a document is not accepted behind the beginning of another one: it closes what
it opens and no more, and in an open string its own strings are outside. -/
theorem Scan.run_ne_closed {s : PyStr} {c : PyChar} {r : PyStr} (hs : s = c :: r)
    (hc : c = .scalar '\x7b') (hbalanced : ∀ e, (outside (e + 1)).run s = .outside (e + 1))
    (σ : Scan) : σ.run s ≠ .outside 0 := by
  have hw : isWhitespace (.scalar '\x7b') = false := by decide
  intro hrun
  cases σ with
  | outside e =>
    cases e with
    | zero =>
      rw [hs, hc, run_cons, next, hw, if_neg (by simp), run_stuck] at hrun
      cases hrun
    | succ e =>
      rw [hbalanced e] at hrun
      cases hrun
  | inString e =>
    have hflip := (Flipped.outside 1 e).run (s := s) (by rw [hbalanced 0]; simp)
    rw [hbalanced 0, hrun] at hflip
    cases hflip
  | escape e =>
    have hstuck : (escape e).next (.scalar '\x7b') = .stuck := rfl
    rw [hs, hc, run_cons, hstuck, run_stuck] at hrun
    cases hrun
  | hex e n =>
    have hstuck : (hex e n).next (.scalar '\x7b') = .stuck := by cases n <;> rfl
    rw [hs, hc, run_cons, hstuck, run_stuck] at hrun
    cases hrun
  | stuck =>
    rw [run_stuck] at hrun
    cases hrun

section Loads
variable [PyFloat F] {limits : JsonLimits}

theorem run_loads {s : PyStr} {v : Json F} (h : loads limits (.scalar '\x7b' :: s) = .ok v) :
    (Scan.outside 1).run s = .outside 0 := by
  have hskip : skipWs (.scalar '\x7b' :: s) = .scalar '\x7b' :: s := skipWs_head (by decide)
  rw [loads, if_neg (by simp), hskip] at h
  split at h
  · cases h
  · rename_i w r hr
    split at h
    · rename_i hnil
      obtain ⟨u, rfl, hu⟩ := goes_parseObject (parsesBalanced (F := F) limits _) hr
      rw [Scan.run_append, hu 0]
      exact Scan.run_white (List.dropWhile_eq_nil_iff.mp hnil)
    · cases h

/-- A document that runs on into another one is not accepted. -/
theorem loads_runs_on {lay : Layout} {ms : List (PyStr × Json F)}
    (hs : (Json.obj ms).Storable limits.intDigits limits.depth) (s : PyStr) (v : Json F) :
    loads limits (.scalar '\x7b' :: (s ++ (Json.obj ms).text lay 0)) ≠ .ok v := by
  intro h
  have hopen : ∃ r, (Json.obj ms).text lay 0 = .scalar '\x7b' :: r := by
    cases ms with
    | nil => exact ⟨_, by rw [text]; rfl⟩
    | cons m ms => exact ⟨_, by rw [text]; rfl⟩
  obtain ⟨r, hr⟩ := hopen
  have hbalanced : ∀ e, (Scan.outside (e + 1)).run ((Json.obj ms).text lay 0) =
      .outside (e + 1) := by
    obtain ⟨hfit, hnests, hunique⟩ := (storable_iff _ _).mp hs
    have hread := (allRead lay.spelling limits (2 * ((Json.obj ms).text lay 0).length + 1)).1
      (.obj ms) limits.depth 0 [] hfit hunique delimited_nil le_rfl
    rw [if_pos hnests] at hread
    obtain ⟨u, hu, hrun⟩ := (parsesBalanced (F := F) limits _).1 _ _ _ _ hread
    rw [List.append_nil, List.append_nil] at hu
    rw [← hu] at hrun
    exact hrun
  have hclosed := run_loads (v := v) h
  rw [Scan.run_append] at hclosed
  exact Scan.run_ne_closed hr rfl hbalanced _ hclosed

end Loads

end Json
end QronosAgent.Lib

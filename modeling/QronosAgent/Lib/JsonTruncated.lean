import QronosAgent.Lib.JsonBrackets

/-! What `json.loads` makes of a document that was cut off: `JSONDecodeError` and no other
error, as long as no float is written with more digits than the interpreter converts. -/
namespace QronosAgent.Lib

theorem prefix_append_cases {α : Type*} {t x y : List α} (h : t <+: x ++ y) :
    t <+: x ∧ t ≠ x ∨ ∃ u, t = x ++ u ∧ u <+: y := by
  rcases List.prefix_or_prefix_of_prefix h (List.prefix_append x y) with ht | ⟨u, rfl⟩
  · by_cases he : t = x
    · exact .inr ⟨[], by simp [he], List.nil_prefix⟩
    · exact .inl ⟨ht, he⟩
  · exact .inr ⟨u, rfl, (List.prefix_append_right_inj x).mp h⟩

namespace Json
variable {F : Type}

/-- A scan, with the length of the whole part that is being read; `none` behind a point or in an
exponent. -/
abbrev Gauge := Scan × Option ℕ

namespace Gauge

def next (γ : Gauge) (c : PyChar) : Gauge :=
  (γ.1.next c, match γ.1 with
    | .outside _ =>
      if isDigit c then γ.2.map (· + 1) else if c = .scalar '-' then γ.2
      else if c ∈ [.scalar '.', .scalar 'e', .scalar 'E', .scalar '+'] then none else some 0
    | _ => some 0)

def run (γ : Gauge) (s : PyStr) : Gauge := s.foldl next γ

/-- No bracket too many is opened, and no whole part grows too long. -/
def Fine (limits : JsonLimits) : Gauge → PyStr → Prop
  | _, [] => True
  | γ, c :: s => (∀ d, γ.1 = .outside (d + 1) →
      (c = .scalar '[' ∨ c = .scalar '\x7b' → d < limits.depth) ∧
      (isDigit c = true → ∀ n, γ.2 = some n → n < limits.intDigits)) ∧ Fine limits (γ.next c) s

variable {limits : JsonLimits} {γ : Gauge} {s t w : PyStr} {c : PyChar} {k : ℕ} {n : Option ℕ}

theorem run_fst : (γ.run s).1 = γ.1.run s := by
  induction s generalizing γ with
  | nil => rfl
  | cons c s ih => exact ih

theorem fine_append : Fine limits γ (s ++ t) ↔ Fine limits γ s ∧ Fine limits (γ.run s) t := by
  induction s generalizing γ with
  | nil => simp [Fine, run]
  | cons c s ih => simp only [List.cons_append, Fine, ih, and_assoc, run, List.foldl_cons]

theorem run_outside (h : (Scan.outside (k + 1)).run s = .outside (k + 1)) (n : Option ℕ) :
    ∃ m, run (.outside (k + 1), n) s = (.outside (k + 1), m) :=
  ⟨_, Prod.ext (run_fst.trans h) rfl⟩

theorem fine_cons (hc : Scan.Inert c) (hd : isDigit c = true → n = none)
    (h : Fine limits (next (.outside (k + 1), n) c) s) : Fine limits (.outside (k + 1), n) (c :: s) := by
  refine ⟨fun d _ => ⟨?_, fun hdigit m hm => ?_⟩, h⟩
  · rintro (rfl | rfl) <;> contradiction
  · rw [hd hdigit] at hm
    contradiction

/-- Code points that are neither brackets nor digits are nothing to fear. -/
theorem fine_quiet (h : ∀ c ∈ s, Scan.Inert c ∧ isDigit c = false) :
    Fine limits (.outside (k + 1), n) s := by
  induction s generalizing n with
  | nil => trivial
  | cons c s ih =>
    obtain ⟨hc, hs⟩ := List.forall_mem_cons.mp h
    apply fine_cons hc.1 (by simp [hc.2])
    rw [next, Scan.next_inert hc.1]
    exact ih hs

/-- White space, and what stands between values. -/
def Gap (w : PyStr) : Prop :=
  ∀ c ∈ w, isWhitespace c = true ∨ c = .scalar ',' ∨ c = .scalar ':'

theorem Gap.quiet (hw : Gap w) : ∀ c ∈ w, Scan.Inert c ∧ isDigit c = false ∧
    c ∉ [.scalar '-', .scalar '.', .scalar 'e', .scalar 'E', .scalar '+'] := by
  intro c hc
  rcases hw c hc with h | rfl | rfl
  · simp only [isWhitespace, Bool.or_eq_true, decide_eq_true_eq] at h
    rcases h with ((rfl | rfl) | rfl) | rfl <;> decide
  · decide
  · decide

theorem Gap.fine (hw : Gap w) : Fine limits (.outside (k + 1), n) w :=
  fine_quiet fun c hc => ⟨(hw.quiet c hc).1, (hw.quiet c hc).2.1⟩

theorem Gap.run (hw : Gap w) (h : w ≠ [] ∨ n = some 0) :
    run (.outside (k + 1), n) w = (.outside (k + 1), some 0) := by
  induction w generalizing n with
  | nil => rw [h.resolve_left fun h => h rfl]; rfl
  | cons c w ih =>
    obtain ⟨hi, hd, hc⟩ := hw.quiet c (by simp)
    simp only [List.mem_cons, List.not_mem_nil, or_false, not_or] at hc
    have hnext : next (.outside (k + 1), n) c = (.outside (k + 1), some 0) := by
      simp [next, Scan.next_inert hi, hd, hc]
    change Gauge.run (next _ c) w = _
    rw [hnext]
    exact ih (fun e he => hw e (by simp [he])) (.inr rfl)

theorem fine_skipWs (h : Fine limits (.outside (k + 1), some 0) s) :
    Fine limits (.outside (k + 1), some 0) (skipWs s) := by
  have hgap : Gap (s.takeWhile isWhitespace) := fun c hc => .inl (List.mem_takeWhile_imp hc)
  rw [← List.takeWhile_append_dropWhile (p := isWhitespace) (l := s), fine_append,
    hgap.run (.inr rfl)] at h
  exact h.2

/-- The text behind a separator, when what stands before it leaves as many brackets open. -/
theorem fine_after (h : Fine limits (.outside (k + 1), n) s)
    (hs : Stays s (c :: t))
    (hc : c = .scalar ',' ∨ c = .scalar ':') :
    Fine limits (.outside (k + 1), some 0) (skipWs t) := by
  obtain ⟨u, rfl, hu⟩ := hs
  obtain ⟨m, hm⟩ := run_outside (hu k) n
  have hgap : Gap [c] := fun e he => .inr (List.mem_singleton.mp he ▸ hc)
  rw [fine_append, hm, ← List.singleton_append, fine_append,
    hgap.run (.inl (List.cons_ne_nil _ _))] at h
  exact fine_skipWs h.2.2

theorem fine_open (h : Fine limits (.outside (k + 1), n) (c :: s))
    (hc : c = .scalar '[' ∨ c = .scalar '\x7b') :
    k < limits.depth ∧ Fine limits (.outside (k + 1 + 1), some 0) (skipWs s) := by
  obtain ⟨hallows, hs⟩ := h
  refine ⟨(hallows k rfl).1 hc, fine_skipWs ?_⟩
  rcases hc with rfl | rfl <;> exact hs

theorem fine_digits {m : ℕ} (hs : ∀ c ∈ s, isDigit c = true) (hne : s ≠ []) :
    Fine limits (.outside (k + 1), some m) s ↔ m + s.length ≤ limits.intDigits := by
  induction s generalizing m with
  | nil => exact absurd rfl hne
  | cons c s ih =>
    obtain ⟨hc, hs⟩ := List.forall_mem_cons.mp hs
    have hnext : next (.outside (k + 1), some m) c = (.outside (k + 1), some (m + 1)) := by
      simp [next, Scan.next_inert (Scan.inert_of_numeral (.inl hc)), hc]
    have hbracket : ¬ (c = .scalar '[' ∨ c = .scalar '\x7b') := by
      rintro (rfl | rfl) <;> contradiction
    have hfirst : (∀ d, Scan.outside (k + 1) = .outside (d + 1) →
        (c = .scalar '[' ∨ c = .scalar '\x7b' → d < limits.depth) ∧
        (isDigit c = true → ∀ n, some m = some n → n < limits.intDigits)) ↔
        m < limits.intDigits :=
      ⟨fun h => (h k rfl).2 hc m rfl, fun h d _ => ⟨fun hb => absurd hb hbracket,
        fun _ n hn => Option.some.inj hn ▸ h⟩⟩
    rw [Fine, hnext, hfirst, List.length_cons]
    by_cases hnil : s = []
    · subst hnil
      simp [Fine]
    · rw [ih hs hnil]
      have := List.length_pos_iff.mpr hnil
      omega

/-- Behind a point or in an exponent no digit counts. -/
theorem fine_numerals (hs : ∀ c ∈ s, Numeral c) : Fine limits (.outside (k + 1), none) s := by
  induction s with
  | nil => trivial
  | cons c s ih =>
    obtain ⟨hc, hs⟩ := List.forall_mem_cons.mp hs
    have hnext : next (.outside (k + 1), none) c = (.outside (k + 1), none) := by
      rw [next, Scan.next_inert (Scan.inert_of_numeral hc)]
      rcases hc with hc | hc
      · simp [hc]
      · simp only [List.mem_cons, List.not_mem_nil, or_false] at hc
        rcases hc with rfl | rfl | rfl | rfl | rfl <;> rfl
    apply fine_cons (Scan.inert_of_numeral hc) fun _ => rfl
    rw [hnext]
    exact ih hs

section Strings
variable {d : ℕ}

@[simp] theorem fine_inString : Fine limits (.inString d, n) (c :: s) ↔
    Fine limits (Scan.next (.inString d) c, some 0) s := by
  simp [Fine, next]

@[simp] theorem fine_escape : Fine limits (.escape d, n) (c :: s) ↔
    Fine limits (Scan.next (.escape d) c, some 0) s := by
  simp [Fine, next]

@[simp] theorem fine_hex {m : ℕ} : Fine limits (.hex d m, n) (c :: s) ↔
    Fine limits (Scan.next (.hex d m) c, some 0) s := by
  simp [Fine, next]

variable (limits) in
theorem scan_escape (c : PyChar) : (Fine limits (.inString d, n) (escape c ++ s) ↔
    Fine limits (.inString d, some 0) s) ∧ (Scan.inString d).run (escape c) = .inString d := by
  unfold escape
  split
  case h_8 h1 h2 h3 h4 h5 h6 h7 =>
    split
    · rename_i hc
      have hhigh := hexValue_hexDigit (c.code / 16) (by omega)
      have hlow := hexValue_hexDigit (c.code % 16) (by omega)
      have hzero : hexValue (.scalar '0') = some 0 := by decide
      simp [py, Scan.next, hhigh, hlow, hzero]
    · rename_i hc
      have hq : c ≠ .scalar '"' := fun h => h1 h
      have hb : c ≠ .scalar '\\' := fun h => h2 h
      simp [Scan.next, hq, hb, hc]
  all_goals simp [py, Scan.next, shortEscape]

end Strings
end Gauge

section Parse
variable [PyFloat F] {limits : JsonLimits} {s : PyStr} {k fuel depth : ℕ} {e : JsonError}
  {n : Option ℕ}

open Gauge (Fine)

theorem scanWhole_prefix (s : PyStr) : (scanWhole s).1 <+: s := by
  unfold scanWhole
  split
  · exact ⟨_, rfl⟩
  · exact List.takeWhile_prefix _

theorem decode_of_parseNumber (h : Fine limits (.outside (k + 1), some 0) s)
    (he : parseNumber (F := F) limits s = .error e) : e = .decode := by
  unfold parseNumber at he
  split at he
  · exact (Except.error.inj he).symm
  · rename_i neg ds r hscan
    obtain ⟨hne, hdigits⟩ := scanNumber_digits hscan
    have hsign : Fine limits (.outside (k + 1), some 0) (scanSign s).2 := by
      rw [scanSign.eq_def]
      split
      · exact h.2
      · exact h
    have hds : ds = (scanWhole (scanSign s).2).1 := by
      simp only [scanNumber] at hscan
      split at hscan
      · contradiction
      · split at hscan <;> simp_all
    obtain ⟨t, ht⟩ : ds <+: (scanSign s).2 := hds ▸ scanWhole_prefix _
    rw [← ht, Gauge.fine_append, Gauge.fine_digits hdigits hne, Nat.zero_add] at hsign
    simp [intOfToken, hsign.1, Except.map] at he
  · contradiction

/-- What fails on a text that is fine fails on its form. -/
def FailsDecoding (F : Type) [PyFloat F] (limits : JsonLimits) (fuel : ℕ) : Prop :=
  ∀ k depth s e, k + depth = limits.depth →
    (Fine limits (.outside (k + 1), some 0) s →
      parseValue (F := F) limits fuel depth s = .error e → e = .decode ∨ e = .outOfFuel) ∧
    (Fine limits (.outside (k + 1), some 0) s →
      parseItems (F := F) limits fuel depth s = .error e → e = .decode ∨ e = .outOfFuel) ∧
    (Fine limits (.outside (k + 1), some 0) s →
      parseMembers (F := F) limits fuel depth s = .error e → e = .decode ∨ e = .outOfFuel)

theorem map_eq_error {β γ : Type} {x : Except JsonError β} {f : β → γ} (h : x.map f = .error e) :
    x = .error e := by
  cases x with
  | error _ => exact congrArg _ (Except.error.inj h)
  | ok _ => contradiction

theorem parseValue_fails (ih : FailsDecoding F limits fuel) (hk : k + depth = limits.depth)
    (h : Fine limits (.outside (k + 1), some 0) s)
    (he : parseValue (F := F) limits (fuel + 1) depth s = .error e) : e = .decode ∨ e = .outOfFuel := by
  unfold parseValue at he
  split at he
  · split at he
    · exact .inl (Except.error.inj he).symm
    · contradiction
  · obtain ⟨hlt, hs⟩ := Gauge.fine_open h (.inl rfl)
    split at he
    · omega
    · split at he
      · contradiction
      · exact (ih (k + 1) _ _ e (by omega)).2.1 hs (map_eq_error he)
  · obtain ⟨hlt, hs⟩ := Gauge.fine_open h (.inr rfl)
    split at he
    · omega
    · split at he
      · contradiction
      · exact (ih (k + 1) _ _ e (by omega)).2.2 hs (map_eq_error he)
  · unfold parseScalar at he
    split_ifs at he
    exact .inl (decode_of_parseNumber h he)

theorem parseItems_fails (ih : FailsDecoding F limits fuel) (hk : k + depth = limits.depth)
    (h : Fine limits (.outside (k + 1), some 0) s)
    (he : parseItems (F := F) limits (fuel + 1) depth s = .error e) : e = .decode ∨ e = .outOfFuel := by
  rw [parseItems] at he
  split at he
  · rename_i hvalue
    exact Except.error.inj he ▸ (ih k depth s _ hk).1 h hvalue
  · rename_i x r hvalue
    have hread := ((parsesBalanced (F := F) limits fuel).1 _ _ _ _ hvalue).trans (goes_skipWs r)
    split at he
    · contradiction
    · rename_i r' hr
      rw [hr] at hread
      exact (ih k depth _ e hk).2.1 (Gauge.fine_after h hread (.inl rfl)) (map_eq_error he)
    · exact .inl (Except.error.inj he).symm

theorem parseMembers_fails (ih : FailsDecoding F limits fuel) (hk : k + depth = limits.depth)
    (h : Fine limits (.outside (k + 1), some 0) s)
    (he : parseMembers (F := F) limits (fuel + 1) depth s = .error e) : e = .decode ∨ e = .outOfFuel := by
  unfold parseMembers at he
  split at he
  · split at he
    · exact .inl (Except.error.inj he).symm
    · rename_i key r hkey
      have hread := (goes_string hkey).trans (goes_skipWs r)
      split at he
      · rename_i r' hr
        rw [hr] at hread
        have hcolon := Gauge.fine_after h hread (.inr rfl)
        split at he
        · rename_i hvalue
          exact Except.error.inj he ▸ (ih k depth _ _ hk).1 hcolon hvalue
        · rename_i v r hvalue
          have hread := ((parsesBalanced (F := F) limits fuel).1 _ _ _ _ hvalue).trans (goes_skipWs r)
          split at he
          · contradiction
          · rename_i r' hr
            rw [hr] at hread
            exact (ih k depth _ e hk).2.2 (Gauge.fine_after hcolon hread (.inl rfl)) (map_eq_error he)
          · exact .inl (Except.error.inj he).symm
      · exact .inl (Except.error.inj he).symm
  · exact .inl (Except.error.inj he).symm

theorem failsDecoding (limits : JsonLimits) (fuel : ℕ) : FailsDecoding F limits fuel := by
  induction fuel with
  | zero =>
    intro k depth s e _
    simp only [parseValue, parseItems, parseMembers, Except.error.injEq]
    exact ⟨fun _ h => .inr h.symm, fun _ h => .inr h.symm, fun _ h => .inr h.symm⟩
  | succ fuel ih =>
    exact fun k depth s e hk => ⟨parseValue_fails ih hk, parseItems_fails ih hk,
      parseMembers_fails ih hk⟩

/-- The digits before a float's point are no more than `digits`. -/
def FloatText.Fits (digits : ℕ) : FloatText → Prop
  | .nan | .infinity _ => True
  | .decimal t => (natText t.whole).length ≤ digits

mutual
/-- Every float of the value is written with at most `digits` digits before its point. -/
def FloatsFit (digits : ℕ) : Json F → Prop
  | .null | .bool _ | .int _ | .str _ => True
  | .float x => FloatText.Fits digits (PyFloat.text x)
  | .arr xs => FloatsFitItems digits xs
  | .obj ms => FloatsFitMembers digits ms

def FloatsFitItems (digits : ℕ) : List (Json F) → Prop
  | [] => True
  | x :: xs => FloatsFit digits x ∧ FloatsFitItems digits xs

def FloatsFitMembers (digits : ℕ) : List (PyStr × Json F) → Prop
  | [] => True
  | (_, v) :: ms => FloatsFit digits v ∧ FloatsFitMembers digits ms
end

/-- A text that is fine at this depth, and leaves as many brackets open; the gauge may stand
anywhere in a whole part. -/
def Calm (limits : JsonLimits) (k : ℕ) (s : PyStr) : Prop :=
  (∀ n, Fine limits (.outside (k + 1), n) s) ∧ (Scan.outside (k + 1)).run s = .outside (k + 1)

/-- The same where a value may begin. -/
def Passes (limits : JsonLimits) (k : ℕ) (s : PyStr) : Prop :=
  Fine limits (.outside (k + 1), some 0) s ∧ (Scan.outside (k + 1)).run s = .outside (k + 1)

variable {t : PyStr} {digits : ℕ}

theorem Calm.passes (h : Calm limits k s) : Passes limits k s := ⟨h.1 _, h.2⟩

theorem Calm.append (hs : Calm limits k s) (ht : Calm limits k t) : Calm limits k (s ++ t) := by
  refine ⟨fun n => ?_, by rw [Scan.run_append, hs.2, ht.2]⟩
  obtain ⟨m, hm⟩ := Gauge.run_outside hs.2 n
  rw [Gauge.fine_append, hm]
  exact ⟨hs.1 n, ht.1 m⟩

theorem Passes.append (hs : Passes limits k s) (ht : Calm limits k t) : Passes limits k (s ++ t) := by
  refine ⟨?_, by rw [Scan.run_append, hs.2, ht.2]⟩
  obtain ⟨m, hm⟩ := Gauge.run_outside hs.2 (some 0)
  rw [Gauge.fine_append, hm]
  exact ⟨hs.1, ht.1 m⟩

theorem calm_quiet (h : ∀ c ∈ s, Scan.Inert c ∧ isDigit c = false) : Calm limits k s :=
  ⟨fun _ => Gauge.fine_quiet h, Scan.run_inert (fun c hc => (h c hc).1) k⟩

/-- A value behind a gap. -/
theorem Passes.after {w : PyStr} (hw : Gauge.Gap w) (hne : w ≠ []) (h : Passes limits k s) :
    Calm limits k (w ++ s) := by
  refine ⟨fun n => ?_, ?_⟩
  · rw [Gauge.fine_append, hw.run (.inl hne)]
    exact ⟨hw.fine, h.1⟩
  · rw [Scan.run_append, Scan.run_inert fun c hc => (hw.quiet c hc).1]
    exact h.2

theorem calm_renderString (t : PyStr) : Calm limits k (renderString t) := by
  have hbody : Fine limits (.inString (k + 1), some 0) (t.flatMap escape ++ [.scalar '"']) ∧
      (Scan.inString (k + 1)).run (t.flatMap escape ++ [.scalar '"']) = .outside (k + 1) := by
    induction t with
    | nil => simp [Fine, Scan.next]
    | cons c t ih =>
      obtain ⟨hfine, hrun⟩ := Gauge.scan_escape limits (d := k + 1) (n := some 0)
        (s := t.flatMap escape ++ [.scalar '"']) c
      rw [List.flatMap_cons, List.append_assoc, Scan.run_append, hrun, hfine]
      exact ih
  refine ⟨fun n => ⟨fun d _ => ⟨by simp, fun hd => absurd hd (by decide)⟩, hbody.1⟩, ?_⟩
  exact hbody.2

theorem tail_numerals (t : DecimalText) :
    (∀ c ∈ t.fractionText ++ t.exponentText, Numeral c) ∧
    ∀ c r, t.fractionText ++ t.exponentText = c :: r → c = .scalar '.' ∨ c = .scalar 'e' := by
  have hexponent : (∀ c ∈ t.exponentText, Numeral c) ∧
      ∀ c r, t.exponentText = c :: r → c = .scalar 'e' := by
    rw [DecimalText.exponentText]
    cases t.exponent with
    | none => simp
    | some x =>
      obtain ⟨neg, d, ds⟩ := x
      refine ⟨List.forall_mem_cons.mpr ⟨.inr (by decide), List.forall_mem_cons.mpr ⟨?_, ?_⟩⟩,
        fun c r h => (List.cons.inj h).1.symm⟩
      · cases neg <;> exact .inr (by decide)
      · exact fun c hc => .inl (map_digitChar_digits (d :: ds) c hc)
  rw [DecimalText.fractionText]
  cases t.fraction with
  | nil => exact ⟨hexponent.1, fun c r h => .inr (hexponent.2 c r h)⟩
  | cons d ds =>
    refine ⟨List.forall_mem_append.mpr ⟨List.forall_mem_cons.mpr ⟨.inr (by decide), ?_⟩,
      hexponent.1⟩, fun c r h => .inl (List.cons.inj h).1.symm⟩
    exact fun c hc => .inl (map_digitChar_digits (d :: ds) c hc)

theorem passes_number {m : ℕ} (hm : (natText m).length ≤ limits.intDigits) (neg : Bool)
    (ht : ∀ c ∈ t, Numeral c) (hhead : ∀ c r, t = c :: r → c = .scalar '.' ∨ c = .scalar 'e') :
    Passes limits k (signText neg ++ (natText m ++ t)) := by
  have hbody : Fine limits (.outside (k + 1), some 0) (natText m ++ t) := by
    obtain ⟨n, hn⟩ := Gauge.run_outside (k := k) (Scan.run_inert (s := natText m)
      (fun c hc => Scan.inert_of_numeral (.inl (natText_digits m c hc))) k) (some 0)
    rw [Gauge.fine_append, hn, Gauge.fine_digits (natText_digits m) (natText_ne_nil m)]
    refine ⟨by omega, ?_⟩
    cases t with
    | nil => trivial
    | cons c t =>
      have htail : Fine limits (.outside (k + 1), none) t :=
        Gauge.fine_numerals (List.forall_mem_cons.mp ht).2
      rcases hhead c t rfl with rfl | rfl <;>
        exact Gauge.fine_cons (by decide) (fun hd => absurd hd (by decide)) htail
  have hsign : ∀ c ∈ signText neg, Numeral c := by
    cases neg
    · simp [signText]
    · simpa [signText, py] using .inr (by decide)
  refine ⟨?_, Scan.run_inert ?_ k⟩
  · cases neg with
    | false => exact hbody
    | true => exact Gauge.fine_cons (by decide) (fun hd => absurd hd (by decide)) hbody
  · intro c hc
    simp only [List.mem_append] at hc
    rcases hc with hc | hc | hc
    · exact Scan.inert_of_numeral (hsign c hc)
    · exact Scan.inert_of_numeral (.inl (natText_digits m c hc))
    · exact Scan.inert_of_numeral (ht c hc)

theorem passes_container {a b : PyChar} (hlt : k < limits.depth)
    (hab : (a = .scalar '[' ∧ b = .scalar ']') ∨ (a = .scalar '\x7b' ∧ b = .scalar '\x7d'))
    (h : Passes limits (k + 1) s) : Passes limits k (a :: (s ++ [b])) := by
  obtain ⟨n, hn⟩ := Gauge.run_outside h.2 (some 0)
  have hopen : (Scan.outside (k + 1)).next a = .outside (k + 1 + 1) := by
    rcases hab with ⟨rfl, -⟩ | ⟨rfl, -⟩ <;> rfl
  have hclose : (Scan.outside (k + 1 + 1)).next b = .outside (k + 1) := by
    rcases hab with ⟨-, rfl⟩ | ⟨-, rfl⟩ <;> rfl
  have hlast : Fine limits (.outside (k + 1 + 1), n) [b] := by
    refine ⟨fun d _ => ⟨?_, ?_⟩, trivial⟩ <;> rcases hab with ⟨-, rfl⟩ | ⟨-, rfl⟩ <;>
      simp [isDigit]
  constructor
  · refine ⟨fun d hd => ⟨fun _ => by cases hd; exact hlt, ?_⟩, ?_⟩
    · rcases hab with ⟨rfl, -⟩ | ⟨rfl, -⟩ <;> simp [isDigit]
    · have hnext : Gauge.next (.outside (k + 1), some 0) a = (.outside (k + 1 + 1), some 0) := by
        rcases hab with ⟨rfl, -⟩ | ⟨rfl, -⟩ <;> rfl
      rw [hnext, Gauge.fine_append, hn]
      exact ⟨h.1, hlast⟩
  · rw [Scan.run_cons, hopen, Scan.run_append, h.2]
    exact hclose

theorem Passes.behind {w : PyStr} (hw : Gauge.Gap w) (h : Passes limits k s) :
    Passes limits k (w ++ s) := by
  cases w with
  | nil => exact h
  | cons c w => exact (h.after hw (List.cons_ne_nil _ _)).passes

variable (lay : Layout)

theorem gap_layout (d : ℕ) {w : PyStr} (h : w = lay.opening d ∨ w = lay.comma d ∨ w = lay.closing d) :
    Gauge.Gap w := by
  intro c hc
  refine .inl (lay.isWhitespace (d := d) ?_)
  rcases h with rfl | rfl | rfl <;> simp [hc]

theorem calm_closing (d : ℕ) : Calm limits k (lay.closing d) :=
  calm_quiet fun c hc =>
    have h := (gap_layout lay d (.inr (.inr rfl))).quiet c hc
    ⟨h.1, h.2.1⟩

theorem calm_after_comma (d : ℕ) (h : Passes limits k s) :
    Calm limits k (.scalar ',' :: (lay.comma d ++ s)) := by
  refine h.after (w := .scalar ',' :: lay.comma d) (List.forall_mem_cons.mpr ⟨.inr (.inl rfl), ?_⟩)
    (List.cons_ne_nil _ _)
  exact gap_layout lay d (.inr (.inl rfl))

theorem calm_memberValue (h : Passes limits k s) : Calm limits k (py ": " ++ s) :=
  h.after (by simp [Gauge.Gap, py, isWhitespace]) (by simp [py])

mutual
theorem passes_text (hdigits : digits ≤ limits.intDigits) (k depth d : ℕ)
    (hk : k + depth = limits.depth) : ∀ v : Json F, v.Storable limits.intDigits depth →
    v.FloatsFit digits → Passes limits k (v.text lay d)
  | .null, _, _ | .bool true, _, _ | .bool false, _, _ => by
    rw [text]
    exact (calm_quiet (by decide)).passes
  | .int n, hs, _ => by
    rw [text, intText, ← List.append_nil (natText _)]
    exact passes_number (by simpa [Storable] using hs) _ (by simp) (by simp)
  | .float x, _, hf => by
    rw [text]
    rw [FloatsFit] at hf
    cases hx : PyFloat.text x with
    | nan => exact (calm_quiet (by decide)).passes
    | infinity neg => cases neg <;> exact (calm_quiet (by decide)).passes
    | decimal t =>
      rw [hx] at hf
      obtain ⟨hall, hhead⟩ := tail_numerals t
      simp only [FloatText.render, DecimalText.render, List.append_assoc]
      exact passes_number (le_trans hf hdigits) _ hall hhead
  | .str t, _, _ => by
    rw [text]
    exact (calm_renderString t).passes
  | .arr xs, hs, hf => by
    cases depth with
    | zero => exact absurd hs id
    | succ depth =>
      cases xs with
      | nil => exact passes_container (by omega) (.inl ⟨rfl, rfl⟩) (calm_quiet (s := []) (by simp)).passes
      | cons x xs =>
        have htext : (Json.arr (x :: xs)).text lay d = .scalar '[' :: ((lay.opening (d + 1) ++
            (x.text lay (d + 1) ++ (textItems lay (d + 1) xs ++ lay.closing d))) ++ [.scalar ']']) := by
          simp [text, py]
        rw [htext]
        apply passes_container (by omega) (.inl ⟨rfl, rfl⟩)
        apply Passes.behind (gap_layout lay (d + 1) (.inl rfl))
        apply (passes_text hdigits (k + 1) depth (d + 1) (by omega) x hs.1 hf.1).append
        exact (calm_textItems hdigits (k + 1) depth (d + 1) (by omega) xs hs.2 hf.2).append
          (calm_closing lay d)
  | .obj ms, hs, hf => by
    cases depth with
    | zero => exact absurd hs id
    | succ depth =>
      cases ms with
      | nil => exact passes_container (by omega) (.inr ⟨rfl, rfl⟩) (calm_quiet (s := []) (by simp)).passes
      | cons m ms =>
        obtain ⟨key, v⟩ := m
        have htext : (Json.obj ((key, v) :: ms)).text lay d = .scalar '\x7b' :: ((lay.opening (d + 1) ++
            (renderString key ++ ((py ": " ++ v.text lay (d + 1)) ++ (textMembers lay (d + 1) ms ++
              lay.closing d)))) ++ [.scalar '\x7d']) := by
          simp [text, py]
        rw [htext]
        apply passes_container (by omega) (.inr ⟨rfl, rfl⟩)
        apply Passes.behind (gap_layout lay (d + 1) (.inl rfl))
        apply (calm_renderString key).passes.append
        apply (calm_memberValue (passes_text hdigits (k + 1) depth (d + 1) (by omega) v hs.2.1 hf.1)).append
        exact (calm_textMembers hdigits (k + 1) depth (d + 1) (by omega) ms hs.2.2 hf.2).append
          (calm_closing lay d)

theorem calm_textItems (hdigits : digits ≤ limits.intDigits) (k depth d : ℕ)
    (hk : k + depth = limits.depth) : ∀ xs : List (Json F),
    StorableItems limits.intDigits depth xs → FloatsFitItems digits xs →
    Calm limits k (textItems lay d xs)
  | [], _, _ => calm_quiet (by simp [textItems])
  | x :: xs, hs, hf => by
    have hx := passes_text hdigits k depth d hk x hs.1 hf.1
    have hxs := calm_textItems hdigits k depth d hk xs hs.2 hf.2
    simpa [textItems] using (calm_after_comma lay d hx).append hxs

theorem calm_textMembers (hdigits : digits ≤ limits.intDigits) (k depth d : ℕ)
    (hk : k + depth = limits.depth) : ∀ ms : List (PyStr × Json F),
    StorableMembers limits.intDigits depth ms → FloatsFitMembers digits ms →
    Calm limits k (textMembers lay d ms)
  | [], _, _ => calm_quiet (by simp [textMembers])
  | (key, v) :: ms, hs, hf => by
    have hv := calm_memberValue (passes_text hdigits k depth d hk v hs.1 hf.1)
    have hms := calm_textMembers hdigits k depth d hk ms hs.2 hf.2
    simpa [textMembers] using
      (calm_after_comma lay d ((calm_renderString key).append hv).passes).append hms
end

theorem white_of_closed (h : (Scan.outside 0).run s = .outside 0) :
    ∀ c ∈ s, isWhitespace c = true := by
  induction s with
  | nil => simp
  | cons c s ih =>
    rw [Scan.run_cons, Scan.next] at h
    split at h
    · rename_i hc
      exact List.forall_mem_cons.mpr ⟨hc, ih h⟩
    · rw [Scan.run_stuck] at h
      contradiction

variable {lay}

theorem loads_cut {ms : List (PyStr × Json F)} (hdigits : digits ≤ limits.intDigits)
    (hs : (Json.obj ms).Storable limits.intDigits limits.depth)
    (hfit : (Json.obj ms).FloatsFit digits) (hp : s <+: (Json.obj ms).text lay 0)
    (hne : s ≠ (Json.obj ms).text lay 0) : loads (F := F) limits s = .error .decode := by
  obtain ⟨r, hr⟩ : ∃ r, (Json.obj ms).text lay 0 = .scalar '\x7b' :: (r ++ [.scalar '\x7d']) := by
    cases ms with
    | nil => exact ⟨[], rfl⟩
    | cons m ms => exact ⟨lay.opening 1 ++ (renderString m.1 ++ (py ": " ++ (m.2.text lay 1 ++
        (textMembers lay 1 ms ++ lay.closing 0)))), by simp [text, py]⟩
  have hfull := loads_text lay hs
  have hfine := (passes_text lay hdigits 0 limits.depth 0 (by omega) _ hs hfit).1
  obtain ⟨t, ht⟩ := hp
  rw [← ht, Gauge.fine_append] at hfine
  have hne' : t ≠ [] := by
    rintro rfl
    exact hne (by rw [← ht, List.append_nil])
  cases s with
  | nil => rfl
  | cons c s =>
    obtain ⟨rfl, (hr' : s ++ t = r ++ _)⟩ := List.cons.inj (ht.trans hr)
    cases hl : loads (F := F) limits (.scalar '\x7b' :: s) with
    | ok v =>
      -- the brackets are closed before the last one comes
      have hcut := run_loads hl
      rw [← ht, List.cons_append] at hfull
      have hclosed := run_loads hfull
      rw [Scan.run_append, hcut] at hclosed
      have hlast : .scalar '\x7d' ∈ t := by
        rcases List.eq_nil_or_concat t with rfl | ⟨t', b, rfl⟩
        · exact absurd rfl hne'
        · rw [List.concat_eq_append, ← List.append_assoc] at hr'
          obtain rfl := List.singleton_inj.mp (List.append_inj' hr' rfl).2
          simp
      exact absurd (white_of_closed hclosed _ hlast) (by decide)
    | error e =>
      have hskip : skipWs (.scalar '\x7b' :: s) = .scalar '\x7b' :: s := skipWs_head (by decide)
      have hfuel := loads_fuel (F := F) limits (.scalar '\x7b' :: s)
      rw [hl] at hfuel
      rw [loads, if_neg (by simp), hskip] at hl
      split at hl
      · rename_i hvalue
        have hfails := (failsDecoding (F := F) limits _ 0 limits.depth _ _ (by omega)).1 hfine.1 hvalue
        rw [Except.error.inj hl] at hfails
        exact congrArg _ (hfails.resolve_right fun h => hfuel (congrArg _ h))
      · split at hl
        · contradiction
        · exact hl.symm

end Parse
end Json
end QronosAgent.Lib

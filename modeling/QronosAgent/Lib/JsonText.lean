import QronosAgent.Lib.Fallible
import QronosAgent.Lib.JsonParse

/-! The texts `json.dumps(value, ensure_ascii=False)` writes: on one line, or indented. The
layouts differ in their white space only, so what is said of a text is said for every layout.
The values that can be written, and that what was read is one of them. -/
namespace QronosAgent.Lib
namespace Json
variable {F : Type}

/-- The white space of a text at nesting level `d`: behind an opening bracket, behind a
comma and before a closing bracket. -/
structure Layout where
  opening : ℕ → PyStr
  comma : ℕ → PyStr
  closing : ℕ → PyStr
  blank : ∀ d, ∀ c ∈ opening d ++ comma d ++ closing d, c = lf ∨ c = .scalar ' '

theorem mem_indent {d : ℕ} {c : PyChar} (h : c ∈ indent d) : c = lf ∨ c = .scalar ' ' := by
  rcases List.mem_cons.mp h with rfl | h
  · exact .inl rfl
  · exact .inr (List.eq_of_mem_replicate h)

/-- `indent=2`. -/
def Layout.indented : Layout where
  opening := indent
  comma := indent
  closing := indent
  blank d c hc := by
    simp only [List.mem_append, or_self] at hc
    exact mem_indent hc

/-- No indent, so the separators are `", "` and `": "`. -/
def Layout.oneLine : Layout where
  opening _ := []
  comma _ := py " "
  closing _ := []
  blank d c hc := .inr (by simpa [py] using hc)

section Text
variable [PyFloat F] (lay : Layout)

mutual
/-- The text of a value at nesting level `d`. -/
def text (d : ℕ) : Json F → PyStr
  | .null => py "null"
  | .bool true => py "true"
  | .bool false => py "false"
  | .int n => intText n
  | .float x => (PyFloat.text x).render
  | .str s => renderString s
  | .arr [] => py "[]"
  | .arr (x :: xs) =>
    .scalar '[' :: lay.opening (d + 1) ++ text (d + 1) x ++ textItems (d + 1) xs ++
      lay.closing d ++ py "]"
  | .obj [] => py "\x7b\x7d"
  | .obj ((k, v) :: ms) =>
    .scalar '\x7b' :: lay.opening (d + 1) ++ renderString k ++ py ": " ++ text (d + 1) v ++
      textMembers (d + 1) ms ++ lay.closing d ++ py "\x7d"

def textItems (d : ℕ) : List (Json F) → PyStr
  | [] => []
  | x :: xs => .scalar ',' :: lay.comma d ++ text d x ++ textItems d xs

def textMembers (d : ℕ) : List (PyStr × Json F) → PyStr
  | [] => []
  | (k, v) :: ms =>
    .scalar ',' :: lay.comma d ++ renderString k ++ py ": " ++ text d v ++ textMembers d ms
end

mutual
theorem render_eq_text (d : ℕ) : ∀ v : Json F, v.render d = v.text .indented d
  | .null | .int _ | .float _ | .str _ | .arr [] | .obj [] => by simp only [render, text]
  | .bool b => by cases b <;> simp only [render, text]
  | .arr (x :: xs) => by
    simp only [render, text, render_eq_text (d + 1) x, renderItems_eq_textItems (d + 1) xs]
    rfl
  | .obj ((k, v) :: ms) => by
    simp only [render, text, render_eq_text (d + 1) v,
      renderMembers_eq_textMembers (d + 1) ms]
    rfl

theorem renderItems_eq_textItems (d : ℕ) :
    ∀ xs : List (Json F), renderItems d xs = textItems .indented d xs
  | [] => by simp only [renderItems, textItems]
  | x :: xs => by
    simp only [renderItems, textItems, render_eq_text d x, renderItems_eq_textItems d xs]
    rfl

theorem renderMembers_eq_textMembers (d : ℕ) :
    ∀ ms : List (PyStr × Json F), renderMembers d ms = textMembers .indented d ms
  | [] => by simp only [renderMembers, textMembers]
  | (k, v) :: ms => by
    simp only [renderMembers, textMembers, render_eq_text d v,
      renderMembers_eq_textMembers d ms]
    rfl
end

end Text

mutual
/-- No object of the value has a key twice, as no `dict` does. -/
def UniqueKeys : Json F → Prop
  | .null | .bool _ | .int _ | .float _ | .str _ => True
  | .arr xs => UniqueKeysItems xs
  | .obj ms => (ms.map Prod.fst).Nodup ∧ UniqueKeysMembers ms

def UniqueKeysItems : List (Json F) → Prop
  | [] => True
  | x :: xs => UniqueKeys x ∧ UniqueKeysItems xs

def UniqueKeysMembers : List (PyStr × Json F) → Prop
  | [] => True
  | (_, v) :: ms => UniqueKeys v ∧ UniqueKeysMembers ms
end

mutual
/-- Containers nest at most `depth` deep; deeper ones raise `RecursionError`. -/
def nestsWithin : ℕ → Json F → Bool
  | _, .null | _, .bool _ | _, .int _ | _, .float _ | _, .str _ => true
  | 0, .arr _ | 0, .obj _ => false
  | depth + 1, .arr xs => nestsWithinItems depth xs
  | depth + 1, .obj ms => nestsWithinMembers depth ms

def nestsWithinItems (depth : ℕ) : List (Json F) → Bool
  | [] => true
  | x :: xs => nestsWithin depth x && nestsWithinItems depth xs

def nestsWithinMembers (depth : ℕ) : List (PyStr × Json F) → Bool
  | [] => true
  | (_, v) :: ms => nestsWithin depth v && nestsWithinMembers depth ms
end

/-- `json.dumps` does not raise. -/
def serialisable (limits : JsonLimits) (v : Json F) : Bool :=
  v.intsFit limits.intDigits && v.nestsWithin limits.depth

/-- `json.dumps(value, ensure_ascii=False)`; `none` when it raises. -/
def dumpsLine [PyFloat F] (limits : JsonLimits) (v : Json F) : Option PyStr :=
  if v.serialisable limits then some (v.text .oneLine 0) else none

mutual
theorem storable_iff {digits : ℕ} : ∀ (depth : ℕ) (v : Json F), v.Storable digits depth ↔
    v.intsFit digits = true ∧ v.nestsWithin depth = true ∧ v.UniqueKeys
  | _, .null | _, .bool _ | _, .float _ | _, .str _ | _, .int _ | 0, .arr _ | 0, .obj _ => by
    simp [Storable, intsFit, nestsWithin, UniqueKeys]
  | depth + 1, .arr xs => storableItems_iff_fit depth xs
  | depth + 1, .obj ms => by
    simp only [intsFit, nestsWithin, UniqueKeys, Storable, storableMembers_iff_fit depth ms]
    tauto

theorem storableItems_iff_fit {digits : ℕ} : ∀ (depth : ℕ) (xs : List (Json F)),
    StorableItems digits depth xs ↔
      intsFitItems digits xs = true ∧ nestsWithinItems depth xs = true ∧ UniqueKeysItems xs
  | _, [] => by simp [StorableItems, intsFitItems, nestsWithinItems, UniqueKeysItems]
  | depth, x :: xs => by
    simp only [intsFitItems, nestsWithinItems, UniqueKeysItems, StorableItems, Bool.and_eq_true,
      storable_iff depth x, storableItems_iff_fit depth xs]
    tauto

theorem storableMembers_iff_fit {digits : ℕ} : ∀ (depth : ℕ) (ms : List (PyStr × Json F)),
    StorableMembers digits depth ms ↔
      intsFitMembers digits ms = true ∧ nestsWithinMembers depth ms = true ∧ UniqueKeysMembers ms
  | _, [] => by simp [StorableMembers, intsFitMembers, nestsWithinMembers, UniqueKeysMembers]
  | depth, (_, v) :: ms => by
    simp only [intsFitMembers, nestsWithinMembers, UniqueKeysMembers, StorableMembers,
      Bool.and_eq_true, storable_iff depth v, storableMembers_iff_fit depth ms]
    tauto
end

/-- A document that Python can hold and write is one that it reads back. -/
theorem storable_of_serialisable {limits : JsonLimits} {v : Json F}
    (h : v.serialisable limits = true) (hu : v.UniqueKeys) :
    v.Storable limits.intDigits limits.depth := by
  simp only [serialisable, Bool.and_eq_true] at h
  exact (storable_iff limits.depth v).mpr ⟨h.1, h.2, hu⟩

/-! What `json.loads` reads can be written and read again. -/

theorem ofDigitChars_lt {ds : List Char} (h : ∀ c ∈ ds, c.isDigit = true) :
    Nat.ofDigitChars 10 ds 0 < 10 ^ ds.length := by
  induction ds with
  | nil => decide
  | cons c ds ih =>
    have hc := h c List.mem_cons_self
    have htail := ih fun d hd => h d (List.mem_cons_of_mem _ hd)
    have hdigit : c.toNat - '0'.toNat ≤ 9 := by
      simp only [Char.isDigit, Bool.and_eq_true, decide_eq_true_eq, UInt32.le_iff_toNat_le] at hc
      have hle : c.toNat ≤ 57 := hc.2
      have hzero : '0'.toNat = 48 := rfl
      omega
    rw [Nat.ofDigitChars_cons, Nat.ofDigitChars_eq_ofDigitChars_zero, List.length_cons, Nat.pow_succ,
      Nat.mul_zero, Nat.zero_add]
    have hmul := Nat.mul_le_mul_left (10 ^ ds.length) hdigit
    omega

theorem length_natText_ofDigits {ds : PyStr} (h : ∀ c ∈ ds, isDigit c = true) (hne : ds ≠ []) :
    (natText (Nat.ofDigitChars 10 (digitsText ds) 0)).length ≤ ds.length := by
  have hle : (digitsText ds).length ≤ ds.length := List.length_filterMap_le _ _
  have hdigits : ∀ c ∈ digitsText ds, c.isDigit = true := by
    intro c hc
    obtain ⟨a, ha, hac⟩ := List.mem_filterMap.mp hc
    have had := h a ha
    cases a with
    | scalar b =>
      cases hac
      exact had
    | surrogate n => cases hac
  have hlt : Nat.ofDigitChars 10 (digitsText ds) 0 < 10 ^ ds.length :=
    (ofDigitChars_lt hdigits).trans_le (Nat.pow_le_pow_right (by omega) hle)
  rw [natText, List.length_map, Nat.length_toDigits_le_iff (by omega) (List.length_pos_iff.mpr hne)]
  exact hlt

theorem scanWhole_digits {s : PyStr} : ∀ c ∈ (scanWhole s).1, isDigit c = true := by
  unfold scanWhole
  split
  · intro c hc
    rw [List.mem_singleton.mp hc]
    decide
  · exact fun c hc => List.mem_takeWhile_imp hc

section Loads
variable [PyFloat F]

variable {s r : PyStr} {limits : JsonLimits} {depth fuel : ℕ} {v : Json F}
  {ms : List (PyStr × Json F)}

theorem scanNumber_digits {ds : PyStr} {neg : Bool} (h : scanNumber s = some (.int neg ds, r)) :
    ds ≠ [] ∧ ∀ c ∈ ds, isDigit c = true := by
  simp only [scanNumber] at h
  split at h
  · cases h
  · rename_i hne
    split at h
    · cases h
      exact ⟨hne, scanWhole_digits⟩
    · cases h

theorem storable_parseNumber (h : parseNumber limits s = .ok (v, r)) :
    v.Storable limits.intDigits depth := by
  unfold parseNumber at h
  split at h
  · cases h
  · rename_i neg ds rest hscan
    obtain ⟨hne, hdigits⟩ := scanNumber_digits hscan
    have hfit := length_natText_ofDigits hdigits hne
    unfold intOfToken at h
    by_cases hlength : ds.length ≤ limits.intDigits
    · rw [if_pos hlength] at h
      cases h
      simp only [Storable]
      cases neg <;> simpa using hfit.trans hlength
    · rw [if_neg hlength] at h
      cases h
  · cases h
    simp only [Storable]

theorem storable_parseScalar (h : parseScalar limits s = .ok (v, r)) :
    v.Storable limits.intDigits depth := by
  unfold parseScalar at h
  split_ifs at h
  case neg => exact storable_parseNumber h
  all_goals
    cases h
    simp only [Storable]

omit [PyFloat F] in
theorem storableMembers_iff {digits : ℕ} :
    StorableMembers digits depth ms ↔ ∀ kv ∈ ms, Storable digits depth kv.2 := by
  induction ms with
  | nil => simp [StorableMembers]
  | cons kv ms ih => simp [StorableMembers, ih]

omit [PyFloat F] in
theorem mem_dictOfPairs {kv : PyStr × Json F} (h : kv ∈ dictOfPairs ms) : kv ∈ ms := by
  rcases Dict.get?_foldl_set (Dict.get?_eq_some.mpr h) with ⟨a, ha, hkey, hvalue⟩ | hnone
  · exact Prod.ext hkey hvalue ▸ ha
  · cases hnone

def ParseStorable (F : Type) [PyFloat F] (limits : JsonLimits) (fuel : ℕ) : Prop :=
  (∀ depth s (v : Json F) r, parseValue limits fuel depth s = .ok (v, r) →
    v.Storable limits.intDigits depth) ∧
  (∀ depth s (xs : List (Json F)) r, parseItems limits fuel depth s = .ok (xs, r) →
    StorableItems limits.intDigits depth xs) ∧
  ∀ depth s (ms : List (PyStr × Json F)) r, parseMembers limits fuel depth s = .ok (ms, r) →
    StorableMembers limits.intDigits depth ms

theorem storable_parseValue (ih : ParseStorable F limits fuel) (depth : ℕ) (s : PyStr)
    (v : Json F) (r : PyStr) (h : parseValue limits (fuel + 1) depth s = .ok (v, r)) :
    v.Storable limits.intDigits depth := by
  unfold parseValue at h
  split at h
  · split at h
    · cases h
    · cases h
      simp only [Storable]
  · split at h
    · cases h
    · rename_i depth
      split at h
      · cases h
        exact storableItems_iff.mpr fun x hx => absurd hx List.not_mem_nil
      · obtain ⟨⟨xs, r'⟩, hxs, heq⟩ := map_eq_ok.mp h
        cases heq
        exact ih.2.1 depth _ xs r' hxs
  · split at h
    · cases h
    · rename_i depth
      split at h
      · cases h
        exact ⟨List.nodup_nil, trivial⟩
      · obtain ⟨⟨ms, r'⟩, hms, heq⟩ := map_eq_ok.mp h
        cases heq
        refine ⟨Dict.nodup _, storableMembers_iff.mpr fun kv hkv => ?_⟩
        exact storableMembers_iff.mp (ih.2.2 depth _ ms r' hms) kv (mem_dictOfPairs hkv)
  · exact storable_parseScalar h

theorem storable_parseItems (ih : ParseStorable F limits fuel) (depth : ℕ) (s : PyStr)
    (xs : List (Json F)) (r : PyStr) (h : parseItems limits (fuel + 1) depth s = .ok (xs, r)) :
    StorableItems limits.intDigits depth xs := by
  rw [parseItems] at h
  split at h
  · cases h
  · rename_i x r₁ hx
    have hstorable := ih.1 depth s x r₁ hx
    split at h
    · cases h
      exact ⟨hstorable, trivial⟩
    · obtain ⟨⟨ys, r₂⟩, hys, heq⟩ := map_eq_ok.mp h
      cases heq
      exact ⟨hstorable, ih.2.1 depth _ ys r₂ hys⟩
    · cases h

theorem storable_parseMembers (ih : ParseStorable F limits fuel) (depth : ℕ) (s : PyStr)
    (ms : List (PyStr × Json F)) (r : PyStr)
    (h : parseMembers limits (fuel + 1) depth s = .ok (ms, r)) :
    StorableMembers limits.intDigits depth ms := by
  unfold parseMembers at h
  split at h
  · split at h
    · cases h
    · split at h
      · split at h
        · cases h
        · rename_i v r₁ hv
          have hstorable := ih.1 depth _ v r₁ hv
          split at h
          · cases h
            exact ⟨hstorable, trivial⟩
          · obtain ⟨⟨ns, r₂⟩, hns, heq⟩ := map_eq_ok.mp h
            cases heq
            exact ⟨hstorable, ih.2.2 depth _ ns r₂ hns⟩
          · cases h
      · cases h
  · cases h

theorem parseStorable (limits : JsonLimits) (fuel : ℕ) : ParseStorable F limits fuel := by
  induction fuel with
  | zero =>
    refine ⟨?_, ?_, ?_⟩
    · intro depth s v r h
      cases h
    · intro depth s xs r h
      cases h
    · intro depth s ms r h
      cases h
  | succ fuel ih =>
    exact ⟨storable_parseValue ih, storable_parseItems ih, storable_parseMembers ih⟩

theorem storable_of_loads (h : loads limits s = .ok v) :
    v.Storable limits.intDigits limits.depth := by
  unfold loads at h
  split at h
  · cases h
  · split at h
    · cases h
    · rename_i w r hw
      split at h
      · cases h
        exact (parseStorable limits _).1 limits.depth _ v r hw
      · cases h

end Loads

end Json
end QronosAgent.Lib

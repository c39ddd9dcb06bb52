import QronosAgent.Lib.JsonRoundTrip
import QronosAgent.Lib.Sorted

/-! The text `json.dumps(value, separators=(",", ":"), ensure_ascii=False)` writes, and the one
with `sort_keys=True`, which is equal for two values only if they are equal as Python values. -/
namespace QronosAgent.Lib

def FloatText.isDecimal : FloatText → Bool
  | .decimal _ => true
  | _ => false

namespace Json
variable {F : Type}

section Compact
variable [PyFloat F]

mutual
def compact : Json F → PyStr
  | .null => py "null"
  | .bool true => py "true"
  | .bool false => py "false"
  | .int n => intText n
  | .float x => (PyFloat.text x).render
  | .str s => renderString s
  | .arr [] => py "[]"
  | .arr (x :: xs) => .scalar '[' :: (compact x ++ (compactItems xs ++ [.scalar ']']))
  | .obj [] => py "\x7b\x7d"
  | .obj ((k, v) :: ms) =>
    .scalar '\x7b' :: (renderString k ++ .scalar ':' :: (compact v ++
      (compactMembers ms ++ [.scalar '\x7d'])))

def compactItems : List (Json F) → PyStr
  | [] => []
  | x :: xs => .scalar ',' :: (compact x ++ compactItems xs)

def compactMembers : List (PyStr × Json F) → PyStr
  | [] => []
  | (k, v) :: ms =>
    .scalar ',' :: (renderString k ++ .scalar ':' :: (compact v ++ compactMembers ms))
end

def compactSpelling : Spelling F where
  opening _ := []
  comma _ := []
  closing _ := []
  blank _ _ h := by simp at h
  colon := []
  colon_blank := by simp
  value _ := compact
  items _ := compactItems
  members _ := compactMembers
  value_scalar d v hv := by
    cases v with
    | bool b => cases b <;> rfl
    | arr xs => contradiction
    | obj ms => contradiction
    | _ => rfl
  value_arr_nil _ := rfl
  value_arr _ _ _ := rfl
  value_obj_nil _ := rfl
  value_obj _ _ _ _ := rfl
  items_nil _ := rfl
  items_cons _ _ _ := rfl
  members_nil _ := rfl
  members_cons _ _ _ _ := rfl

variable {v : Json F} {s t : PyStr} {limits : JsonLimits} {fuel : ℕ}

/-- With enough fuel the scanner reads a scalar back and stops right behind it. -/
theorem parseValue_compact (hv : v.isScalar = true) (hs : Delimited s) {n : ℕ}
    (hn : 2 * v.compact.length + 1 ≤ n) :
    parseValue ⟨0, n⟩ n 0 (v.compact ++ s) = .ok (v, s) := by
  obtain ⟨n, rfl⟩ := Nat.exists_eq_succ_of_ne_zero (show n ≠ 0 by omega)
  have htext : v.compact = v.text .oneLine 0 := compactSpelling.value_scalar 0 v hv
  rw [htext] at hn ⊢
  apply parseValue_text hv _ hs
  cases v with
  | int m =>
    simp only [text, intText, List.length_append] at hn
    simp only [intsFit, decide_eq_true_eq]
    omega
  | arr xs => contradiction
  | obj ms => contradiction
  | _ => simp only [intsFit]

/-- A scanner that may not enter a container stops at one. -/
theorem parseValue_container (hv : v.isScalar = false) (s : PyStr) (n : ℕ) :
    parseValue (F := F) ⟨0, n + 1⟩ (n + 1) 0 (v.compact ++ s) = .error .recursion := by
  cases v with
  | arr xs => cases xs <;> simp only [compact, py, List.cons_append] <;> rfl
  | obj ms => cases ms <;> simp only [compact, py, List.cons_append] <;> rfl
  | _ => contradiction

theorem delimited_compactItems (xs : List (Json F)) (s : PyStr) :
    Delimited (compactItems xs ++ .scalar ']' :: s) :=
  delimited_items compactSpelling 0 0 xs s

theorem delimited_compactMembers (ms : List (PyStr × Json F)) (s : PyStr) :
    Delimited (compactMembers ms ++ .scalar '\x7d' :: s) :=
  delimited_members compactSpelling 0 0 ms s

theorem compact_ne_bracket (v : Json F) (s t : PyStr) : v.compact ++ s ≠ .scalar ']' :: t := by
  obtain ⟨c, r, hr, -, hc⟩ := compactSpelling.valueHead 0 v
  intro h
  rw [show v.compact = c :: r from hr] at h
  exact hc (by simp [(List.cons.inj h).1])

/-- A key and what follows it are read off the text. -/
theorem renderString_inj {k l : PyStr} (h : renderString k ++ s = renderString l ++ t) :
    k = l ∧ s = t := by
  simp only [renderString, List.cons_append, List.append_assoc, List.nil_append,
    List.cons.injEq, true_and] at h
  have hk := scanString_render k s
  have hl := scanString_render l t
  rw [h, hl] at hk
  simpa [eq_comm] using hk

/-- Texts of scalars and texts of containers never meet. -/
theorem compact_inj_of_isScalar {w : Json F} (h : v.isScalar = true ∨ w.isScalar = true)
    (hs : Delimited s) (ht : Delimited t) (he : v.compact ++ s = w.compact ++ t) :
    v = w ∧ s = t := by
  generalize hn : 2 * (v.compact.length + w.compact.length) + 1 = n
  cases hv : v.isScalar <;> cases hw : w.isScalar
  · simp [hv, hw] at h
  · have hread := parseValue_compact hw ht (n := n + 1) (by omega)
    rw [← he, parseValue_container hv] at hread
    contradiction
  · have hread := parseValue_compact hv hs (n := n + 1) (by omega)
    rw [he, parseValue_container hw] at hread
    contradiction
  · have hread := parseValue_compact hv hs (n := n) (by omega)
    rw [he, parseValue_compact hw ht (by omega)] at hread
    simpa [eq_comm] using hread

mutual
/-- A text is decoded in one way only, whatever follows it. -/
theorem compact_inj : ∀ (v w : Json F) {s t : PyStr}, Delimited s → Delimited t →
    v.compact ++ s = w.compact ++ t → v = w ∧ s = t
  | .null, w | .bool _, w | .int _, w | .float _, w | .str _, w => compact_inj_of_isScalar (.inl rfl)
  | .arr xs, .null | .arr xs, .bool _ | .arr xs, .int _ | .arr xs, .float _ | .arr xs, .str _ =>
    compact_inj_of_isScalar (.inr rfl)
  | .obj ms, .null | .obj ms, .bool _ | .obj ms, .int _ | .obj ms, .float _ | .obj ms, .str _ =>
    compact_inj_of_isScalar (.inr rfl)
  | .arr xs, .obj ms => fun _ _ he => by
    cases xs <;> cases ms <;> simp [compact, py] at he
  | .obj ms, .arr xs => fun _ _ he => by
    cases xs <;> cases ms <;> simp [compact, py] at he
  | .arr [], .arr [] => fun _ _ he => by simpa [compact, py] using he
  | .arr [], .arr (y :: ys) => fun _ _ he => by
    simp only [compact, List.cons_append, List.append_assoc] at he
    exact absurd (List.cons.inj he).2.symm (compact_ne_bracket y _ _)
  | .arr (x :: xs), .arr [] => fun _ _ he => by
    simp only [compact, List.cons_append, List.append_assoc] at he
    exact absurd (List.cons.inj he).2 (compact_ne_bracket x _ _)
  | .arr (x :: xs), .arr (y :: ys) => fun hs ht he => by
    simp only [compact, List.cons_append, List.append_assoc, List.nil_append, List.cons.injEq,
      true_and] at he
    obtain ⟨rfl, hrest⟩ := compact_inj x y (delimited_compactItems _ _)
      (delimited_compactItems _ _) he
    obtain ⟨rfl, rfl⟩ := compactItems_inj xs ys hrest
    exact ⟨rfl, rfl⟩
  | .obj [], .obj [] => fun _ _ he => by simpa [compact, py] using he
  | .obj [], .obj (m :: ms) => fun _ _ he => by
    simp [compact, py, renderString] at he
  | .obj (m :: ms), .obj [] => fun _ _ he => by
    simp [compact, py, renderString] at he
  | .obj ((k, v) :: ms), .obj ((l, w) :: ns) => fun hs ht he => by
    simp only [compact, List.cons_append, List.append_assoc, List.nil_append, List.cons.injEq,
      true_and] at he
    obtain ⟨rfl, hvalue⟩ := renderString_inj he
    obtain ⟨rfl, hrest⟩ := compact_inj v w (delimited_compactMembers _ _)
      (delimited_compactMembers _ _) (List.cons.inj hvalue).2
    obtain ⟨rfl, rfl⟩ := compactMembers_inj ms ns hrest
    exact ⟨rfl, rfl⟩

theorem compactItems_inj : ∀ (xs ys : List (Json F)) {s t : PyStr},
    compactItems xs ++ .scalar ']' :: s = compactItems ys ++ .scalar ']' :: t → xs = ys ∧ s = t
  | [], [] => fun he => by simpa [compactItems] using he
  | [], y :: ys => fun he => by simp [compactItems] at he
  | x :: xs, [] => fun he => by simp [compactItems] at he
  | x :: xs, y :: ys => fun he => by
    simp only [compactItems, List.cons_append, List.append_assoc, List.cons.injEq,
      true_and] at he
    obtain ⟨rfl, hrest⟩ := compact_inj x y (delimited_compactItems _ _)
      (delimited_compactItems _ _) he
    obtain ⟨rfl, rfl⟩ := compactItems_inj xs ys hrest
    exact ⟨rfl, rfl⟩

theorem compactMembers_inj : ∀ (ms ns : List (PyStr × Json F)) {s t : PyStr},
    compactMembers ms ++ .scalar '\x7d' :: s = compactMembers ns ++ .scalar '\x7d' :: t →
      ms = ns ∧ s = t
  | [], [] => fun he => by simpa [compactMembers] using he
  | [], n :: ns => fun he => by simp [compactMembers] at he
  | m :: ms, [] => fun he => by simp [compactMembers] at he
  | (k, v) :: ms, (l, w) :: ns => fun he => by
    simp only [compactMembers, List.cons_append, List.append_assoc, List.cons.injEq,
      true_and] at he
    obtain ⟨rfl, hvalue⟩ := renderString_inj he
    obtain ⟨rfl, hrest⟩ := compact_inj v w (delimited_compactMembers _ _)
      (delimited_compactMembers _ _) (List.cons.inj hvalue).2
    obtain ⟨rfl, rfl⟩ := compactMembers_inj ms ns hrest
    exact ⟨rfl, rfl⟩
end

theorem compact_injective : Function.Injective (compact (F := F)) := fun v w h =>
  (compact_inj v w delimited_nil delimited_nil (by simpa using h)).1

theorem loads_intTooLong {limits : JsonLimits} {n : ℕ} (h : limits.intDigits < (natText n).length) :
    loads (F := F) limits (natText n) = .error .intTooLong := by
  have htext : signText false ++ (natText n ++ []) = natText n := by simp [signText]
  have hhead := valueHead_number false n []
  have hscalar := @parseScalar_number F _ limits false n []
  have hvalue := fun fuel depth => @parseValue_number F _ limits fuel depth false n []
  rw [htext] at hhead hscalar
  simp only [htext] at hvalue
  have hscan := scanNumber_int (n : ℤ) delimited_nil
  have hint : intText (n : ℤ) ++ [] = natText n := by simp [intText, signText]
  rw [hint] at hscan
  have hnumber : parseNumber (F := F) limits (natText n) = .error .intTooLong := by
    have hlong : ¬ (natText n).length ≤ limits.intDigits := by omega
    simp only [parseNumber, hscan, intOfToken, Int.natAbs_natCast, if_neg hlong, Except.map]
  have hbom : (natText n).head? ≠ some (.scalar '\ufeff') := by
    obtain ⟨c, r, hr, -, hc⟩ := hhead
    rw [hr, List.head?_cons, ne_eq, Option.some.injEq]
    exact fun h => hc (by simp [h])
  rw [loads, if_neg hbom, hhead.skipWs, hvalue, hscalar, hnumber]

end Compact

inductive DumpsError where
  | recursion
  /-- `ValueError` from an integer that is too long to write -/
  | intTooLong

mutual
/-- The first exception that writing a value meets, containers being entered in order. -/
def dumpsError (digits : ℕ) : ℕ → Json F → Option DumpsError
  | _, .null | _, .bool _ | _, .float _ | _, .str _ => none
  | _, .int n => if (natText n.natAbs).length ≤ digits then none else some .intTooLong
  | 0, .arr _ | 0, .obj _ => some .recursion
  | depth + 1, .arr xs => dumpsErrorItems digits depth xs
  | depth + 1, .obj ms => dumpsErrorMembers digits depth ms

def dumpsErrorItems (digits : ℕ) (depth : ℕ) : List (Json F) → Option DumpsError
  | [] => none
  | x :: xs => (dumpsError digits depth x).or (dumpsErrorItems digits depth xs)

def dumpsErrorMembers (digits : ℕ) (depth : ℕ) : List (PyStr × Json F) → Option DumpsError
  | [] => none
  | (_, v) :: ms => (dumpsError digits depth v).or (dumpsErrorMembers digits depth ms)
end

mutual
theorem intsFit_of_dumps {digits : ℕ} : ∀ (depth : ℕ) (v : Json F),
    dumpsError digits depth v = none → v.intsFit digits = true
  | _, .null | _, .bool _ | _, .float _ | _, .str _ => fun _ => by simp only [intsFit]
  | _, .int n => fun h => by simpa [dumpsError, intsFit] using h
  | 0, .arr _ | 0, .obj _ => fun h => absurd h (by simp [dumpsError])
  | depth + 1, .arr xs => fun h => by
    simp only [dumpsError, intsFit] at h ⊢
    exact intsFitItems_of_dumps depth xs h
  | depth + 1, .obj ms => fun h => by
    simp only [dumpsError, intsFit] at h ⊢
    exact intsFitMembers_of_dumps depth ms h

theorem intsFitItems_of_dumps {digits : ℕ} : ∀ (depth : ℕ) (xs : List (Json F)),
    dumpsErrorItems digits depth xs = none → intsFitItems digits xs = true
  | _, [] => fun _ => rfl
  | depth, x :: xs => fun h => by
    simp only [dumpsErrorItems, Option.or_eq_none_iff] at h
    simp only [intsFitItems, intsFit_of_dumps depth x h.1, intsFitItems_of_dumps depth xs h.2,
      Bool.and_self]

theorem intsFitMembers_of_dumps {digits : ℕ} : ∀ (depth : ℕ) (ms : List (PyStr × Json F)),
    dumpsErrorMembers digits depth ms = none → intsFitMembers digits ms = true
  | _, [] => fun _ => rfl
  | depth, (_, v) :: ms => fun h => by
    simp only [dumpsErrorMembers, Option.or_eq_none_iff] at h
    simp only [intsFitMembers, intsFit_of_dumps depth v h.1, intsFitMembers_of_dumps depth ms h.2,
      Bool.and_self]
end

/-- `<` on strings: by code points, the shorter of two first. -/
def strLt : PyStr → PyStr → Bool
  | _, [] => false
  | [], _ :: _ => true
  | c :: s, d :: t => c.code < d.code || (c.code == d.code && strLt s t)

mutual
def sortKeys : Json F → Json F
  | .arr xs => .arr (sortKeysItems xs)
  | .obj ms => .obj (sortedBy strLt Prod.fst (sortKeysMembers ms))
  | v => v

def sortKeysItems : List (Json F) → List (Json F)
  | [] => []
  | x :: xs => sortKeys x :: sortKeysItems xs

def sortKeysMembers : List (PyStr × Json F) → List (PyStr × Json F)
  | [] => []
  | (k, v) :: ms => (k, sortKeys v) :: sortKeysMembers ms
end

theorem mem_sortKeysMembers {ms : List (PyStr × Json F)} {k : PyStr} {v : Json F} :
    (k, v) ∈ sortKeysMembers ms ↔ ∃ w, (k, w) ∈ ms ∧ v = w.sortKeys := by
  induction ms with
  | nil => simp [sortKeysMembers]
  | cons m ms ih =>
    obtain ⟨l, u⟩ := m
    simp only [sortKeysMembers, List.mem_cons, Prod.mk.injEq, ih]
    grind

theorem sortKeys_eq_scalar {v w : Json F} (hv : v.isScalar = true)
    (h : w.sortKeys = v.sortKeys) : w = v := by
  cases v <;> cases w <;> simp_all [sortKeys, isScalar]

/-- Two objects with one canonical text have the same members, if those of one are scalars. -/
theorem mem_iff_of_sortKeys_eq {ms ns : List (PyStr × Json F)}
    (h : (obj ms).sortKeys = (obj ns).sortKeys)
    (hs : ∀ m ∈ ms, m.2.isScalar = true) (k : PyStr) (v : Json F) : (k, v) ∈ ns ↔ (k, v) ∈ ms := by
  have hsorted : ∀ (u : Json F) l, (k, u) ∈ sortedBy strLt Prod.fst l ↔ (k, u) ∈ l :=
    fun _ _ => mem_sortedBy
  have hmem : ∀ u, (k, u) ∈ sortKeysMembers ms ↔ (k, u) ∈ sortKeysMembers ns := by
    intro u
    simp only [sortKeys, obj.injEq] at h
    rw [← hsorted, h, hsorted]
  simp only [mem_sortKeysMembers] at hmem
  constructor
  · intro hv
    obtain ⟨w, hw, he⟩ := (hmem v.sortKeys).mpr ⟨v, hv, rfl⟩
    rw [sortKeys_eq_scalar (hs _ hw) he]
    exact hw
  · intro hv
    obtain ⟨w, hw, he⟩ := (hmem v.sortKeys).mp ⟨v, hv, rfl⟩
    rw [sortKeys_eq_scalar (hs _ hv) he.symm] at hw
    exact hw

section Canonical
variable [PyFloat F]

mutual
/-- No float of the value is a NaN or an infinity; `allow_nan=False` refuses those. -/
def floatsFinite : Json F → Bool
  | .float x => FloatText.isDecimal (PyFloat.text x)
  | .arr xs => floatsFiniteItems xs
  | .obj ms => floatsFiniteMembers ms
  | _ => true

def floatsFiniteItems : List (Json F) → Bool
  | [] => true
  | x :: xs => floatsFinite x && floatsFiniteItems xs

def floatsFiniteMembers : List (PyStr × Json F) → Bool
  | [] => true
  | (_, v) :: ms => floatsFinite v && floatsFiniteMembers ms
end

/-- `json.dumps(value, separators=(",", ":"), sort_keys=True, ensure_ascii=False,
allow_nan=False).encode("utf-8")`; `none` when it raises. -/
def canonicalJson (limits : JsonLimits) (v : Json F) : Option ByteArray :=
  if v.serialisable limits && v.floatsFinite then PyStr.encodeUtf8 v.sortKeys.compact else none

theorem canonicalJson_inj {limits : JsonLimits} {v w : Json F} {b : ByteArray}
    (hv : v.canonicalJson limits = some b) (hw : w.canonicalJson limits = some b) :
    v.sortKeys = w.sortKeys := by
  unfold canonicalJson at hv hw
  split at hv <;> split at hw
  · have hv' := PyStr.decodeUtf8_encodeUtf8 hv
    rw [PyStr.decodeUtf8_encodeUtf8 hw, Option.some.injEq] at hv'
    exact compact_injective hv'.symm
  all_goals contradiction

end Canonical
end Json
end QronosAgent.Lib

import QronosAgent.Lib.UrlText

/-! `b.decode("utf-8", "replace").encode("utf-8")`: a sequence that is no UTF-8 becomes U+FFFD. The
bytes are read unit by unit, a unit being a character or the longest start of one, so that bytes may
be cut in two between units and nowhere else. -/
namespace QronosAgent.Lib.Url

def encodeText (t : PyStr) : Bytes := t.flatMap fun c => utf8 c.code

def replaceInvalid (s : Bytes) : Bytes := encodeText (decodeReplacing s.length s)

def nextScalar (s : Bytes) : Option (PyChar × Bytes) :=
  (nextUtf8 s).filter fun p => p.1.toScalar?.isSome

/-- The number of bytes that are decoded together at the start of `s`. -/
def unitLength (s : Bytes) : ℕ :=
  match nextScalar s with
  | some p => s.length - p.2.length
  | none => malformedLength s

/-- A cut behind the byte `k` falls inside a unit. -/
def Splits (s : Bytes) (k : ℕ) : Prop := ∃ i < k, k < i + unitLength (s.drop i)

def IsContinuation (b : UInt8) : Prop := 0x80 ≤ b.toNat ∧ b.toNat < 0xC0

variable {s r : Bytes} {k : ℕ}

theorem isContinuation_of {b : UInt8} {n : ℕ} (h : continuation? b = some n) :
    IsContinuation b := by
  unfold continuation? at h
  split at h
  · assumption
  · cases h

/-- A character is read whatever follows it. -/
theorem nextUtf8_some {c : PyChar} (h : nextUtf8 s = some (c, r)) :
    ∃ a u, s = a :: (u ++ r) ∧ (∀ b ∈ u, IsContinuation b) ∧
      ∀ r', nextUtf8 (a :: (u ++ r')) = some (c, r') := by
  cases s with
  | nil => cases h
  | cons a t =>
    rw [nextUtf8.eq_def] at h
    dsimp only at h
    split_ifs at h with h1 h2 h3 h4 h5
    · obtain ⟨c, hc, ⟨⟩⟩ := Option.map_eq_some_iff.mp h
      exact ⟨a, [], rfl, by simp, fun r' => by simp [nextUtf8, h1, hc]⟩
    · rcases t with _ | ⟨b, t⟩
      · cases h
      simp only [Option.bind_eq_bind, Option.bind_eq_some_iff] at h
      obtain ⟨x, hx, c, hc, ⟨⟩⟩ := h
      refine ⟨a, [b], rfl, by simpa using isContinuation_of hx, fun r' => ?_⟩
      simp [nextUtf8, h1, h2, h3, hx, hc]
    · rcases t with _ | ⟨b, _ | ⟨c, t⟩⟩
      · cases h
      · cases h
      simp only [Option.bind_eq_bind, Option.bind_eq_some_iff] at h
      obtain ⟨x, hx, y, hy, p, hp, ⟨⟩⟩ := h
      refine ⟨a, [b, c], rfl, ?_, fun r' => ?_⟩
      · simpa using ⟨isContinuation_of hx, isContinuation_of hy⟩
      · simp [nextUtf8, h1, h2, h3, h4, hx, hy, hp]
    · rcases t with _ | ⟨b, _ | ⟨c, _ | ⟨d, t⟩⟩⟩
      · cases h
      · cases h
      · cases h
      simp only [Option.bind_eq_bind, Option.bind_eq_some_iff] at h
      obtain ⟨x, hx, y, hy, z, hz, p, hp, ⟨⟩⟩ := h
      refine ⟨a, [b, c, d], rfl, ?_, fun r' => ?_⟩
      · simpa using ⟨isContinuation_of hx, isContinuation_of hy, isContinuation_of hz⟩
      · simp [nextUtf8, h1, h2, h3, h4, h5, hx, hy, hz, hp]

theorem nextScalar_append {c : PyChar} (h : nextScalar s = some (c, r)) (t : Bytes) :
    nextScalar (s ++ t) = some (c, r ++ t) := by
  obtain ⟨hnext, hscalar⟩ := Option.filter_eq_some_iff.mp h
  obtain ⟨a, u, rfl, -, hall⟩ := nextUtf8_some hnext
  refine Option.filter_eq_some_iff.mpr ⟨?_, hscalar⟩
  rw [List.cons_append, List.append_assoc]
  exact hall _

theorem continuation_of_mayFollow {a b : UInt8} (h : mayFollow a b = true) : IsContinuation b := by
  unfold mayFollow at h
  unfold IsContinuation
  grind

/-- What no character starts with ends where it ends in the bytes up to any later cut. -/
theorem malformedLength_cases (a : UInt8) (s : Bytes) :
    ∃ u r, s = u ++ r ∧ (∀ b ∈ u, IsContinuation b) ∧
      ∀ k, malformedLength (a :: (u ++ r.take k)) = u.length + 1 := by
  rcases s with _ | ⟨b, s⟩
  · exact ⟨[], [], rfl, by simp, fun k => by simp [malformedLength]⟩
  by_cases hb : 0xE0 ≤ a.toNat ∧ a.toNat < 0xF5 ∧ mayFollow a b = true
  · have hcont := continuation_of_mayFollow hb.2.2
    rcases s with _ | ⟨c, s⟩
    · exact ⟨[b], [], rfl, by simpa using hcont, fun k => by simp [malformedLength, hb]⟩
    by_cases hc : 0xF0 ≤ a.toNat ∧ (continuation? c).isSome = true
    · obtain ⟨n, hn⟩ := Option.isSome_iff_exists.mp hc.2
      refine ⟨[b, c], s, rfl, by simpa using ⟨hcont, isContinuation_of hn⟩, fun k => ?_⟩
      simp [malformedLength, hb, hc]
    · refine ⟨[b], c :: s, rfl, by simpa using hcont, fun k => ?_⟩
      cases k <;> simp [malformedLength, hb, hc]
  · refine ⟨[], b :: s, rfl, by simp, fun k => ?_⟩
    rcases k with _ | _ | k <;> rcases s with _ | ⟨c, s⟩ <;> simp [malformedLength, hb]

theorem decodeReplacing_cons (n : ℕ) (a : UInt8) (s : Bytes) : decodeReplacing (n + 1) (a :: s) =
    match nextScalar (a :: s) with
    | some (c, r) => c :: decodeReplacing n r
    | none => .scalar '\ufffd' :: decodeReplacing n ((a :: s).drop (malformedLength (a :: s))) := rfl

/-- The first unit of some bytes, the same in the bytes up to any later cut. -/
theorem exists_unit (a : UInt8) (s : Bytes) :
    ∃ c u r, s = u ++ r ∧ (∀ b ∈ u, IsContinuation b) ∧ unitLength (a :: s) = u.length + 1 ∧
      ∀ k fuel, decodeReplacing (fuel + 1) (a :: (u ++ r.take k)) =
        c :: decodeReplacing fuel (r.take k) := by
  cases hnext : nextScalar (a :: s) with
  | some p =>
    obtain ⟨c, r⟩ := p
    obtain ⟨hsome, hscalar⟩ := Option.filter_eq_some_iff.mp hnext
    obtain ⟨a', u, hs, hu, hall⟩ := nextUtf8_some hsome
    cases hs
    refine ⟨c, u, r, rfl, hu, by simp [unitLength, hnext]; omega, fun k fuel => ?_⟩
    rw [decodeReplacing_cons, nextScalar, hall, Option.filter_some, if_pos hscalar]
  | none =>
    obtain ⟨u, r, rfl, hu, hall⟩ := malformedLength_cases a s
    have hwhole := hall r.length
    rw [List.take_length] at hwhole
    refine ⟨.scalar '\ufffd', u, r, rfl, hu, by simp [unitLength, hnext, hwhole], fun k fuel => ?_⟩
    have hnone : nextScalar (a :: (u ++ r.take k)) = none := by
      by_contra hne
      obtain ⟨p, hp⟩ := Option.ne_none_iff_exists'.mp hne
      have happ := nextScalar_append (c := p.1) (r := p.2) hp (r.drop k)
      rw [List.cons_append, List.append_assoc, List.take_append_drop, hnext] at happ
      cases happ
    rw [decodeReplacing_cons, hnone, hall]
    simp

theorem decodeReplacing_fuel (s : Bytes) {n m : ℕ} (hn : s.length ≤ n) (hm : s.length ≤ m) :
    decodeReplacing n s = decodeReplacing m s := by
  induction n generalizing s m with
  | zero =>
    rw [List.length_eq_zero_iff.mp (Nat.le_zero.mp hn)]
    cases m <;> rfl
  | succ n ih =>
    cases s with
    | nil => cases m <;> rfl
    | cons a s =>
      obtain ⟨m, rfl⟩ : ∃ k, m = k + 1 := ⟨m - 1, by simp at hm; omega⟩
      obtain ⟨c, u, r, rfl, -, -, hall⟩ := exists_unit a s
      have hread := hall r.length
      rw [List.take_length] at hread
      simp only [List.length_cons, List.length_append] at hn hm
      rw [hread, hread, ih r (m := m) (by omega) (by omega)]

/-- What replacing leaves of some bytes is what it leaves of their units. -/
theorem exists_replaced (a : UInt8) (s : Bytes) :
    ∃ c u r, s = u ++ r ∧ (∀ b ∈ u, IsContinuation b) ∧ unitLength (a :: s) = u.length + 1 ∧
      ∀ k, replaceInvalid (a :: (u ++ r.take k)) = utf8 c ++ replaceInvalid (r.take k) := by
  obtain ⟨c, u, r, hs, hu, hunit, hall⟩ := exists_unit a s
  refine ⟨c.code, u, r, hs, hu, hunit, fun k => ?_⟩
  simp only [replaceInvalid, encodeText, List.length_cons, hall, List.flatMap_cons]
  rw [decodeReplacing_fuel _ (by simp) le_rfl]

theorem length_replaceInvalid_pos (h : s ≠ []) : 0 < (replaceInvalid s).length := by
  obtain ⟨a, t, rfl⟩ := List.exists_cons_of_ne_nil h
  obtain ⟨c, u, r, rfl, -, -, hall⟩ := exists_replaced a t
  have hwhole := hall r.length
  rw [List.take_length] at hwhole
  have hpos := List.length_pos_iff.mpr (utf8_ne_nil c)
  rw [hwhole, List.length_append]
  omega

theorem replaceInvalid_malformed {a : UInt8} (h : nextScalar (a :: s) = none) :
    replaceInvalid (a :: s) =
      utf8 0xFFFD ++ replaceInvalid ((a :: s).drop (malformedLength (a :: s))) := by
  obtain ⟨u, r, rfl, -, hall⟩ := malformedLength_cases a s
  have hlength := hall r.length
  rw [List.take_length] at hlength
  simp only [replaceInvalid, List.length_cons, decodeReplacing_cons, h, hlength, encodeText,
    List.drop_succ_cons, List.drop_left, List.flatMap_cons]
  rw [decodeReplacing_fuel r (by simp) le_rfl]
  rfl

theorem continuation_alone {b : UInt8} (hb : IsContinuation b) (s : Bytes) :
    nextScalar (b :: s) = none ∧ malformedLength (b :: s) = 1 := by
  obtain ⟨hlow, hhigh⟩ := hb
  constructor
  · simp [nextScalar, nextUtf8, show ¬ b.toNat < 0x80 by omega, show b.toNat < 0xC2 by omega]
  · unfold malformedLength
    have hlead : ¬ 0xE0 ≤ b.toNat := by omega
    split <;> simp_all

theorem length_replaceInvalid_continuations (hs : ∀ b ∈ s, IsContinuation b) (r : Bytes) :
    (replaceInvalid (s ++ r)).length = 3 * s.length + (replaceInvalid r).length := by
  induction s with
  | nil => simp
  | cons b s ih =>
    obtain ⟨hnone, hone⟩ := continuation_alone (hs b List.mem_cons_self) (s ++ r)
    rw [List.cons_append, replaceInvalid_malformed hnone, hone, List.drop_one, List.tail_cons,
      List.length_append, ih fun c hc => hs c (List.mem_cons_of_mem _ hc), List.length_cons]
    have hthree : (utf8 0xFFFD).length = 3 := rfl
    omega

/-- A cut falls inside a unit behind the first one as it does in what follows that one. -/
theorem splits_append {a : UInt8} {u : Bytes} {j : ℕ} (hu : ∀ b ∈ u, IsContinuation b)
    (hunit : unitLength (a :: (u ++ r)) = u.length + 1) :
    Splits (a :: (u ++ r)) (u.length + j + 1) ↔ Splits r j := by
  constructor
  · rintro ⟨i, hi, hlt⟩
    rcases i with _ | i
    · rw [List.drop_zero, hunit] at hlt
      omega
    rw [List.drop_succ_cons] at hlt
    rcases lt_or_ge i u.length with hin | hout
    · rw [List.drop_append_of_le_length hin.le, List.drop_eq_getElem_cons hin, List.cons_append]
        at hlt
      obtain ⟨hnone, hone⟩ := continuation_alone (hu _ (List.getElem_mem hin)) (u.drop (i + 1) ++ r)
      simp only [unitLength, hnone, hone] at hlt
      omega
    · obtain ⟨i, rfl⟩ := Nat.exists_eq_add_of_le hout
      rw [List.drop_length_add_append] at hlt
      exact ⟨i, by omega, by omega⟩
  · rintro ⟨i, hi, hlt⟩
    refine ⟨u.length + i + 1, by omega, ?_⟩
    rw [List.drop_succ_cons, List.drop_length_add_append]
    omega

theorem utf8_length_le (n : ℕ) : (utf8 n).length ≤ 4 := by
  unfold utf8
  split_ifs <;> simp

theorem replaceInvalid_append (h : ¬ Splits s k) :
    replaceInvalid s = replaceInvalid (s.take k) ++ replaceInvalid (s.drop k) := by
  induction hn : s.length using Nat.strong_induction_on generalizing s k with
  | _ n ih =>
  rcases k with _ | k
  · rw [List.take_zero, List.drop_zero]
    rfl
  rcases s with _ | ⟨a, s⟩
  · rw [List.take_nil, List.drop_nil]
    rfl
  obtain ⟨c, u, r, rfl, hu, hunit, hall⟩ := exists_replaced a s
  obtain ⟨j, rfl⟩ : ∃ j, k = u.length + j := by
    refine ⟨k - u.length, (Nat.add_sub_of_le ?_).symm⟩
    by_contra hlt
    exact h ⟨0, by omega, by rw [List.drop_zero, hunit]; omega⟩
  rw [splits_append hu hunit] at h
  have hwhole := hall r.length
  simp only [List.take_length, List.length_cons, List.length_append] at hwhole hn
  rw [hwhole, ih r.length (by omega) h rfl, List.take_succ_cons, List.drop_succ_cons,
    List.take_length_add_append, List.drop_length_add_append, hall, List.append_assoc]

/-- A cut inside a unit makes what is left of the two parts longer. -/
theorem length_replaceInvalid_lt (h : Splits s k) : (replaceInvalid s).length <
    (replaceInvalid (s.take k)).length + (replaceInvalid (s.drop k)).length := by
  induction hn : s.length using Nat.strong_induction_on generalizing s k with
  | _ n ih =>
  obtain ⟨k, rfl⟩ : ∃ j, k = j + 1 := by
    obtain ⟨i, hi, -⟩ := h
    exact ⟨k - 1, by omega⟩
  rcases s with _ | ⟨a, s⟩
  · obtain ⟨i, hi, hlt⟩ := h
    rw [List.drop_nil] at hlt
    exact absurd hlt (by simp [unitLength, nextScalar, nextUtf8, malformedLength]; omega)
  obtain ⟨c, u, r, rfl, hu, hunit, hall⟩ := exists_replaced a s
  have hwhole := hall r.length
  simp only [List.take_length, List.length_cons, List.length_append] at hwhole hn
  rcases le_or_gt u.length k with hbehind | hinside
  · obtain ⟨j, rfl⟩ := Nat.exists_eq_add_of_le hbehind
    rw [splits_append hu hunit] at h
    have hlt := ih r.length (by omega) h rfl
    rw [hwhole, List.take_succ_cons, List.drop_succ_cons, List.take_length_add_append,
      List.drop_length_add_append, hall, List.length_append, List.length_append]
    omega
  · -- the first unit is cut in two
    have hnone : nextScalar (a :: u.take k) = none := by
      by_contra hne
      obtain ⟨p, hp⟩ := Option.ne_none_iff_exists'.mp hne
      have happ := nextScalar_append (c := p.1) (r := p.2) hp (u.drop k ++ r)
      rw [List.cons_append, ← List.append_assoc, List.take_append_drop] at happ
      simp only [unitLength, happ, List.length_cons, List.length_append, List.length_drop] at hunit
      omega
    have hleft := congrArg List.length (replaceInvalid_malformed hnone)
    have hright := length_replaceInvalid_continuations (s := u.drop k)
      (fun b hb => hu b (List.mem_of_mem_drop hb)) r
    have hfour := utf8_length_le c
    rw [List.length_append, show (utf8 0xFFFD).length = 3 from rfl] at hleft
    rw [List.length_drop] at hright
    rw [hwhole, List.take_succ_cons, List.drop_succ_cons, List.take_append_of_le_length hinside.le,
      List.drop_append_of_le_length hinside.le, List.length_append]
    omega

end QronosAgent.Lib.Url

import QronosAgent.Link.PairingUri
import QronosAgent.Link.Protocol
import QronosAgent.Security.Monitor

/-! The shape of identities: device ids and command ids as their patterns accept them, and where
the checks of the link leave them. -/
namespace QronosAgent.Link.Identities
open Lib DeviceJson
open Security (Principal)

variable {F : Type}

/-- Exactly `n` characters of `[0-9a-f]`. -/
def IsHex (n : ℕ) (s : PyStr) : Prop := s.length = n ∧ ∀ c ∈ s, isLowerHex c = true

/-- Exactly `n` characters of `[0-9a-f]` and a line feed. -/
def IsHexLine (n : ℕ) (s : PyStr) : Prop := ∃ t, IsHex n t ∧ s = t ++ [lf]

/-- `is_valid_command_id`, of a string. -/
def isValidCommandId (s : PyStr) : Bool := Phone.Python.matchesCommandId s

def CanHold [PyFloat F] (D : DeviceJson.Interpreter F) (id : PyStr) : Prop := ∃ r, Held D r ∧ r.deviceId = id

theorem IsHex.lf_notMem {n : ℕ} {s : PyStr} (h : IsHex n s) : lf ∉ s := by
  intro hmem
  exact absurd (h.2 lf hmem) (by decide)

theorem IsHexLine.lf_mem {n : ℕ} {s : PyStr} (h : IsHexLine n s) : lf ∈ s := by
  obtain ⟨t, -, rfl⟩ := h
  simp

/-- A pattern with `$` at its end accepts the shape, and the shape with a line feed. -/
def Matches (n : ℕ) (s : PyStr) : Prop := IsHex n s ∨ IsHexLine n s

/-- Of what a pattern accepts, the shape is what has no line feed. -/
theorem Matches.isHex_iff {n : ℕ} {s : PyStr} (h : Matches n s) : IsHex n s ↔ lf ∉ s := by
  constructor
  · exact IsHex.lf_notMem
  · intro hlf
    rcases h with h | h
    · exact h
    · exact absurd h.lf_mem hlf

theorem matches_iff_isHex {n : ℕ} {s : PyStr} : (Matches n s ↔ IsHex n s) ↔ ¬ IsHexLine n s := by
  constructor
  · intro h hline
    exact (h.mp (.inr hline)).lf_notMem hline.lf_mem
  · intro hline
    constructor
    · rintro (h | h)
      · exact h
      · exact absurd h hline
    · exact .inl

theorem isValidDeviceId_iff {s : PyStr} : isValidDeviceId s = true ↔ Matches 16 s := by
  simp only [isValidDeviceId, Bool.and_eq_true, Bool.or_eq_true, decide_eq_true_eq, List.all_eq_true]
  constructor
  · rintro ⟨⟨hlength, hall⟩, hrest⟩
    have hsplit := List.take_append_drop 16 s
    rcases hrest with hrest | hrest
    · rw [hrest, List.append_nil] at hsplit
      rw [hsplit] at hlength hall
      exact .inl ⟨hlength, hall⟩
    · rw [hrest] at hsplit
      exact .inr ⟨s.take 16, ⟨hlength, hall⟩, hsplit.symm⟩
  · have hshape : ∀ t rest, IsHex 16 t → (t ++ rest).take 16 = t ∧ (t ++ rest).drop 16 = rest := by
      intro t rest ht
      exact ⟨List.take_left' ht.1, List.drop_left' ht.1⟩
    rintro (h | ⟨t, h, rfl⟩)
    · obtain ⟨htake, hdrop⟩ := hshape s [] h
      rw [List.append_nil] at htake hdrop
      rw [htake, hdrop]
      exact ⟨h, .inl rfl⟩
    · obtain ⟨htake, hdrop⟩ := hshape t [lf] h
      rw [htake, hdrop]
      exact ⟨h, .inr rfl⟩

/-- Two spellings of `[0-9a-f]`. -/
theorem isHexDigit_eq (c : PyChar) : Phone.isHexDigit c = isLowerHex c := by
  cases c with
  | surrogate n =>
    have hhigh : ¬ 0xD800 + n.val ≤ 0x39 ∧ ¬ 0xD800 + n.val ≤ 0x66 := by omega
    simp [Phone.isHexDigit, isLowerHex, PyChar.code, hhigh]
  | scalar a =>
    simp only [Phone.isHexDigit, isLowerHex, PyChar.code, Char.isDigit, Char.le_def,
      UInt32.le_iff_toNat_le]
    rfl

theorem isCommandId_iff {s : PyStr} : Phone.isCommandId s = true ↔ IsHex 32 s := by
  simp [Phone.isCommandId, IsHex, isHexDigit_eq]

theorem isValidCommandId_iff {s : PyStr} : isValidCommandId s = true ↔ Matches 32 s := by
  simp only [isValidCommandId, Phone.Python.matchesCommandId, Bool.or_eq_true, Bool.and_eq_true,
    decide_eq_true_eq, isCommandId_iff, Matches, IsHexLine]
  apply or_congr_right
  constructor
  · rintro ⟨hlast, h⟩
    exact ⟨s.dropLast, h, (List.dropLast_append_getLast? lf hlast).symm⟩
  · rintro ⟨t, h, rfl⟩
    simpa using h

/-- Two spellings of `[0-9a-f]`. -/
theorem mem_hexDigits_iff {c : PyChar} : c ∈ py "0123456789abcdef" ↔ isLowerHex c = true := by
  constructor
  · have hall : ∀ d ∈ py "0123456789abcdef", isLowerHex d = true := by decide
    exact hall c
  · have hall : ∀ n < 0x67, isLowerHex (.scalar (Char.ofNat n)) = true →
        PyChar.scalar (Char.ofNat n) ∈ py "0123456789abcdef" := by decide +kernel
    intro h
    rw [← isHexDigit_eq] at h
    cases c with
    | surrogate n => cases h
    | scalar a =>
      rw [isHexDigit_eq] at h
      have hlt : a.toNat < 0x67 := by
        rcases Bool.or_eq_true_iff.mp h with h | h
        · have hle : a.toNat ≤ 0x39 := of_decide_eq_true (Bool.and_eq_true_iff.mp h).2
          omega
        · have hle : a.toNat ≤ 0x66 := of_decide_eq_true (Bool.and_eq_true_iff.mp h).2
          omega
      have hmem := hall a.toNat hlt
      rw [Char.ofNat_toNat] at hmem
      exact hmem h

/-- `Principal.device` makes its own check, without a pattern. -/
theorem device_isSome_iff {id scope : PyStr} :
    (Principal.device id scope).isSome = true ↔ IsHex 16 id := by
  unfold Principal.device IsHex
  by_cases h : id.length = 16 ∧ ∀ c ∈ id, isLowerHex c = true
  · have hnot : ¬ (id.length ≠ 16 ∨ ∃ c ∈ id, c ∉ py "0123456789abcdef") := by
      rintro (hlength | ⟨c, hc, hdigit⟩)
      · exact hlength h.1
      · exact hdigit (mem_hexDigits_iff.mpr (h.2 c hc))
    rw [if_neg hnot]
    exact iff_of_true rfl h
  · have hsome : id.length ≠ 16 ∨ ∃ c ∈ id, c ∉ py "0123456789abcdef" := by
      by_cases hlength : id.length = 16
      · have hall : ¬ ∀ c ∈ id, isLowerHex c = true := fun hall => h ⟨hlength, hall⟩
        push Not at hall
        obtain ⟨c, hc, hdigit⟩ := hall
        exact .inr ⟨c, hc, fun hmem => hdigit (mem_hexDigits_iff.mp hmem)⟩
      · exact .inl hlength
    rw [if_pos hsome]
    exact iff_of_false (by simp) h

/-- The command id of a request is what `cid` holds, and the pattern accepts it. -/
theorem commandId_of_parseFrame {P : Protocol.Interpreter F} {ms : Phone.Python.Members F}
    {r : Protocol.Request F} (h : Protocol.parseFrame P ms = .ok (.request r)) :
    (∀ s, r.commandId = some s ↔ Json.member? ms (py "cid") = some (.str s)) ∧
      ∀ s, r.commandId = some s → isValidCommandId s = true := by
  unfold Protocol.parseFrame at h
  split at h
  · split_ifs at h
    · obtain ⟨r', hr, hr'⟩ := map_eq_ok.mp h
      cases hr'
      simp only [Protocol.parseRequest, bind_eq_ok] at hr
      obtain ⟨params, -, u, hcheck, id, -, op, -, hr⟩ := hr
      cases hr
      unfold Phone.Python.checkCommandId at hcheck
      cases hcid : Json.member? ms (py "cid") with
      | none => simp
      | some v =>
        cases v with
        | str s =>
          rw [hcid] at hcheck
          have hmatches : Phone.Python.matchesCommandId s = true := by
            by_contra hnot
            simp [hnot] at hcheck
          simpa [isValidCommandId] using hmatches
        | null | bool | int | float | arr | obj => simp
    · obtain ⟨r', -, hr'⟩ := map_eq_ok.mp h
      cases hr'
    · obtain ⟨r', -, hr'⟩ := map_eq_ok.mp h
      cases hr'
  · cases h

/-- The checks hold to the shape exactly where no line feed stands behind it. -/
theorem identities_exact (P : Protocol.Interpreter F) (D : DeviceJson.Interpreter F)
    (N : PairingUri.Interpreter F) [PyFloat F] :
    (∀ s, (isValidDeviceId s = true ↔ IsHex 16 s) ↔ ¬ IsHexLine 16 s) ∧
      (∀ s, (isValidCommandId s = true ↔ IsHex 32 s) ↔ ¬ IsHexLine 32 s) ∧
      (∀ ms r, Protocol.parseFrame P ms = .ok (.request r) →
        ((∀ s, r.commandId = some s → IsHex 32 s) ↔
          ∀ s, Json.member? ms (py "cid") = some (.str s) → lf ∉ s)) ∧
      (∀ ms r, fromJson D ms = .ok r →
        (IsHex 16 r.deviceId ↔ ∀ id, deviceIdOf D ms = .ok id → lf ∉ id)) ∧
      (∀ text p, PairingUri.fromUri N text = .ok p →
        (IsHex 16 p.deviceId ↔ ∀ id, PairingUri.HasField N text (py "d") id → lf ∉ id)) ∧
      ∀ id scope, CanHold D id → ((Principal.device id scope).isSome = true ↔ lf ∉ id) := by
  refine ⟨?_, ?_, ?_, ?_, ?_, ?_⟩
  · intro s
    rw [isValidDeviceId_iff]
    exact matches_iff_isHex
  · intro s
    rw [isValidCommandId_iff]
    exact matches_iff_isHex
  · intro ms r h
    obtain ⟨hcid, hvalid⟩ := commandId_of_parseFrame h
    constructor
    · intro hshape s hs
      exact (hshape s ((hcid s).mpr hs)).lf_notMem
    · intro hlf s hs
      exact (isValidCommandId_iff.mp (hvalid s hs)).isHex_iff.mpr (hlf s ((hcid s).mp hs))
  · intro ms r h
    obtain ⟨hid, hvalid, -⟩ := fromJson_checked h
    rw [(isValidDeviceId_iff.mp hvalid).isHex_iff, hid]
    simp
  · intro text p h
    obtain ⟨hp, -, -, -, -, -, hd⟩ := PairingUri.fromUri_ok h
    rw [(isValidDeviceId_iff.mp hp.deviceId).isHex_iff]
    constructor
    · intro hlf id hid
      exact hd.unique hid ▸ hlf
    · intro hlf
      exact hlf _ hd
  · rintro id scope ⟨r, hr, rfl⟩
    rw [device_isSome_iff]
    exact (isValidDeviceId_iff.mp hr.checked.1).isHex_iff

theorem identities_exact_sample :
    ((isValidDeviceId (py "0123456789abcdef") = true ↔ IsHex 16 (py "0123456789abcdef")) ↔
      ¬ IsHexLine 16 (py "0123456789abcdef")) ∧
      (IsHex 16 PairingUri.samplePayload.deviceId ↔
        ∀ id, PairingUri.HasField PairingUri.sampleInterpreter PairingUri.sampleText (py "d") id →
          lf ∉ id) := by
  have hexact := identities_exact Protocol.sampleInterpreter DeviceJson.sampleInterpreter
    PairingUri.sampleInterpreter
  exact ⟨hexact.1 _, hexact.2.2.2.2.1 _ _ (by decide +kernel)⟩

/-- Sixteen digits and a line feed. -/
theorem not_exact : ¬ ∀ s, isValidDeviceId s = true ↔ IsHex 16 s := by
  intro h
  have hvalid : isValidDeviceId (py "0123456789abcdef" ++ [lf]) = true := by decide
  have hlength : (py "0123456789abcdef" ++ [lf]).length ≠ 16 := by decide
  exact hlength ((h _).mp hvalid).1

end QronosAgent.Link.Identities

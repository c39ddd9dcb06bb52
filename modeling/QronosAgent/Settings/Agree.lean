import QronosAgent.Settings.Service

/-! Settings are valid, and the file gives back what the service holds. -/
namespace QronosAgent.Settings
open Lib
open Journal (JsonStore Platform Members SaveFault SaveError LoadError)

variable {F : Type}

namespace Fields
variable (P : Interpreter F) (d : Fields F)

/-- The value has the definition's type, is one of its choices, and lies between its bounds. -/
structure Valid (v : Json F) : Prop where
  type : d.hasType v = true
  choice : ∀ choices, d.choices = some choices → choices.any (P.same v) = true
  minimum : ∀ b, d.minimum = some b → ∃ n, number? v = some n ∧ P.le b n = true
  maximum : ∀ b, d.maximum = some b → ∃ n, number? v = some n ∧ P.le n b = true

/-- Where there is a bound, neither it nor the value is a NaN. -/
def Comparable (v : Json F) : Prop :=
  ∀ b, d.minimum = some b ∨ d.maximum = some b →
    P.comparable b = true ∧ ∀ n, number? v = some n → P.comparable n = true

end Fields

section
variable [PyFloat F] (P : Interpreter F) (defs : List (SettingDefinition P))

/-- Reading the file raises what `_load` does not catch. -/
def Unreadable (file : Option ByteArray) : Prop :=
  ∃ bytes, file = some bytes ∧ (readText bytes = none ∨ ∃ text, readText bytes = some text ∧
    (Json.loads (F := F) P.plat.limits text = .error .recursion ∨
      Json.loads (F := F) P.plat.limits text = .error .intTooLong))

/-- The service reports a file that could not be understood, and each value that it does not take. -/
structure Reports (fault : Bool) (file : Option ByteArray) (s : SettingsService F) : Prop where
  store : ∀ e, (store F).load P.plat fault file = .error e →
    s.writeBlocked = some e ∧ .store e ∈ s.problems
  value : ∀ document, (Settings.store F).load P.plat fault file = .ok (some document) →
    ∀ kv ∈ document.payload, ∀ d, definition? P defs kv.1 = some d →
      d.validate P (.json kv.2) ≠ .ok kv.2 → .value kv.1 ∈ s.problems

/-- A new service over the file holds the same. -/
def Reloads (s : State F) : Prop :=
  ∃ s', construct P defs false s.file = .ok s' ∧ s'.values = s.service.values ∧
    s'.unknownValues = s.service.unknownValues ∧ s'.writeBlocked = none

def Clean (fault : SaveFault) : Prop :=
  fault.cleanup = none ∨ fault.setup ≠ none ∨ fault.disk ≠ none

structure Agrees (fault : Bool) (file : Option ByteArray) (s : State F) : Prop where
  kept : ∀ e, (store F).load P.plat fault file = .error e → s.file = file
  unknown : ∀ document, (store F).load P.plat fault file = .ok (some document) →
    ∀ kv ∈ document.payload, definition? P defs kv.1 = none →
      s.service.unknownValues.get? kv.1 = some kv.2
  returned : ∀ call f s', run P defs call f s = (.ok (), s') → Reloads P defs s' ∧
    s'.service.unknownValues = s.service.unknownValues
  raised : ∀ call f e s', run P defs call f s = (.error e, s') →
    s'.service.values = s.service.values ∧
      s'.service.unknownValues = s.service.unknownValues ∧ (Clean f → s'.file = s.file)

def Call.Comparable : Call F → Prop
  | .set key value => ∀ d v, definition? P defs key = some d → value = .json v → d.Comparable P v
  | .update given => ∀ kv ∈ given, ∀ d v, definition? P defs kv.1 = some d → kv.2 = .json v →
      d.Comparable P v
  | .reset _ | .resetAll => True

def FileComparable (fault : Bool) (file : Option ByteArray) : Prop :=
  (∀ d ∈ defs, d.Comparable P d.default) ∧
    ∀ document, (store F).load P.plat fault file = .ok (some document) →
      ∀ kv ∈ document.payload, ∀ d, definition? P defs kv.1 = some d → d.Comparable P kv.2

end

namespace Fields
variable {P : Interpreter F} {d : Fields F} {x : PyValue F} {v : Json F}

theorem validate_eq_ok : d.validate P x = .ok v ↔ x = .json v ∧ d.hasType v = true ∧
    d.checkChoices P v = .ok () ∧ checkBound P.lt d.minimum v = .ok () ∧
      checkBound (fun n b => P.lt b n) d.maximum v = .ok () := by
  simp only [validate, bind_eq_ok]
  constructor
  · rintro ⟨w, hw, _, hchoices, _, hmin, _, hmax, hv⟩
    cases hv
    cases x with
    | other => cases hw
    | json y =>
      simp only [checkType] at hw
      split_ifs at hw with htype
      cases hw
      exact ⟨rfl, htype, hchoices, hmin, hmax⟩
  · rintro ⟨rfl, htype, hchoices, hmin, hmax⟩
    exact ⟨v, by simp [checkType, htype], (), hchoices, (), hmin, (), hmax, rfl⟩

theorem checkBound_eq_ok {outside : Number F → Number F → Bool} {bound : Option (Number F)} :
    checkBound outside bound v = .ok () ↔
      ∀ b, bound = some b → ∃ n, number? v = some n ∧ outside n b = false := by
  unfold checkBound
  cases bound with
  | none => simp
  | some b =>
    cases hn : number? v with
    | none => simp
    | some n => cases ho : outside n b <;> simp [ho]

/-- Of the values that `validate` accepts, those that can be compared are as they should be. -/
theorem valid_iff (h : d.validate P x = .ok v) : d.Valid P v ↔ d.Comparable P v := by
  obtain ⟨-, htype, hchoices, hmin, hmax⟩ := validate_eq_ok.mp h
  rw [checkBound_eq_ok] at hmin hmax
  constructor
  · intro hv b hb
    rcases hb with hb | hb
    · obtain ⟨n, hn, hle⟩ := hv.minimum b hb
      simp only [Interpreter.le, Bool.and_eq_true] at hle
      refine ⟨hle.1.1, fun m hm => ?_⟩
      rw [hn, Option.some.injEq] at hm
      exact hm ▸ hle.1.2
    · obtain ⟨n, hn, hle⟩ := hv.maximum b hb
      simp only [Interpreter.le, Bool.and_eq_true] at hle
      refine ⟨hle.1.2, fun m hm => ?_⟩
      rw [hn, Option.some.injEq] at hm
      exact hm ▸ hle.1.1
  · intro hv
    refine ⟨htype, ?_, ?_, ?_⟩
    · intro choices hc
      simp only [checkChoices, hc, Option.all_some] at hchoices
      by_contra hnot
      rw [if_neg hnot] at hchoices
      cases hchoices
    · intro b hb
      obtain ⟨n, hn, hlt⟩ := hmin b hb
      obtain ⟨hbound, hvalue⟩ := hv b (.inl hb)
      exact ⟨n, hn, by simp [Interpreter.le, hbound, hvalue n hn, hlt]⟩
    · intro b hb
      obtain ⟨n, hn, hlt⟩ := hmax b hb
      obtain ⟨hbound, hvalue⟩ := hv b (.inr hb)
      exact ⟨n, hn, by simp [Interpreter.le, hbound, hvalue n hn, hlt]⟩

end Fields

namespace SettingDefinition
variable {P : Interpreter F} (d : SettingDefinition P) {x : PyValue F} {v : Json F}

theorem hasType_cases (h : d.hasType v = true) :
    (isNumber d.default = true → isNumber v = true) ∧ (isStr d.default = true → isStr v = true) ∧
      (isNumber v = true ∨ isStr v = true) := by
  have hplain := d.plain
  unfold Fields.hasType at h
  split_ifs at h with hbool hnumber hflag
  · simp only [Bool.and_eq_true] at hnumber
    cases hd : d.default <;> simp_all [isNumber, isStr]
  · cases hd : d.default <;> cases v <;> simp_all [isNumber, isStr, isBool]
  · cases hd : d.default <;> cases v <;> simp_all [isNumber, isStr, isBool]

theorem isSome_number? (v : Json F) : (number? v).isSome = isNumber v := by
  cases v <;> rfl

theorem checkBound_ne_typeError {outside outside' : Number F → Number F → Bool}
    {bound : Option (Number F)} (h : d.hasType v = true)
    (hd : Fields.checkBound outside bound d.default = .ok ()) :
    Fields.checkBound outside' bound v ≠ .error .typeError := by
  unfold Fields.checkBound
  cases bound with
  | none => simp
  | some b =>
    obtain ⟨n, hn, -⟩ := Fields.checkBound_eq_ok.mp hd b rfl
    have hdefault : isNumber d.default = true := by
      rw [← isSome_number?, hn]
      rfl
    have hv := (d.hasType_cases h).1 hdefault
    rw [← isSome_number?] at hv
    obtain ⟨m, hm⟩ := Option.isSome_iff_exists.mp hv
    simp only [hm]
    split_ifs <;> simp

/-- A checked definition compares no text with a bound. -/
theorem validate_ne_typeError : d.validate P x ≠ .error .typeError := by
  obtain ⟨-, -, -, hmin, hmax⟩ := Fields.validate_eq_ok.mp d.valid
  unfold Fields.validate
  apply bind_ne_error
  · cases x with
    | other => simp [Fields.checkType]
    | json v =>
      simp only [Fields.checkType]
      split_ifs <;> simp
  intro v hv
  have htype : d.hasType v = true := by
    cases x with
    | other => cases hv
    | json y =>
      simp only [Fields.checkType] at hv
      split_ifs at hv with h
      cases hv
      exact h
  apply bind_ne_error
  · unfold Fields.checkChoices
    split_ifs <;> simp
  intro _ _
  apply bind_ne_error (d.checkBound_ne_typeError htype hmin)
  intro _ _
  apply bind_ne_error (d.checkBound_ne_typeError htype hmax)
  intro _ _
  exact pure_ne_error

end SettingDefinition

section
variable [PyFloat F] {P : Interpreter F} {defs : List (SettingDefinition P)}

variable {key : PyStr} {d : SettingDefinition P} {v : Json F} {ms payload : Members F}
  {bytes : ByteArray}

omit [PyFloat F] in
theorem definition?_mem (h : definition? P defs key = some d) :
    d ∈ defs ∧ d.key = key := by
  refine ⟨List.mem_of_find?_eq_some h, ?_⟩
  simpa using List.find?_some h

omit [PyFloat F] in
theorem definition?_of_mem (hkeys : (defs.map fun d => d.key).Nodup) (hd : d ∈ defs) :
    definition? P defs d.key = some d := by
  cases hfind : definition? P defs d.key with
  | none =>
    have hnot := List.find?_eq_none.mp hfind d hd
    simp at hnot
  | some d' =>
    obtain ⟨hd', hkey⟩ := definition?_mem hfind
    rw [List.inj_on_of_nodup_map hkeys hd' hd hkey]

structure Held (P : Interpreter F) (defs : List (SettingDefinition P)) (values unknown : Dict PyStr (Json F)) :
    Prop where
  values : ∀ key v, values.get? key = some v →
    ∃ d, definition? P defs key = some d ∧ d.validate P (.json v) = .ok v
  unknown : ∀ key v, unknown.get? key = some v → definition? P defs key = none ∧
    v.Storable P.plat.limits.intDigits (P.plat.limits.depth - 2)

variable {values unknown values' : Dict PyStr (Json F)}

omit [PyFloat F] in
theorem Held.empty : Held P defs Dict.empty Dict.empty := by
  constructor
  · intro key v h
    cases h
  · intro key v h
    cases h

omit [PyFloat F] in
theorem Held.set (h : Held P defs values unknown) (hd : definition? P defs key = some d)
    (hv : d.validate P (.json v) = .ok v) : Held P defs (values.set key v) unknown := by
  refine ⟨fun key' v' hget => ?_, h.unknown⟩
  rw [Dict.get?_set] at hget
  split_ifs at hget with heq
  · cases hget
    exact ⟨d, heq ▸ hd, hv⟩
  · exact h.values key' v' hget

omit [PyFloat F] in
theorem Held.setUnknown (h : Held P defs values unknown) (hd : definition? P defs key = none)
    (hv : v.Storable P.plat.limits.intDigits (P.plat.limits.depth - 2)) :
    Held P defs values (unknown.set key v) := by
  refine ⟨h.values, fun key' v' hget => ?_⟩
  rw [Dict.get?_set] at hget
  split_ifs at hget with heq
  · cases hget
    exact ⟨heq ▸ hd, hv⟩
  · exact h.unknown key' v' hget

/-- What the loop of `_load` makes of stored values that can be read again. -/
structure Kept (P : Interpreter F) (defs : List (SettingDefinition P)) (ms : Members F)
    (s s' : SettingsService F) : Prop where
  held : Held P defs s'.values s'.unknownValues
  blocked : s'.writeBlocked = s.writeBlocked
  told : s.problems ⊆ s'.problems
  refused : ∀ kv ∈ ms, ∀ d, definition? P defs kv.1 = some d →
    d.validate P (.json kv.2) ≠ .ok kv.2 → .value kv.1 ∈ s'.problems
  source : ∀ key v, s'.values.get? key = some v → s.values.get? key = some v ∨ (key, v) ∈ ms
  untouched : ∀ key, key ∉ ms.map Prod.fst →
    s'.unknownValues.get? key = s.unknownValues.get? key
  unknown : (ms.map Prod.fst).Nodup → ∀ kv ∈ ms, definition? P defs kv.1 = none →
    s'.unknownValues.get? kv.1 = some kv.2

omit [PyFloat F] in
theorem Kept.untouched_cons {s s' : SettingsService F} (h : Kept P defs ms s s')
    {kv : PyStr × Json F} (key : PyStr) (hkey : key ∉ (kv :: ms).map Prod.fst) :
    s'.unknownValues.get? key = s.unknownValues.get? key := by
  rw [List.map_cons, List.mem_cons, not_or] at hkey
  exact h.untouched key hkey.2

omit [PyFloat F] in
theorem Kept.unknown_cons {s s' : SettingsService F} (h : Kept P defs ms s s') {value : Json F}
    (hd : definition? P defs key = some d) (hnodup : (((key, value) :: ms).map Prod.fst).Nodup)
    (kv : PyStr × Json F) (hkv : kv ∈ (key, value) :: ms) (hdef : definition? P defs kv.1 = none) :
    s'.unknownValues.get? kv.1 = some kv.2 := by
  rw [List.map_cons, List.nodup_cons] at hnodup
  rcases List.mem_cons.mp hkv with rfl | hkv
  · rw [hd] at hdef
    cases hdef
  · exact h.unknown hnodup.2 kv hkv hdef

omit [PyFloat F] in
theorem keep_spec {s : SettingsService F} (h : Held P defs s.values s.unknownValues)
    (hms : ∀ kv ∈ ms, kv.2.Storable P.plat.limits.intDigits (P.plat.limits.depth - 2)) :
    ∃ s', keep P defs ms s = .ok s' ∧ Kept P defs ms s s' := by
  induction ms generalizing s with
  | nil => exact ⟨s, rfl, h, rfl, fun _ => id, fun _ hkv => absurd hkv List.not_mem_nil, fun _ _ => .inl,
      fun _ _ => rfl, fun _ _ hkv => absurd hkv List.not_mem_nil⟩
  | cons kv ms ih =>
    obtain ⟨key, value⟩ := kv
    have hrest := fun kv hkv => hms kv (List.mem_cons_of_mem _ hkv)
    have hvalue := hms (key, value) List.mem_cons_self
    cases hd : definition? P defs key with
    | none =>
      have hheld : Held P defs s.values (s.unknownValues.set key value) := h.setUnknown hd hvalue
      obtain ⟨s', hs', hkept⟩ :=
        @ih { s with unknownValues := s.unknownValues.set key value } hheld hrest
      refine ⟨s', by simp only [keep, hd, hs'], hkept.held, hkept.blocked, hkept.told, ?_, ?_, ?_, ?_⟩
      · intro kv hkv d hdef hnot
        rcases List.mem_cons.mp hkv with rfl | hkv
        · rw [hd] at hdef
          cases hdef
        · exact hkept.refused kv hkv d hdef hnot
      · exact fun k v hget => (hkept.source k v hget).imp_right (List.mem_cons_of_mem _)
      · intro k hk
        rw [List.map_cons, List.mem_cons, not_or] at hk
        exact (hkept.untouched k hk.2).trans (Dict.get?_set_ne hk.1)
      · intro hnodup kv hkv hdef
        rw [List.map_cons, List.nodup_cons] at hnodup
        rcases List.mem_cons.mp hkv with rfl | hkv
        · exact (hkept.untouched _ hnodup.1).trans Dict.get?_set_self
        · exact hkept.unknown hnodup.2 kv hkv hdef
    | some d =>
      cases hv : d.validate P (.json value) with
      | ok v =>
        obtain ⟨hjson, -⟩ := Fields.validate_eq_ok.mp hv
        cases hjson
        have hheld : Held P defs (s.values.set key value) s.unknownValues := h.set hd hv
        obtain ⟨s', hs', hkept⟩ := @ih { s with values := s.values.set key value } hheld hrest
        refine ⟨s', by simp only [keep, hd, hv, hs'], hkept.held, hkept.blocked, hkept.told, ?_, ?_,
          hkept.untouched_cons, hkept.unknown_cons hd⟩
        · intro kv hkv d' hdef hnot
          rcases List.mem_cons.mp hkv with rfl | hkv
          · rw [hd] at hdef
            cases hdef
            exact absurd hv hnot
          · exact hkept.refused kv hkv d' hdef hnot
        · intro k v' hget
          rcases hkept.source k v' hget with hset | hmem
          · rw [Dict.get?_set] at hset
            split_ifs at hset with heq
            · cases hset
              exact .inr (heq ▸ List.mem_cons_self)
            · exact .inl hset
          · exact .inr (List.mem_cons_of_mem _ hmem)
      | error e =>
        cases e with
        | typeError => exact absurd hv d.validate_ne_typeError
        | invalid =>
          obtain ⟨s', hs', hkept⟩ := @ih { s with problems := s.problems ++ [.value key] } h hrest
          refine ⟨s', by simp only [keep, hd, hv, hs'], hkept.held, hkept.blocked, ?_, ?_, ?_,
            hkept.untouched_cons, hkept.unknown_cons hd⟩
          · exact fun p hp => hkept.told (List.mem_append_left _ hp)
          · intro kv hkv d' hdef hnot
            rcases List.mem_cons.mp hkv with rfl | hkv
            · exact hkept.told (List.mem_append_right _ (List.mem_singleton_self _))
            · exact hkept.refused kv hkv d' hdef hnot
          · exact fun k v hget => (hkept.source k v hget).imp_right (List.mem_cons_of_mem _)

omit [PyFloat F] in
theorem migrate_sublist {n : ℕ} {v : ℤ} {payload' : Members F}
    (h : (store F).migrate n v payload = .ok payload') : payload'.Sublist payload := by
  induction n generalizing v payload with
  | zero =>
    cases h
    exact List.Sublist.refl _
  | succ n ih =>
    rw [JsonStore.migrate] at h
    by_cases hv : v = 1
    · have hstep : (store F).migrations v = some migrateV1 := if_pos hv
      rw [hstep] at h
      apply (ih h).trans
      unfold migrateV1
      split
      · exact List.filter_sublist
      · exact List.Sublist.refl _
    · have hstep : (store F).migrations v = none := if_neg hv
      rw [hstep] at h
      cases h

/-- What `load` reads can be written and read again. -/
theorem storable_payload {fault : Bool} {file : Option ByteArray}
    {document : Journal.StoredDocument F}
    (h : (store F).load P.plat fault file = .ok (some document)) :
    (document.payload.map Prod.fst).Nodup ∧ ∀ kv ∈ document.payload,
      kv.2.Storable P.plat.limits.intDigits (P.plat.limits.depth - 2) := by
  obtain ⟨k, hk⟩ := Nat.exists_eq_add_of_le' P.plat.deep
  unfold JsonStore.load at h
  split at h
  · cases h
  · cases h
  rename_i raw hraw
  have hstorable : raw.Storable P.plat.limits.intDigits (k + 6) := by
    unfold JsonStore.readRaw at hraw
    split at hraw
    · cases hraw
    split at hraw
    · cases hraw
    split at hraw
    · cases hraw
    split at hraw
    · rename_i v hv
      cases hraw
      exact hk ▸ Json.storable_of_loads hv
    · cases hraw
  obtain ⟨d, hd, heq⟩ := map_eq_ok.mp h
  cases heq
  unfold JsonStore.check at hd
  split at hd
  · rename_i ms
    split at hd
    · cases hd
    · split at hd
      · rename_i payload hpayload
        have hmember : (py "payload", Json.obj payload) ∈ ms := by
          obtain ⟨before, after, heq, -⟩ := List.lookup_eq_some_iff.mp hpayload
          simp [heq]
        have hinner : (Json.obj payload).Storable P.plat.limits.intDigits (k + 5) :=
          Json.storableMembers_iff.mp hstorable.2 _ hmember
        have hvalues : ∀ kv ∈ payload, kv.2.Storable P.plat.limits.intDigits (k + 4) :=
          Json.storableMembers_iff.mp hinner.2
        rw [hk]
        split_ifs at hd
        · cases hd
          exact ⟨hinner.1, hvalues⟩
        · obtain ⟨payload', hmigrated, heq⟩ := map_eq_ok.mp hd
          cases heq
          have hsub := migrate_sublist hmigrated
          exact ⟨hinner.1.sublist (hsub.map _), fun kv hkv => hvalues kv (hsub.subset hkv)⟩
      · cases hd
  · cases hd

/-- The errors of `load` that `_load` does not catch. -/
theorem load_escapes {fault : Bool} {file : Option ByteArray} :
    (∃ e, (store F).load P.plat fault file = .error e ∧ caught e = false) ↔
      fault = false ∧ Unreadable P file := by
  unfold JsonStore.load JsonStore.readRaw Unreadable
  cases file with
  | none => simp
  | some bytes =>
    cases fault with
    | true => simp [caught]
    | false =>
      simp only [Bool.false_eq_true, if_false, Option.some.injEq, true_and, exists_eq_left']
      cases htext : readText bytes with
      | none => simp [caught]
      | some text =>
        have hfuel := Json.loads_fuel (F := F) P.plat.limits text
        cases hloads : Json.loads (F := F) P.plat.limits text with
        | error e =>
          rw [hloads] at hfuel
          cases e <;> simp_all [caught]
        | ok raw =>
          simp only [Option.some.injEq, exists_eq_left', hloads, reduceCtorEq, or_self, iff_false,
            not_exists, not_and]
          intro e he
          have hcheck : (store F).check raw = .error e := map_eq_error.mp he
          rcases Journal.check_error hcheck with rfl | rfl | rfl <;> simp [caught]

theorem construct_cases (hkeys : (defs.map fun d => d.key).Nodup) (fault : Bool)
    (file : Option ByteArray) :
    (∃ e, (store F).load P.plat fault file = .error e ∧ (caught e = true ∧
      construct P defs fault file = .ok ⟨Dict.empty, Dict.empty, some e, [.store e]⟩ ∨
        caught e = false ∧ construct P defs fault file = .error (.load e))) ∨
      ∃ document s, (store F).load P.plat fault file = .ok document ∧
        construct P defs fault file = .ok s ∧ Kept P defs
          ((document.map fun d => d.payload).getD []) ⟨Dict.empty, Dict.empty, none, []⟩ s := by
  unfold construct
  rw [if_neg (not_not.mpr hkeys)]
  cases hload : (store F).load P.plat fault file with
  | error e =>
    refine .inl ⟨e, rfl, ?_⟩
    cases hcaught : caught e with
    | true => exact .inl ⟨rfl, by simp [hcaught]⟩
    | false => exact .inr ⟨rfl, by simp [hcaught]⟩
  | ok document =>
    right
    have hstorable : ∀ kv ∈ (document.map fun d => d.payload).getD [],
        kv.2.Storable P.plat.limits.intDigits (P.plat.limits.depth - 2) := by
      cases document with
      | none => exact fun kv hkv => absurd hkv List.not_mem_nil
      | some d => exact (storable_payload hload).2
    obtain ⟨s, hs, hkept⟩ :=
      @keep_spec F P defs _ ⟨Dict.empty, Dict.empty, none, []⟩ Held.empty hstorable
    exact ⟨document, s, rfl, hs, hkept⟩

theorem construct_nodup {fault : Bool} {file : Option ByteArray} {s : SettingsService F}
    (h : construct P defs fault file = .ok s) : (defs.map fun d => d.key).Nodup := by
  unfold construct at h
  by_contra hnot
  rw [if_pos hnot] at h
  cases h

theorem construct_iff (fault : Bool) (file : Option ByteArray) :
    (∃ s, construct P defs fault file = .ok s) ↔
      (defs.map fun d => d.key).Nodup ∧ ¬ (fault = false ∧ Unreadable P file) := by
  rw [← load_escapes]
  constructor
  · rintro ⟨s, hs⟩
    have hkeys := construct_nodup hs
    refine ⟨hkeys, ?_⟩
    rintro ⟨e, he, hcaught⟩
    rcases construct_cases hkeys fault file with ⟨e', he', hcase⟩ | ⟨document, s', hload, -, -⟩
    · rw [he] at he'
      cases he'
      rcases hcase with ⟨htrue, -⟩ | ⟨-, hraised⟩
      · rw [hcaught] at htrue
        cases htrue
      · rw [hs] at hraised
        cases hraised
    · rw [he] at hload
      cases hload
  · rintro ⟨hkeys, hnot⟩
    rcases construct_cases hkeys fault file with ⟨e, he, hcase⟩ | ⟨document, s, -, hs, -⟩
    · rcases hcase with ⟨-, hs⟩ | ⟨hcaught, -⟩
      · exact ⟨_, hs⟩
      · exact absurd ⟨e, he, hcaught⟩ hnot
    · exact ⟨s, hs⟩

theorem construct_reports {fault : Bool} {file : Option ByteArray} {s : SettingsService F}
    (h : construct P defs fault file = .ok s) : Reports P defs fault file s := by
  rcases construct_cases (construct_nodup h) fault file with
    ⟨e, he, hcase⟩ | ⟨document, s', hload, hs, hkept⟩
  · rcases hcase with ⟨-, hs⟩ | ⟨-, hraised⟩
    · rw [h] at hs
      cases hs
      constructor
      · intro e' he'
        rw [he, Except.error.injEq] at he'
        exact he' ▸ ⟨rfl, List.mem_singleton_self _⟩
      · intro document hload
        rw [he] at hload
        cases hload
    · rw [h] at hraised
      cases hraised
  · rw [h] at hs
    cases hs
    constructor
    · intro e he
      rw [hload] at he
      cases he
    · intro d hd
      rw [hload] at hd
      cases hd
      exact hkept.refused

omit [PyFloat F] in
theorem accept_eq_ok {x : PyValue F} :
    accept P defs key x = .ok v ↔
      ∃ d, definition? P defs key = some d ∧ x = .json v ∧ d.validate P (.json v) = .ok v := by
  unfold accept
  cases hd : definition? P defs key with
  | none => simp
  | some d =>
    constructor
    · intro h
      have h : (d.validate P x).mapError CallError.validate = .ok v := h
      cases hv : d.validate P x with
      | error e =>
        rw [hv] at h
        cases h
      | ok w =>
        rw [hv] at h
        cases h
        obtain ⟨rfl, -⟩ := Fields.validate_eq_ok.mp hv
        exact ⟨d, rfl, rfl, hv⟩
    · rintro ⟨d', hd', rfl, hv⟩
      cases hd'
      change (d.validate P (.json v)).mapError CallError.validate = .ok v
      rw [hv]
      rfl

omit [PyFloat F] in
theorem Held.erase (h : Held P defs values unknown) (key : PyStr) :
    Held P defs (values.erase key) unknown := by
  refine ⟨fun key' v hget => ?_, h.unknown⟩
  rw [Dict.get?_erase] at hget
  split_ifs at hget
  exact h.values key' v hget

omit [PyFloat F] in
theorem Held.none (h : Held P defs values unknown) : Held P defs Dict.empty unknown := by
  refine ⟨fun key v hget => ?_, h.unknown⟩
  cases hget

omit [PyFloat F] in
theorem Held.setAll (h : Held P defs values unknown) {kvs : List (PyStr × Json F)}
    (hkvs : ∀ kv ∈ kvs, ∃ d, definition? P defs kv.1 = some d ∧ d.validate P (.json kv.2) = .ok kv.2) :
    Held P defs (kvs.foldl (fun d kv => d.set kv.1 kv.2) values) unknown := by
  induction kvs generalizing values with
  | nil => exact h
  | cons kv kvs ih =>
    obtain ⟨d, hd, hv⟩ := hkvs kv List.mem_cons_self
    exact ih (h.set hd hv) fun kv hkv => hkvs kv (List.mem_cons_of_mem _ hkv)

omit [PyFloat F] in
theorem acceptAll_spec {given : List (PyStr × PyValue F)}
    {accepted accepted' : Dict PyStr (Json F)}
    (h : acceptAll P defs given accepted = .ok accepted') (hget : accepted'.get? key = some v) :
    accepted.get? key = some v ∨ (key, .json v) ∈ given ∧
      ∃ d, definition? P defs key = some d ∧ d.validate P (.json v) = .ok v := by
  induction given generalizing accepted with
  | nil =>
    cases h
    exact .inl hget
  | cons kv given ih =>
    obtain ⟨w, hw, hrest⟩ := bind_eq_ok.mp h
    obtain ⟨d, hd, hjson, hv⟩ := accept_eq_ok.mp hw
    rcases ih hrest with hset | ⟨hmem, hdef⟩
    · rw [Dict.get?_set] at hset
      split_ifs at hset with heq
      · cases hset
        subst heq
        exact .inr ⟨hjson ▸ List.mem_cons_self, d, hd, hv⟩
      · exact .inl hset
    · exact .inr ⟨List.mem_cons_of_mem _ hmem, hdef⟩

omit [PyFloat F] in
theorem candidate_held {call : Call F} (h : Held P defs values unknown)
    (hc : candidate P defs values call = .ok values') : Held P defs values' unknown := by
  cases call with
  | set key value =>
    obtain ⟨v, hv, rfl⟩ := map_eq_ok.mp hc
    obtain ⟨d, hd, -, hvalid⟩ := accept_eq_ok.mp hv
    exact h.set hd hvalid
  | update given =>
    obtain ⟨accepted, haccepted, rfl⟩ := map_eq_ok.mp hc
    apply h.setAll
    intro kv hkv
    rcases acceptAll_spec haccepted (Dict.get?_eq_some.mpr hkv) with hempty | ⟨-, hdef⟩
    · cases hempty
    · exact hdef
  | reset key =>
    simp only [candidate] at hc
    split at hc
    · cases hc
    · cases hc
      exact h.erase key
  | resetAll =>
    cases hc
    exact h.none

omit [PyFloat F] in
theorem Held.payload_eq (h : Held P defs values unknown) :
    payloadOf unknown values = unknown.items ++ values.items := by
  have hnodup : (unknown.keys ++ values.items.map Prod.fst).Nodup := by
    rw [List.nodup_append]
    refine ⟨unknown.nodup, values.nodup, ?_⟩
    rintro key hkey key' hkey' rfl
    obtain ⟨⟨k, v⟩, hv, rfl⟩ := List.mem_map.mp hkey
    obtain ⟨⟨k', w⟩, hw, heq⟩ := List.mem_map.mp hkey'
    cases heq
    have hnone := (h.unknown _ v (Dict.get?_eq_some.mpr hv)).1
    obtain ⟨d, hd, -⟩ := h.values _ w (Dict.get?_eq_some.mpr hw)
    rw [hnone] at hd
    cases hd
  rw [payloadOf, Dict.items_foldl_set Prod.fst Prod.snd hnodup]
  simp

omit [PyFloat F] in
theorem intsFitMembers_iff {digits : ℕ} :
    Json.intsFitMembers digits ms = true ↔ ∀ kv ∈ ms, kv.2.intsFit digits = true := by
  induction ms with
  | nil => simp [Json.intsFitMembers]
  | cons kv ms ih => simp [Json.intsFitMembers, ih]

/-- What was written can be read. -/
theorem Held.storable (h : Held P defs values unknown)
    (hb : (store F).encode P.plat (payloadOf unknown values) = .ok bytes) :
    ((store F).document (payloadOf unknown values)).Storable P.plat.limits.intDigits
      P.plat.limits.depth := by
  obtain ⟨k, hk⟩ := Nat.exists_eq_add_of_le' P.plat.deep
  have hfit := (JsonStore.encode_ok.mp ⟨bytes, hb⟩).1
  have hversion : (natText (2 : ℤ).natAbs).length ≤ P.plat.limits.intDigits :=
    le_trans (by decide) P.plat.digits
  have hkeys : ((payloadOf unknown values).map Prod.fst).Nodup := Dict.nodup _
  have hvalues : Json.StorableMembers P.plat.limits.intDigits (k + 4) (payloadOf unknown values) := by
    rw [Json.storableMembers_iff]
    intro kv hkv
    have hint : kv.2.intsFit P.plat.limits.intDigits = true := by
      simp only [JsonStore.document, Json.intsFit, Json.intsFitMembers, Bool.and_eq_true] at hfit
      exact intsFitMembers_iff.mp hfit.2.1 kv hkv
    rw [h.payload_eq, List.mem_append] at hkv
    rcases hkv with hkv | hkv
    · have hstorable := (h.unknown kv.1 kv.2 (Dict.get?_eq_some.mpr hkv)).2
      rw [hk] at hstorable
      exact hstorable
    · obtain ⟨d, -, hv⟩ := h.values kv.1 kv.2 (Dict.get?_eq_some.mpr hkv)
      obtain ⟨-, htype, -⟩ := Fields.validate_eq_ok.mp hv
      rcases (d.hasType_cases htype).2.2 with hnumber | hstr
      · cases hkind : kv.2 with
        | int n =>
          rw [hkind] at hint
          simpa [Json.intsFit, Json.Storable] using hint
        | bool | float => simp only [Json.Storable]
        | null | str | arr | obj =>
          rw [hkind] at hnumber
          cases hnumber
      · cases hkind : kv.2 with
        | str => simp only [Json.Storable]
        | null | bool | int | float | arr | obj =>
          rw [hkind] at hstr
          cases hstr
  rw [hk]
  exact ⟨by simp only [List.map_cons, List.map_nil]; decide, hversion, ⟨hkeys, hvalues⟩, trivial⟩

omit [PyFloat F] in
theorem keep_unknown {rest : Members F} (h : ∀ kv ∈ ms, definition? P defs kv.1 = none)
    (s : SettingsService F) : keep P defs (ms ++ rest) s = keep P defs rest
      { s with unknownValues := ms.foldl (fun d kv => d.set kv.1 kv.2) s.unknownValues } := by
  induction ms generalizing s with
  | nil => rfl
  | cons kv ms ih =>
    have hkv := h kv List.mem_cons_self
    simp only [List.cons_append, keep, hkv]
    exact ih (fun kv hkv => h kv (List.mem_cons_of_mem _ hkv)) _

omit [PyFloat F] in
theorem keep_known
    (h : ∀ kv ∈ ms, ∃ d, definition? P defs kv.1 = some d ∧ d.validate P (.json kv.2) = .ok kv.2)
    (s : SettingsService F) : keep P defs ms s =
      .ok { s with values := ms.foldl (fun d kv => d.set kv.1 kv.2) s.values } := by
  induction ms generalizing s with
  | nil => rfl
  | cons kv ms ih =>
    obtain ⟨d, hd, hv⟩ := h kv List.mem_cons_self
    simp only [keep, hd, hv]
    exact ih (fun kv hkv => h kv (List.mem_cons_of_mem _ hkv)) _

omit [PyFloat F] in
theorem foldl_items (d : Dict PyStr (Json F)) :
    d.items.foldl (fun d kv => d.set kv.1 kv.2) Dict.empty = d := by
  apply Dict.ext_items
  have hnodup : ((Dict.empty : Dict PyStr (Json F)).keys ++ d.items.map Prod.fst).Nodup := d.nodup
  rw [Dict.items_foldl_set Prod.fst Prod.snd hnodup]
  simp [Dict.empty]

omit [PyFloat F] in
theorem Held.keep (h : Held P defs values unknown) :
    Settings.keep P defs (payloadOf unknown values) ⟨Dict.empty, Dict.empty, .none, []⟩ =
      .ok ⟨values, unknown, .none, []⟩ := by
  rw [h.payload_eq, keep_unknown fun kv hkv => (h.unknown _ _ (Dict.get?_eq_some.mpr hkv)).1,
    keep_known fun kv hkv => h.values _ _ (Dict.get?_eq_some.mpr hkv)]
  simp only [foldl_items]

theorem Held.reloads (h : Held P defs values unknown) (hkeys : (defs.map fun d => d.key).Nodup)
    (hb : (store F).encode P.plat (payloadOf unknown values) = .ok bytes) :
    construct P defs false (some bytes) = .ok ⟨values, unknown, .none, []⟩ := by
  unfold construct
  rw [if_neg (not_not.mpr hkeys), JsonStore.load_encode hb (h.storable hb)]
  exact h.keep

variable {fault : Bool} {file : Option ByteArray} {s s' : State F} {call : Call F} {f : SaveFault}

theorem save_clean {e : CallError} (hclean : Clean f) (h : (save P payload f file).1 = .error e) :
    (save P payload f file).2 = file := by
  unfold save at h ⊢
  split_ifs at h ⊢ with hnests
  · simp only at h ⊢
    unfold JsonStore.save JsonStore.replace at h ⊢
    cases hsetup : f.setup with
    | some name => rfl
    | none =>
      cases hencode : (store F).encode P.plat payload with
      | error e' => cases f.cleanup <;> rfl
      | ok bytes =>
        cases hdisk : f.disk with
        | some name => cases f.cleanup <;> rfl
        | none =>
          rcases hclean with hcleanup | hclean | hclean
          · rw [hsetup, hcleanup, hencode, hdisk] at h
            cases h
          · exact absurd hsetup hclean
          · exact absurd hdisk hclean
  · cases f.setup <;> cases f.cleanup <;> rfl

theorem save_ok (h : (save P payload f file).1 = .ok ()) :
    ∃ bytes, (store F).encode P.plat payload = .ok bytes ∧ (save P payload f file).2 = some bytes := by
  unfold save at h ⊢
  split_ifs at h ⊢ with hnests
  · apply JsonStore.save_ok
    cases hsaved : ((store F).save P.plat payload f file).1 with
    | ok u => rfl
    | error e =>
      simp only [hsaved] at h
      cases h
  · cases hsetup : f.setup <;> cases hcleanup : f.cleanup <;> simp [hsetup, hcleanup] at h

theorem run_cases (P : Interpreter F) (defs : List (SettingDefinition P)) (call : Call F)
    (f : SaveFault) (s : State F) :
    (∃ e, (run P defs call f s).1 = .error e ∧
      (run P defs call f s).2.service.values = s.service.values ∧
      (run P defs call f s).2.service.unknownValues = s.service.unknownValues ∧
      (run P defs call f s).2.service.writeBlocked = s.service.writeBlocked ∧
      (s.service.writeBlocked.isSome = true ∨ Clean f →
        (run P defs call f s).2.file = s.file)) ∨
      ∃ values bytes, candidate P defs s.service.values call = .ok values ∧
        s.service.writeBlocked = none ∧
        (store F).encode P.plat (payloadOf s.service.unknownValues values) = .ok bytes ∧
        run P defs call f s = (.ok (), ⟨{ s.service with values }, some bytes⟩) := by
  cases hc : candidate P defs s.service.values call with
  | error e =>
    have hrun : run P defs call f s = (.error e, s) := by simp only [run, hc]
    rw [hrun]
    exact .inl ⟨e, rfl, rfl, rfl, rfl, fun _ => rfl⟩
  | ok values =>
    have hrun : run P defs call f s = commit P values f s := by simp only [run, hc]
    by_cases hblocked : s.service.writeBlocked.isSome = true
    · have hcommit : commit P values f s = (.error .blocked, s) := if_pos hblocked
      rw [hrun, hcommit]
      exact .inl ⟨.blocked, rfl, rfl, rfl, rfl, fun _ => rfl⟩
    · cases hsave : save P (payloadOf s.service.unknownValues values) f s.file with
      | mk result file =>
        cases result with
        | error e =>
          obtain ⟨problems, hcommit⟩ : ∃ problems, commit P values f s =
              (.error e, ⟨{ s.service with problems }, file⟩) := by
            rw [commit, if_neg hblocked, hsave]
            exact ⟨_, rfl⟩
          rw [hrun, hcommit]
          refine .inl ⟨e, rfl, rfl, rfl, rfl, ?_⟩
          rintro (hsome | hclean)
          · exact absurd hsome hblocked
          · have hfile := save_clean hclean (congrArg Prod.fst hsave)
            rw [hsave] at hfile
            exact hfile
        | ok u =>
          obtain ⟨bytes, hbytes, hfile⟩ := save_ok (congrArg Prod.fst hsave)
          rw [hsave] at hfile
          have heq : file = some bytes := hfile
          have hcommit : commit P values f s = (.ok (), ⟨{ s.service with values }, file⟩) := by
            rw [commit, if_neg hblocked, hsave]
          rw [hrun, hcommit, heq]
          exact .inr ⟨values, bytes, rfl, by simpa using hblocked, hbytes, rfl⟩

structure Inv (P : Interpreter F) (defs : List (SettingDefinition P)) (file : Option ByteArray)
    (first : SettingsService F) (s : State F) : Prop where
  held : Held P defs s.service.values s.service.unknownValues
  unknown : s.service.unknownValues = first.unknownValues
  blocked : s.service.writeBlocked = first.writeBlocked
  kept : first.writeBlocked.isSome = true → s.file = file

theorem Inv.run {first : SettingsService F} (h : Inv P defs file first s) :
    Inv P defs file first (Settings.run P defs call f s).2 := by
  rcases run_cases P defs call f s with
    ⟨e, -, hvalues, hunknown, hblocked, hfile⟩ | ⟨values, bytes, hc, hopen, -, hrun⟩
  · refine ⟨?_, hunknown.trans h.unknown, hblocked.trans h.blocked, fun hsome => ?_⟩
    · rw [hvalues, hunknown]
      exact h.held
    · rw [hfile (.inl (h.blocked ▸ hsome))]
      exact h.kept hsome
  · rw [hrun]
    refine ⟨candidate_held h.held hc, h.unknown, h.blocked, fun hsome => ?_⟩
    rw [← h.blocked, hopen] at hsome
    cases hsome

theorem Inv.start {service : SettingsService F} (h : construct P defs fault file = .ok service) :
    Inv P defs file service ⟨service, file⟩ := by
  refine ⟨?_, rfl, rfl, fun _ => rfl⟩
  rcases construct_cases (construct_nodup h) fault file with
    ⟨e, -, ⟨-, hs⟩ | ⟨-, hraised⟩⟩ | ⟨document, s', -, hs, hkept⟩
  · rw [h] at hs
    cases hs
    exact Held.empty
  · rw [h] at hraised
    cases hraised
  · rw [h] at hs
    cases hs
    exact hkept.held

theorem inv_of_reach {ok : State F → Call F × SaveFault → Prop}
    (h : (settingsMachine P defs fault file).Reach ok s) :
    ∃ service, construct P defs fault file = .ok service ∧ Inv P defs file service s := by
  induction h with
  | start h0 =>
    obtain ⟨hservice, rfl⟩ := h0
    exact ⟨_, hservice, Inv.start hservice⟩
  | step _ _ hs ih =>
    obtain ⟨service, hservice, hinv⟩ := ih
    cases hs
    exact ⟨service, hservice, hinv.run⟩

theorem agrees (h : (settingsMachine P defs fault file).Reachable s) :
    Agrees P defs fault file s := by
  obtain ⟨service, hservice, hinv⟩ := inv_of_reach h
  have hkeys := construct_nodup hservice
  constructor
  · intro e he
    have hblocked := ((construct_reports hservice).store e he).1
    exact hinv.kept (by rw [hblocked]; rfl)
  · intro document hload kv hkv hdef
    rw [hinv.unknown]
    rcases construct_cases hkeys fault file with ⟨e, he, -⟩ | ⟨document', s', hload', hs, hkept⟩
    · rw [hload] at he
      cases he
    · rw [hload] at hload'
      cases hload'
      rw [hservice] at hs
      cases hs
      exact hkept.unknown (storable_payload hload).1 kv hkv hdef
  · intro call f s' hrun
    rcases run_cases P defs call f s with
      ⟨e, herror, -⟩ | ⟨values, bytes, hc, hopen, hbytes, hdone⟩
    · rw [hrun] at herror
      cases herror
    · rw [hrun] at hdone
      cases hdone
      exact ⟨⟨_, (candidate_held hinv.held hc).reloads hkeys hbytes, rfl, rfl, rfl⟩, rfl⟩
  · intro call f e s' hrun
    rcases run_cases P defs call f s with
      ⟨e', -, hvalues, hunknown, -, hfile⟩ | ⟨values, bytes, -, -, -, hdone⟩
    · rw [hrun] at hvalues hunknown hfile
      exact ⟨hvalues, hunknown, fun hclean => hfile (.inr hclean)⟩
    · rw [hrun] at hdone
      cases hdone

/-! Values that can be compared with their bounds. -/

def AllComparable (P : Interpreter F) (defs : List (SettingDefinition P))
    (values : Dict PyStr (Json F)) : Prop :=
  ∀ key v, values.get? key = some v → ∀ d, definition? P defs key = some d → d.Comparable P v

omit [PyFloat F] in
theorem candidate_comparable (h : AllComparable P defs values) (hcall : call.Comparable P defs)
    (hc : candidate P defs values call = .ok values') : AllComparable P defs values' := by
  cases call with
  | set key value =>
    obtain ⟨v, hv, rfl⟩ := map_eq_ok.mp hc
    obtain ⟨d, hd, hjson, -⟩ := accept_eq_ok.mp hv
    intro key' v' hget d' hd'
    rw [Dict.get?_set] at hget
    split_ifs at hget with heq
    · cases hget
      exact hcall d' v (heq ▸ hd') hjson
    · exact h key' v' hget d' hd'
  | update given =>
    obtain ⟨accepted, haccepted, rfl⟩ := map_eq_ok.mp hc
    intro key v hget d hd
    rcases Dict.get?_foldl_set hget with ⟨kv, hkv, rfl, rfl⟩ | hget
    · rcases acceptAll_spec haccepted (Dict.get?_eq_some.mpr hkv) with hempty | ⟨hmem, -⟩
      · cases hempty
      · exact hcall _ hmem d _ hd rfl
    · exact h key v hget d hd
  | reset key =>
    simp only [candidate] at hc
    split at hc
    · cases hc
    · cases hc
      intro key' v hget d hd
      rw [Dict.get?_erase] at hget
      split_ifs at hget
      exact h key' v hget d hd
  | resetAll =>
    cases hc
    intro key v hget
    cases hget

theorem comparable_of_reach (hfile : FileComparable P defs fault file)
    (h : (settingsMachine P defs fault file).Reach (fun _ act => act.1.Comparable P defs) s) :
    AllComparable P defs s.service.values := by
  induction h with
  | start h0 =>
    obtain ⟨hservice, rfl⟩ := h0
    intro key v hget d hd
    rcases construct_cases (construct_nodup hservice) fault _ with
      ⟨e, -, ⟨-, hs⟩ | ⟨-, hraised⟩⟩ | ⟨document, s', hload, hs, hkept⟩
    · rw [hservice, Except.ok.injEq] at hs
      rw [hs] at hget
      cases hget
    · rw [hservice] at hraised
      cases hraised
    · rw [hservice, Except.ok.injEq] at hs
      rw [hs] at hget
      rcases hkept.source key v hget with hempty | hmem
      · cases hempty
      · cases document with
        | none => cases hmem
        | some document => exact hfile.2 document hload (key, v) hmem d hd
  | @step s _ act hr hcall hs ih =>
    cases hs
    rcases run_cases P defs act.1 act.2 s with
      ⟨e, -, hvalues, -⟩ | ⟨values, bytes, hc, -, -, hrun⟩
    · rw [hvalues]
      exact ih
    · rw [hrun]
      exact candidate_comparable ih hcall hc

structure AllValid (P : Interpreter F) (defs : List (SettingDefinition P)) (s : SettingsService F) :
    Prop where
  get : ∀ key v, Settings.get P defs s key = .ok v →
    ∃ d, definition? P defs key = some d ∧ d.Valid P v
  all : ∀ d ∈ defs, (d.key, s.value P d) ∈ allValues P defs s ∧ d.Valid P (s.value P d)

theorem allValid (hfile : FileComparable P defs fault file)
    (h : (settingsMachine P defs fault file).Reach (fun _ act => act.1.Comparable P defs) s) :
    AllValid P defs s.service := by
  obtain ⟨service, hservice, hinv⟩ := inv_of_reach h
  have hkeys := construct_nodup hservice
  have hvalid : ∀ d ∈ defs, d.Valid P (s.service.value P d) := by
    intro d hd
    have hdef := definition?_of_mem hkeys hd
    unfold SettingsService.value
    cases hget : s.service.values.get? d.key with
    | none => exact (Fields.valid_iff d.valid).mpr (hfile.1 d hd)
    | some v =>
      obtain ⟨d', hd', hv⟩ := hinv.held.values d.key v hget
      rw [hdef] at hd'
      cases hd'
      exact (Fields.valid_iff hv).mpr (comparable_of_reach hfile h d.key v hget d hdef)
  constructor
  · intro key v hget
    unfold Settings.get at hget
    split at hget
    · cases hget
    · rename_i d hd
      cases hget
      exact ⟨d, hd, hvalid d (definition?_mem hd).1⟩
  · exact fun d hd => ⟨List.mem_map.mpr ⟨d, hd, rfl⟩, hvalid d hd⟩

/-- The constructor raises where a key is defined twice or the file raises what `_load` does not
catch, and reports what it cannot use. In every run the file gives back what the service holds, or
is as it was; and where values can be compared with their bounds, all are valid. -/
theorem settings_agree (P : Interpreter F) (defs : List (SettingDefinition P)) (fault : Bool)
    (file : Option ByteArray) :
    ((∃ s, construct P defs fault file = .ok s) ↔
      (defs.map fun d => d.key).Nodup ∧ ¬ (fault = false ∧ Unreadable P file)) ∧
      (∀ s, construct P defs fault file = .ok s → Reports P defs fault file s) ∧
      (∀ s, (settingsMachine P defs fault file).Reachable s → Agrees P defs fault file s) ∧
      (FileComparable P defs fault file → ∀ s,
        (settingsMachine P defs fault file).Reach (fun _ act => act.1.Comparable P defs) s →
          AllValid P defs s.service) :=
  ⟨construct_iff fault file, fun _ => construct_reports, fun _ => agrees, fun hfile _ => allValid hfile⟩

end

def numberValue : Number WholeFloat → ℤ
  | .int n => n
  | .float x => x.value

def sampleInterpreter : Interpreter WholeFloat where
  plat := Journal.cpython
  dumpsDepth := 1000
  lt x y := numberValue x < numberValue y
  isNan _ := false
  same
    | .str s, .json (.str t) => s = t
    | v, .json w => (number? v).isSome && (number? v).map numberValue == (number? w).map numberValue
    | _, .other => false

def wakeSensitivity : SettingDefinition sampleInterpreter where
  key := py "voice.wake_sensitivity"
  default := .int 56
  minimum := some (.int 0)
  maximum := some (.int 100)
  choices := none
  hasKey := by decide
  plain := .inl rfl
  valid := rfl

def language : SettingDefinition sampleInterpreter where
  key := py "voice.language"
  default := .str (py "fa")
  minimum := none
  maximum := none
  choices := some [.json (.str (py "auto")), .json (.str (py "fa")), .json (.str (py "en"))]
  hasKey := by decide
  plain := .inr rfl
  valid := rfl

def sampleDefinitions : List (SettingDefinition sampleInterpreter) := [wakeSensitivity, language]

theorem sampleDefinitions_nodup : (sampleDefinitions.map fun d => d.key).Nodup := by decide

theorem settings_agree_sample :
    ∃ s, construct sampleInterpreter sampleDefinitions false none = .ok s ∧
      Agrees sampleInterpreter sampleDefinitions false none ⟨s, none⟩ ∧
      AllValid sampleInterpreter sampleDefinitions s := by
  have hall := settings_agree sampleInterpreter sampleDefinitions false none
  have hreadable : ¬ (false = false ∧ Unreadable sampleInterpreter none) := by
    rintro ⟨-, bytes, hbytes, -⟩
    cases hbytes
  obtain ⟨s, hs⟩ := hall.1.mpr ⟨sampleDefinitions_nodup, hreadable⟩
  have hfile : FileComparable sampleInterpreter sampleDefinitions false none := by
    constructor
    · intro d hd b hb
      have hcomparable : ∀ x, sampleInterpreter.comparable x = true := by
        intro x
        cases x <;> rfl
      exact ⟨hcomparable b, fun n _ => hcomparable n⟩
    · intro document hload
      cases hload
  exact ⟨s, hs, hall.2.2.1 ⟨s, none⟩ (.start ⟨hs, rfl⟩), hall.2.2.2 hfile ⟨s, none⟩ (.start ⟨hs, rfl⟩)⟩

/-- A file of one byte that is not UTF-8. -/
def notUtf8 : ByteArray := ⟨#[0xFF]⟩

theorem construct_raises :
    ¬ ∃ s, construct sampleInterpreter sampleDefinitions false (some notUtf8) = .ok s := by
  rw [construct_iff]
  rintro ⟨-, hnot⟩
  have hread : readText notUtf8 = none := by decide +kernel
  exact hnot ⟨rfl, notUtf8, rfl, .inl hread⟩

end QronosAgent.Settings

import QronosAgent.Lib.JsonRoundTrip

/-! `core/json_store.py`: one versioned JSON document in a file. A save writes a temporary
file and renames it, so the file holds either its previous bytes or the whole new document. -/
namespace QronosAgent.Journal
open Lib

/-- The interpreter and the system a store runs on. The recursion limit is far above the
six containers that the queue's own document nests, and 640 is the least limit on digits. -/
structure Platform where
  limits : JsonLimits
  crlf : Bool
  deep : 6 ≤ limits.depth
  digits : 640 ≤ limits.intDigits

/-- An interpreter with its default limits, on a system with line feeds. -/
def cpython : Platform := ⟨⟨1000, 4300⟩, false, by decide, by decide⟩

abbrev Members (F : Type) := List (PyStr × Json F)

structure JsonStore (F : Type) where
  version : ℤ
  migrations : ℤ → Option (Members F → Members F)

structure StoredDocument (F : Type) where
  version : ℤ
  payload : Members F
  migrated : Bool

inductive LoadError where
  | corrupt
  | unreadable
  | tooNew
  | migrationMissing
  | unicodeDecode
  /-- What `json.loads` raises other than `JSONDecodeError` -/
  | json (e : JsonError)

inductive SaveError where
  | os (name : PyStr)
  | value
  | unicodeEncode
  deriving DecidableEq

/-- Which system calls of one save fail: the directory and the temporary file, the writing
and renaming, the removal of the temporary file at the end. -/
structure SaveFault where
  setup : Option PyStr
  disk : Option PyStr
  cleanup : Option PyStr

def SaveFault.none : SaveFault := ⟨.none, .none, .none⟩

namespace JsonStore
variable {F : Type}

def document (st : JsonStore F) (payload : Members F) : Json F :=
  .obj [(py "schemaVersion", .int st.version), (py "payload", .obj payload)]

/-- One step for each version from `version` on; a missing one refuses the file. -/
def migrate (st : JsonStore F) : ℕ → ℤ → Members F → Except LoadError (Members F)
  | 0, _, payload => .ok payload
  | n + 1, version, payload =>
    match st.migrations version with
    | none => .error .migrationMissing
    | some step => migrate st n (version + 1) (step payload)

/-- `isinstance(value, int)`, which holds of the booleans too. -/
def intValue? : Json F → Option ℤ
  | .int n => some n
  | .bool b => some (if b then 1 else 0)
  | _ => none

section
variable [PyFloat F]

/-- `_read_raw` on the bytes of the file, when there is one; `fault` is an `OSError` from
reading it. -/
def readRaw (plat : Platform) (fault : Bool) (file : Option ByteArray) :
    Except LoadError (Option (Json F)) :=
  match file with
  | none => .ok none
  | some bytes =>
    if fault then .error .unreadable
    else
      match readText bytes with
      | none => .error .unicodeDecode
      | some text =>
        match Json.loads plat.limits text with
        | .ok v => .ok (some v)
        | .error e => .error (if e = .decode then .corrupt else .json e)

/-- What `load` makes of the document it read. -/
def check (st : JsonStore F) (raw : Json F) : Except LoadError (StoredDocument F) :=
  match raw with
  | .obj ms =>
    match (Json.member? ms (py "schemaVersion")).bind intValue? with
    | none => .error .corrupt
    | some version =>
      match Json.member? ms (py "payload") with
      | some (.obj payload) =>
        if st.version < version then .error .tooNew
        else if version = st.version then .ok ⟨version, payload, false⟩
        else
          (st.migrate (st.version - version).toNat version payload).map fun payload =>
            ⟨st.version, payload, true⟩
      | _ => .error .corrupt
  | _ => .error .corrupt

def load (st : JsonStore F) (plat : Platform) (fault : Bool) (file : Option ByteArray) :
    Except LoadError (Option (StoredDocument F)) :=
  match readRaw plat fault file with
  | .error e => .error e
  | .ok none => .ok none
  | .ok (some raw) => (st.check raw).map some

/-- The bytes of the document: `json.dumps`, then the encoding of the text file. -/
def encode (st : JsonStore F) (plat : Platform) (payload : Members F) :
    Except SaveError ByteArray :=
  match Json.dumps plat.limits (st.document payload) with
  | none => .error .value
  | some text =>
    match writeText plat.crlf text with
    | none => .error .unicodeEncode
    | some bytes => .ok bytes

/-- The body of the `try`: the temporary file is written whole before it is renamed. -/
def replace (st : JsonStore F) (plat : Platform) (payload : Members F) (disk : Option PyStr)
    (file : Option ByteArray) : Except SaveError Unit × Option ByteArray :=
  match st.encode plat payload with
  | .error e => (.error e, file)
  | .ok bytes =>
    match disk with
    | some name => (.error (.os name), file)
    | none => (.ok (), some bytes)

/-- `save`: what it raises, and the file it leaves. An error of the last removal takes the
place of whatever the `try` raised. -/
def save (st : JsonStore F) (plat : Platform) (payload : Members F) (fault : SaveFault)
    (file : Option ByteArray) : Except SaveError Unit × Option ByteArray :=
  match fault.setup with
  | some name => (.error (.os name), file)
  | none =>
    match fault.cleanup with
    | some name => (.error (.os name), (st.replace plat payload fault.disk file).2)
    | none => st.replace plat payload fault.disk file

variable {st : JsonStore F} {plat : Platform} {payload : Members F} {fault : SaveFault}
  {file : Option ByteArray}

theorem save_ok (h : (st.save plat payload fault file).1 = .ok ()) :
    ∃ bytes, st.encode plat payload = .ok bytes ∧
      (st.save plat payload fault file).2 = some bytes := by
  unfold save at h ⊢
  split at h
  · cases h
  split at h
  · cases h
  unfold replace at h ⊢
  split at h
  · cases h
  · rename_i bytes hb
    split at h
    · cases h
    · exact ⟨bytes, hb, rfl⟩

/-- Whatever happens, the file is the old one or the whole new one. -/
theorem save_atomic (st : JsonStore F) (plat : Platform) (payload : Members F) (fault : SaveFault)
    (file : Option ByteArray) : (st.save plat payload fault file).2 = file ∨
    ∃ bytes, st.encode plat payload = .ok bytes ∧
      (st.save plat payload fault file).2 = some bytes := by
  have hreplace : (st.replace plat payload fault.disk file).2 = file ∨
      ∃ bytes, st.encode plat payload = .ok bytes ∧
        (st.replace plat payload fault.disk file).2 = some bytes := by
    unfold replace
    split
    · exact .inl rfl
    · rename_i bytes hb
      split
      · exact .inl rfl
      · exact .inr ⟨bytes, hb, rfl⟩
  unfold save
  split
  · exact .inl rfl
  · split <;> exact hreplace

/-- An error of another class comes from the text itself, and nothing was written. -/
theorem save_raises {e : SaveError} (he : ∀ name, e ≠ .os name)
    (h : (st.save plat payload fault file).1 = .error e) :
    st.encode plat payload = .error e ∧ (st.save plat payload fault file).2 = file := by
  unfold save replace at h ⊢
  split at h
  · exact absurd (Except.error.inj h).symm (he _)
  split at h
  · exact absurd (Except.error.inj h).symm (he _)
  split at h
  · rename_i e' hb
    have hee : e' = e := Except.error.inj h
    rw [hee] at hb
    exact ⟨hb, rfl⟩
  · split at h
    · exact absurd (Except.error.inj h).symm (he _)
    · cases h

theorem save_none {bytes : ByteArray} (hb : st.encode plat payload = .ok bytes) :
    st.save plat payload .none file = (.ok (), some bytes) := by
  simp [save, replace, hb, SaveFault.none]

theorem encode_ok : (∃ bytes, st.encode plat payload = .ok bytes) ↔
    (st.document payload).intsFit plat.limits.intDigits = true ∧
      PyStr.Encodable (st.document payload).chars := by
  unfold encode Json.dumps
  by_cases hfit : (st.document payload).intsFit plat.limits.intDigits = true
  · rw [if_pos hfit, ← Json.encodable_render (d := 0), ← writeText_isSome plat.crlf]
    cases hw : writeText plat.crlf ((st.document payload).render 0) <;> simp [hfit, hw]
  · simp [hfit]

/-- What `load` reads back from a document that `save` wrote. -/
theorem load_encode {bytes : ByteArray} (hb : st.encode plat payload = .ok bytes)
    (hs : (st.document payload).Storable plat.limits.intDigits plat.limits.depth) :
    st.load plat false (some bytes) = .ok (some ⟨st.version, payload, false⟩) := by
  have hread : readText bytes = some ((st.document payload).render 0) := by
    unfold encode Json.dumps at hb
    split at hb
    · cases hb
    · rename_i text ht
      split at ht
      · cases ht
        split at hb
        · cases hb
        · rename_i bytes' hw
          cases hb
          exact readText_writeText (Json.cr_notMem_render 0 _) hw
      · cases ht
  have hversion : Json.member? [(py "schemaVersion", .int st.version), (py "payload", .obj payload)]
      (py "schemaVersion") = some (.int st.version) := rfl
  have hpayload : Json.member? [(py "schemaVersion", .int st.version), (py "payload", .obj payload)]
      (py "payload") = some (.obj payload) := rfl
  unfold load readRaw
  simp only [Bool.false_eq_true, if_false, hread, Json.loads_render hs]
  simp only [document, check, hversion, hpayload, Option.bind_some, intValue?, lt_irrefl,
    if_false, if_true, Except.map]

end
end JsonStore

theorem migrate_error {F : Type} {st : JsonStore F} {n : ℕ} {v : ℤ} {payload : Members F}
    {e : LoadError} (h : st.migrate n v payload = .error e) : e = .migrationMissing := by
  induction n generalizing v payload with
  | zero => exact absurd h (by simp [JsonStore.migrate])
  | succ n ih =>
    rw [JsonStore.migrate] at h
    split at h
    · exact (Except.error.inj h).symm
    · exact ih h

theorem check_error {F : Type} {st : JsonStore F} {raw : Json F} {e : LoadError}
    (h : st.check raw = .error e) : e = .corrupt ∨ e = .tooNew ∨ e = .migrationMissing := by
  unfold JsonStore.check at h
  split at h
  · split at h
    · exact .inl (Except.error.inj h).symm
    · split at h
      · split at h
        · exact .inr (.inl (Except.error.inj h).symm)
        · split at h
          · cases h
          · rename_i payload _ _ _
            cases hm : st.migrate (st.version - _).toNat _ payload with
            | error e' =>
              rw [hm] at h
              rw [← Except.error.inj h]
              exact .inr (.inr (migrate_error hm))
            | ok p =>
              rw [hm] at h
              exact absurd h (by simp [Except.map])
      · exact .inl (Except.error.inj h).symm
  · exact .inl (Except.error.inj h).symm

end QronosAgent.Journal

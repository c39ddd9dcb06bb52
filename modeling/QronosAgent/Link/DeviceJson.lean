import Mathlib
import QronosAgent.Lib.Base64
import QronosAgent.Lib.JsonCompact
import QronosAgent.Link.Devices

/-! `core/link_devices.py`: how a record is written to JSON and read back, and how the registry
reads its file. Every field goes through a coercion of its own, with its own exceptions. -/
namespace QronosAgent.Link
open Lib

namespace Capability

def value : Capability → PyStr
  | ask => py "ask"
  | searchWeb => py "search_web"
  | readStatus => py "read_status"
  | readFiles => py "read_files"
  | writeFiles => py "write_files"
  | runApplication => py "run_application"
  | controlSystem => py "control_system"
  | deleteFiles => py "delete_files"
  | manageDevices => py "manage_devices"

def byValue : List Capability :=
  [ask, controlSystem, deleteFiles, manageDevices, readFiles, readStatus, runApplication, searchWeb,
    writeFiles]

theorem mem_byValue (c : Capability) : c ∈ byValue := by
  cases c <;> decide

/-- `Capability(value)`. -/
def ofValue? (s : PyStr) : Option Capability := byValue.find? fun c => c.value = s

theorem ofValue?_value : ∀ c ∈ byValue, ofValue? c.value = some c := by
  decide +kernel

end Capability

namespace DeviceStatus

def value : DeviceStatus → PyStr
  | pending => py "pending"
  | active => py "active"
  | revoked => py "revoked"

/-- `DeviceStatus(value)`. -/
def ofValue? (s : PyStr) : Option DeviceStatus :=
  [pending, active, revoked].find? fun c => c.value = s

theorem ofValue?_value (c : DeviceStatus) : ofValue? c.value = some c := by
  cases c <;> decide +kernel

end DeviceStatus

namespace DeviceJson

/-- `DeviceRecord` as it is stored: its times are Python's floats. -/
structure DeviceRecord (F : Type) where
  deviceId : DeviceId
  name : PyStr
  secret : Bytes
  status : DeviceStatus
  createdAt : F
  lastSeenAt : Option F
  pairedFrom : PyStr
  grants : Option (Finset Capability)
  remoteEnabled : Bool
  remoteExpiresAt : Option F

def secretBytes : ℕ := 32

inductive Raised where
  | corrupt
  | keyError
  | typeError
  | valueError
  | overflowError
  | recursionError
  deriving DecidableEq

structure Interpreter (F : Type) where
  limits : JsonLimits
  /-- `str(value)` of a list or a dictionary; `none` is `RecursionError`. -/
  strOfContainer : Json F → Option PyStr
  floatOfStr : PyStr → Option F

abbrev Members (F : Type) := List (PyStr × Json F)

variable {F : Type} [PyFloat F]

/-! Python's coercions of a JSON value. -/

/-- `repr` of a float, which is not always the text that JSON has for it. -/
def reprFloat (x : F) : PyStr :=
  match PyFloat.text x with
  | .nan => py "nan"
  | .infinity neg => signText neg ++ py "inf"
  | .decimal t => t.render

/-- `str(value)`. -/
def str (P : Interpreter F) : Json F → Except Raised PyStr
  | .null => .ok (py "None")
  | .bool true => .ok (py "True")
  | .bool false => .ok (py "False")
  | .int n =>
    if (natText n.natAbs).length ≤ P.limits.intDigits then .ok (intText n) else .error .valueError
  | .float x => .ok (reprFloat x)
  | .str s => .ok s
  | v =>
    match P.strOfContainer v with
    | none => .error .recursionError
    | some s => .ok s

/-- `float(n)` of an integer. -/
def floatOfInt (n : ℤ) : Except Raised F :=
  match PyFloat.ofInt n with
  | none => .error .overflowError
  | some x => .ok x

/-- `float(value)`. -/
def float (P : Interpreter F) : Json F → Except Raised F
  | .int n => floatOfInt n
  | .bool b => floatOfInt (if b then 1 else 0)
  | .float x => .ok x
  | .str s =>
    match P.floatOfStr s with
    | none => .error .valueError
    | some x => .ok x
  | .null | .arr _ | .obj _ => .error .typeError

/-- The floats that are false: `0.0` and `-0.0`. -/
def isZero (x : F) : Bool :=
  match PyFloat.text x with
  | .decimal t => t.whole = 0 && t.fraction.all (·.val = 0)
  | _ => false

/-- `bool(value)`. -/
def truthy : Json F → Bool
  | .null => false
  | .bool b => b
  | .int n => n ≠ 0
  | .float x => !isZero x
  | .str s => !s.isEmpty
  | .arr xs => !xs.isEmpty
  | .obj ms => !ms.isEmpty

/-- `except (KeyError, TypeError, ValueError)`: raised again as `DeviceStoreCorrupt`. -/
def refusing {α : Type} : Except Raised α → Except Raised α
  | .error .keyError | .error .typeError | .error .valueError => .error .corrupt
  | x => x

/-- `data[key]`. -/
def required (ms : Members F) (key : PyStr) : Except Raised (Json F) :=
  match ms.lookup key with
  | none => .error .keyError
  | some v => .ok v

/-- A conversion that answers `none` where Python raises `ValueError`. -/
def converted {α : Type} : Option α → Except Raised α
  | none => .error .valueError
  | some a => .ok a

def deviceIdOf (P : Interpreter F) (ms : Members F) : Except Raised PyStr :=
  refusing (required ms (py "device_id") >>= str P)

def secretOf (P : Interpreter F) (ms : Members F) : Except Raised Bytes :=
  refusing (required ms (py "secret") >>= str P >>= fun s => converted (Base64.b64decode true s))

def statusOf (P : Interpreter F) (ms : Members F) : Except Raised DeviceStatus :=
  refusing (required ms (py "status") >>= str P >>= fun s => converted (DeviceStatus.ofValue? s))

def createdAtOf (P : Interpreter F) (ms : Members F) : Except Raised F :=
  refusing (required ms (py "created_at") >>= float P)

def checkId (id : PyStr) : Except Raised Unit :=
  if isValidDeviceId id then .ok () else .error .corrupt

def checkSecret (secret : Bytes) : Except Raised Unit :=
  if secret.length = secretBytes then .ok () else .error .corrupt

/-- `Capability(str(item))`. -/
def capabilityOf (P : Interpreter F) (item : Json F) : Except Raised Capability :=
  str P item >>= fun s => converted (Capability.ofValue? s)

def grantsOf (P : Interpreter F) (ms : Members F) :
    Except Raised (Option (Finset Capability)) :=
  match ms.lookup (py "grants") with
  | none | some .null => .ok none
  | some (.arr items) =>
    refusing ((items.mapM (capabilityOf P)).map fun cs => some cs.toFinset)
  | some _ => .error .corrupt

/-- `None if value is None else float(value)`. -/
def optionalFloat (P : Interpreter F) : Option (Json F) → Except Raised (Option F)
  | none | some .null => .ok none
  | some v => (float P v).map some

def remoteExpiresAtOf (P : Interpreter F) (ms : Members F) : Except Raised (Option F) :=
  refusing (optionalFloat P (ms.lookup (py "remote_expires_at")))

/-- `str(data.get(key, ""))`. -/
def textOf (P : Interpreter F) (ms : Members F) (key : PyStr) : Except Raised PyStr :=
  str P ((ms.lookup key).getD (.str []))

/-- Outside every `try`. -/
def lastSeenAtOf (P : Interpreter F) (ms : Members F) : Except Raised (Option F) :=
  optionalFloat P (ms.lookup (py "last_seen_at"))

def remoteEnabledOf (ms : Members F) : Bool :=
  truthy ((ms.lookup (py "remote_enabled")).getD (.bool false))

def fromJson (P : Interpreter F) (ms : Members F) : Except Raised (DeviceRecord F) := do
  let deviceId ← deviceIdOf P ms
  let secret ← secretOf P ms
  let status ← statusOf P ms
  let createdAt ← createdAtOf P ms
  checkId deviceId
  checkSecret secret
  let grants ← grantsOf P ms
  let remoteExpiresAt ← remoteExpiresAtOf P ms
  let name ← textOf P ms (py "name")
  let lastSeenAt ← lastSeenAtOf P ms
  let pairedFrom ← textOf P ms (py "paired_from")
  return {
    deviceId, name, secret, status, createdAt, lastSeenAt, pairedFrom, grants
    remoteEnabled := remoteEnabledOf ms
    remoteExpiresAt }

def optionalJson : Option F → Json F
  | none => .null
  | some x => .float x

def grantsJson : Option (Finset Capability) → Json F
  | none => .null
  | some g => .arr ((Capability.byValue.filter (· ∈ g)).map fun c => .str c.value)

def toJson (r : DeviceRecord F) : Members F :=
  [(py "device_id", .str r.deviceId), (py "name", .str r.name),
    (py "secret", .str (Base64.b64encode r.secret)), (py "status", .str r.status.value),
    (py "created_at", .float r.createdAt), (py "last_seen_at", optionalJson r.lastSeenAt),
    (py "paired_from", .str r.pairedFrom), (py "grants", grantsJson r.grants),
    (py "remote_enabled", .bool r.remoteEnabled),
    (py "remote_expires_at", optionalJson r.remoteExpiresAt)]

def readEntry (P : Interpreter F) : Json F → Except Raised (DeviceRecord F)
  | .obj ms => fromJson P ms
  | _ => .error .corrupt

def tableOf (records : List (DeviceRecord F)) : Dict DeviceId (DeviceRecord F) :=
  records.foldl (fun t r => t.set r.deviceId r) Dict.empty

def devices? : Json F → Option (List (Json F))
  | .obj ms =>
    match ms.lookup (py "devices") with
    | some (.arr entries) => some entries
    | _ => none
  | _ => none

/-- What `_load` makes of a document. -/
def loadValue (P : Interpreter F) (raw : Json F) :
    Except Raised (Dict DeviceId (DeviceRecord F)) :=
  match devices? raw with
  | none => .error .corrupt
  | some entries => (entries.mapM (readEntry P)).map tableOf

/-- `json.loads` on the file's text, under `except (OSError, ValueError)`. -/
def parse (P : Interpreter F) (file : ByteArray) : Except Raised (Json F) :=
  match readText file with
  | none => .error .corrupt
  | some text =>
    match Json.loads P.limits text with
    | .error .recursion => .error .recursionError
    | .error _ => .error .corrupt
    | .ok v => .ok v

/-- `_load`, of a file that is there. -/
def load (P : Interpreter F) (file : ByteArray) :
    Except Raised (Dict DeviceId (DeviceRecord F)) :=
  parse P file >>= loadValue P

def firstRaised (reads : List (Except Raised Unit)) : Except Raised Unit :=
  reads.foldr (fun read rest => read >>= fun _ => rest) (.ok ())

theorem firstRaised_append (xs ys : List (Except Raised Unit)) :
    firstRaised (xs ++ ys) = firstRaised xs >>= fun _ => firstRaised ys := by
  induction xs with
  | nil => rfl
  | cons x xs ih =>
    cases x with
    | error e => rfl
    | ok u => exact ih

def done {α : Type} (x : Except Raised α) : Except Raised Unit := x.map fun _ => ()

/-- The reads of `from_json`, in its order. -/
def reads (P : Interpreter F) (ms : Members F) : List (Except Raised Unit) :=
  [done (deviceIdOf P ms), done (secretOf P ms), done (statusOf P ms), done (createdAtOf P ms),
    deviceIdOf P ms >>= checkId, secretOf P ms >>= checkSecret, done (grantsOf P ms),
    done (remoteExpiresAtOf P ms), done (textOf P ms (py "name")), done (lastSeenAtOf P ms),
    done (textOf P ms (py "paired_from"))]

/-- `from_json` raises what the first of its reads that fails does. -/
theorem done_fromJson (P : Interpreter F) (ms : Members F) :
    done (fromJson P ms) = firstRaised (reads P ms) := by
  unfold fromJson reads
  cases deviceIdOf P ms with
  | error e => rfl
  | ok id =>
  cases secretOf P ms with
  | error e => rfl
  | ok secret =>
  cases statusOf P ms with
  | error e => rfl
  | ok status =>
  cases createdAtOf P ms with
  | error e => rfl
  | ok createdAt =>
  cases hid : checkId id with
  | error e => simp [firstRaised, done, Except.map, bind, Except.bind, hid]
  | ok u =>
  cases hsecret : checkSecret secret with
  | error e => simp [firstRaised, done, Except.map, bind, Except.bind, hid, hsecret]
  | ok v =>
  cases grantsOf P ms with
  | error e => simp [firstRaised, done, Except.map, bind, Except.bind, hid, hsecret]
  | ok grants =>
  cases remoteExpiresAtOf P ms with
  | error e => simp [firstRaised, done, Except.map, bind, Except.bind, hid, hsecret]
  | ok expiry =>
  cases textOf P ms (py "name") with
  | error e => simp [firstRaised, done, Except.map, bind, Except.bind, hid, hsecret]
  | ok name =>
  cases lastSeenAtOf P ms with
  | error e => simp [firstRaised, done, Except.map, bind, Except.bind, hid, hsecret]
  | ok seen =>
  cases textOf P ms (py "paired_from") with
  | error e => simp [firstRaised, done, Except.map, bind, Except.bind, hid, hsecret]
  | ok paired => simp [firstRaised, done, Except.map, bind, Except.bind, hid, hsecret, pure, Except.pure]

def entryReads (P : Interpreter F) : Json F → List (Except Raised Unit)
  | .obj ms => reads P ms
  | _ => [.error .corrupt]

theorem done_readEntry (P : Interpreter F) (e : Json F) :
    done (readEntry P e) = firstRaised (entryReads P e) := by
  cases e with
  | obj ms => exact done_fromJson P ms
  | null | bool | int | float | str | arr => rfl

theorem done_readEntries (P : Interpreter F) (entries : List (Json F)) :
    done (entries.mapM (readEntry P)) = firstRaised (entries.flatMap (entryReads P)) := by
  induction entries with
  | nil => rfl
  | cons e entries ih =>
    rw [List.flatMap_cons, firstRaised_append, ← ih, ← done_readEntry, List.mapM_cons]
    cases readEntry P e with
    | error err => rfl
    | ok r =>
      cases entries.mapM (readEntry P) with
      | error err => rfl
      | ok rs => rfl

/-! Which values make a read raise something else than `DeviceStoreCorrupt`. -/

/-- A list or dictionary that nests too deep for `str()`. -/
def tooDeep (P : Interpreter F) (v : Json F) : Bool :=
  match v with
  | .arr _ | .obj _ => (P.strOfContainer v).isNone
  | _ => false

/-- An integer with more digits than `str()` writes. -/
def tooLong (P : Interpreter F) : Json F → Bool
  | .int n => P.limits.intDigits < (natText n.natAbs).length
  | _ => false

def tooLarge : Json F → Bool
  | .int n => (PyFloat.ofInt n : Option F).isNone
  | .bool b => (PyFloat.ofInt (if b then 1 else 0) : Option F).isNone
  | _ => false

variable {P : Interpreter F} {v raw : Json F} {e : Raised} {α β : Type} {x : Except Raised α}
  {ms : Members F} {key : PyStr} {f : Json F → Except Raised α} {xs : List (Except Raised Unit)}
  {cs : List Check} {r : DeviceRecord F} {es entries : List (Json F)} {rs : List (DeviceRecord F)}
  {file : ByteArray}

theorem str_eq_error :
    str P v = .error e ↔
      e = .recursionError ∧ tooDeep P v = true ∨ e = .valueError ∧ tooLong P v = true := by
  cases v with
  | null | float | str => simp [str, tooDeep, tooLong]
  | bool b => cases b <;> simp [str, tooDeep, tooLong]
  | int n =>
    by_cases h : (natText n.natAbs).length ≤ P.limits.intDigits
    · simp [str, tooDeep, tooLong, h]
    · have hlong : tooLong P (.int n) = true := by
        simpa [tooLong] using h
      simp [str, tooDeep, hlong, h, eq_comm]
  | arr xs =>
    cases h : P.strOfContainer (.arr xs) <;> simp [str, tooDeep, tooLong, h, eq_comm]
  | obj ms =>
    cases h : P.strOfContainer (.obj ms) <;> simp [str, tooDeep, tooLong, h, eq_comm]

theorem floatOfInt_eq_error {n : ℤ} :
    (floatOfInt n : Except Raised F) = .error e ↔
      e = .overflowError ∧ (PyFloat.ofInt n : Option F).isNone = true := by
  unfold floatOfInt
  cases (PyFloat.ofInt n : Option F) <;> simp [eq_comm]

theorem float_eq_error (h : float P v = .error e) :
    e = .overflowError ∧ tooLarge v = true ∨ e = .typeError ∨ e = .valueError := by
  cases v with
  | null | arr | obj => exact .inr (.inl (Except.error.inj h).symm)
  | float x => cases h
  | bool b => exact .inl (floatOfInt_eq_error.mp h)
  | int n => exact .inl (floatOfInt_eq_error.mp h)
  | str s =>
    simp only [float] at h
    split at h
    · exact .inr (.inr (Except.error.inj h).symm)
    · cases h

theorem float_of_tooLarge (h : tooLarge v = true) :
    float P v = .error .overflowError := by
  cases v with
  | null | arr | obj | float | str => cases h
  | bool b => exact floatOfInt_eq_error.mpr ⟨rfl, h⟩
  | int n => exact floatOfInt_eq_error.mpr ⟨rfl, h⟩

/-- What `from_json` lets through. -/
def Escapes {α : Type} (x : Except Raised α) : Prop := ∃ e, x = .error e ∧ e ≠ .corrupt

theorem escapes_done : Escapes (done x) ↔ Escapes x := by
  unfold Escapes done
  simp only [map_eq_error]

theorem escapes_refusing :
    Escapes (refusing x) ↔ x = .error .overflowError ∨ x = .error .recursionError := by
  unfold Escapes
  cases x with
  | ok a => simp [refusing]
  | error e => cases e <;> simp [refusing]

theorem not_escapes_corrupt : ¬ Escapes (.error .corrupt : Except Raised α) := by
  rintro ⟨e, he, hne⟩
  exact hne (Except.error.inj he).symm

omit [PyFloat F] in
theorem required_bind_eq_error (he : e ≠ .keyError) :
    required ms key >>= f = .error e ↔ ∃ v, ms.lookup key = some v ∧ f v = .error e := by
  unfold required
  cases h : ms.lookup key with
  | none => simpa [bind, Except.bind] using he.symm
  | some v => simp [bind, Except.bind]

theorem str_bind_converted {f : PyStr → Option α} (he : e ≠ .valueError) :
    (str P v >>= fun s => converted (f s)) = .error e ↔ str P v = .error e := by
  cases hs : str P v with
  | error e' => simp [bind, Except.bind]
  | ok s =>
    cases hf : f s with
    | none => simpa [bind, Except.bind, converted, hf] using he.symm
    | some a => simp [bind, Except.bind, converted, hf]

/-- One read of `from_json`: whether it fails, and whether its value is of the kind that makes
it raise something else than `DeviceStoreCorrupt`. -/
structure Check where
  fails : Bool
  escapes : Bool

def memberIs (p : Json F → Bool) (ms : Members F) (key : PyStr) : Bool := (ms.lookup key).any p

def grantsTooDeep (P : Interpreter F) (ms : Members F) : Bool :=
  match ms.lookup (py "grants") with
  | some (.arr items) => (items.find? fun v => !(capabilityOf P v).isOk).any (tooDeep P)
  | _ => false

def unreadable {α : Type} (x : Except Raised α) : Bool := !x.isOk

def checks (P : Interpreter F) (ms : Members F) : List Check :=
  [⟨unreadable (deviceIdOf P ms), memberIs (tooDeep P) ms (py "device_id")⟩,
    ⟨unreadable (secretOf P ms), memberIs (tooDeep P) ms (py "secret")⟩,
    ⟨unreadable (statusOf P ms), memberIs (tooDeep P) ms (py "status")⟩,
    ⟨unreadable (createdAtOf P ms), memberIs tooLarge ms (py "created_at")⟩,
    ⟨unreadable (deviceIdOf P ms >>= checkId), memberIs (tooDeep P) ms (py "device_id")⟩,
    ⟨unreadable (secretOf P ms >>= checkSecret), memberIs (tooDeep P) ms (py "secret")⟩,
    ⟨unreadable (grantsOf P ms), grantsTooDeep P ms⟩,
    ⟨unreadable (remoteExpiresAtOf P ms), memberIs tooLarge ms (py "remote_expires_at")⟩,
    ⟨unreadable (textOf P ms (py "name")),
      memberIs (fun v => tooDeep P v || tooLong P v) ms (py "name")⟩,
    -- every way in which `float()` fails on this one escapes
    ⟨unreadable (lastSeenAtOf P ms), unreadable (lastSeenAtOf P ms)⟩,
    ⟨unreadable (textOf P ms (py "paired_from")),
      memberIs (fun v => tooDeep P v || tooLong P v) ms (py "paired_from")⟩]

def entryChecks (P : Interpreter F) : Json F → List Check
  | .obj ms => checks P ms
  | _ => [⟨true, false⟩]

structure Agree (x : Except Raised Unit) (c : Check) : Prop where
  fails : c.fails = unreadable x
  escapes : c.escapes = true ↔ Escapes x

theorem firstRaised_ok_iff (h : List.Forall₂ Agree xs cs) :
    firstRaised xs = .ok () ↔ cs.find? Check.fails = none := by
  induction h with
  | nil => simp [firstRaised]
  | @cons x c xs cs hxc _ ih =>
    cases x with
    | error e =>
      have hf : c.fails = true := hxc.fails
      simp [firstRaised, bind, Except.bind, hf]
    | ok u =>
      have hf : c.fails = false := hxc.fails
      rw [List.find?_cons_of_neg (by simp [hf]), ← ih]
      rfl

theorem firstRaised_corrupt_iff (h : List.Forall₂ Agree xs cs) :
    (∀ e, firstRaised xs = .error e → e = .corrupt) ↔
      ∀ c, cs.find? Check.fails = some c → c.escapes = false := by
  induction h with
  | nil => simp [firstRaised]
  | @cons x c xs cs hxc _ ih =>
    cases x with
    | error e =>
      have hf : c.fails = true := hxc.fails
      have hesc : c.escapes = true ↔ e ≠ .corrupt := by
        simp [hxc.escapes, Escapes]
      simp only [firstRaised, bind, Except.bind, List.foldr_cons, Except.error.injEq,
        List.find?_cons_of_pos hf, Option.some.injEq, forall_eq']
      rw [← Bool.not_eq_true, hesc, not_not]
    | ok u =>
      have hf : c.fails = false := hxc.fails
      rw [List.find?_cons_of_neg (by simp [hf])]
      exact ih

theorem unreadable_done (x : Except Raised α) : unreadable (done x) = unreadable x := by
  cases x <;> rfl

theorem agree_done {b : Bool} (h : b = true ↔ Escapes x) :
    Agree (done x) ⟨unreadable x, b⟩ :=
  ⟨(unreadable_done x).symm, h.trans escapes_done.symm⟩

omit [PyFloat F] in
theorem memberIs_iff {p : Json F → Bool} :
    memberIs p ms key = true ↔ ∃ v, ms.lookup key = some v ∧ p v = true := by
  unfold memberIs
  cases ms.lookup key <;> simp

/-- A required text, converted or not, escapes only when it nests too deep. -/
theorem escapes_text (hover : ∀ v, f v ≠ .error .overflowError)
    (hdeep : ∀ v, f v = .error .recursionError ↔ str P v = .error .recursionError) :
    memberIs (tooDeep P) ms key = true ↔ Escapes (refusing (required ms key >>= f)) := by
  rw [escapes_refusing, required_bind_eq_error (by decide), required_bind_eq_error (by decide),
    memberIs_iff]
  constructor
  · rintro ⟨v, hv, hd⟩
    exact .inr ⟨v, hv, (hdeep v).mpr (str_eq_error.mpr (.inl ⟨rfl, hd⟩))⟩
  · rintro (⟨v, -, h⟩ | ⟨v, hv, h⟩)
    · exact absurd h (hover v)
    · rcases str_eq_error.mp ((hdeep v).mp h) with ⟨-, hd⟩ | ⟨he, -⟩
      · exact ⟨v, hv, hd⟩
      · cases he

theorem str_ne_overflow : str P v ≠ .error .overflowError := by
  intro h
  rcases str_eq_error.mp h with ⟨he, -⟩ | ⟨he, -⟩ <;> cases he

theorem escapes_deviceId :
    memberIs (tooDeep P) ms (py "device_id") = true ↔ Escapes (deviceIdOf P ms) :=
  escapes_text (fun _ => str_ne_overflow) fun _ => Iff.rfl

theorem escapes_converted {f : PyStr → Option α} :
    memberIs (tooDeep P) ms key = true ↔
      Escapes (refusing (required ms key >>= fun v => str P v >>= fun s => converted (f s))) := by
  apply escapes_text
  · intro v h
    exact str_ne_overflow ((str_bind_converted (by decide)).mp h)
  · intro v
    exact str_bind_converted (by decide)

theorem escapes_secret :
    memberIs (tooDeep P) ms (py "secret") = true ↔ Escapes (secretOf P ms) := by
  rw [secretOf, bind_assoc]
  exact escapes_converted

theorem escapes_status :
    memberIs (tooDeep P) ms (py "status") = true ↔ Escapes (statusOf P ms) := by
  rw [statusOf, bind_assoc]
  exact escapes_converted

theorem float_overflow_iff :
    float P v = .error .overflowError ↔ tooLarge v = true := by
  constructor
  · intro h
    rcases float_eq_error h with ⟨-, hv⟩ | h | h
    · exact hv
    · cases h
    · cases h
  · exact float_of_tooLarge

theorem float_ne_recursion :
    float P v ≠ .error .recursionError := by
  intro h
  rcases float_eq_error h with ⟨h, -⟩ | h | h <;> cases h

theorem escapes_createdAt :
    memberIs tooLarge ms (py "created_at") = true ↔ Escapes (createdAtOf P ms) := by
  rw [createdAtOf, escapes_refusing, required_bind_eq_error (by decide),
    required_bind_eq_error (by decide), memberIs_iff]
  simp only [float_overflow_iff, float_ne_recursion, and_false, exists_false, or_false]

/-- A check that only refuses adds no escape. -/
theorem escapes_bind {f : α → Except Raised β} (hf : ∀ a, ¬ Escapes (f a)) :
    Escapes (x >>= f) ↔ Escapes x := by
  cases x with
  | error e => simp [Escapes, bind, Except.bind]
  | ok a =>
    constructor
    · intro h
      exact absurd h (hf a)
    · rintro ⟨e, he, -⟩
      cases he

theorem not_escapes_checkId (id : PyStr) : ¬ Escapes (checkId id) := by
  unfold checkId
  split
  · simp [Escapes]
  · exact not_escapes_corrupt

theorem not_escapes_checkSecret (secret : Bytes) : ¬ Escapes (checkSecret secret) := by
  unfold checkSecret
  split
  · simp [Escapes]
  · exact not_escapes_corrupt

theorem mapM_eq_error {f : α → Except Raised β} {xs : List α} :
    xs.mapM f = .error e ↔ ∃ x, xs.find? (fun x => !(f x).isOk) = some x ∧ f x = .error e := by
  induction xs with
  | nil => simp [pure, Except.pure]
  | cons x xs ih =>
    rw [List.mapM_cons]
    cases hx : f x with
    | error e' => simp [bind, Except.bind, hx, Except.isOk, Except.toBool]
    | ok b =>
      rw [List.find?_cons_of_neg (by simp [hx, Except.isOk, Except.toBool]), ← ih]
      cases xs.mapM f <;> simp [bind, Except.bind, pure, Except.pure]

theorem capabilityOf_recursion :
    capabilityOf P v = .error .recursionError ↔ tooDeep P v = true := by
  rw [capabilityOf, str_bind_converted (by decide), str_eq_error]
  simp

theorem capabilityOf_ne_overflow :
    capabilityOf P v ≠ .error .overflowError := by
  intro h
  exact str_ne_overflow ((str_bind_converted (by decide)).mp h)

theorem escapes_grants :
    grantsTooDeep P ms = true ↔ Escapes (grantsOf P ms) := by
  unfold grantsTooDeep grantsOf
  cases ms.lookup (py "grants") with
  | none => simp [Escapes]
  | some v =>
    cases v with
    | null => simp [Escapes]
    | bool | int | float | str | obj => simp [not_escapes_corrupt]
    | arr items =>
      simp only [escapes_refusing, map_eq_error, mapM_eq_error, capabilityOf_recursion,
        capabilityOf_ne_overflow, and_false, exists_false, false_or, Option.any_eq_true]

theorem optionalFloat_eq_error {v : Option (Json F)} :
    optionalFloat P v = .error e ↔ ∃ w, v = some w ∧ w ≠ .null ∧ float P w = .error e := by
  cases v with
  | none => simp [optionalFloat]
  | some w => cases w <;> simp [optionalFloat, map_eq_error]

theorem escapes_remoteExpiresAt :
    memberIs tooLarge ms (py "remote_expires_at") = true ↔ Escapes (remoteExpiresAtOf P ms) := by
  rw [remoteExpiresAtOf, escapes_refusing, optionalFloat_eq_error, optionalFloat_eq_error,
    memberIs_iff]
  simp only [float_overflow_iff, float_ne_recursion, and_false, exists_false, or_false]
  constructor
  · rintro ⟨v, hv, hlarge⟩
    refine ⟨v, hv, ?_, hlarge⟩
    rintro rfl
    cases hlarge
  · rintro ⟨v, hv, -, hlarge⟩
    exact ⟨v, hv, hlarge⟩

theorem escapes_textOf :
    memberIs (fun v => tooDeep P v || tooLong P v) ms key = true ↔ Escapes (textOf P ms key) := by
  rw [memberIs_iff, textOf]
  cases ms.lookup key with
  | none => simp [Escapes, str]
  | some v =>
    simp only [Option.some.injEq, exists_eq_left', Option.getD_some, Escapes, str_eq_error,
      Bool.or_eq_true]
    constructor
    · rintro (h | h)
      · exact ⟨_, .inl ⟨rfl, h⟩, by decide⟩
      · exact ⟨_, .inr ⟨rfl, h⟩, by decide⟩
    · rintro ⟨e, ⟨-, h⟩ | ⟨-, h⟩, -⟩
      · exact .inl h
      · exact .inr h

theorem escapes_lastSeenAt :
    unreadable (lastSeenAtOf P ms) = true ↔ Escapes (lastSeenAtOf P ms) := by
  cases h : lastSeenAtOf P ms with
  | ok x => simp [unreadable, Escapes, Except.isOk, Except.toBool]
  | error e =>
    obtain ⟨w, -, -, hw⟩ := optionalFloat_eq_error.mp h
    have hne : e ≠ .corrupt := by
      rcases float_eq_error hw with ⟨rfl, -⟩ | rfl | rfl <;> decide
    simp [unreadable, Escapes, Except.isOk, Except.toBool, hne]

theorem agree_reads (P : Interpreter F) (ms : Members F) :
    List.Forall₂ Agree (reads P ms) (checks P ms) := by
  have hid : Agree (deviceIdOf P ms >>= checkId) ⟨unreadable (deviceIdOf P ms >>= checkId),
      memberIs (tooDeep P) ms (py "device_id")⟩ :=
    ⟨rfl, escapes_deviceId.trans (escapes_bind not_escapes_checkId).symm⟩
  have hsecret : Agree (secretOf P ms >>= checkSecret) ⟨unreadable (secretOf P ms >>= checkSecret),
      memberIs (tooDeep P) ms (py "secret")⟩ :=
    ⟨rfl, escapes_secret.trans (escapes_bind not_escapes_checkSecret).symm⟩
  unfold reads checks
  exact .cons (agree_done escapes_deviceId) <| .cons (agree_done escapes_secret) <|
    .cons (agree_done escapes_status) <| .cons (agree_done escapes_createdAt) <|
    .cons hid <| .cons hsecret <| .cons (agree_done escapes_grants) <|
    .cons (agree_done escapes_remoteExpiresAt) <| .cons (agree_done escapes_textOf) <|
    .cons (agree_done escapes_lastSeenAt) <| .cons (agree_done escapes_textOf) .nil

theorem agree_entries (P : Interpreter F) (entries : List (Json F)) :
    List.Forall₂ Agree (entries.flatMap (entryReads P)) (entries.flatMap (entryChecks P)) := by
  induction entries with
  | nil => exact .nil
  | cons e entries ih =>
    rw [List.flatMap_cons, List.flatMap_cons]
    refine List.rel_append ?_ ih
    cases e with
    | obj ms => exact agree_reads P ms
    | null | bool | int | float | str | arr =>
      exact .cons ⟨rfl, iff_of_false (by decide) not_escapes_corrupt⟩ .nil

/-! Writing a record and reading it back. -/

def IsHexId (s : PyStr) : Prop := s.length = 16 ∧ ∀ c ∈ s, isLowerHex c = true

/-- The pattern accepts one line feed more than the shape. -/
theorem isHexId_iff {s : PyStr} : IsHexId s ↔ isValidDeviceId s = true ∧ lf ∉ s := by
  unfold IsHexId isValidDeviceId
  simp only [Bool.and_eq_true, Bool.or_eq_true, decide_eq_true_eq, List.all_eq_true]
  constructor
  · rintro ⟨hlen, hall⟩
    have htake : s.take 16 = s := List.take_of_length_le (by omega)
    have hdrop : s.drop 16 = [] := List.drop_eq_nil_of_le (by omega)
    rw [htake, hdrop]
    refine ⟨⟨⟨hlen, hall⟩, .inl rfl⟩, fun hmem => ?_⟩
    exact absurd (hall lf hmem) (by decide)
  · rintro ⟨⟨⟨hlen, hall⟩, hrest⟩, hlf⟩
    have hdrop : s.drop 16 = [] := by
      rcases hrest with h | h
      · exact h
      · exact absurd (List.mem_of_mem_drop (h ▸ List.mem_singleton_self lf)) hlf
    have htake : s.take 16 = s := by
      have := List.take_append_drop 16 s
      rwa [hdrop, List.append_nil] at this
    rw [htake] at hlen hall
    exact ⟨hlen, hall⟩

def fieldNames : List PyStr :=
  [py "device_id", py "name", py "secret", py "status", py "created_at", py "last_seen_at",
    py "paired_from", py "grants", py "remote_enabled", py "remote_expires_at"]

theorem fieldNames_nodup : fieldNames.Nodup := by
  decide +kernel

omit [PyFloat F] in
theorem lookup_toJson (h : (key, v) ∈ toJson r) :
    (toJson r).lookup key = some v := by
  have hsome : ((toJson r).lookup key).isSome := by
    rw [List.lookup_isSome_iff]
    exact ⟨(key, v), h, by simp⟩
  obtain ⟨w, hw⟩ := Option.isSome_iff_exists.mp hsome
  obtain ⟨l₁, l₂, hl, -⟩ := List.lookup_eq_some_iff.mp hw
  have hmem : (key, w) ∈ toJson r := by simp [hl]
  rw [hw, @Dict.item_unique _ _ ⟨toJson r, fieldNames_nodup⟩ _ _ _ hmem h]

theorem mapM_capabilityOf (P : Interpreter F) (cs : List Capability) :
    (cs.map fun c => Json.str c.value).mapM (capabilityOf P) = .ok cs := by
  induction cs with
  | nil => rfl
  | cons c cs ih =>
    have hc : capabilityOf P (.str c.value) = .ok c := by
      simp [capabilityOf, str, bind, Except.bind, converted,
        Capability.ofValue?_value c (Capability.mem_byValue c)]
    rw [List.map_cons, List.mapM_cons, hc, ih]
    rfl

theorem grantsOf_toJson (P : Interpreter F) (r : DeviceRecord F) :
    grantsOf P (toJson r) = .ok r.grants := by
  unfold grantsOf
  rw [lookup_toJson (r := r) (v := grantsJson r.grants) (by simp [toJson])]
  cases r.grants with
  | none => rfl
  | some g =>
    have hset : (Capability.byValue.filter (· ∈ g)).toFinset = g := by
      ext c
      simp [Capability.mem_byValue]
    simp only [grantsJson, mapM_capabilityOf, Except.map, refusing, hset]

theorem optionalFloat_optionalJson (P : Interpreter F) (x : Option F) :
    optionalFloat P (some (optionalJson x)) = .ok x := by
  cases x <;> rfl

/-- `from_json` undoes `to_json` on every record whose id and key pass its checks. -/
theorem fromJson_toJson (P : Interpreter F) (hid : isValidDeviceId r.deviceId = true)
    (hsecret : r.secret.length = secretBytes) :
    fromJson P (toJson r) = .ok r := by
  have hdevice : deviceIdOf P (toJson r) = .ok r.deviceId := by
    rw [deviceIdOf, required, lookup_toJson (r := r) (v := .str r.deviceId) (by simp [toJson])]
    rfl
  have hkey : secretOf P (toJson r) = .ok r.secret := by
    rw [secretOf, required,
      lookup_toJson (r := r) (v := .str (Base64.b64encode r.secret)) (by simp [toJson])]
    simp [bind, Except.bind, str, Base64.b64decode_b64encode, converted, refusing]
  have hstatus : statusOf P (toJson r) = .ok r.status := by
    rw [statusOf, required, lookup_toJson (r := r) (v := .str r.status.value) (by simp [toJson])]
    simp [bind, Except.bind, str, DeviceStatus.ofValue?_value, converted, refusing]
  have hcreated : createdAtOf P (toJson r) = .ok r.createdAt := by
    rw [createdAtOf, required, lookup_toJson (r := r) (v := .float r.createdAt) (by simp [toJson])]
    rfl
  have hexpires : remoteExpiresAtOf P (toJson r) = .ok r.remoteExpiresAt := by
    rw [remoteExpiresAtOf,
      lookup_toJson (r := r) (v := optionalJson r.remoteExpiresAt) (by simp [toJson]),
      optionalFloat_optionalJson]
    rfl
  have hname : textOf P (toJson r) (py "name") = .ok r.name := by
    rw [textOf, lookup_toJson (r := r) (v := .str r.name) (by simp [toJson])]
    rfl
  have hseen : lastSeenAtOf P (toJson r) = .ok r.lastSeenAt := by
    rw [lastSeenAtOf, lookup_toJson (r := r) (v := optionalJson r.lastSeenAt) (by simp [toJson]),
      optionalFloat_optionalJson]
  have hpaired : textOf P (toJson r) (py "paired_from") = .ok r.pairedFrom := by
    rw [textOf, lookup_toJson (r := r) (v := .str r.pairedFrom) (by simp [toJson])]
    rfl
  have hremote : remoteEnabledOf (toJson r) = r.remoteEnabled := by
    rw [remoteEnabledOf, lookup_toJson (r := r) (v := .bool r.remoteEnabled) (by simp [toJson])]
    rfl
  simp only [fromJson, hdevice, hkey, hstatus, hcreated, hexpires, hname, hseen, hpaired, hremote,
    grantsOf_toJson, checkId, hid, checkSecret, hsecret, bind, Except.bind, if_true, pure,
    Except.pure]

/-! The records that the registry comes to hold. -/

/-- `secrets.token_hex` of these bytes. -/
def tokenHex (drawn : Bytes) : PyStr :=
  drawn.flatMap fun b => [Json.hexDigit (b.toNat / 16), Json.hexDigit (b.toNat % 16)]

/-- A record that the registry created, read from a file, or changed: `_update` never changes an
id or a key. -/
inductive Held (P : Interpreter F) : DeviceRecord F → Prop
  | created (drawn : Bytes) (hdrawn : drawn.length = 8) (name : PyStr) (secret : Bytes)
      (hsecret : secret.length = secretBytes) (now : F) (pairedFrom : PyStr)
      (grants : Option (Finset Capability)) :
      Held P ⟨tokenHex drawn, name, secret, .pending, now, none, pairedFrom, grants, false, none⟩
  | loaded (file : ByteArray) (t : Dict DeviceId (DeviceRecord F)) (h : load P file = .ok t)
      (r : DeviceRecord F) (hr : r ∈ t.values) : Held P r
  | updated (r : DeviceRecord F) (h : Held P r) (name : PyStr) (status : DeviceStatus)
      (lastSeenAt : Option F) (grants : Option (Finset Capability)) (remoteEnabled : Bool)
      (remoteExpiresAt : Option F) :
      Held P { r with name, status, lastSeenAt, grants, remoteEnabled, remoteExpiresAt }

theorem isLowerHex_hexDigit : ∀ n < 16, isLowerHex (Json.hexDigit n) = true := by
  decide

theorem isHexId_tokenHex {drawn : Bytes} (h : drawn.length = 8) : IsHexId (tokenHex drawn) := by
  constructor
  · simp [tokenHex, List.length_flatMap, h]
  · intro c hc
    obtain ⟨b, -, hb⟩ := List.mem_flatMap.mp hc
    have hlt := b.toNat_lt
    simp only [List.mem_cons, List.not_mem_nil, or_false] at hb
    rcases hb with rfl | rfl
    · exact isLowerHex_hexDigit _ (by omega)
    · exact isLowerHex_hexDigit _ (by omega)

/-- What `from_json` has checked of a record that it returns. -/
theorem fromJson_checked (h : fromJson P ms = .ok r) :
    deviceIdOf P ms = .ok r.deviceId ∧ isValidDeviceId r.deviceId = true ∧
      r.secret.length = secretBytes := by
  simp only [fromJson, bind_eq_ok] at h
  obtain ⟨id, hid, secret, -, status, -, createdAt, -, u, hcheck, v, hkey, grants, -, expiry, -,
    name, -, seen, -, paired, -, hr⟩ := h
  cases hr
  unfold checkId at hcheck
  unfold checkSecret at hkey
  split_ifs at hcheck hkey with hv hl
  exact ⟨hid, hv, hl⟩

omit [PyFloat F] in
theorem get?_tableOf (rs : List (DeviceRecord F)) (id : DeviceId) :
    (tableOf rs).get? id = rs.reverse.find? fun r => r.deviceId = id := by
  induction rs using List.reverseRecOn with
  | nil => rfl
  | append_singleton rs r ih =>
    have hset : tableOf (rs ++ [r]) = (tableOf rs).set r.deviceId r := by
      simp [tableOf, List.foldl_append]
    rw [hset, Dict.get?_set, ih]
    by_cases h : r.deviceId = id
    · simp [h]
    · simp [h, Ne.symm h]

def idOf (P : Interpreter F) : Json F → Option PyStr
  | .obj ms => (deviceIdOf P ms).toOption
  | _ => none

def IsLast (P : Interpreter F) (entries : List (Json F)) (ms : Members F) : Prop :=
  (entries.reverse.find? fun e => idOf P e = idOf P (.obj ms)) = some (.obj ms)

theorem readEntry_ok {e : Json F} (h : readEntry P e = .ok r) :
    ∃ ms, e = .obj ms ∧ fromJson P ms = .ok r ∧ idOf P e = some r.deviceId := by
  cases e with
  | obj ms => exact ⟨ms, rfl, h, toOption_eq_some.mpr (fromJson_checked h).1⟩
  | null | bool | int | float | str | arr => cases h

theorem mapM_forall₂ (h : es.mapM (readEntry P) = .ok rs) :
    List.Forall₂ (fun e r => readEntry P e = .ok r) es rs := by
  induction es generalizing rs with
  | nil =>
    cases h
    exact .nil
  | cons e es ih =>
    rw [List.mapM_cons, bind_eq_ok] at h
    obtain ⟨r, hr, h⟩ := h
    rw [bind_eq_ok] at h
    obtain ⟨rs', hrs, h⟩ := h
    cases h
    exact .cons hr (ih hrs)

theorem find?_entry (h : List.Forall₂ (fun e r => readEntry P e = .ok r) es rs) (id : DeviceId) :
    Option.Rel (fun e r => readEntry P e = .ok r) (es.find? fun e => idOf P e = some id)
      (rs.find? fun r => r.deviceId = id) := by
  induction h with
  | nil => exact .none
  | @cons e r es rs her _ ih =>
    obtain ⟨ms, -, -, hid⟩ := readEntry_ok her
    by_cases heq : r.deviceId = id
    · rw [List.find?_cons_of_pos (by simp [hid, heq]), List.find?_cons_of_pos (by simp [heq])]
      exact .some her
    · rw [List.find?_cons_of_neg (by simp [hid, heq]), List.find?_cons_of_neg (by simp [heq])]
      exact ih

theorem mem_tableOf_iff (h : es.mapM (readEntry P) = .ok rs) :
    r ∈ (tableOf rs).values ↔ ∃ ms, IsLast P es ms ∧ fromJson P ms = .ok r := by
  have hrel := fun id => find?_entry (List.forall₂_reverse_iff.mpr (mapM_forall₂ h)) id
  rw [Dict.mem_values]
  constructor
  · rintro ⟨id, hget⟩
    rw [get?_tableOf] at hget
    have hid : r.deviceId = id := by simpa using List.find?_some hget
    have hrel := hrel id
    rw [hget] at hrel
    generalize hfind : (es.reverse.find? fun e => idOf P e = some id) = found at hrel
    cases hrel with
    | some her =>
      obtain ⟨ms, rfl, hr, hname⟩ := readEntry_ok her
      refine ⟨ms, ?_, hr⟩
      rw [IsLast, hname, hid]
      exact hfind
  · rintro ⟨ms, hlast, hr⟩
    refine ⟨r.deviceId, ?_⟩
    have hname : idOf P (.obj ms) = some r.deviceId := toOption_eq_some.mpr (fromJson_checked hr).1
    rw [IsLast, hname] at hlast
    have hrel := hrel r.deviceId
    rw [hlast] at hrel
    rw [get?_tableOf]
    generalize hfind : (rs.reverse.find? fun s => s.deviceId = r.deviceId) = found at hrel
    cases hrel with
    | some her =>
      have heq : readEntry P (.obj ms) = .ok r := hr
      rw [heq] at her
      exact congrArg some (Except.ok.inj her).symm

theorem Held.checked (h : Held P r) :
    isValidDeviceId r.deviceId = true ∧ r.secret.length = secretBytes := by
  induction h with
  | created drawn hdrawn name secret hsecret now pairedFrom grants =>
    exact ⟨(isHexId_iff.mp (isHexId_tokenHex hdrawn)).1, hsecret⟩
  | loaded file t h r hr =>
    obtain ⟨raw, -, hvalue⟩ := bind_eq_ok.mp h
    unfold loadValue at hvalue
    split at hvalue
    · cases hvalue
    · obtain ⟨rs, hrs, rfl⟩ := map_eq_ok.mp hvalue
      obtain ⟨ms, -, hms⟩ := (mem_tableOf_iff hrs).mp hr
      exact (fromJson_checked hms).2
  | updated r h name status lastSeenAt grants remoteEnabled remoteExpiresAt ih => exact ih

/-- `from_json(json.loads(json.dumps(to_json(r))))` is `r`. -/
def RoundTrips (P : Interpreter F) (r : DeviceRecord F) : Prop :=
  ∃ text, Json.dumps P.limits (.obj (toJson r)) = some text ∧
    ∃ ms, Json.loads P.limits text = .ok (.obj ms) ∧ fromJson P ms = .ok r

def entriesOf? (P : Interpreter F) (file : ByteArray) : Option (List (Json F)) :=
  (parse P file).toOption.bind devices?

/-- `remote_enabled` is `true`, `false` or absent. -/
def FlagGiven (ms : Members F) : Prop :=
  ms.lookup (py "remote_enabled") = none ∨ ∃ b, ms.lookup (py "remote_enabled") = some (.bool b)

/-- Loading raises `DeviceStoreCorrupt` or gives records as the registry makes them. -/
def LoadsAsSaid (P : Interpreter F) (file : ByteArray) : Prop :=
  (∀ e, load P file = .error e → e = .corrupt) ∧
    ∀ t, load P file = .ok t → ∀ r ∈ t.values,
      IsHexId r.deviceId ∧ r.secret.length = 32 ∧ fromJson P (toJson r) = .ok r ∧
        ∃ entries ms, entriesOf? P file = some entries ∧ IsLast P entries ms ∧
          fromJson P ms = .ok r ∧ FlagGiven ms

structure ReadsWell (P : Interpreter F) (file : ByteArray) : Prop where
  /-- The text does not nest deeper than the parser goes. -/
  shallow : ∀ text, readText file = some text →
    Json.loads (F := F) P.limits text ≠ .error .recursion
  /-- The first value that cannot be read is not of a kind that escapes. -/
  refused : ∀ entries, entriesOf? P file = some entries →
    ∀ c, (entries.flatMap (entryChecks P)).find? Check.fails = some c → c.escapes = false
  plain : ∀ entries, entriesOf? P file = some entries →
    (entries.flatMap (entryChecks P)).find? Check.fails = none →
      ∀ ms, IsLast P entries ms → FlagGiven ms ∧ ∀ id, deviceIdOf P ms = .ok id → lf ∉ id

theorem loads_toJson (hdepth : 2 ≤ P.limits.depth) (r : DeviceRecord F) :
    Json.loads P.limits ((Json.obj (toJson r)).render 0) = .ok (.obj (toJson r)) := by
  apply Json.loads_render
  obtain ⟨d, hd⟩ : ∃ d, P.limits.depth = d + 2 := ⟨P.limits.depth - 2, by omega⟩
  rw [hd]
  refine ⟨fieldNames_nodup, ?_⟩
  have hoptional : ∀ x : Option F, (optionalJson x).Storable P.limits.intDigits (d + 1) := by
    intro x
    cases x <;> simp [optionalJson, Json.Storable]
  have hgrants : (grantsJson r.grants : Json F).Storable P.limits.intDigits (d + 1) := by
    cases r.grants with
    | none => simp [grantsJson, Json.Storable]
    | some g =>
      rw [grantsJson, Json.Storable, Json.storableItems_iff]
      intro v hv
      obtain ⟨c, -, rfl⟩ := List.mem_map.mp hv
      simp [Json.Storable]
  simp [toJson, Json.StorableMembers, Json.Storable, hoptional, hgrants]

omit [PyFloat F] in
theorem intsFit_toJson (n : ℕ) (r : DeviceRecord F) : (Json.obj (toJson r)).intsFit n = true := by
  have hoptional : ∀ x : Option F, (optionalJson x).intsFit n = true := by
    intro x
    cases x <;> simp [optionalJson, Json.intsFit]
  have hitems : ∀ cs : List Capability,
      Json.intsFitItems (F := F) n (cs.map fun c => .str c.value) = true := by
    intro cs
    induction cs with
    | nil => rfl
    | cons c cs ih => simpa [Json.intsFitItems, Json.intsFit] using ih
  have hgrants : (grantsJson r.grants : Json F).intsFit n = true := by
    cases r.grants with
    | none => simp [grantsJson, Json.intsFit]
    | some g => exact hitems _
  simp [toJson, Json.intsFitMembers, Json.intsFit, hoptional, hgrants]

theorem Held.roundTrips (hdepth : 2 ≤ P.limits.depth) (h : Held P r) : RoundTrips P r := by
  refine ⟨(Json.obj (toJson r)).render 0, ?_, toJson r, loads_toJson hdepth r, ?_⟩
  · rw [Json.dumps, if_pos (intsFit_toJson _ r)]
  · exact fromJson_toJson P h.checked.1 h.checked.2

theorem parse_eq_error (h : parse P file = .error e) :
    e = .corrupt ∨ e = .recursionError ∧
      ∃ text, readText file = some text ∧ Json.loads (F := F) P.limits text = .error .recursion := by
  unfold parse at h
  split at h
  · exact .inl (Except.error.inj h).symm
  · rename_i text htext
    split at h
    · rename_i hloads
      exact .inr ⟨(Except.error.inj h).symm, text, htext, hloads⟩
    · exact .inl (Except.error.inj h).symm
    · cases h

theorem parse_of_recursion {text : PyStr} (htext : readText file = some text)
    (hloads : Json.loads (F := F) P.limits text = .error .recursion) :
    parse P file = .error .recursionError := by
  simp only [parse, htext, hloads]

theorem loadValue_of_entries (h : devices? raw = some entries) :
    loadValue P raw = (entries.mapM (readEntry P)).map tableOf := by
  simp only [loadValue, h]

theorem load_of_parse (h : parse P file = .ok raw) : load P file = loadValue P raw := by
  rw [load, h]
  rfl

/-- Whether reading the entries raises only `DeviceStoreCorrupt`, by their checks. -/
theorem mapM_corrupt_iff :
    (∀ e, entries.mapM (readEntry P) = .error e → e = .corrupt) ↔
      ∀ c, (entries.flatMap (entryChecks P)).find? Check.fails = some c → c.escapes = false := by
  rw [← firstRaised_corrupt_iff (agree_entries P entries), ← done_readEntries]
  simp only [done, map_eq_error]

theorem mapM_ok_iff :
    (∃ rs, entries.mapM (readEntry P) = .ok rs) ↔
      (entries.flatMap (entryChecks P)).find? Check.fails = none := by
  rw [← firstRaised_ok_iff (agree_entries P entries), ← done_readEntries]
  simp only [done, map_eq_ok, and_true]

theorem readEntry_of_mem (h : es.mapM (readEntry P) = .ok rs) {e : Json F} (he : e ∈ es) :
    ∃ r, readEntry P e = .ok r := by
  have hall := mapM_forall₂ h
  clear h
  induction hall with
  | nil => cases he
  | @cons e' r es rs her _ ih =>
    rcases List.mem_cons.mp he with rfl | he
    · exact ⟨r, her⟩
    · exact ih he

theorem loadsAsSaid_of_entries (hraw : parse P file = .ok raw)
    (hdev : devices? raw = some entries) :
    LoadsAsSaid P file ↔
      (∀ c, (entries.flatMap (entryChecks P)).find? Check.fails = some c → c.escapes = false) ∧
        ((entries.flatMap (entryChecks P)).find? Check.fails = none →
          ∀ ms, IsLast P entries ms → FlagGiven ms ∧ ∀ id, deviceIdOf P ms = .ok id → lf ∉ id) := by
  have hload : load P file = (entries.mapM (readEntry P)).map tableOf := by
    rw [load_of_parse hraw, loadValue_of_entries hdev]
  have hentries : entriesOf? P file = some entries := by
    simp only [entriesOf?, hraw, Except.toOption, Option.bind_some, hdev]
  rw [← mapM_corrupt_iff, ← mapM_ok_iff]
  unfold LoadsAsSaid
  simp only [hload, map_eq_error, map_eq_ok, hentries, Option.some.injEq]
  constructor
  · rintro ⟨hcorrupt, hok⟩
    refine ⟨hcorrupt, ?_⟩
    rintro ⟨rs, hrs⟩ ms hlast
    obtain ⟨r, hr⟩ := readEntry_of_mem hrs (by simpa using List.mem_of_find?_eq_some hlast)
    have hmem : r ∈ (tableOf rs).values := (mem_tableOf_iff hrs).mpr ⟨ms, hlast, hr⟩
    obtain ⟨hid, -, -, es, ms', rfl, hlast', hr', hflag⟩ := hok _ ⟨rs, hrs, rfl⟩ r hmem
    have hms : ms' = ms := by
      have hsame : idOf P (.obj ms') = idOf P (.obj ms) := by
        simp only [idOf, (fromJson_checked hr').1, (fromJson_checked hr).1]
      rw [IsLast, hsame] at hlast'
      exact Json.obj.inj (Option.some.inj (hlast'.symm.trans hlast))
    subst hms
    refine ⟨hflag, fun id hdevice => ?_⟩
    rw [(fromJson_checked hr).1] at hdevice
    exact Except.ok.inj hdevice ▸ (isHexId_iff.mp hid).2
  · rintro ⟨hcorrupt, hplain⟩
    refine ⟨hcorrupt, ?_⟩
    rintro t ⟨rs, hrs, rfl⟩ r hr
    obtain ⟨ms, hlast, hms⟩ := (mem_tableOf_iff hrs).mp hr
    obtain ⟨hdevice, hvalid, hkey⟩ := fromJson_checked hms
    obtain ⟨hflag, hlf⟩ := hplain ⟨rs, hrs⟩ ms hlast
    exact ⟨isHexId_iff.mpr ⟨hvalid, hlf _ hdevice⟩, hkey, fromJson_toJson P hvalid hkey, entries, ms,
      rfl, hlast, hms, hflag⟩

theorem loadsAsSaid_iff :
    LoadsAsSaid P file ↔ ReadsWell P file := by
  cases hparse : parse P file with
  | error e =>
    have hload : load P file = .error e := by rw [load, hparse]; rfl
    have hentries : entriesOf? P file = none := by simp [entriesOf?, hparse, Except.toOption]
    constructor
    · rintro ⟨hcorrupt, -⟩
      refine ⟨fun text htext hloads => ?_, by simp [hentries], by simp [hentries]⟩
      rw [parse_of_recursion htext hloads] at hparse
      cases hparse
      cases hcorrupt _ hload
    · rintro ⟨hshallow, -, -⟩
      refine ⟨fun e' he' => ?_, by simp [hload]⟩
      rw [hload] at he'
      cases he'
      rcases parse_eq_error hparse with rfl | ⟨-, text, htext, hloads⟩
      · rfl
      · exact absurd hloads (hshallow text htext)
  | ok raw =>
    have hshallow : ∀ text, readText file = some text →
        Json.loads (F := F) P.limits text ≠ .error .recursion := by
      intro text htext hloads
      rw [parse_of_recursion htext hloads] at hparse
      cases hparse
    cases hdev : devices? raw with
    | none =>
      have hload : load P file = .error .corrupt := by
        rw [load_of_parse hparse]
        simp only [loadValue, hdev]
      have hentries : entriesOf? P file = none := by
        simp [entriesOf?, hparse, Except.toOption, hdev]
      exact iff_of_true ⟨by simp [hload], by simp [hload]⟩
        ⟨hshallow, by simp [hentries], by simp [hentries]⟩
    | some entries =>
      have hentries : entriesOf? P file = some entries := by
        simp [entriesOf?, hparse, Except.toOption, hdev]
      rw [loadsAsSaid_of_entries hparse hdev]
      constructor
      · rintro ⟨hrefused, hplain⟩
        refine ⟨hshallow, fun es hes => ?_, fun es hes => ?_⟩
        all_goals
          rw [hentries] at hes
          cases hes
        · exact hrefused
        · exact hplain
      · intro h
        exact ⟨h.refused entries hentries, h.plain entries hentries⟩

/-- Every record that the registry holds survives the way to JSON and back, and a file loads as
said exactly when it reads well. -/
theorem device_file_decodes (P : Interpreter F) (hdepth : 2 ≤ P.limits.depth) :
    (∀ r, Held P r → RoundTrips P r) ∧ ∀ file, LoadsAsSaid P file ↔ ReadsWell P file :=
  ⟨fun _ h => h.roundTrips hdepth, fun _ => loadsAsSaid_iff⟩

def sampleInterpreter : Interpreter WholeFloat := ⟨⟨1000, 4300⟩, fun _ => none, fun _ => none⟩

theorem device_file_decodes_sample :
    (∀ r, Held sampleInterpreter r → RoundTrips sampleInterpreter r) ∧
      ∀ file, LoadsAsSaid sampleInterpreter file ↔ ReadsWell sampleInterpreter file :=
  device_file_decodes sampleInterpreter (by decide)

/-- A device whose last contact is given as a word. -/
def sampleEntry : Members WholeFloat :=
  [(py "device_id", .str (py "0123456789abcdef")),
    (py "secret", .str (Base64.b64encode (List.replicate 32 7))), (py "status", .str (py "active")),
    (py "created_at", .int 0), (py "last_seen_at", .str (py "yesterday"))]

def sampleDocument : Json WholeFloat :=
  .obj [(py "version", .int 1), (py "devices", .arr [.obj sampleEntry])]

/-- The bytes of a document as `_save` writes them. -/
def fileOf (raw : Json F) : ByteArray := (writeText false (raw.render 0)).getD ByteArray.empty

theorem parse_fileOf (hraw : raw.Storable P.limits.intDigits P.limits.depth)
    (hchars : PyStr.Encodable raw.chars) : parse P (fileOf raw) = .ok raw := by
  obtain ⟨b, hb⟩ := (writeText_isSome false).mpr (Json.encodable_render.mpr hchars)
  have hread : readText b = some (raw.render 0) :=
    readText_writeText (Json.cr_notMem_render 0 raw) hb
  simp only [parse, fileOf, hb, Option.getD_some, hread, Json.loads_render hraw]

theorem sample_entry_escapes :
    [Json.obj sampleEntry].mapM (readEntry sampleInterpreter) = .error .valueError := by
  have hfirst : firstRaised (entryReads sampleInterpreter (.obj sampleEntry)) =
      .error .valueError := by decide +kernel
  have hdone := done_readEntry sampleInterpreter (.obj sampleEntry)
  rw [hfirst] at hdone
  rw [List.mapM_cons, map_eq_error.mp hdone]
  rfl

theorem parse_sample : parse sampleInterpreter (fileOf sampleDocument) = .ok sampleDocument := by
  apply parse_fileOf
  · have hkeys : (sampleEntry.map Prod.fst).Nodup := by decide +kernel
    have hnames : [py "version", py "devices"].Nodup := by decide +kernel
    have hone : (natText 1).length ≤ 4300 := by decide +kernel
    have hzero : (natText 0).length ≤ 4300 := by decide +kernel
    refine ⟨hnames, hone, ⟨⟨hkeys, ?_⟩, trivial⟩, trivial⟩
    exact ⟨trivial, trivial, trivial, hzero, trivial, trivial⟩
  · have hsecret : PyStr.Encodable (Base64.b64encode (List.replicate 32 7)) := by decide +kernel
    simp only [sampleDocument, sampleEntry, Json.chars, Json.charsMembers, Json.charsItems,
      PyStr.encodable_append, PyStr.encodable_py, PyStr.encodable_nil, hsecret, and_self]

theorem sample_devices : devices? sampleDocument = some [.obj sampleEntry] := by
  have hlookup : ([(py "version", Json.int 1), (py "devices", .arr [.obj sampleEntry])] :
      Members WholeFloat).lookup (py "devices") = some (.arr [.obj sampleEntry]) := rfl
  simp only [devices?, sampleDocument, hlookup]

theorem not_loads_as_said : ¬ LoadsAsSaid sampleInterpreter (fileOf sampleDocument) := by
  have hvalue : loadValue sampleInterpreter sampleDocument = .error .valueError := by
    rw [loadValue_of_entries sample_devices, sample_entry_escapes]
    rfl
  rintro ⟨hcorrupt, -⟩
  cases hcorrupt _ ((load_of_parse parse_sample).trans hvalue)

end DeviceJson
end QronosAgent.Link

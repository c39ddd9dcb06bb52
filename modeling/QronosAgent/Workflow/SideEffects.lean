import QronosAgent.Journal.Store

/-! `SideEffectJournal` of `core/app_workflow.py`: which outside side effects were begun, and what is
known of them. A section reads the whole journal under the file's lock, and may replace it. -/
namespace QronosAgent.Workflow
open Lib
open Journal (JsonStore Platform Members SaveFault SaveError LoadError)

inductive SideEffectState where
  | submitting
  | confirmed
  | uncertain
  | notSubmitted
  | acknowledged
  deriving DecidableEq

namespace SideEffectState

def value : SideEffectState → PyStr
  | submitting => py "submitting"
  | confirmed => py "confirmed"
  | uncertain => py "uncertain"
  | notSubmitted => py "not_submitted"
  | acknowledged => py "acknowledged"

/-- `SideEffectState(value)` -/
def of? (s : PyStr) : Option SideEffectState :=
  [submitting, confirmed, uncertain, notSubmitted, acknowledged].find? fun state => state.value = s

theorem of?_value (state : SideEffectState) : of? state.value = some state := by
  cases state <;> decide

/-- `_UNRESOLVED` -/
def unresolved : SideEffectState → Bool
  | submitting | uncertain => true
  | _ => false

end SideEffectState

inductive Failure where
  /-- `ValueError`: no operation or content key, or a state that has its own operation -/
  | value
  | busy
  /-- `JournalUnavailable`: the journal is missing although it was in use -/
  | missing
  | unreadable
  /-- `JournalUnavailable`: it is malformed, or has a damaged entry -/
  | malformed
  | raised
  /-- `DuplicateSideEffect`: the operation was already attempted -/
  | alreadyAttempted
  /-- `DuplicateSideEffect`: the same content has an unconfirmed outcome -/
  | sameContent
  /-- `WorkflowError`: the state does not allow it -/
  | workflow
  | save (e : SaveError)
  | marker
  deriving DecidableEq

/-- `DuplicateSideEffect` and `JournalUnavailable` are `WorkflowError`s. -/
def Failure.isWorkflowError : Failure → Bool
  | .value | .raised | .save _ | .marker => false
  | _ => true

structure Disk where
  file : Option ByteArray
  marker : Bool

inductive MarkerFault where
  | none
  | fails (created : Bool)

/-- What goes wrong in one section. A process that dies in it leaves what a failure at that point
leaves. -/
structure Fate where
  locked : Bool
  unreadable : Bool
  save : SaveFault
  marker : MarkerFault

section
variable {F : Type}

abbrev Entries (F : Type) := Dict PyStr (Members F)

/-- `d[key] = value` -/
def assign (ms : Members F) (key : PyStr) (v : Json F) : Members F :=
  if (Json.member? ms key).isSome then ms.map fun kv => if kv.1 = key then (kv.1, v) else kv
  else ms ++ [(key, v)]

/-- `SideEffectState(value["state"])` -/
def stateOf? (ms : Members F) : Option SideEffectState :=
  match Json.member? ms (py "state") with
  | some (.str s) => SideEffectState.of? s
  | _ => none

/-- `value["contentKey"]`, or `str(value.get("owner", ""))`. -/
def textOf (ms : Members F) (key : PyStr) : PyStr :=
  match Json.member? ms key with
  | some (.str s) => s
  | _ => []

def optionalText (ms : Members F) (key : PyStr) : Bool :=
  match Json.member? ms key with
  | none | some (.str _) => true
  | _ => false

/-- `updatedAt` is missing, or a number that is no boolean. -/
def optionalNumber (ms : Members F) : Bool :=
  match Json.member? ms (py "updatedAt") with
  | none | some (.int _) | some (.float _) => true
  | _ => false

/-- The check of one entry in `_load`. A state that is no string is looked up by its hash. -/
def checkEntry (key : PyStr) (v : Json F) : Except Failure (Members F) :=
  match v with
  | .obj ms =>
    if key = [] ∨ textOf ms (py "contentKey") = [] then .error .malformed
    else match Json.member? ms (py "state") with
      | some (.arr _) | some (.obj _) => .error .raised
      | _ =>
        if (stateOf? ms).isSome && optionalText ms (py "detail") && optionalText ms (py "owner") &&
            optionalNumber ms then .ok ms
        else .error .malformed
  | _ => .error .malformed

def readEntry (kv : PyStr × Json F) : Except Failure (PyStr × Members F) :=
  (checkEntry kv.1 kv.2).map fun ms => (kv.1, ms)

def readEntries (es : Members F) : Except Failure (Entries F) :=
  (es.mapM readEntry).map fun kvs => kvs.foldl (fun d kv => d.set kv.1 kv.2) .empty

def sideEffectStore (F : Type) : JsonStore F := ⟨1, fun _ => none⟩

def payload (entries : Entries F) : Members F :=
  [(py "entries", .obj (entries.items.map fun kv => (kv.1, .obj kv.2)))]

variable [PyFloat F] (plat : Platform)

/-- `_load` -/
def load (unreadable : Bool) (d : Disk) : Except Failure (Entries F) :=
  match d.file with
  | none => if d.marker then .error .missing else .ok .empty
  | some bytes =>
    match (sideEffectStore F).load plat unreadable (some bytes) with
    | .error (.json _) => .error .raised
    | .error _ => .error .unreadable
    | .ok none => .error .malformed
    | .ok (some document) =>
      match Json.member? document.payload (py "entries") with
      | some (.obj es) => readEntries es
      | _ => .error .malformed

/-- `_save` -/
def saveEntries (fate : Fate) (entries : Entries F) (d : Disk) : Except Failure Unit × Disk :=
  let r := (sideEffectStore F).save plat (payload entries) fate.save d.file
  match r.1 with
  | .error e => (.error (.save e), { d with file := r.2 })
  | .ok () =>
    if d.marker then (.ok (), { d with file := r.2 })
    else match fate.marker with
      | .none => (.ok (), ⟨r.2, true⟩)
      | .fails created => (.error .marker, ⟨r.2, created⟩)

def locked (fate : Fate) (d : Disk) (change : Entries F → Except Failure (Option (Entries F))) :
    Except Failure Unit × Disk :=
  if fate.locked then
    match load plat fate.unreadable d with
    | .error e => (.error e, d)
    | .ok entries =>
      match change entries with
      | .error e => (.error e, d)
      | .ok none => (.ok (), d)
      | .ok (some changed) => saveEntries plat fate changed d
  else (.error .busy, d)

/-- The value that `begin` records. -/
def newValue (contentKey detail owner : PyStr) (now : F) : Members F :=
  [(py "contentKey", .str contentKey), (py "state", .str SideEffectState.submitting.value),
    (py "detail", .str (detail.take 500)), (py "updatedAt", .float now), (py "owner", .str owner)]

def changeState (ms : Members F) (state : SideEffectState) (detail : PyStr) (now : F) : Members F :=
  assign (assign (assign ms (py "state") (.str state.value)) (py "detail") (.str detail))
    (py "updatedAt") (.float now)

def blocks (contentKey : PyStr) (ms : Members F) : Bool :=
  textOf ms (py "contentKey") = contentKey && (stateOf? ms).any SideEffectState.unresolved

def begun (operationKey contentKey detail owner : PyStr) (now : F) (entries : Entries F) :
    Except Failure (Option (Entries F)) :=
  if (entries.get? operationKey).isSome then .error .alreadyAttempted
  else if entries.values.any (blocks contentKey) then .error .sameContent
  else .ok (some (entries.set operationKey (newValue contentKey detail owner now)))

/-- `begin` -/
def begin (fate : Fate) (operationKey contentKey detail owner : PyStr) (now : F) (d : Disk) :
    Except Failure Unit × Disk :=
  if operationKey = [] ∨ contentKey = [] then (.error .value, d)
  else locked plat fate d (begun operationKey contentKey detail owner now)

def settled (operationKey : PyStr) (state : SideEffectState) (detail : PyStr) (now : F)
    (entries : Entries F) : Except Failure (Option (Entries F)) :=
  match entries.get? operationKey with
  | none => .error .workflow
  | some ms =>
    if ¬ (stateOf? ms).any SideEffectState.unresolved then .error .workflow
    -- nothing turns "it might have happened" into "it did not happen"
    else if stateOf? ms = some .uncertain ∧ state ≠ .confirmed then .error .workflow
    else .ok (some (entries.set operationKey (changeState ms state (detail.take 500) now)))

/-- `settle` -/
def settle (fate : Fate) (operationKey : PyStr) (state : SideEffectState) (detail : PyStr) (now : F)
    (d : Disk) : Except Failure Unit × Disk :=
  if state = .submitting ∨ state = .acknowledged then (.error .value, d)
  else locked plat fate d (settled operationKey state detail now)

/-- `get(operation_key)`, as far as `settle_if_unresolved` looks at it. -/
def get (fate : Fate) (operationKey : PyStr) (d : Disk) : Except Failure (Option SideEffectState) :=
  if fate.locked then
    (load (F := F) plat fate.unreadable d).map fun entries =>
      (entries.get? operationKey).bind stateOf?
  else .error .busy

def released (operationKey detail : PyStr) (now : F) (entries : Entries F) :
    Except Failure (Option (Entries F)) :=
  match entries.get? operationKey with
  | none => .error .workflow
  | some ms =>
    if stateOf? ms = some .uncertain then
      .ok (some (entries.set operationKey (changeState ms .acknowledged (detail.take 500) now)))
    else .error .workflow

/-- `acknowledge` -/
def acknowledge (fate : Fate) (operationKey detail : PyStr) (now : F) (d : Disk) :
    Except Failure Unit × Disk :=
  locked plat fate d (released operationKey detail now)

/-- The entry is an attempt whose owner is gone. -/
def interrupted (alive : PyStr → PyStr → Bool) (key : PyStr) (ms : Members F) : Bool :=
  stateOf? ms = some .submitting && !alive key (textOf ms (py "owner"))

def interruptedDetail : PyStr := py "Interrupted before its outcome was recorded."

/-- What `reconcile_interrupted` saves, if anything: `alive` is asked for each entry. -/
def reconciled (alive : PyStr → PyStr → Bool) (now : PyStr → F) (entries : Entries F) :
    Except Failure (Option (Entries F)) :=
  let changed := (entries.filter (interrupted alive)).keys
  if changed = [] then .ok none
  else .ok (some (changed.foldl (fun d key => d.modify key fun ms =>
    changeState ms .uncertain interruptedDetail (now key)) entries))

/-- `reconcile_interrupted` -/
def reconcileInterrupted (fate : Fate) (alive : PyStr → PyStr → Bool) (now : PyStr → F) (d : Disk) :
    Except Failure Unit × Disk :=
  locked plat fate d (reconciled alive now)

end

/-- A process: its number, and the time it was created as `psutil` writes it. -/
structure Process where
  pid : ℕ
  created : PyStr
  deriving DecidableEq

/-- `_current_owner`; `psutil` may not give the time. -/
def currentOwner (p : Process) (psutil : Bool) : PyStr :=
  natText p.pid ++ py ":" ++ if psutil then p.created else []

inductive Seen where
  /-- There is no `psutil`, or it raises something else than `NoSuchProcess`. -/
  | unknown
  | noSuchProcess
  | created (text : PyStr)

/-- `owner.partition(":")` -/
def partition (owner : PyStr) : PyStr × PyStr :=
  (owner.takeWhile (· ≠ .scalar ':'), (owner.dropWhile (· ≠ .scalar ':')).drop 1)

/-- `_owner_alive`; `int` is Python's, and `psutil` tells about a process by its number. -/
def ownerAlive (int : PyStr → Option ℤ) (psutil : ℤ → Seen) (owner : PyStr) : Bool :=
  let (pidText, started) := partition owner
  match int pidText with
  | none => true
  | some pid =>
    match psutil pid with
    | .unknown => true
    | .noSuchProcess => false
    | .created text => started = [] || text = started

def joined (kind : PyStr) (parts : List PyStr) : PyStr :=
  [PyChar.scalar '\x00'].intercalate (kind :: parts)

/-- `content_key`; `hexdigest` is that of SHA-256 over the UTF-8 text, surrogates passed. -/
def contentKey (hexdigest : PyStr → PyStr) (kind : PyStr) (parts : List PyStr) : PyStr :=
  hexdigest (joined kind parts)

end QronosAgent.Workflow

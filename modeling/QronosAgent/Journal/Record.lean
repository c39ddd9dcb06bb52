import QronosAgent.Journal.Store
import QronosAgent.Lib.Sorted

/-! `QueueRecord` of `core/queue_journal.py`: one accepted request as it is written to disk,
and the strict reading that trusts no other shape. -/
namespace QronosAgent.Journal
open Lib

inductive RecordState where
  | queued
  | paused
  | running
  | interrupted
  | done
  | failed
  | cancelled
  deriving DecidableEq

namespace RecordState

def value : RecordState → PyStr
  | queued => py "queued"
  | paused => py "paused"
  | running => py "running"
  | interrupted => py "interrupted"
  | done => py "done"
  | failed => py "failed"
  | cancelled => py "cancelled"

def all : List RecordState := [queued, paused, running, interrupted, done, failed, cancelled]

/-- `RecordState(value)`; `none` is `ValueError`. -/
def ofValue? (s : PyStr) : Option RecordState := all.find? fun st => st.value = s

theorem ofValue?_value (st : RecordState) : ofValue? st.value = some st := by
  cases st <;> rfl

def finished : RecordState → Bool
  | done | failed | cancelled => true
  | queued | paused | running | interrupted => false

end RecordState

structure QueueRecord (F : Type) where
  taskId : PyStr
  requestId : PyStr
  summary : PyStr
  route : PyStr
  weight : PyStr
  requiredVramMb : ℤ
  state : RecordState
  submittedAt : F
  updatedAt : F
  attempts : ℤ
  detail : PyStr
  text : PyStr
  context : List (PyStr × PyStr)

/-- What `from_payload` raises: `StoreCorrupt` with its message, or the `OverflowError` of
`float(value)`, which is not one. -/
inductive RecordError where
  | corrupt (message : PyStr)
  | overflow

namespace QueueRecord
variable {F : Type}

def contextItem (item : PyStr × PyStr) : Json F :=
  .obj [(py "role", .str item.1), (py "content", .str item.2)]

def members (r : QueueRecord F) : Members F :=
  [(py "taskId", .str r.taskId),
    (py "requestId", .str r.requestId),
    (py "summary", .str r.summary),
    (py "route", .str r.route),
    (py "weight", .str r.weight),
    (py "requiredVramMb", .int r.requiredVramMb),
    (py "state", .str r.state.value),
    (py "submittedAt", .float r.submittedAt),
    (py "updatedAt", .float r.updatedAt),
    (py "attempts", .int r.attempts),
    (py "detail", .str r.detail),
    (py "text", .str r.text),
    (py "context", .arr (r.context.map contextItem))]

def toPayload (r : QueueRecord F) : Json F := .obj r.members

def noValid (key : PyStr) : RecordError := .corrupt (py "A queue record has no valid " ++ key ++ py ".")

/-- `text(key, required=...)`. -/
def textField (raw : Members F) (key : PyStr) (required : Bool) : Except RecordError PyStr :=
  match (Json.member? raw key).getD (if required then .null else .str []) with
  | .str s => if required && s.blank then .error (noValid key) else .ok s
  | _ => .error (noValid key)

/-- `number(key)`. -/
def numberField [PyFloat F] (raw : Members F) (key : PyStr) : Except RecordError F :=
  match Json.member? raw key with
  | some (.int n) =>
    match PyFloat.ofInt n with
    | some x => .ok x
    | none => .error .overflow
  | some (.float x) => .ok x
  | _ => .error (noValid key)

/-- `whole(key)`. -/
def wholeField (raw : Members F) (key : PyStr) : Except RecordError ℤ :=
  match Json.member? raw key with
  | some (.int n) => .ok n
  | _ => .error (noValid key)

def stateField (raw : Members F) : Except RecordError RecordState :=
  match Json.member? raw (py "state") with
  | some (.str s) =>
    match RecordState.ofValue? s with
    | some st => .ok st
    | none => .error (.corrupt (py "A queue record has an unknown state."))
  | _ => .error (.corrupt (py "A queue record has an unknown state."))

def invalidContext : RecordError := .corrupt (py "A queue record has an invalid context.")

def roles : List PyStr := [py "user", py "assistant"]

def readContextItem (item : Json F) : Except RecordError (PyStr × PyStr) :=
  match item with
  | .obj ms =>
    match Json.member? ms (py "role"), Json.member? ms (py "content") with
    | some (.str role), some (.str content) =>
      if role ∈ roles then .ok (role, content) else .error invalidContext
    | _, _ => .error invalidContext
  | _ => .error invalidContext

def contextField (raw : Members F) : Except RecordError (List (PyStr × PyStr)) :=
  match (Json.member? raw (py "context")).getD (.arr []) with
  | .arr items => items.mapM readContextItem
  | _ => .error invalidContext

def keepsRequest (r : QueueRecord F) : Bool :=
  r.state.finished || (!r.text.blank && !r.summary.blank)

section
variable [PyFloat F]

/-- `from_payload`, field by field in the order of the source. -/
def fromPayload (raw : Json F) : Except RecordError (QueueRecord F) :=
  match raw with
  | .obj ms => do
    let state ← stateField ms
    let context ← contextField ms
    let taskId ← textField ms (py "taskId") true
    let requestId ← textField ms (py "requestId") true
    let summary ← textField ms (py "summary") false
    let route ← textField ms (py "route") true
    let weight ← textField ms (py "weight") true
    let requiredVramMb ← wholeField ms (py "requiredVramMb")
    let submittedAt ← numberField ms (py "submittedAt")
    let updatedAt ← numberField ms (py "updatedAt")
    let attempts ← wholeField ms (py "attempts")
    let detail ← textField ms (py "detail") false
    let text ← textField ms (py "text") false
    let record : QueueRecord F := ⟨taskId, requestId, summary, route, weight, requiredVramMb,
      state, submittedAt, updatedAt, attempts, detail, text, context⟩
    if record.keepsRequest then return record
    else .error (.corrupt (py "A queue record that may still run has lost its request."))
  | _ => .error (.corrupt (py "A queue record is not an object."))

end

/-- What `from_payload` asks of a record: the fields that must not be blank are not, the
context speaks as user or assistant, and a request that may still run is there. -/
structure WellFormed (r : QueueRecord F) : Prop where
  taskId : r.taskId.blank = false
  requestId : r.requestId.blank = false
  route : r.route.blank = false
  weight : r.weight.blank = false
  roles : ∀ item ∈ r.context, item.1 ∈ QueueRecord.roles
  request : r.keepsRequest = true

theorem readContextItem_contextItem {item : PyStr × PyStr} (h : item.1 ∈ roles) :
    readContextItem (F := F) (contextItem item) = .ok item := by
  have hrole : Json.member? [(py "role", Json.str item.1), (py "content", (Json.str item.2 : Json F))]
      (py "role") = some (.str item.1) := rfl
  have hcontent : Json.member? [(py "role", Json.str item.1), (py "content", (Json.str item.2 : Json F))]
      (py "content") = some (.str item.2) := rfl
  simp only [contextItem, readContextItem, hrole, hcontent, h, if_true]

theorem mapM_contextItem {items : List (PyStr × PyStr)} (h : ∀ item ∈ items, item.1 ∈ roles) :
    (items.map (contextItem (F := F))).mapM readContextItem = .ok items := by
  induction items with
  | nil => rfl
  | cons item items ih =>
    rw [List.map_cons, List.mapM_cons, readContextItem_contextItem (h item (by simp)),
      ih fun i hi => h i (by simp [hi])]
    rfl

section
variable [PyFloat F]

theorem fromPayload_toPayload {r : QueueRecord F} (h : r.WellFormed) :
    fromPayload r.toPayload = .ok r := by
  have hstate : stateField r.members = .ok r.state := by
    have hm : Json.member? r.members (py "state") = some (.str r.state.value) := rfl
    simp only [stateField, hm, RecordState.ofValue?_value]
  have hcontext : contextField r.members = .ok r.context := by
    have hm : Json.member? r.members (py "context") = some (.arr (r.context.map contextItem)) := rfl
    simp only [contextField, hm, Option.getD_some, mapM_contextItem h.roles]
  have htext : ∀ (key s : PyStr) (required : Bool), Json.member? r.members key = some (.str s) →
      (required = true → s.blank = false) → textField r.members key required = .ok s := by
    intro key s required hm hs
    simp only [textField, hm, Option.getD_some]
    cases required with
    | false => rfl
    | true => simp [hs rfl]
  have hwhole : ∀ (key : PyStr) (n : ℤ), Json.member? r.members key = some (.int n) →
      wholeField r.members key = .ok n := by
    intro key n hm
    simp only [wholeField, hm]
  have hnumber : ∀ (key : PyStr) (x : F), Json.member? r.members key = some (.float x) →
      numberField r.members key = .ok x := by
    intro key x hm
    simp only [numberField, hm]
  have hkeeps := h.request
  simp only [toPayload, fromPayload, hstate, hcontext, bind, Except.bind, pure, Except.pure,
    htext (py "taskId") r.taskId true rfl (fun _ => h.taskId),
    htext (py "requestId") r.requestId true rfl (fun _ => h.requestId),
    htext (py "summary") r.summary false rfl (by simp),
    htext (py "route") r.route true rfl (fun _ => h.route),
    htext (py "weight") r.weight true rfl (fun _ => h.weight),
    hwhole (py "requiredVramMb") r.requiredVramMb rfl,
    hnumber (py "submittedAt") r.submittedAt rfl,
    hnumber (py "updatedAt") r.updatedAt rfl,
    hwhole (py "attempts") r.attempts rfl,
    htext (py "detail") r.detail false rfl (by simp),
    htext (py "text") r.text false rfl (by simp), hkeeps, if_true]

end
theorem ok_of_bind {ε α β : Type} {x : Except ε α} {f : α → Except ε β} {b : β}
    (h : (x >>= f) = .ok b) : ∃ a, x = .ok a ∧ f a = .ok b := by
  cases x with
  | error e => exact absurd h (by simp [bind, Except.bind])
  | ok a => exact ⟨a, rfl, h⟩

theorem roles_of_mapM {items : List (Json F)} {context : List (PyStr × PyStr)}
    (h : items.mapM readContextItem = .ok context) : ∀ item ∈ context, item.1 ∈ roles := by
  induction items generalizing context with
  | nil =>
    simp only [List.mapM_nil, pure, Except.pure, Except.ok.injEq] at h
    simp [← h]
  | cons item items ih =>
    rw [List.mapM_cons] at h
    obtain ⟨x, hx, h⟩ := ok_of_bind h
    obtain ⟨xs, hxs, h⟩ := ok_of_bind h
    simp only [pure, Except.pure, Except.ok.injEq] at h
    have hrole : x.1 ∈ roles := by
      unfold readContextItem at hx
      split at hx
      · split at hx
        · split at hx
          · rename_i hr
            rw [← Except.ok.inj hx]
            exact hr
          · cases hx
        · cases hx
      · cases hx
    rw [← h]
    intro i hi
    rcases List.mem_cons.mp hi with rfl | hi
    · exact hrole
    · exact ih hxs i hi

theorem blank_of_textField {raw : Members F} {key s : PyStr}
    (h : textField raw key true = .ok s) : s.blank = false := by
  unfold textField at h
  split at h
  · split at h
    · cases h
    · rename_i hb
      rw [← Except.ok.inj h]
      simpa using hb
  · cases h

theorem wellFormed_of_fromPayload [PyFloat F] {raw : Json F} {r : QueueRecord F}
    (h : fromPayload raw = .ok r) : r.WellFormed := by
  unfold fromPayload at h
  split at h
  · obtain ⟨state, -, h⟩ := ok_of_bind h
    obtain ⟨context, hcontext, h⟩ := ok_of_bind h
    obtain ⟨taskId, htask, h⟩ := ok_of_bind h
    obtain ⟨requestId, hrequest, h⟩ := ok_of_bind h
    obtain ⟨summary, -, h⟩ := ok_of_bind h
    obtain ⟨route, hroute, h⟩ := ok_of_bind h
    obtain ⟨weight, hweight, h⟩ := ok_of_bind h
    obtain ⟨vram, -, h⟩ := ok_of_bind h
    obtain ⟨submittedAt, -, h⟩ := ok_of_bind h
    obtain ⟨updatedAt, -, h⟩ := ok_of_bind h
    obtain ⟨attempts, -, h⟩ := ok_of_bind h
    obtain ⟨detail, -, h⟩ := ok_of_bind h
    obtain ⟨text, -, h⟩ := ok_of_bind h
    simp only at h
    split at h
    · rename_i hkeeps
      simp only [pure, Except.pure, Except.ok.injEq] at h
      have hroles : ∀ item ∈ context, item.1 ∈ roles := by
        unfold contextField at hcontext
        split at hcontext
        · exact roles_of_mapM hcontext
        · cases hcontext
      rw [← h]
      exact ⟨blank_of_textField htask, blank_of_textField hrequest, blank_of_textField hroute,
        blank_of_textField hweight, hroles, hkeeps⟩
    · cases h
  · cases h

end QueueRecord

/-! `QueueJournal` of `core/queue_journal.py` beside the file it saves to. Every operation is
one lock-held section: it returns or raises, and leaves a journal and a file. -/

inductive StorageProblem where
  | corrupt
  | unreadable
  | tooNew
  | noMigration
  | unwritable
  | unavailable
  deriving DecidableEq

/-- `_PROTECTED`: problems found in the file itself. -/
def StorageProblem.isProtected : StorageProblem → Bool
  | corrupt | unreadable | tooNew | noMigration => true
  | unwritable | unavailable => false

structure StorageStatus where
  durable : Bool
  problem : Option StorageProblem
  detail : PyStr

def StorageStatus.saved : StorageStatus := ⟨true, none, []⟩

/-- `MAX_FINISHED_RECORDS` -/
def maxFinishedRecords : ℕ := 50

inductive JournalError where
  | save (e : SaveError)
  | load (e : LoadError)
  | overflow
  | value (message : PyStr)

structure QueueJournal (F : Type) where
  persistent : Bool
  records : Dict PyStr (QueueRecord F)
  paused : Bool
  status : StorageStatus
  opened : Bool

structure Recovered (F : Type) where
  records : List (QueueRecord F)
  paused : Bool
  interrupted : List PyStr
  answered : List PyStr

structure Session (F : Type) where
  journal : QueueJournal F
  file : Option ByteArray

/-- `JsonStore(path, version=QUEUE_STATE_VERSION)` -/
def queueStore (F : Type) : JsonStore F := ⟨1, fun _ => none⟩

/-- `_finished`: nothing of the request is kept. -/
def QueueRecord.finish {F : Type} (r : QueueRecord F) (state : RecordState) (detail : PyStr)
    (now : F) : QueueRecord F :=
  { r with state, detail, updatedAt := now, summary := [], text := [], context := [] }

namespace QueueJournal
variable {F : Type}

/-- A journal that was not opened yet, at a path or without one. -/
def new (persistent : Bool) (unavailableDetail : PyStr) : QueueJournal F where
  persistent
  records := .empty
  paused := false
  status :=
    { durable := false
      problem := if persistent then none else some .unavailable
      detail :=
        if persistent then []
        else if unavailableDetail ≠ [] then unavailableDetail
        else py "No place to save the queue was configured." }
  opened := false

/-- `_PROTECTED` holds the current problem. -/
def isProtected (j : QueueJournal F) : Bool := j.status.problem.any StorageProblem.isProtected

/-- `holds_request` -/
def holdsRequest (j : QueueJournal F) (requestId : PyStr) : Bool :=
  j.records.values.any fun r =>
    r.requestId = requestId && r.state ≠ .failed && r.state ≠ .cancelled

section
variable [PyFloat F]

/-- `records()` -/
def sortedRecords (j : QueueJournal F) : List (QueueRecord F) :=
  sortedBy PyFloat.lt QueueRecord.submittedAt j.records.values

def payload (j : QueueJournal F) : Members F :=
  [(py "paused", .bool j.paused), (py "records", .arr (j.sortedRecords.map QueueRecord.toPayload))]

/-- `_prune` -/
def prune (j : QueueJournal F) : QueueJournal F :=
  let finished := sortedBy PyFloat.lt QueueRecord.updatedAt
    (j.records.values.filter fun r => r.state.finished)
  let forgotten := finished.take (finished.length - maxFinishedRecords)
  { j with records := forgotten.foldl (fun d r => d.erase r.taskId) j.records }

end
end QueueJournal

namespace Session
variable {F : Type}

def unwritable (name : PyStr) : StorageStatus where
  durable := false
  problem := some .unwritable
  detail := py "The queue could not be saved (" ++ name ++
    py "). It keeps working, but will be lost if Qronos closes before a save succeeds."

section
variable [PyFloat F]

/-- What `_save` makes of the store's save: only an `OSError` is caught. -/
def recordSave (s : Session F) :
    Except SaveError Unit × Option ByteArray → Except JournalError Bool × Session F
  | (.ok (), file) => (.ok true, ⟨{ s.journal with status := .saved }, file⟩)
  | (.error (.os name), file) =>
    (.ok false, ⟨{ s.journal with status := unwritable name }, file⟩)
  | (.error e, file) => (.error (.save e), { s with file })

/-- `_save` -/
def save (plat : Platform) (fault : SaveFault) (s : Session F) :
    Except JournalError Bool × Session F :=
  if !s.journal.persistent then (.ok false, s)
  else if s.journal.isProtected then (.ok false, s)
  else recordSave s ((queueStore F).save plat s.journal.payload fault s.file)

/-- `add` -/
def add (plat : Platform) (fault : SaveFault) (r : QueueRecord F) (s : Session F) :
    Except JournalError Bool × Session F :=
  if (s.journal.records.get? r.taskId).isSome then
    (.error (.value (r.taskId ++ py " is already recorded.")), s)
  else
    save plat fault
      { s with journal := { s.journal with records := s.journal.records.set r.taskId r } }

/-- The record `update` writes for one that is not finished. -/
def updated (r : QueueRecord F) (state : RecordState) (attempts : ℤ) (detail : PyStr) (now : F) :
    QueueRecord F :=
  if state.finished then { r.finish state detail now with attempts }
  else { r with state, attempts, detail, updatedAt := now }

/-- `update` -/
def update (plat : Platform) (fault : SaveFault) (taskId : PyStr) (state : RecordState)
    (attempts : Option ℤ) (detail : Option PyStr) (now : F) (s : Session F) :
    Except JournalError Bool × Session F :=
  match s.journal.records.get? taskId with
  | none => (.ok s.journal.status.durable, s)
  | some r =>
    if r.state.finished then (.ok s.journal.status.durable, s)
    else if r.state = state ∧ r.attempts = attempts.getD r.attempts ∧
        r.detail = detail.getD r.detail then
      (.ok s.journal.status.durable, s)
    else
      let r := updated r state (attempts.getD r.attempts) (detail.getD r.detail) now
      let journal := { s.journal with records := s.journal.records.set taskId r }
      save plat fault { s with journal := journal.prune }

/-- `set_paused` -/
def setPaused (plat : Platform) (fault : SaveFault) (paused : Bool) (s : Session F) :
    Except JournalError Bool × Session F :=
  if s.journal.paused = paused then (.ok s.journal.status.durable, s)
  else save plat fault { s with journal := { s.journal with paused } }

def cannotSave : PyStr :=
  py "Qronos cannot save the queue right now, so it is not starting queued work: if Qronos " ++
    py "stopped mid-run it could not record that honestly. It will try again."

/-- `start_blocker`: the reason not to start, if any. -/
def startBlocker (plat : Platform) (fault : SaveFault) (s : Session F) :
    Except JournalError (Option PyStr) × Session F :=
  if s.journal.status.problem ≠ some .unwritable then (.ok none, s)
  else
    match save plat fault s with
    | (.ok true, s) => (.ok none, s)
    | (.ok false, s) => (.ok (some cannotSave), s)
    | (.error e, s) => (.error e, s)

/-- `_parse`; `none` in the error is `StoreCorrupt`. -/
def parse (payload : Members F) : Except RecordError (List (QueueRecord F) × Bool) :=
  match (Json.member? payload (py "records")).getD (.arr []),
      (Json.member? payload (py "paused")).getD (.bool false) with
  | .arr raw, .bool paused => do
    let records ← raw.mapM QueueRecord.fromPayload
    if (records.map QueueRecord.taskId).Nodup then
      return (sortedBy PyFloat.lt QueueRecord.submittedAt records, paused)
    else .error (.corrupt (py "The saved queue repeats a task."))
  | _, _ => .error (.corrupt (py "The saved queue has the wrong shape."))

def keptRequest (r : QueueRecord F) : Bool :=
  r.state.finished && (r.summary ≠ [] || r.text ≠ [] || r.context ≠ [])

def scrub (r : QueueRecord F) : QueueRecord F :=
  if keptRequest r then r.finish r.state r.detail r.updatedAt else r

def isAnswered (answered : PyStr → Bool) (r : QueueRecord F) : Bool :=
  !r.state.finished && answered r.requestId

def isInterrupted (answered : PyStr → Bool) (r : QueueRecord F) : Bool :=
  !isAnswered answered r && r.state = .running

def answeredDetail : PyStr := py "Answered before Qronos closed; not run again."

def interruptedDetail : PyStr :=
  py "Qronos closed while this was running. It was not run again automatically; " ++
    py "resume it to try again."

def settle (answered : PyStr → Bool) (now : F) (r : QueueRecord F) : QueueRecord F :=
  if isAnswered answered r then
    r.finish .done answeredDetail now
  else if r.state = .running then
    { r with
      state := .interrupted
      updatedAt := now
      detail := interruptedDetail }
  else r

/-- One turn of the loop of `open` over the records of the file. -/
def recover (answered : PyStr → Bool) (now : F) (r : QueueRecord F) : QueueRecord F :=
  settle answered now (scrub r)

/-- `_refuse` -/
def refuse (problem : StorageProblem) (detail : PyStr) (s : Session F) :
    Except JournalError (Recovered F) × Session F :=
  (.ok ⟨[], false, [], []⟩,
    { s with journal := { s.journal with status := ⟨false, some problem, detail⟩ } })

def notSaved : PyStr := py "left untouched; this queue is not being saved."

def tooNewDetail : PyStr :=
  py "The saved queue was written by a newer Qronos. It has been " ++ notSaved

def noMigrationDetail : PyStr :=
  py "The saved queue is from a version this Qronos cannot read. It has been " ++ notSaved

def unreadableDetail : PyStr :=
  py "The saved queue could not be opened. It has been " ++ notSaved

def keptForRecovery : PyStr := py "left untouched for recovery; this queue is not being saved."

def corruptDetail : PyStr :=
  py "The saved queue could not be read. It has been " ++ keptForRecovery

def damagedDetail : PyStr := py "The saved queue is damaged. It has been " ++ keptForRecovery

/-- `_save()` inside `open`, which returns what was recovered unless the save raises. -/
def saveAndReturn (plat : Platform) (fault : SaveFault) (recovered : Recovered F)
    (s : Session F) : Except JournalError (Recovered F) × Session F :=
  match save plat fault s with
  | (.ok _, s) => (.ok recovered, s)
  | (.error e, s) => (.error e, s)

/-- The part of `open` after the records of the file were read. -/
def accept (plat : Platform) (fault : SaveFault) (answered : PyStr → Bool) (now : F)
    (records : List (QueueRecord F)) (paused migrated : Bool) (s : Session F) :
    Except JournalError (Recovered F) × Session F :=
  let interrupted := (records.filter (isInterrupted answered)).map QueueRecord.taskId
  let early := (records.filter (isAnswered answered)).map QueueRecord.taskId
  let table := (records.map (recover answered now)).foldl (fun d r => d.set r.taskId r)
    s.journal.records
  let s := { s with journal := { s.journal with records := table, paused, status := .saved } }
  let recovered := ⟨s.journal.sortedRecords, paused, interrupted, early⟩
  if interrupted ≠ [] ∨ early ≠ [] ∨ records.any keptRequest ∨ migrated then
    saveAndReturn plat fault recovered s
  else (.ok recovered, s)

/-- `open`: `readFault` is an `OSError` from reading the file, `fault` belongs to the save. -/
def openQueue (plat : Platform) (readFault : Bool) (fault : SaveFault) (answered : PyStr → Bool)
    (now : F) (s : Session F) : Except JournalError (Recovered F) × Session F :=
  if s.journal.opened then (.ok ⟨s.journal.sortedRecords, s.journal.paused, [], []⟩, s)
  else
    let s := { s with journal := { s.journal with opened := true } }
    if !s.journal.persistent then (.ok ⟨[], false, [], []⟩, s)
    else
      match (queueStore F).load plat readFault s.file with
      | .error .tooNew => refuse .tooNew tooNewDetail s
      | .error .migrationMissing => refuse .noMigration noMigrationDetail s
      | .error .unreadable => refuse .unreadable unreadableDetail s
      | .error .corrupt => refuse .corrupt corruptDetail s
      | .error e => (.error (.load e), s)
      | .ok none => saveAndReturn plat fault ⟨[], false, [], []⟩ s
      | .ok (some document) =>
        match parse document.payload with
        | .error (.corrupt _) => refuse .corrupt damagedDetail s
        | .error .overflow => (.error .overflow, s)
        | .ok (records, paused) =>
          accept plat fault answered now records paused document.migrated s

end
end Session
end QronosAgent.Journal

import QronosAgent.Lib.Json
import QronosAgent.Lib.Machine
import QronosAgent.Lib.Sorted

/-! The records of `core/user_memory.py` with the transactions on them, the vector index beside
them, and what may be recorded. -/
namespace QronosAgent.Memory
open Lib

inductive Status where
  | pendingReview
  | pendingEmbedding
  | active
  | superseded
  deriving DecidableEq

structure Record (F : Type) where
  value : PyStr
  category : PyStr
  scopeType : PyStr
  scopeKey : PyStr
  confidence : F
  evidenceType : PyStr
  sensitivity : PyStr
  sourceKind : PyStr
  status : Status
  supersedesId : PyStr

/-- `memory_records`, by id. -/
abbrev Table (F : Type) := Dict PyStr (Record F)

structure Texts where
  lower : PyStr → PyStr
  casefold : PyStr → PyStr

inductive Refusal where
  | value
  | policy

def trustedSourceKinds : List PyStr := [py "user", py "user_correction", py "verified_behavior"]

def evidenceTypes : List PyStr := [py "explicit", py "repeated", py "inferred"]

def sensitivityLevels : List PyStr := [py "normal", py "personal", py "sensitive", py "secret"]

def categories : List PyStr :=
  [py "preference", py "interaction_style", py "persistent_fact", py "routine", py "project_context",
    py "learned_behavior"]

def scopeTypes : List PyStr := [py "global", py "project", py "task_type", py "output_format"]

section
variable {F : Type} [PyFloat F]

/-- `math.isfinite` -/
def isFinite (x : F) : Bool :=
  match PyFloat.text x with
  | .decimal _ => true
  | _ => false

/-- `_validate_policy`: the status of a new record. -/
def validatePolicy (category scopeType scopeKey : PyStr) (confidence : F)
    (evidenceType sensitivity sourceKind : PyStr) (userConfirmedSensitive : Bool) :
    Except Refusal Status :=
  if category ∉ categories then .error .policy
  else if scopeType ∉ scopeTypes then .error .policy
  else if scopeType ≠ py "global" ∧ scopeKey = [] then .error .policy
  else if PyFloat.lt confidence (PyFloat.ofLiteral (py "0.0")) ∨
      PyFloat.lt (PyFloat.ofLiteral (py "1.0")) confidence ∨ ¬ isFinite confidence then .error .policy
  else if evidenceType ∉ evidenceTypes then .error .policy
  else if sensitivity ∉ sensitivityLevels then .error .policy
  else if sourceKind ∉ trustedSourceKinds then .error .policy
  else if sensitivity = py "secret" then .error .policy
  else if sensitivity = py "sensitive" ∧ ¬ userConfirmedSensitive then .ok .pendingReview
  else if evidenceType = py "inferred" ∧
      PyFloat.lt confidence (PyFloat.ofLiteral (py "0.75")) then .ok .pendingReview
  else .ok .pendingEmbedding

structure Candidate (F : Type) where
  value : PyStr
  category : PyStr
  scopeType : PyStr
  scopeKey : PyStr
  confidence : F
  evidenceType : PyStr
  sensitivity : PyStr
  sourceKind : PyStr
  userConfirmedSensitive : Bool
  supersedesId : PyStr

/-- `_clean_required` -/
def cleanRequired (maxChars : ℕ) (text : PyStr) : Except Refusal PyStr :=
  let cleaned := PyStr.strip text
  if cleaned = [] then .error .value
  else if maxChars < cleaned.length then .error .value
  else .ok cleaned

/-- The record that `create_candidate` is to insert. -/
def Candidate.record (texts : Texts) (c : Candidate F) : Except Refusal (Record F) := do
  let value ← cleanRequired 8000 c.value
  let category := texts.lower (PyStr.strip c.category)
  let scopeType := texts.lower (PyStr.strip c.scopeType)
  let scopeKey := PyStr.strip c.scopeKey
  let evidenceType := texts.lower (PyStr.strip c.evidenceType)
  let sensitivity := texts.lower (PyStr.strip c.sensitivity)
  let sourceKind := texts.lower (PyStr.strip c.sourceKind)
  let status ← validatePolicy category scopeType scopeKey c.confidence evidenceType sensitivity
    sourceKind c.userConfirmedSensitive
  return ⟨value, category, scopeType, scopeKey, c.confidence, evidenceType, sensitivity, sourceKind,
    status, PyStr.strip c.supersedesId⟩

end

/-! The transactions that change the records. -/

section
variable {F : Type}

/-- `SET status='ACTIVE' … AND status='PENDING_EMBEDDING'` -/
def Record.activated (r : Record F) : Record F :=
  if r.status = .pendingEmbedding then { r with status := .active } else r

/-- `SET status='SUPERSEDED' … AND status='ACTIVE'` -/
def Record.replaced (r : Record F) : Record F :=
  if r.status = .active then { r with status := .superseded } else r

/-- The second update of an activation: `if record.supersedes_id`. -/
def supersedeTarget (supersedesId : PyStr) (table : Table F) : Table F :=
  if supersedesId = [] then table else table.modify supersedesId Record.replaced

/-- The transaction of `_try_activate`. -/
def activateRow (id : PyStr) (record : Record F) (table : Table F) : Table F :=
  supersedeTarget record.supersedesId (table.modify id Record.activated)

/-- The transaction of `approve_candidate`. -/
def approveRow (id : PyStr) (table : Table F) : Table F :=
  table.modify id fun r => { r with status := .pendingEmbedding }

/-- One record in the transaction of `rebuild_index`: its status is not looked at. -/
def writeBackRow (table : Table F) (item : PyStr × Record F) : Table F :=
  supersedeTarget item.2.supersedesId
    (table.modify item.1 fun r => { r with status := .active })

/-- The transaction of `rebuild_index`. -/
def writeBackRows (items : List (PyStr × Record F)) (table : Table F) : Table F :=
  items.foldl writeBackRow table

/-- `list`, as far as `status` goes. -/
def listed (status : Status) (table : Table F) : List (PyStr × Record F) :=
  table.items.filter fun item => item.2.status = status

/-- The records that `rebuild_index` indexes: the active ones that no pending one is to supersede,
and the pending ones. -/
def rebuilt (active pending : List (PyStr × Record F)) : List (PyStr × Record F) :=
  (active.filter fun item => ¬ pending.any fun p =>
    p.2.supersedesId ≠ [] && p.2.supersedesId = item.1) ++ pending

/-- `_scope_score` is not zero, or the scope is global. -/
def admitted (texts : Texts) (scopes : Dict PyStr PyStr) (r : Record F) : Bool :=
  let requestedKey := PyStr.strip ((scopes.get? r.scopeType).getD [])
  r.scopeType = py "global" ||
    requestedKey ≠ [] && texts.casefold requestedKey = texts.casefold r.scopeKey

end

structure VectorIndex where
  ids : List PyStr
  dimensions : ℕ
  model : PyStr
  version : PyStr

structure Provider where
  model : PyStr
  version : PyStr

namespace VectorIndex

/-- `upsert`; `none` is `ReindexRequired`. -/
def upsert (index : VectorIndex) (provider : Provider) (id : PyStr) (dimensions : ℕ) :
    Option VectorIndex :=
  if index.ids ≠ [] ∧ (index.model ≠ provider.model ∨ index.version ≠ provider.version) then none
  else if index.ids ≠ [] ∧ index.dimensions ≠ dimensions then none
  else some ⟨if id ∈ index.ids then index.ids else index.ids ++ [id], dimensions, provider.model,
    provider.version⟩

/-- `remove` -/
def remove (index : VectorIndex) (id : PyStr) : VectorIndex :=
  if id ∈ index.ids then { index with ids := index.ids.erase id } else index

/-- `replace_all` -/
def replaceAll (provider : Provider) (ids : List PyStr) (dimensions : ℕ) : VectorIndex :=
  ⟨ids, if ids = [] then 0 else dimensions, provider.model, provider.version⟩

/-- What `search` may give; `none` is `ReindexRequired`. The order is that of the scores. -/
def searches (index : VectorIndex) (provider : Provider) (dimensions : ℕ) (limit : ℤ)
    (found : Option (List PyStr)) : Bool :=
  if index.ids = [] then found = some []
  else if index.model ≠ provider.model ∨ index.version ≠ provider.version ∨
      index.dimensions ≠ dimensions then found = none
  else match found with
    | none => false
    | some ids => decide ids.Nodup && ids.all (index.ids.contains ·) && ids.length ≤ max 1 limit

end VectorIndex

/-! The operations of `MemoryStore` as tasks: each transaction on the records and each operation on
the vector index is one step, and any number of tasks take their steps in any order. -/

structure Retrieval (F : Type) where
  scopes : Dict PyStr PyStr
  limit : ℤ
  candidateLimit : ℤ
  minSemanticScore : F

structure Replacement (F : Type) where
  value : PyStr
  confidence : F
  evidenceType : PyStr
  sensitivity : Option PyStr
  sourceKind : PyStr
  userConfirmedSensitive : Bool

/-- The arguments of `create_candidate` for a replacement. -/
def Replacement.candidate {F : Type} (r : Replacement F) (id : PyStr) (old : Record F) : Candidate F :=
  ⟨r.value, old.category, old.scopeType, old.scopeKey, r.confidence, r.evidenceType,
    (r.sensitivity.filter (· ≠ [])).getD old.sensitivity, r.sourceKind, r.userConfirmedSensitive, id⟩

inductive Operation (F : Type) where
  | createCandidate (c : Candidate F)
  | supersede (memoryId : PyStr) (r : Replacement F)
  | approveCandidate (memoryId : PyStr)
  | retryPendingEmbeddings
  | rebuildIndex
  | delete (memoryId : PyStr)
  | retrieve (r : Retrieval F)

/-- Where an operation stands: what it does next, and what it has read. `rest` are the records that
`retry_pending_embeddings` is to come to. -/
inductive Task (F : Type) where
  | supersede (memoryId : PyStr) (r : Replacement F)
  | check (supersedesId : PyStr) (record : Record F)
  | insert (record : Record F)
  | created (id : PyStr)
  | activate (id : PyStr) (rest : List PyStr)
  | embed (id : PyStr) (record : Record F) (rest : List PyStr)
  | upsert (id : PyStr) (record : Record F) (dimensions : ℕ) (rest : List PyStr)
  | activating (id : PyStr) (record : Record F) (rest : List PyStr)
  /-- `vector_index.remove(record.supersedes_id)` -/
  | removing (id : PyStr) (record : Record F) (rest : List PyStr)
  | activated (id : PyStr) (rest : List PyStr)
  | approve (id : PyStr)
  | approving (id : PyStr)
  | retry
  | delete (id : PyStr)
  | removeVector (id : PyStr)
  | deleteRow (id : PyStr)
  | rebuild
  | listActive
  | listPending (active : List (PyStr × Record F))
  | embedAll (items : List (PyStr × Record F))
  | replaceAll (items : List (PyStr × Record F)) (dimensions : ℕ)
  | writeBack (items : List (PyStr × Record F))
  | retrieve (r : Retrieval F)
  | search (r : Retrieval F)
  | read (r : Retrieval F) (found : List PyStr) (ranked : List (F × PyStr × Record F))

structure Answer (F : Type) where
  retrieval : Retrieval F
  records : List (PyStr × Record F)

structure World (F : Type) where
  records : Table F
  index : VectorIndex
  enabled : Bool
  used : List PyStr
  tasks : Dict ℕ (Task F)
  answers : List (Answer F)

structure Reply (F : Type) where
  ready : Bool
  /-- How many components the vectors have; `none` when `embed` raises. -/
  embedded : Option ℕ
  newId : PyStr
  /-- What `search` gives; `none` when it raises. -/
  found : Option (List PyStr)
  semantic : F
  final : F

inductive Action (F : Type) where
  | call (i : ℕ) (operation : Operation F)
  | advance (i : ℕ) (reply : Reply F)

section
variable {F : Type} [PyFloat F] (texts : Texts) (provider : Provider)

/-- `create_candidate`, up to its first look at the store. -/
def Candidate.task (c : Candidate F) : Option (Task F) :=
  match c.record texts with
  | .error _ => none
  | .ok record => some (if c.supersedesId = [] then .insert record else .check c.supersedesId record)

def Operation.task : Operation F → Option (Task F)
  | .createCandidate c => c.task texts
  | .supersede memoryId r => some (.supersede memoryId r)
  | .approveCandidate memoryId => some (.approve memoryId)
  | .retryPendingEmbeddings => some .retry
  | .rebuildIndex => some .rebuild
  | .delete memoryId => some (.delete memoryId)
  | .retrieve r => some (.retrieve r)

/-- `retry_pending_embeddings` goes on. -/
def nextOf : List PyStr → Option (Task F)
  | [] => none
  | id :: rest => some (.activate id rest)

/-- The scores of a record that is in the index, as `retrieve` ranks them. -/
def rank (r : Retrieval F) (reply : Reply F) (row : Option (Record F)) (id : PyStr)
    (ranked : List (F × PyStr × Record F)) : List (F × PyStr × Record F) :=
  if PyFloat.lt reply.semantic r.minSemanticScore then ranked
  else match row with
    | none => ranked
    | some record =>
      if record.status ≠ .active then ranked
      else if ¬ admitted texts r.scopes record then ranked
      else ranked ++ [(reply.final, id, record)]

/-- What `retrieve` returns. -/
def selected (r : Retrieval F) (ranked : List (F × PyStr × Record F)) : List (PyStr × Record F) :=
  ((sortedBy (fun x y => PyFloat.lt y x) Prod.fst ranked).take r.limit.toNat).map Prod.snd

def Task.run (s : World F) (reply : Reply F) : Task F → Option (World F × Option (Task F))
  | .supersede memoryId r =>
    some (s, (s.records.get? memoryId).bind fun old => (r.candidate memoryId old).task texts)
  | .check supersedesId record =>
    match s.records.get? supersedesId with
    | none => some (s, none)
    | some old => some (s, if old.status = .active then some (.insert record) else none)
  | .insert record =>
    -- the time and the random part make every id a new one
    if s.used.contains reply.newId then none
    else some ({ s with records := s.records.set reply.newId record, used := reply.newId :: s.used },
      some (.created reply.newId))
  | .created id =>
    some (s, (s.records.get? id).bind fun record =>
      if record.status = .pendingEmbedding then some (.activate id []) else none)
  | .activate id rest =>
    match s.records.get? id with
    | none => some (s, none)
    | some record =>
      some (s, if record.status = .pendingEmbedding then some (.embed id record rest) else nextOf rest)
  | .embed id record rest =>
    some (s, if reply.ready then reply.embedded.map fun d => .upsert id record d rest else nextOf rest)
  | .upsert id record dimensions rest =>
    match s.index.upsert provider id dimensions with
    | none => some (s, nextOf rest)
    | some index => some ({ s with index := index }, some (.activating id record rest))
  | .activating id record rest =>
    some ({ s with records := activateRow id record s.records },
      some (if record.supersedesId = [] then .activated id rest else .removing id record rest))
  | .removing id record rest =>
    some ({ s with index := s.index.remove record.supersedesId }, some (.activated id rest))
  | .activated id rest => some (s, (s.records.get? id).bind fun _ => nextOf rest)
  | .approve id =>
    match s.records.get? id with
    | none => some (s, none)
    | some record => some (s, if record.status = .pendingReview then some (.approving id) else none)
  | .approving id => some ({ s with records := approveRow id s.records }, some (.activate id []))
  | .retry => some (s, nextOf ((listed .pendingEmbedding s.records).map Prod.fst))
  | .delete id => some (s, (s.records.get? id).map fun _ => .removeVector id)
  | .removeVector id => some ({ s with index := s.index.remove id }, some (.deleteRow id))
  | .deleteRow id => some ({ s with records := s.records.erase id }, none)
  | .rebuild => some (s, if reply.ready then some .listActive else none)
  | .listActive => some (s, some (.listPending (listed .active s.records)))
  | .listPending active =>
    let items := rebuilt active (listed .pendingEmbedding s.records)
    some (s, some (if items = [] then .replaceAll [] 0 else .embedAll items))
  | .embedAll items => some (s, reply.embedded.map fun d => .replaceAll items d)
  | .replaceAll items dimensions =>
    some ({ s with index := VectorIndex.replaceAll provider (items.map Prod.fst) dimensions },
      if items = [] then none else some (.writeBack items))
  | .writeBack items => some ({ s with records := writeBackRows items s.records }, none)
  | .retrieve r =>
    if s.enabled then some (s, if reply.ready then some (.search r) else none)
    else some ({ s with answers := s.answers ++ [⟨r, []⟩] }, none)
  | .search r =>
    match reply.embedded with
    | none => some (s, none)
    | some dimensions =>
      if s.index.searches provider dimensions (max r.limit r.candidateLimit) reply.found then
        some (s, reply.found.map fun found => .read r found [])
      else none
  | .read r [] ranked => some ({ s with answers := s.answers ++ [⟨r, selected r ranked⟩] }, none)
  | .read r (id :: found) ranked =>
    some (s, some (.read r found (rank texts r reply (s.records.get? id) id ranked)))

/-- The task `i` is now at `t`, or gone. -/
def World.put (s : World F) (i : ℕ) (t : Option (Task F)) : World F :=
  { s with tasks := match t with
    | some t => s.tasks.set i t
    | none => s.tasks.erase i }

def World.step (s : World F) : Action F → Option (World F)
  | .call i operation =>
    if (s.tasks.get? i).isSome then none else some (s.put i (operation.task texts))
  | .advance i reply =>
    (s.tasks.get? i).bind fun t => (t.run texts provider s reply).map fun (s', next) => s'.put i next

def memoryMachine (F : Type) [PyFloat F] (texts : Texts) (provider : Provider) :
    Machine (World F) (Action F) where
  start s := s.records = .empty ∧ s.used = [] ∧ s.tasks = .empty ∧ s.answers = []
  step s a := s.step texts provider a

end
end QronosAgent.Memory

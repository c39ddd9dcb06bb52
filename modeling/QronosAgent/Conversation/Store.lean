import QronosAgent.Journal.Store
import QronosAgent.Lib.Sorted

/-! `core/conversation_store.py`: conversations in memory and in their file. Every operation changes
the memory first and rewrites the whole file afterwards. -/
namespace QronosAgent.Conversation
open Lib
open Journal (JsonStore Platform Members SaveFault SaveError LoadError)

/-- The built-in conversions of values that `json.loads` gives: `round(x, 3)`, `float(v)` (`none`
raises) and `str(v)`. -/
class PyConvert (F : Type) where
  round : F → F
  zero : F
  float? : Json F → Option F
  str : Json F → PyStr
  float_float : ∀ x, float? (.float x) = some x
  str_str : ∀ s, str (.str s) = s

structure StoredMessage (F : Type) where
  role : PyStr
  text : PyStr
  at_ : F

structure StoredConversation (F : Type) where
  conversationId : PyStr
  startedAt : F
  messages : List (StoredMessage F)

section
variable {F : Type} [PyConvert F]

namespace StoredMessage

def toJson (m : StoredMessage F) : Json F :=
  .obj [(py "role", .str m.role), (py "text", .str m.text), (py "at", .float (PyConvert.round m.at_))]

/-- `from_json` on the members of a dictionary; `none` is an exception. -/
def fromJson (ms : Members F) : Option (StoredMessage F) := do
  let at_ ← ((Json.member? ms (py "at")).map PyConvert.float?).getD (some PyConvert.zero)
  return ⟨((Json.member? ms (py "role")).map PyConvert.str).getD [],
    ((Json.member? ms (py "text")).map PyConvert.str).getD [], at_⟩

def rounded (m : StoredMessage F) : StoredMessage F := { m with at_ := PyConvert.round m.at_ }

theorem fromJson_toJson {m : StoredMessage F} {ms : Members F} (h : m.toJson = .obj ms) :
    fromJson ms = some m.rounded := by
  have hrole : Json.member? ms (py "role") = some (.str m.role) := by cases h; rfl
  have htext : Json.member? ms (py "text") = some (.str m.text) := by cases h; rfl
  have hat : Json.member? ms (py "at") = some (.float (PyConvert.round m.at_)) := by cases h; rfl
  unfold fromJson
  simp only [hrole, htext, hat, Option.map_some, Option.getD_some, PyConvert.str_str,
    PyConvert.float_float]
  rfl

end StoredMessage

def members? : Json F → Option (Members F)
  | .obj ms => some ms
  | _ => none

/-- The messages are read back as they were written. -/
theorem mapM_fromJson (messages : List (StoredMessage F)) :
    ((messages.map StoredMessage.toJson).filterMap members?).mapM StoredMessage.fromJson =
      some (messages.map StoredMessage.rounded) := by
  induction messages with
  | nil => rfl
  | cons m ms ih =>
    rw [List.map_cons, List.filterMap_cons]
    simp only [StoredMessage.toJson, members?] at ih ⊢
    rw [List.mapM_cons, StoredMessage.fromJson_toJson rfl, ih]
    rfl

namespace StoredConversation

def toJson (c : StoredConversation F) : Json F :=
  .obj [(py "conversationId", .str c.conversationId),
    (py "startedAt", .float (PyConvert.round c.startedAt)),
    (py "messages", .arr (c.messages.map StoredMessage.toJson))]

/-- `for item in raw`: a string or a dictionary gives no dictionaries, and what is not iterable
raises. -/
def rawMessages (ms : Members F) : Option (List (Members F)) :=
  match Json.member? ms (py "messages") with
  | none => some []
  | some (.arr items) => some (items.filterMap members?)
  | some (.str _) | some (.obj _) => some []
  | some _ => none

/-- `from_json`; `none` is an exception. -/
def fromJson (data : Json F) : Option (StoredConversation F) := do
  let ms ← members? data
  let messages ← (← rawMessages ms).mapM StoredMessage.fromJson
  let startedAt ← ((Json.member? ms (py "startedAt")).map PyConvert.float?).getD
    (some PyConvert.zero)
  return ⟨((Json.member? ms (py "conversationId")).map PyConvert.str).getD [], startedAt, messages⟩

def rounded (c : StoredConversation F) : StoredConversation F where
  conversationId := c.conversationId
  startedAt := PyConvert.round c.startedAt
  messages := c.messages.map StoredMessage.rounded

def Encodable (c : StoredConversation F) : Prop :=
  PyStr.Encodable c.conversationId ∧
    ∀ m ∈ c.messages, PyStr.Encodable m.role ∧ PyStr.Encodable m.text

theorem fromJson_toJson (c : StoredConversation F) : fromJson c.toJson = some c.rounded := by
  obtain ⟨ms, h⟩ : ∃ ms, c.toJson = .obj ms := ⟨_, rfl⟩
  have hid : Json.member? ms (py "conversationId") = some (.str c.conversationId) := by cases h; rfl
  have hstarted : Json.member? ms (py "startedAt") =
      some (.float (PyConvert.round c.startedAt)) := by cases h; rfl
  have hraw : Json.member? ms (py "messages") =
      some (.arr (c.messages.map StoredMessage.toJson)) := by cases h; rfl
  unfold fromJson
  simp only [h, members?, rawMessages, hid, hstarted, hraw, Option.bind_eq_bind, Option.bind_some,
    mapM_fromJson, Option.map_some, Option.getD_some, PyConvert.float_float, PyConvert.str_str]
  rfl

end StoredConversation

abbrev Memory (F : Type) := Dict PyStr (StoredConversation F)

structure Settings where
  enabled : Bool
  maxConversations : ℤ
  maxMessages : ℤ

structure ConversationStore (F : Type) where
  memory : Memory F
  file : Option ByteArray

inductive Failure where
  | noId
  /-- An item of an import is not what it should be. -/
  | item
  | save (e : SaveError)

/-- `messages[-n:]` -/
def lastMessages {α : Type} (n : ℤ) (ms : List α) : List α :=
  if 0 < n then ms.drop (ms.length - n.toNat) else ms.drop n.natAbs

section
variable [PyFloat F]

/-- `all_conversations` -/
def allConversations (memory : Memory F) : List (StoredConversation F) :=
  sortedBy PyFloat.lt (·.startedAt) memory.values

/-- `_trim`: the oldest conversations past the cap go. -/
def trim (settings : Settings) (memory : Memory F) : Memory F :=
  if (memory.items.length : ℤ) ≤ settings.maxConversations then memory
  else ((allConversations memory).take
    (memory.items.length - settings.maxConversations).toNat).foldl
      (fun d c => d.erase c.conversationId) memory

/-- `JsonStore(path, version=SCHEMA_VERSION)` -/
def jsonStore (F : Type) : JsonStore F := ⟨1, fun _ => none⟩

/-- The payload that `_persist` saves. -/
def payload (memory : Memory F) : Members F :=
  [(py "conversations", .arr ((allConversations memory).map StoredConversation.toJson))]

variable (plat : Platform)

/-- `_persist`, after the memory was changed. -/
def persist (memory : Memory F) (fault : SaveFault) (file : Option ByteArray) :
    Except Failure Unit × ConversationStore F :=
  let r := (jsonStore F).save plat (payload memory) fault file
  (r.1.mapError .save, ⟨memory, r.2⟩)

def extended (settings : Settings) (memory : Memory F) (conversationId role text : PyStr)
    (now : F) : StoredConversation F :=
  match memory.get? conversationId with
  | none => ⟨conversationId, now, [⟨role, text, now⟩]⟩
  | some existing =>
    let messages := existing.messages ++ [⟨role, text, now⟩]
    { existing with messages := lastMessages settings.maxMessages messages }

/-- `append` -/
def append (settings : Settings) (s : ConversationStore F) (conversationId role text : PyStr)
    (now : F) (fault : SaveFault) :
    Except Failure (Option (StoredConversation F)) × ConversationStore F :=
  if ¬ settings.enabled then (.ok none, s)
  else if PyStr.blank conversationId then (.error .noId, s)
  else
    let updated := extended settings s.memory conversationId role text now
    let r := persist plat (trim settings (s.memory.set conversationId updated)) fault s.file
    (r.1.map fun _ => some updated, r.2)

/-- `forget` -/
def forget (s : ConversationStore F) (conversationId : PyStr) (fault : SaveFault) :
    Except Failure Bool × ConversationStore F :=
  if s.memory.get? conversationId = none then (.ok false, s)
  else
    let r := persist plat (s.memory.erase conversationId) fault s.file
    (r.1.map fun _ => true, r.2)

/-- `forget_all` -/
def forgetAll (s : ConversationStore F) (fault : SaveFault) :
    Except Failure ℕ × ConversationStore F :=
  let r := persist plat .empty fault s.file
  (r.1.map fun _ => s.memory.items.length, r.2)

/-- The conversations of an import or of the file, one after the other: what the memory is then,
and how many were taken; `none` is an exception. -/
def takeAll (memory : Memory F) (taken : ℕ) : List (Json F) → Memory F × Option ℕ
  | [] => (memory, some taken)
  | data :: rest =>
    match StoredConversation.fromJson data with
    | none => (memory, none)
    | some c =>
      if c.conversationId = [] then takeAll memory taken rest
      else takeAll (memory.set c.conversationId c) (taken + 1) rest

/-- `import_conversations` -/
def importConversations (settings : Settings) (s : ConversationStore F) (items : List (Json F))
    (fault : SaveFault) : Except Failure ℕ × ConversationStore F :=
  match takeAll s.memory 0 items with
  | (memory, none) => (.error .item, { s with memory := memory })
  | (memory, some taken) =>
    let r := persist plat (trim settings memory) fault s.file
    (r.1.map fun _ => taken, r.2)

/-- `_load` on a payload; `none` is an exception. -/
def loadPayload (payload : Members F) : Option (Memory F) :=
  match Json.member? payload (py "conversations") with
  | some (.arr items) =>
    let r := takeAll .empty 0 (items.filter fun item => (members? item).isSome)
    r.2.map fun _ => r.1
  | _ => some .empty

/-- What a new store on this file holds; `none` is an exception. -/
def load (file : Option ByteArray) : Option (Memory F) :=
  match (jsonStore F).load plat false file with
  | .error _ => none
  | .ok none => some .empty
  | .ok (some document) => loadPayload document.payload

end
end
end QronosAgent.Conversation

import QronosAgent.Lib.Json
import QronosAgent.Lib.Sorted

/-! `desktop/src/conversationStore.ts`: the list of messages that the desktop shows, and the request
that blocks the composer. Text is as in `Lib.PyText`; an event comes with what `JSON.parse` makes of
it. -/
namespace QronosAgent.View
open Lib

inductive Role where
  | user
  | qronos
  deriving DecidableEq

/-- `ConversationMessage`. What is missing in the source is `none`, or `false`. -/
structure Message (F : Type) where
  id : PyStr
  role : Role
  text : PyStr
  source : Option PyStr
  timestamp : F
  requestId : Option PyStr
  pending : Bool
  error : Bool
  cancelled : Bool
  queueTaskId : Option PyStr
  queuePhase : Option PyStr
  /-- Not in the source: the message came from the backend's history. -/
  canonical : Bool

structure Snapshot (F : Type) where
  messages : List (Message F)
  pendingRequestId : Option PyStr

structure Browser (F : Type) where
  toLowerCase : PyStr → PyStr
  localeBefore : PyStr → PyStr → Bool
  next : F → F
  /-- What an object has by its prototype, as it is shown. -/
  inherited : PyStr → Option PyStr

/-- The white space and line ends of `trim`. -/
def isSpace (c : PyChar) : Bool :=
  [0x9, 0xa, 0xb, 0xc, 0xd, 0x20, 0xa0, 0x1680, 0x2028, 0x2029, 0x202f, 0x205f, 0x3000,
    0xfeff].contains c.code || 0x2000 ≤ c.code && c.code ≤ 0x200a

def trim (s : PyStr) : PyStr := ((s.dropWhile isSpace).reverse.dropWhile isSpace).reverse

section
variable {F : Type}

/-- A property of a value that is an object. -/
def prop (ms : List (PyStr × Json F)) (key : String) : Option (Json F) := Json.member? ms (py key)

/-- `text(value)` -/
def textOf : Option (Json F) → PyStr
  | some (.str s) => trim s
  | _ => []

/-- The properties of a value; reading one of `null` throws. -/
def properties : Json F → Option (List (PyStr × Json F))
  | .null => none
  | .obj ms => some ms
  | _ => some []

/-- `item && typeof item === "object" ? item : {}` -/
def itemProperties : Json F → List (PyStr × Json F)
  | .obj ms => ms
  | _ => []

/-- A text that is not empty. -/
def nonempty (s : PyStr) : Option PyStr := if s = [] then none else some s

def friendlyRuntimeErrorText (browser : Browser F) (raw : PyStr) : PyStr :=
  let value := trim raw
  let lowered := browser.toLowerCase value
  let shows (part : String) : Bool := decide (py part <:+: lowered)
  if shows "local brain model is not installed" || shows "model is not installed" then
    py "مدل محلی مورد نیاز Qronos روی این دستگاه نصب نشده است."
  else if shows "local brain is unavailable" || shows "local brain request failed" ||
      shows "could not send request to model" || shows "connectionerror" ||
      shows "httpconnectionpool" || shows "127.0.0.1:11434" || shows "winerror 10061" then
    py "سرویس مدل محلی Qronos در دسترس نیست. وضعیت راه‌اندازی محلی را بررسی کنید."
  else value

/-- The comparison of `sortMessages`. -/
def before [PyFloat F] (browser : Browser F) (left right : F × PyStr) : Bool :=
  if PyFloat.lt left.1 right.1 then true
  else if PyFloat.lt right.1 left.1 then false
  else browser.localeBefore left.2 right.2

def sortMessages [PyFloat F] (browser : Browser F) (messages : List (Message F)) :
    List (Message F) :=
  sortedBy (before browser) (fun m => (m.timestamp, m.id)) messages

/-- `typeof timestamp === "number" && Number.isFinite(timestamp)` -/
def timestampOf [PyFloat F] : Option (Json F) → Option F
  | some (.int n) => PyFloat.ofInt n
  | some (.float x) =>
    match PyFloat.text x with
    | .decimal _ => some x
    | _ => none
  | _ => none

def parseCanonicalMessage [PyFloat F] (raw : List (PyStr × Json F)) : Option (Message F) :=
  let id := textOf (prop raw "id")
  let role := match prop raw "role" with
    | some (.str s) => if s = py "user" then some Role.user
      else if s = py "qronos" then some .qronos else none
    | _ => none
  let text := textOf (prop raw "text")
  let source := match prop raw "source" with
    | some (.str s) => if s = py "voice" ∨ s = py "text" then some s else none
    | _ => none
  let requestId := nonempty (textOf (prop raw "requestId"))
  match role, timestampOf (prop raw "timestamp") with
  | some role, some timestamp =>
    if id = [] ∨ text = [] then none
    else some ⟨id, role, text, source, timestamp, requestId, false, false, false, none, none, true⟩
  | _, _ => none

/-! Canonical messages, and what stands in for them -/

def replacedBy (canonical message : Message F) : Bool :=
  canonical.requestId.isSome && message.requestId = canonical.requestId &&
    message.role = canonical.role && (canonical.role = .user || message.pending)

def mergeCanonicalMessage [PyFloat F] (browser : Browser F) (canonical : Message F)
    (current : Snapshot F) : Snapshot F :=
  if current.messages.any fun m => m.id = canonical.id then current
  else
    let nextMessages := current.messages.map fun m => if replacedBy canonical m then canonical else m
    { messages := sortMessages browser
        (if current.messages.any (replacedBy canonical) then nextMessages
          else nextMessages ++ [canonical])
      pendingRequestId :=
        if canonical.role = .qronos ∧ canonical.requestId.isSome ∧
            canonical.requestId = current.pendingRequestId then none
        else current.pendingRequestId }

def failedText (text : PyStr) : PyStr := py "درخواست اجرا نشد: " ++ text

def replacePendingFallback (requestId responseText : PyStr) (isError cancelled : Bool)
    (current : Snapshot F) : Snapshot F :=
  if current.pendingRequestId ≠ some requestId then current
  else
    { messages := current.messages.map fun m =>
        if m.requestId ≠ some requestId ∨ ¬ m.pending then m
        else { m with
          text := if isError then failedText responseText else responseText
          pending := false
          error := isError
          cancelled := cancelled }
      pendingRequestId := none }

def queueWaitingText : List (PyStr × PyStr) :=
  [(py "queued", py "در صف Qronos — وقتی دستگاه آزاد شد پاسخ می‌دهم."),
    (py "deferred", py "هنوز در صف — دستگاه مشغول است؛ بعداً دوباره تلاش می‌کنم."),
    (py "running", py "در حال پردازش از صف...")]

def queueHeldText : List (PyStr × PyStr) :=
  [(py "paused", py "در صف متوقف شده — برای ادامه «ادامه» را بزنید."),
    (py "interrupted", py "Qronos هنگام پردازش این درخواست بسته شد. خودکار دوباره اجرا نمی‌شود؛ برای تلاش دوباره «ادامه» را بزنید.")]

def cancelledText : PyStr := py "لغو شد — پاسخی ثبت نشد."

def queueEndedText : List (PyStr × PyStr) :=
  [(py "cancelled", cancelledText),
    (py "interrupted", py "Qronos پیش از پاسخ بسته شد و این درخواست دوباره اجرا نمی‌شود؛ لطفاً دوباره بپرسید.")]

def deferredHolds : List PyStr := [py "sustained_load", py "safety_floor", py "activity_mode"]

def couldNotRunText : PyStr := py "Qronos نتوانست این درخواست را اجرا کند."

structure QueuePayload where
  taskId : PyStr
  requestId : PyStr
  phase : PyStr
  text : PyStr
  error : PyStr
  resumable : Bool

structure Bubble where
  text : PyStr
  pending : Bool
  error : Bool
  queueTaskId : Option PyStr
  queuePhase : Option PyStr

/-- `QUEUE_HELD_TEXT[phase]`, when the request waits for the user. -/
def heldText (payload : QueuePayload) : Option PyStr :=
  if payload.phase = py "paused" ∨ payload.phase = py "interrupted" ∧ payload.resumable then
    queueHeldText.lookup payload.phase
  else none

def queueBubbleFor (browser : Browser F) (payload : QueuePayload) : Option Bubble :=
  let phase := payload.phase
  let taskId := nonempty payload.taskId
  match (queueWaitingText.lookup phase).or (browser.inherited phase) with
  | some text => some ⟨text, true, false, taskId, some phase⟩
  | none =>
    match heldText payload with
    | some text => some ⟨text, false, phase = py "interrupted", taskId, some phase⟩
    | none =>
      if phase = py "failed" then
        let reason := if payload.error = [] then couldNotRunText else payload.error
        some ⟨failedText (friendlyRuntimeErrorText browser reason), false, true, none,
          some (py "ended")⟩
      else
        match queueEndedText.lookup phase with
        | some text => some ⟨text, false, phase = py "interrupted", none, some (py "ended")⟩
        | none =>
          if phase = py "answered" ∧ payload.text ≠ [] then
            some ⟨payload.text, false, false, none, none⟩
          else none

/-- A bubble that the queue may move: it is pending, or the queue manages it. -/
def movable (requestId : PyStr) (m : Message F) : Bool :=
  m.requestId = some requestId && m.role = .qronos && (m.pending || m.queuePhase.isSome)

/-- A bubble, or an answer, that stays where it is. -/
def settledFor (requestId : PyStr) (m : Message F) : Bool :=
  m.requestId = some requestId && m.role = .qronos && !m.pending && m.queuePhase.isNone

def Bubble.on (b : Bubble) (m : Message F) : Message F :=
  { m with
    text := b.text
    pending := b.pending
    error := b.error
    queueTaskId := b.queueTaskId
    queuePhase := b.queuePhase }

def placed (browser : Browser F) (now : F) (requestId : PyStr) (b : Bubble)
    (messages : List (Message F)) : Message F :=
  let asked := messages.find? fun m => m.requestId = some requestId && m.role = .user
  b.on ⟨py "queued-" ++ requestId, .qronos, [], some (py "text"),
    (asked.map fun m => browser.next m.timestamp).getD now, some requestId, false, false, false, none,
    none, false⟩

/-- `"Answered"` with no text: the answer is in the history already. -/
def QueuePayload.retires (payload : QueuePayload) : Bool :=
  payload.phase = py "answered" && payload.text = []

/-- `Boolean(item.requestId && (item.bubble || item.retire))` -/
def QueuePayload.tells (browser : Browser F) (payload : QueuePayload) : Bool :=
  payload.requestId ≠ [] && ((queueBubbleFor browser payload).isSome || payload.retires)

/-- One pass of the loop in `applyQueueConversationUpdates`. -/
def applyUpdate (browser : Browser F) (now : F) (current : Snapshot F) (payload : QueuePayload) :
    Snapshot F :=
  let requestId := payload.requestId
  let messages := match queueBubbleFor browser payload with
    | none => current.messages.filter fun m => !movable requestId m
    | some b =>
      let moved := current.messages.map fun m => if movable requestId m then b.on m else m
      if current.messages.any (movable requestId) || moved.any (settledFor requestId) ||
          payload.phase = py "answered" then moved
      else moved ++ [placed browser now requestId b moved]
  { messages := messages
    pendingRequestId := if current.pendingRequestId = some requestId then none
      else current.pendingRequestId }

def applyQueueConversationUpdates [PyFloat F] (browser : Browser F) (now : F)
    (payloads : List QueuePayload) (current : Snapshot F) : Snapshot F :=
  let updates := payloads.filter (QueuePayload.tells browser)
  if updates = [] then current
  else
    let s := updates.foldl (applyUpdate browser now) current
    { s with messages := sortMessages browser s.messages }

/-- The payload of a `queue_conversation_update`. -/
def queuePayload (ms : List (PyStr × Json F)) : QueuePayload where
  taskId := textOf (prop ms "taskId")
  requestId := textOf (prop ms "requestId")
  phase := textOf (prop ms "phase")
  text := textOf (prop ms "text")
  error := textOf (prop ms "error")
  resumable := match prop ms "resumable" with
    | some (.bool false) => false
    | _ => true

/-- `kind` is missing, or `"conversation"`. -/
def isConversation (kind : Option (Json F)) : Bool :=
  match kind with
  | none => true
  | some (.str s) => s = py "conversation"
  | _ => false

def taskPhase (task : List (PyStr × Json F)) : PyStr :=
  let state := textOf (prop task "state")
  let inFlight : Bool := match prop task "inFlight" with
    | some (.bool true) => true
    | _ => false
  if state = py "queued" then
    if textOf (prop task "heldReason") ∈ deferredHolds then py "deferred" else py "queued"
  else if state = py "running" ∧ ¬ inFlight then py "running"
  else if state ∈ [py "paused", py "interrupted", py "failed", py "cancelled"] then state
  else []

/-- The update of one task; `none` when the loop goes on without one. -/
def taskUpdate (task : Json F) : Option QueuePayload :=
  let ms := itemProperties task
  if textOf (prop ms "requestId") = [] ∨ ¬ isConversation (prop ms "kind") ∨ taskPhase ms = [] then
    none
  else some { queuePayload ms with
    phase := taskPhase ms
    text := []
    error := textOf (prop ms "detail") }

def arrayOf : Option (Json F) → List (Json F)
  | some (.arr xs) => xs
  | _ => []

def applyQueueSnapshot [PyFloat F] (browser : Browser F) (now : F) (ms : List (PyStr × Json F))
    (current : Snapshot F) : Snapshot F :=
  applyQueueConversationUpdates browser now
    ((arrayOf (prop ms "recent") ++ arrayOf (prop ms "tasks")).filterMap taskUpdate) current

/-- A bubble that the queue manages, of a request that this history does not answer. -/
def keptBubble (history : List (Message F)) (m : Message F) : Bool :=
  m.role = .qronos && m.queuePhase.isSome && m.requestId.isSome &&
    !history.any fun h => h.role = .qronos && h.requestId = m.requestId

def historyMessages [PyFloat F] (items : List (Json F)) : List (Message F) :=
  items.filterMap fun item => parseCanonicalMessage (itemProperties item)

def applyHistorySnapshot [PyFloat F] (browser : Browser F) (ms : List (PyStr × Json F))
    (current : Snapshot F) : Snapshot F :=
  if current.pendingRequestId.isSome then current
  else match prop ms "messages" with
    | some (.arr items) =>
      let messages := historyMessages items
      { messages := sortMessages browser
          (messages ++ current.messages.filter (keptBubble messages))
        pendingRequestId := none }
    | _ => current

/-- A `RuntimeEvent`, with what `JSON.parse` makes of its message; `none` when that throws. -/
inductive RuntimeEvent (F : Type) where
  | runtimeReady
  | historySnapshot (payload : Option (Json F))
  | messageAdded (payload : Option (Json F))
  | queueChanged (payload : Option (Json F))
  | queueConversationUpdate (payload : Option (Json F))
  | textDeferred (payload : Option (Json F))
  | textResponse (payload : Option (Json F))
  | textError (status : PyStr) (payload : Option (Json F))
  | other

/-- The text of a `text_response` or a `text_error`, as it is shown. -/
def responseTextOf (browser : Browser F) (isError : Bool) (ms : List (PyStr × Json F)) : PyStr :=
  friendlyRuntimeErrorText browser
    (if isError then
      match prop ms "error" with
      | some (.str s) => s
      | _ => couldNotRunText
    else
      match prop ms "text" with
      | some (.str s) => s
      | _ => [])

/-- A `text_error` for a request that was stopped. -/
def isCancellation (status : PyStr) (ms : List (PyStr × Json F)) : Bool :=
  status = py "cancelled" && match prop ms "status" with
    | some (.str s) => s = py "cancelled"
    | _ => false

/-- What a `text_response` (no `status`) or a `text_error` does. -/
def applyTextResult (browser : Browser F) (error : Option PyStr) (ms : List (PyStr × Json F))
    (current : Snapshot F) : Snapshot F :=
  let requestId := textOf (prop ms "requestId")
  if requestId = [] then current
  else if error.any fun status => isCancellation status ms then
    replacePendingFallback requestId cancelledText false true current
  else
    let responseText := responseTextOf browser error.isSome ms
    if responseText = [] then current
    else replacePendingFallback requestId responseText error.isSome false current

def handleRuntimeEvent [PyFloat F] (browser : Browser F) (now : F) (event : RuntimeEvent F)
    (current : Snapshot F) : Snapshot F :=
  let reading (payload : Option (Json F)) (f : List (PyStr × Json F) → Snapshot F) : Snapshot F :=
    ((payload.bind properties).map f).getD current
  match event with
  | .runtimeReady | .other => current
  | .historySnapshot payload => reading payload fun ms => applyHistorySnapshot browser ms current
  | .messageAdded payload => reading payload fun ms =>
      match parseCanonicalMessage ms with
      | some canonical => mergeCanonicalMessage browser canonical current
      | none => current
  | .queueChanged payload => reading payload fun ms => applyQueueSnapshot browser now ms current
  | .queueConversationUpdate payload => reading payload fun ms =>
      applyQueueConversationUpdates browser now [queuePayload ms] current
  | .textDeferred payload => reading payload fun ms =>
      applyQueueConversationUpdates browser now [{ queuePayload ms with phase := py "queued" }] current
  | .textResponse payload => reading payload fun ms => applyTextResult browser none ms current
  | .textError status payload => reading payload fun ms =>
      applyTextResult browser (some status) ms current

def thinkingText : PyStr := py "در حال پردازش..."

/-- What `sendConversationMessage` shows at first. -/
def optimistic (browser : Browser F) (text requestId : PyStr) (now : F) : List (Message F) :=
  [⟨py "optimistic-user-" ++ requestId, .user, text, some (py "text"), now, some requestId, false,
      false, false, none, none, false⟩,
    ⟨py "pending-" ++ requestId, .qronos, thinkingText, some (py "text"), browser.next now,
      some requestId, true, false, false, none, none, false⟩]

/-- `sendConversationMessage`, up to its first call. -/
def sendConversationMessage (browser : Browser F) (rawText requestId : PyStr) (now : F)
    (current : Snapshot F) : Snapshot F :=
  if trim rawText = [] ∨ current.pendingRequestId.isSome then current
  else
    { messages := current.messages ++ optimistic browser (trim rawText) requestId now
      pendingRequestId := some requestId }

def sendFailed (browser : Browser F) (requestId errorText : PyStr) (current : Snapshot F) :
    Snapshot F :=
  replacePendingFallback requestId (friendlyRuntimeErrorText browser errorText) true false current

end
end QronosAgent.View

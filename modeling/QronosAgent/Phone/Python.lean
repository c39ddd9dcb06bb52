import QronosAgent.Lib.JsonRoundTrip
import QronosAgent.Phone.Command

/-! `core/link_client.py`: `LinkClient.call` and `call_with_retry`, over what dialling and the
stream do, with the frames of `core/link_protocol.py`. -/
namespace QronosAgent.Phone.Python
open Lib Framed

inductive Raised where
  | link (message : PyStr)
  | os (text : PyStr)
  | protocol (text : PyStr)
  | relayRefused (text : PyStr)
  | other

def Raised.isLink : Raised → Bool
  | .link _ => true
  | _ => false

/-- `ProtocolError(fault, detail)` -/
def protocolError (fault detail : PyStr) : Raised := .protocol (fault ++ py ": " ++ detail)

/-- How connecting goes: what dialling raises, or what the handshake raises on the connection. -/
inductive Dial where
  | refused (e : Raised)
  | handshake (e : Raised)
  | opened

structure Attempt where
  dial : Dial
  write : Option Raised
  arrives : Bytes

inductive Dumped where
  | text (body : Bytes)
  | refused
  /-- another exception, such as `RecursionError` -/
  | raises

structure Interpreter (F P : Type) where
  limits : JsonLimits
  str : Json F → Option PyStr
  /-- The text of the error that `json.loads(body.decode("utf-8"))` raises on a malformed body. -/
  malformed : Bytes → PyStr
  dumps : Request P → Dumped

abbrev Members (F : Type) := List (PyStr × Json F)

/-- `type(value).__name__` -/
def typeName {F : Type} : Json F → PyStr
  | .null => py "NoneType"
  | .bool _ => py "bool"
  | .int _ => py "int"
  | .float _ => py "float"
  | .str _ => py "str"
  | .arr _ => py "list"
  | .obj _ => py "dict"

inductive Frame (F : Type) where
  | request
  | response (r : Response (Json F))
  | event (topic : PyStr) (data : Members F)

section
variable {F P : Type} (interp : Interpreter F P)

/-- `_require` where the type that is asked for is told by `read`. -/
def require {α : Type} (ms : Members F) (name expected : PyStr) (read : Json F → Option α) :
    Except Raised α :=
  match Json.member? ms name with
  | none => .error (protocolError (py "missing_field") name)
  | some v =>
    match read v with
    | some a => .ok a
    | none => .error (protocolError (py "bad_field_type")
        (name ++ py " is " ++ typeName v ++ py ", expected " ++ expected))

/-- `_require(payload, name, int)`: a boolean is told apart from an integer. -/
def requireInt (ms : Members F) (name : PyStr) : Except Raised ℤ :=
  match Json.member? ms name with
  | some (.bool _) => .error (protocolError (py "bad_field_type") (name ++ py " is bool"))
  | _ => require ms name (py "int") fun v => match v with
    | .int n => some n
    | _ => none

def requireStr (ms : Members F) (name : PyStr) : Except Raised PyStr :=
  require ms name (py "str") fun v => match v with
    | .str s => some s
    | _ => none

def requireBool (ms : Members F) (name : PyStr) : Except Raised Bool :=
  require ms name (py "bool") fun v => match v with
    | .bool b => some b
    | _ => none

/-- `payload.get(name, {})`, which has to be a dictionary. -/
def dictOf (ms : Members F) (name : PyStr) : Except Raised (Members F) :=
  match Json.member? ms name with
  | none => .ok []
  | some (.obj data) => .ok data
  | some v => .error (protocolError (py "bad_field_type") (name ++ py " is " ++ typeName v))

/-- `COMMAND_ID_PATTERN.match`: `$` also matches before a last newline. -/
def matchesCommandId (s : PyStr) : Bool :=
  isCommandId s || (s.getLast? = some lf && isCommandId s.dropLast)

/-- The check of the command id in `_parse_request`. -/
def checkCommandId (ms : Members F) : Except Raised Unit :=
  let refused := .error (protocolError (py "bad_field_type")
    (py "cid must be 32 lowercase hex characters"))
  match Json.member? ms (py "cid") with
  | none | some .null => .ok ()
  | some (.str s) => if matchesCommandId s then .ok () else refused
  | some _ => refused

/-- `_parse_request` -/
def parseRequest (ms : Members F) : Except Raised (Frame F) := do
  let _ ← dictOf ms (py "params")
  let _ ← checkCommandId ms
  let _ ← requireInt ms (py "id")
  let _ ← requireStr ms (py "op")
  return .request

/-- `str(payload.get(name, ""))` -/
def textOf (ms : Members F) (name : PyStr) : Except Raised PyStr :=
  match Json.member? ms name with
  | none => .ok []
  | some v => match interp.str v with
    | some s => .ok s
    | none => .error .other

/-- `_parse_response` -/
def parseResponse (ms : Members F) : Except Raised (Frame F) := do
  let ok ← requireBool ms (py "ok")
  let id ← requireInt ms (py "id")
  let error ← textOf interp ms (py "error")
  let code ← textOf interp ms (py "code")
  return .response ⟨id, ok, Json.member? ms (py "result"), error, code⟩

/-- `_parse_event` -/
def parseEvent (ms : Members F) : Except Raised (Frame F) := do
  let data ← dictOf ms (py "data")
  let topic ← requireStr ms (py "topic")
  return .event topic data

/-- `parse_frame` -/
def parseFrame (ms : Members F) : Except Raised (Frame F) :=
  match Json.member? ms (py "kind") with
  | some (.str kind) =>
    if kind = py "request" then parseRequest ms
    else if kind = py "response" then parseResponse interp ms
    else if kind = py "event" then parseEvent ms
    else .error (protocolError (py "unknown_kind") kind)
  | _ => .error (protocolError (py "missing_field") (py "kind is missing or not a string"))

/-- `encode_frame`, without its length prefix. -/
def encodeFrame (r : Request P) : Except Raised Bytes :=
  match interp.dumps r with
  | .raises => .error .other
  | .refused => .error (protocolError (py "malformed_json") (py "payload is not serialisable"))
  | .text body =>
    if maxFrameBytes < body.length then
      .error (protocolError (py "oversize") (natText body.length ++ py " bytes exceeds the " ++
        natText maxFrameBytes ++ py " byte limit"))
    else .ok body

variable [PyFloat F]

/-- `decode_payload` -/
def decodePayload (body : Bytes) : Except Raised (Members F) :=
  match PyStr.decodeUtf8 ⟨body.toArray⟩ with
  | none => .error (protocolError (py "malformed_json") (interp.malformed body))
  | some text =>
    match Json.loads (F := F) interp.limits text with
    | .ok (.obj ms) => .ok ms
    | .ok v => .error (protocolError (py "not_an_object") (py "payload was " ++ typeName v))
    | .error .decode => .error (protocolError (py "malformed_json") (interp.malformed body))
    -- `RecursionError`, and the `ValueError` of an integer that is too long
    | .error _ => .error .other

structure Client where
  /-- The bytes of the connection that have arrived and were not read; `none` without one. -/
  connection : Option Bytes
  nextId : ℕ

def Client.connected (c : Client) : Bool := c.connection.isSome

/-- `close` -/
def Client.close (c : Client) : Client := { c with connection := none }

inductive Route where
  | direct (host : PyStr)
  | relay

def Route.isRelay : Route → Bool
  | .direct _ => false
  | .relay => true

def Route.text : Route → PyStr
  | .direct host => host
  | .relay => py "the relay"

/-- `connect` -/
def connect (route : Route) (c : Client) (dial : Dial) : Except Raised Unit × Client :=
  if c.connected then (.error (.link (py "already connected")), c)
  else match dial with
    | .refused (.relayRefused text) =>
      if route.isRelay then
        (.error (.link (py "the relay could not reach the computer: " ++ text)), c)
      else (.error (.relayRefused text), c)
    | .refused (.os text) =>
      (.error (.link (py "cannot reach " ++ route.text ++ py ": " ++ text)), c)
    | .refused e => (.error e, c)
    | .handshake (.os text) =>
      (.error (.link (py "the computer refused this device: " ++ text)), c)
    | .handshake e => (.error e, c)
    | .opened => (.ok (), { c with connection := some [] })

structure Command (F P : Type) where
  op : PyStr
  params : P
  commandId : PyStr
  /-- What the caller's `on_event` raises on an event. -/
  onEvent : PyStr → Members F → Option Raised

variable (cmd : Command F P)

def badFrame : Raised → Raised
  | .protocol text => .link (py "bad frame from the computer: " ++ text)
  | e => e

/-- One frame of `_call`'s loop; `none` goes on. -/
def judge (id : ℕ) (body : Bytes) : Option (Except Raised (Response (Json F))) :=
  match decodePayload interp body with
  | .error e => some (.error (badFrame e))
  | .ok ms =>
    match parseFrame interp ms with
    | .error e => some (.error (badFrame e))
    | .ok (.event topic data) => (cmd.onEvent topic data).map .error
    | .ok (.response r) =>
      if r.id = id then some (.ok r)
      else some (.error (.link (py "response " ++ intText r.id ++ py " does not match request " ++
        natText id)))
    | .ok .request =>
      some (.error (.link (py "the computer sent a request, which is not expected")))

/-- `read_frame` where no frame can be read, and what the client makes of it: `read_exactly` gives
fewer bytes at the end of the stream, on a timeout and on an error. -/
def stopped : Stop → Except Raised (Response (Json F))
  | .ended => .error (.link (py "the computer closed the connection"))
  | .shortPrefix got => .error (badFrame (protocolError (py "malformed_length")
      (py "length prefix was " ++ natText got ++ py " bytes")))
  | .zeroLength => .error (badFrame (protocolError (py "malformed_length") (py "zero length")))
  | .oversize length => .error (badFrame (protocolError (py "oversize")
      (py "peer declared " ++ natText length ++ py " bytes")))
  | .shortBody length got => .error (badFrame (protocolError (py "truncated")
      (py "expected " ++ natText length ++ py " bytes, received " ++ natText got)))

def request (id : ℕ) : Request P := ⟨id, cmd.op, cmd.params, some cmd.commandId⟩

/-- `_call`: its result, whether the request was sent, and the bytes left unread. -/
def exchange (id : ℕ) (pending : Bytes) (a : Attempt) :
    Except Raised (Response (Json F)) × Bool × Bytes :=
  match encodeFrame interp (request cmd id) with
  | .error (.os text) => (.error (.link (py "could not send: " ++ text)), false, pending)
  | .error e => (.error e, false, pending)
  | .ok _ =>
    match a.write with
    | some (.os text) => (.error (.link (py "could not send: " ++ text)), true, pending)
    | some e => (.error e, true, pending)
    | none =>
      let r := readUntil maxFrameBytes (judge interp cmd id) stopped (pending ++ a.arrives)
      (r.1, true, r.2)

/-- The handler of `call`. -/
def handled (c : Client) (result : Except Raised (Response (Json F))) (rest : Bytes) : Client :=
  match result with
  | .error (.link _) => c.close
  | _ => { c with connection := some rest }

/-- `call` -/
def call (c : Client) (a : Attempt) : Attempted Client Raised (Response (Json F)) (Request P) :=
  match c.connection with
  | none => ⟨.error (.link (py "not connected")), none, c⟩
  | some pending =>
    let id := c.nextId
    let x := exchange interp cmd id pending a
    ⟨x.1, if x.2.1 then some (request cmd id) else none,
      handled { c with nextId := id + 1 } x.1 x.2.2⟩

/-- One attempt of `call_with_retry`. -/
def attempt (route : Route) (c : Client) (a : Attempt) :
    Attempted Client Raised (Response (Json F)) (Request P) :=
  if c.connected then call interp cmd c a
  else match connect route c a.dial with
    | (.error e, c) => ⟨.error e, none, c⟩
    | (.ok (), c) => call interp cmd c a

def plan (route : Route) : RetryPlan Client Attempt Raised (Response (Json F)) (Request P) where
  attempt := attempt interp cmd route
  caught := Raised.isLink
  final := Response.final
  exhausted last := last.getD (.link (py "the computer kept saying it was still busy"))

/-- `call_with_retry` -/
def callWithRetry (route : Route) (attempts : ℤ) (inputs : ℕ → Attempt) (c : Client) :
    Retried Client Attempt Raised (Response (Json F)) (Request P) :=
  (plan interp cmd route).run inputs (max 1 attempts).toNat 0 none c

end
end QronosAgent.Phone.Python

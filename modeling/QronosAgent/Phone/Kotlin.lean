import QronosAgent.Phone.Command

/-! `mobile/android/linkcore`: `LinkClient.call` and `callWithRetry`, over what dialling, the
stream and `org.json` do. -/
namespace QronosAgent.Phone.Kotlin
open Lib Framed

inductive Thrown where
  /-- `IOException`, `ProtocolException` included -/
  | io (message : PyStr)
  | link (message : PyStr)
  | other

def Thrown.isLink : Thrown → Bool
  | .link _ => true
  | _ => false

def protocolException (fault detail : PyStr) : Thrown := .io (fault ++ py ": " ++ detail)

inductive RelayStatus where
  | spliced
  | keepalive
  | refused

def relayStatus (byte : ℕ) : RelayStatus :=
  if byte = 1 then .spliced else if byte = 2 then .keepalive else .refused

/-- What happens to `RelayDialer.open`: what `createSocket` throws, what the connection, the outer
TLS or the hello throws, and the bytes that the relay answers. -/
structure RelayDial where
  create : Option Thrown
  secure : Option Thrown
  answers : List ℕ
  ending : Option Thrown

/-- The loop of `RelayDialer.open` over the relay's answers. -/
def awaitSpliced (ending : Option Thrown) : List ℕ → Except Thrown Unit
  | [] => .error (ending.getD (.io (py "the relay refused: unknown answer")))
  | byte :: rest =>
    match relayStatus byte with
    | .spliced => .ok ()
    | .keepalive => awaitSpliced ending rest
    | .refused => .error (.io (py "the relay refused"))

/-- `RelayDialer.open` -/
def RelayDial.open_ (d : RelayDial) : Except Thrown Unit :=
  match d.create, d.secure with
  | some e, _ => .error e
  | none, some e => .error e
  | none, none => awaitSpliced d.ending d.answers

inductive Dial where
  | refused (e : Thrown)
  /-- `PskSession.open` throws, and what closing the socket throws then. -/
  | handshake (e : Thrown) (close : Option Thrown)
  | opened

def RelayDial.dial (d : RelayDial) : Dial :=
  match d.open_ with
  | .error e => .refused e
  | .ok () => .opened

structure Attempt where
  dial : Dial
  write : Option Thrown
  arrives : Bytes
  ending : Option Thrown

inductive JsonFault where
  | json (message : Option PyStr)
  | other

structure OrgJson (J V P : Type) where
  parse : Bytes → Except JsonFault J
  optString : J → PyStr → PyStr → PyStr
  has : J → PyStr → Bool
  getBoolean : J → PyStr → Option Bool
  getLong : J → PyStr → Option ℤ
  get : J → PyStr → V
  optJSONObject : J → PyStr → Option J
  empty : J
  /-- The bytes of the object that `encodeRequest` builds; `none` when that throws. -/
  encode : Request P → Option Bytes

inductive Frame (J V : Type) where
  | response (r : Response V)
  | event (topic : PyStr) (data : J)

section
variable {J V P : Type} (lib : OrgJson J V P)

/-- `LinkProtocol.parse` on a response. -/
def parseResponse (json : J) : Except Thrown (Frame J V) :=
  if ¬ (lib.has json (py "id") ∧ lib.has json (py "ok")) then
    .error (protocolException (py "missing_field") (py "response without id or ok"))
  else match lib.getBoolean json (py "ok") with
    | none => .error (protocolException (py "bad_field_type") (py "ok is not a boolean"))
    | some ok =>
      match lib.getLong json (py "id") with
      -- the `JSONException` of `getLong` is not caught
      | none => .error .other
      | some id => .ok (.response {
          id := id
          ok := ok
          result := if ok ∧ lib.has json (py "result") then some (lib.get json (py "result"))
            else none
          error := lib.optString json (py "error") []
          code := lib.optString json (py "code") [] })

/-- `LinkProtocol.parse` -/
def parse (body : Bytes) : Except Thrown (Frame J V) :=
  match lib.parse body with
  | .error (.json message) =>
    .error (protocolException (py "malformed_json") (message.getD (py "bad json")))
  | .error .other => .error .other
  | .ok json =>
    let kind := lib.optString json (py "kind") []
    if kind = py "response" then parseResponse lib json
    else if kind = py "event" then
      let topic := lib.optString json (py "topic") []
      if topic = [] then .error (protocolException (py "missing_field") (py "event without topic"))
      else .ok (.event topic ((lib.optJSONObject json (py "data")).getD lib.empty))
    else if kind = py "request" then
      .error (protocolException (py "unexpected_frame") (py "the PC sent a request"))
    else if kind = [] then
      .error (protocolException (py "missing_field") (py "kind is missing"))
    else .error (protocolException (py "unknown_kind") kind)

/-- `LinkProtocol.readFrame` where no frame can be read, and what the client makes of it. -/
def stopped (ending : Option Thrown) : Stop → Except Thrown (Response V)
  | .ended => .error (ending.getD (.link (py "the computer closed the connection")))
  | .shortPrefix got => .error (ending.getD (protocolException (py "malformed_length")
      (py "length prefix was " ++ natText got ++ py " bytes")))
  | .zeroLength => .error (protocolException (py "malformed_length") (py "zero length"))
  | .oversize length => .error (protocolException (py "oversize")
      (py "peer declared " ++ natText length ++ py " bytes"))
  | .shortBody length _ => .error (ending.getD (protocolException (py "truncated")
      (py "expected " ++ natText length ++ py " bytes")))

/-- `LinkProtocol.encodeRequest`, without its length prefix. -/
def encodeRequest (r : Request P) : Except Thrown Bytes :=
  if ¬ r.commandId.all isCommandId then .error .other
  else match lib.encode r with
    | none => .error .other
    | some body =>
      if maxFrameBytes < body.length then
        .error (protocolException (py "oversize")
          (py "request of " ++ natText body.length ++ py " bytes"))
      else .ok body

structure Client where
  /-- The bytes of the session that have arrived and were not read; `none` without a session. -/
  session : Option Bytes
  nextId : ℕ
  destroyed : Bool

def Client.connected (c : Client) : Bool := c.session.isSome

/-- `disconnect` -/
def Client.disconnect (c : Client) : Client := { c with session := none }

/-- `connect` -/
def connect (c : Client) (dial : Dial) : Except Thrown Unit × Client :=
  if c.destroyed ∨ c.connected then (.error .other, c)
  else match dial with
    | .refused e => (.error e, c)
    | .handshake (.io _) close =>
      (.error (close.getD (.link (py "the computer refused this device"))), c)
    | .handshake e _ => (.error e, c)
    | .opened => (.ok (), { c with session := some [] })

structure Command (P J : Type) where
  op : PyStr
  params : P
  commandId : PyStr
  /-- What the caller's `onEvent` throws on an event. -/
  onEvent : PyStr → J → Option Thrown

variable (cmd : Command P J)

/-- One frame of `call`'s loop; `none` goes on. -/
def judge (id : ℕ) (body : Bytes) : Option (Except Thrown (Response V)) :=
  match parse lib body with
  | .error e => some (.error e)
  | .ok (.event topic data) => (cmd.onEvent topic data).map .error
  | .ok (.response r) =>
    if r.id = id then some (.ok r)
    else some (.error (.link (py "response " ++ intText r.id ++ py " does not match request " ++
      natText id)))

def request (id : ℕ) : Request P := ⟨id, cmd.op, cmd.params, some cmd.commandId⟩

/-- The `try` of `call`: its result, whether the request was sent, and the bytes left unread. -/
def exchange (id : ℕ) (pending : Bytes) (a : Attempt) :
    Except Thrown (Response V) × Bool × Bytes :=
  match encodeRequest lib (request cmd id) with
  | .error e => (.error e, false, pending)
  | .ok _ =>
    match a.write with
    | some e => (.error e, true, pending)
    | none =>
      let r := readUntil maxFrameBytes (judge lib cmd id) (stopped a.ending) (pending ++ a.arrives)
      (r.1, true, r.2)

/-- The handlers of `call`. -/
def handled (c : Client) (result : Except Thrown (Response V)) (rest : Bytes) :
    Except Thrown (Response V) × Client :=
  match result with
  | .ok r => (.ok r, { c with session := some rest })
  | .error (.io _) => (.error (.link (py "the connection failed")), c.disconnect)
  | .error (.link message) => (.error (.link message), c.disconnect)
  | .error .other => (.error .other, { c with session := some rest })

/-- `call` -/
def call (c : Client) (a : Attempt) : Attempted Client Thrown (Response V) (Request P) :=
  match c.session with
  | none => ⟨.error (.link (py "not connected")), none, c⟩
  | some pending =>
    let id := c.nextId
    let x := exchange lib cmd id pending a
    let r := handled { c with nextId := id + 1 } x.1 x.2.2
    ⟨r.1, if x.2.1 then some (request cmd id) else none, r.2⟩

/-- One attempt of `callWithRetry`. -/
def attempt (c : Client) (a : Attempt) : Attempted Client Thrown (Response V) (Request P) :=
  if c.connected then call lib cmd c a
  else match connect c a.dial with
    | (.error e, c) => ⟨.error e, none, c⟩
    | (.ok (), c) => call lib cmd c a

def plan : RetryPlan Client Attempt Thrown (Response V) (Request P) where
  attempt := attempt lib cmd
  caught := Thrown.isLink
  final := Response.final
  exhausted last := last.getD (.link (py "the computer kept saying it was still busy"))

/-- `callWithRetry` -/
def callWithRetry (attempts : ℤ) (inputs : ℕ → Attempt) (c : Client) :
    Retried Client Attempt Thrown (Response V) (Request P) :=
  (plan lib cmd).run inputs (max 1 attempts).toNat 0 none c

end
end QronosAgent.Phone.Kotlin

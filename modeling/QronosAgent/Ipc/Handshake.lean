import Mathlib.Logic.Function.Basic
import QronosAgent.Lib.Machine
import QronosAgent.Lib.Symbolic

/-! The handshake of `core/supervisor_ipc.py` between any number of servers and clients. Whoever
is between them reads what is sent, and what an end receives is whatever can be made of that. -/
namespace QronosAgent.Ipc
open Lib

abbrev ServerId := ℕ
abbrev ConnectionId := ℕ
abbrev Pid := ℕ

/-- One call of `accept`, `connect` or `connect_for_key`. -/
abbrev SessionId := ℕ

inductive Role where
  | client
  | server
  deriving DecidableEq

inductive Atom where
  | key (n : ℕ)
  | nonce (n : ℕ)
  | foreign (n : ℕ)
  deriving DecidableEq

def Atom.isForeign : Atom → Bool
  | .foreign _ => true
  | .key _ | .nonce _ => false

/-- Thirty-two bytes. -/
abbrev Block := Term Atom Role

/-- `_tag`. -/
def tag (key : Block) (role : Role) (challenge : Block) : Block := .mac key role challenge

inductive Label where
  | challenge
  | response
  | confirm
  | key
  | other

structure Wire where
  label : Label
  blocks : List Block

structure AcceptArgs where
  server : ServerId
  expectedPid : Option Pid
  releaseKey : Bool
  gate : Bool

structure ConnectArgs where
  expectedServerPid : Option Pid
  key : Option Block

inductive SessionStage where
  | idle
  | waiting (a : AcceptArgs)
  | listening (a : AcceptArgs)
  | arrived (a : AcceptArgs) (c : ConnectionId)
  | expected (a : AcceptArgs) (c : ConnectionId)
  | gating (a : AcceptArgs) (c : ConnectionId)
  | releasing (a : AcceptArgs) (c : ConnectionId)
  | challenging (a : AcceptArgs) (c : ConnectionId)
  | challenged (a : AcceptArgs) (c : ConnectionId) (challenge : Block)
  | confirming (a : AcceptArgs) (c : ConnectionId) (challenge theirs : Block)
  | opened (a : ConnectArgs) (c : ConnectionId)
  | awaitingKey (c : ConnectionId)
  | awaitingChallenge (c : ConnectionId) (key : Block)
  | awaitingConfirm (c : ConnectionId) (key ours : Block)
  | done

inductive SessionEvent where
  | interrupted (server : ServerId)
  | arrived (c : ConnectionId) (a : AcceptArgs)
  | matched (c : ConnectionId)
  /-- `accept` has found no interrupt, before it asks the gate. -/
  | passed (c : ConnectionId) (server : ServerId)
  | interruptSeen (c : ConnectionId)
  | gated (c : ConnectionId) (answer : Bool)
  | drew (c : ConnectionId) (nonce : Block)
  | sent (c : ConnectionId) (w : Wire)
  | accepted (role : Role) (c : ConnectionId) (key nonce : Block)

def seen (log : List SessionEvent) : List Block :=
  log.flatMap fun
    | .sent _ w => w.blocks
    | _ => []

structure Sessions where
  interrupted : ServerId → Bool
  stages : SessionId → SessionStage
  connections : ℕ
  nonces : ℕ
  log : List SessionEvent

inductive SessionMove where
  | interrupt (server : ServerId)
  | accept (id : SessionId) (a : AcceptArgs)
  | poll (id : SessionId)
  | arrive (id : SessionId)
  | clientPid (id : SessionId) (answer : Option Pid)
  | check (id : SessionId)
  | gate (id : SessionId) (answer : Bool)
  | release (id : SessionId)
  | challenge (id : SessionId)
  | confirm (id : SessionId)
  | connect (id : SessionId) (a : ConnectArgs)
  | serverPid (id : SessionId) (answer : Option Pid)
  | receive (id : SessionId) (w : Wire)
  /-- A deadline passes, the peer is gone, or an interrupt ends a wait. -/
  | fail (id : SessionId)

/-- `_is_expected`, and the same check by a client. -/
def isExpected (expected answer : Option Pid) : Bool :=
  match expected, answer with
  | some expected, some actual => actual == expected
  | _, _ => false

namespace Sessions

def start : Sessions := ⟨fun _ => false, fun _ => .idle, 0, 0, []⟩

/-- A call goes on, and what happens is recorded. -/
def go (s : Sessions) (id : SessionId) (stage : SessionStage) (events : List SessionEvent) :
    Sessions :=
  { s with stages := Function.update s.stages id stage, log := events ++ s.log }

/-- A new connection of a call. -/
def opens (s : Sessions) (id : SessionId) (stage : SessionStage) (events : List SessionEvent) :
    Sessions :=
  { s.go id stage events with connections := s.connections + 1 }

def draws (s : Sessions) (id : SessionId) (stage : SessionStage) (events : List SessionEvent) :
    Sessions :=
  { s.go id stage events with nonces := s.nonces + 1 }

/-- `secrets.token_bytes(32)`. -/
def freshNonce (s : Sessions) : Block := .atom (.nonce s.nonces)

/-- What an end makes of a message. -/
def receive (keyOf : ServerId → ℕ) (s : Sessions) (id : SessionId) (w : Wire) :
    SessionStage → Option Sessions
  | .challenged a c challenge =>
    match w.label, w.blocks with
    | .response, [proof, theirs] =>
      if proof = tag (.atom (.key (keyOf a.server))) .client challenge then
        some (s.go id (.confirming a c challenge theirs) [])
      else some (s.go id .done [])
    | _, _ => some (s.go id .done [])
  | .awaitingKey c =>
    match w.label, w.blocks with
    | .key, [key] => some (s.go id (.awaitingChallenge c key) [])
    | _, _ => some (s.go id .done [])
  | .awaitingChallenge c key =>
    match w.label, w.blocks with
    | .challenge, [challenge] =>
      let ours := s.freshNonce
      some (s.draws id (.awaitingConfirm c key ours)
        [.sent c ⟨.response, [tag key .client challenge, ours]⟩, .drew c ours])
    | _, _ => some (s.go id .done [])
  | .awaitingConfirm c key ours =>
    match w.label, w.blocks with
    | .confirm, [proof] =>
      if proof = tag key .server ours then
        some (s.go id .done [.accepted .client c key ours])
      else some (s.go id .done [])
    | _, _ => some (s.go id .done [])
  | _ => none

def step (keyOf : ServerId → ℕ) (s : Sessions) : SessionMove → Option Sessions
  | .interrupt server =>
    some { s with
      interrupted := Function.update s.interrupted server true
      log := .interrupted server :: s.log }
  | .accept id a =>
    match s.stages id with
    | .idle => some (s.go id (.waiting a) [])
    | _ => none
  | .poll id =>
    match s.stages id with
    | .waiting a => some (s.go id (if s.interrupted a.server then .done else .listening a) [])
    | _ => none
  | .arrive id =>
    match s.stages id with
    | .listening a => some (s.opens id (.arrived a s.connections) [.arrived s.connections a])
    | _ => none
  | .clientPid id answer =>
    match s.stages id with
    | .arrived a c =>
      if isExpected a.expectedPid answer then some (s.go id (.expected a c) [.matched c])
      else some (s.go id (.waiting a) [])
    | _ => none
  | .check id =>
    match s.stages id with
    | .expected a c =>
      if s.interrupted a.server then some (s.go id .done [.interruptSeen c])
      else
        some (s.go id (if a.releaseKey then .gating a c else .challenging a c)
          [.passed c a.server])
    | _ => none
  | .gate id answer =>
    match s.stages id with
    | .gating a c =>
      if a.gate then
        some (s.go id (if answer then .releasing a c else .done) [.gated c answer])
      else some (s.go id (.releasing a c) [])
    | _ => none
  | .release id =>
    match s.stages id with
    | .releasing a c =>
      some (s.go id (.challenging a c) [.sent c ⟨.key, [.atom (.key (keyOf a.server))]⟩])
    | _ => none
  | .challenge id =>
    match s.stages id with
    | .challenging a c =>
      let challenge := s.freshNonce
      some (s.draws id (.challenged a c challenge)
        [.sent c ⟨.challenge, [challenge]⟩, .drew c challenge])
    | _ => none
  | .confirm id =>
    match s.stages id with
    | .confirming a c challenge theirs =>
      let key : Block := .atom (.key (keyOf a.server))
      some (s.go id .done [.accepted .server c key challenge,
        .sent c ⟨.confirm, [tag key .server theirs]⟩])
    | _ => none
  | .connect id a =>
    match s.stages id with
    | .idle => some (s.opens id (.opened a s.connections) [])
    | _ => none
  | .serverPid id answer =>
    match s.stages id with
    | .opened a c =>
      if isExpected a.expectedServerPid answer then
        some (s.go id (match a.key with
          | some key => .awaitingChallenge c key
          | none => .awaitingKey c) [.matched c])
      else some (s.go id .done [])
    | _ => none
  | .receive id w =>
    if w.blocks.all (Term.derives Atom.isForeign (seen s.log)) then
      s.receive keyOf id w (s.stages id)
    else none
  | .fail id =>
    match s.stages id with
    | .idle => none
    | _ => some (s.go id .done [])

end Sessions

def sessionMachine (keyOf : ServerId → ℕ) : Machine Sessions SessionMove where
  start s := s = .start
  step := Sessions.step keyOf

end QronosAgent.Ipc

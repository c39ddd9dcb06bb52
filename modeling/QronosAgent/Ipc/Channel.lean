import QronosAgent.Lib.Machine

/-! One channel of `core/supervisor_ipc.py`, with the threads that send on it and close it. A
section under the state lock is one step; the write itself runs without that lock. -/
namespace QronosAgent.Ipc
open Lib

/-- One call of `send` or `close`. -/
abbrev CallId := ℕ

inductive Outcome where
  | whole
  /-- It was pending at the deadline and has been cancelled. -/
  | timedOut
  | failed
  /-- An error, or fewer bytes than the message has, were reported. -/
  | short
  deriving DecidableEq

inductive SendStage where
  | locked
  /-- It has set `_sending` and is about to write. -/
  | ready
  | register
  | waiting (pending : Bool)
  /-- `ChannelTimeout` was caught; `_closed` is about to be set. -/
  | marking
  | leaving
  | release
  | unlocking
  deriving DecidableEq

/-- `_sending` is set. -/
def SendStage.sends : SendStage → Bool
  | .ready | .register | .waiting _ | .marking | .leaving => true
  | .locked | .release | .unlocking => false

def SendStage.mayWrite : SendStage → Bool
  | .ready | .register | .waiting _ => true
  | .locked | .marking | .leaving | .release | .unlocking => false

/-- The write is in progress. -/
def SendStage.writes : SendStage → Bool
  | .register | .waiting _ => true
  | .locked | .ready | .marking | .leaving | .release | .unlocking => false

inductive ChannelEvent where
  | started (id : CallId)
  | ended (id : CallId) (outcome : Outcome)
  | wroteNothing (id : CallId)
  | cancelled (id : CallId)
  | closeCalled (id : CallId)

namespace ChannelEvent

def starts : ChannelEvent → Bool
  | .started _ => true
  | _ => false

/-- A write has ended and was not reported whole. -/
def torn : ChannelEvent → Bool
  | .ended _ outcome => outcome ≠ .whole
  | _ => false

def closes : ChannelEvent → Bool
  | .closeCalled _ => true
  | _ => false

end ChannelEvent

structure Channel where
  closed : Bool
  sending : Bool
  pending : Option CallId
  inside : Option (CallId × SendStage)
  /-- The calls of `close` that are about to close the connection. -/
  releasing : List CallId
  closes : ℕ
  log : List ChannelEvent

inductive SendMove where
  | lock
  | lockTimesOut
  | check
  | noTime
  | startFails
  | start (pending : Bool)
  | register
  | finish (outcome : Outcome)
  | mark
  | leave
  | release
  | unlock

inductive ChannelMove where
  | send (id : CallId) (move : SendMove)
  | close (id : CallId)
  | release (id : CallId)

namespace Channel

def opened : Channel := ⟨false, false, none, none, [], 0, []⟩

def goTo (s : Channel) (id : CallId) (stage : SendStage) : Channel :=
  { s with inside := some (id, stage) }

def record (s : Channel) (event : ChannelEvent) : Channel := { s with log := event :: s.log }

/-- `send` up to the write. -/
def check (s : Channel) (id : CallId) : Channel :=
  if s.closed then (s.goTo id .unlocking).record (.wroteNothing id)
  else { s.goTo id .ready with sending := true }

/-- `_send_raw` up to the start of the write; a closed connection has no handle. -/
def startWrite (s : Channel) (id : CallId) (pending : Bool) : Channel :=
  if s.closes = 0 then
    (s.goTo id (if pending then .register else .waiting false)).record (.started id)
  else (s.goTo id .leaving).record (.wroteNothing id)

/-- `_register`, and the cancellation when it returns `False`. -/
def register (s : Channel) (id : CallId) : Channel :=
  if s.closed then (s.goTo id (.waiting true)).record (.cancelled id)
  else { s.goTo id (.waiting true) with pending := some id }

def endWrite (s : Channel) (id : CallId) (outcome : Outcome) : Channel :=
  (s.goTo id (if outcome = .timedOut then .marking else .leaving)).record (.ended id outcome)

/-- The inner `finally`. -/
def leave (s : Channel) (id : CallId) : Channel :=
  { s.goTo id (if s.closed then .release else .unlocking) with
    sending := false
    pending := none }

/-- `close` under the state lock. -/
def close (s : Channel) (id : CallId) : Channel :=
  let s := s.record (.closeCalled id)
  if s.closed then s
  else if s.sending then
    match s.pending with
    | some write => { s with closed := true }.record (.cancelled write)
    | none => { s with closed := true }
  else { s with closed := true, releasing := id :: s.releasing }

def sendStep (s : Channel) (id : CallId) : SendStage → SendMove → Option Channel
  | .locked, .check => some (s.check id)
  | .ready, .noTime => some ((s.goTo id .leaving).record (.wroteNothing id))
  | .ready, .startFails => some ((s.goTo id .leaving).record (.wroteNothing id))
  | .ready, .start pending => some (s.startWrite id pending)
  | .register, .register => some (s.register id)
  | .waiting pending, .finish outcome =>
    if outcome = .timedOut ∧ pending = false then none else some (s.endWrite id outcome)
  | .marking, .mark => some { s.goTo id .leaving with closed := true }
  | .leaving, .leave => some (s.leave id)
  | .release, .release => some { s.goTo id .unlocking with closes := s.closes + 1 }
  | .unlocking, .unlock => some { s with inside := none }
  | _, _ => none

def step (s : Channel) : ChannelMove → Option Channel
  | .send id .lock => if s.inside = none then some (s.goTo id .locked) else none
  | .send id .lockTimesOut =>
    if s.inside = none then none else some (s.record (.wroteNothing id))
  | .send id move => s.inside.bind fun held => if held.1 = id then s.sendStep id held.2 move else none
  | .close id => some (s.close id)
  | .release id =>
    if id ∈ s.releasing then
      some { s with releasing := s.releasing.erase id, closes := s.closes + 1 }
    else none

end Channel

def channelMachine : Machine Channel ChannelMove where
  start s := s = .opened
  step := Channel.step

end QronosAgent.Ipc

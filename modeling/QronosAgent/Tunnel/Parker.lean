import Mathlib.Data.Rat.Defs
import Mathlib.Algebra.Order.Ring.Rat
import QronosAgent.Lib.Machine
import QronosAgent.Lib.TokenBucket

/-! `_Parker` of `core/link_tunnel.py`: one device's standing connection to a relay that may do
anything. Each call that may block is a step; times are those of `time.monotonic`. -/
namespace QronosAgent.Tunnel
open Lib

abbrev Seconds := ℚ

structure TunnelSettings where
  backoffInitial : Seconds
  backoffMax : Seconds
  handshakeWait : Seconds
  spliceBurst : ℚ
  spliceRefillPerSecond : ℚ
  minParkSeconds : Seconds
  keepaliveBurst : ℚ
  keepalivePerSecond : ℚ

structure TunnelSettings.Positive (cfg : TunnelSettings) : Prop where
  backoffInitial : 0 < cfg.backoffInitial
  backoffMax : 0 < cfg.backoffMax
  handshakeWait : 0 < cfg.handshakeWait
  spliceBurst : 0 < cfg.spliceBurst
  spliceRefillPerSecond : 0 < cfg.spliceRefillPerSecond
  minParkSeconds : 0 < cfg.minParkSeconds
  keepaliveBurst : 0 < cfg.keepaliveBurst
  keepalivePerSecond : 0 < cfg.keepalivePerSecond

inductive RelayStatus where
  | parked
  | spliced
  | keepalive
  | noHost
  | routeFull
  | badHello
  | overCapacity
  | parkExpired

namespace RelayStatus

def value : RelayStatus → UInt8
  | parked => 0x00
  | spliced => 0x01
  | keepalive => 0x02
  | noHost => 0x10
  | routeFull => 0x11
  | badHello => 0x12
  | overCapacity => 0x13
  | parkExpired => 0x14

end RelayStatus

/-- `decode_status` -/
def decodeStatus (value : UInt8) : Option RelayStatus :=
  [.parked, .spliced, .keepalive, .noHost, .routeFull, .badHello, .overCapacity, .parkExpired].find?
    fun status : RelayStatus => status.value = value

inductive RelayFailure where
  | unreachable
  | tlsFailed
  | refused
  | silent
  | closed
  | unauthenticatedSplice
  | spliceQuota
  | misbehaved
  deriving DecidableEq

inductive Ending where
  | failure (f : RelayFailure)
  | authenticated
  | renew

structure Backoff where
  initial : Seconds
  maximum : Seconds
  attempt : ℕ

namespace Backoff

def ceiling (b : Backoff) : Seconds := min b.maximum (b.initial * 2 ^ b.attempt)

/-- What `uniform(ceiling / 2, ceiling)` may give. -/
def draws (b : Backoff) (delay : Seconds) : Bool := b.ceiling / 2 ≤ delay && delay ≤ b.ceiling

def next (b : Backoff) : Backoff := { b with attempt := min (b.attempt + 1) 32 }

def reset (b : Backoff) : Backoff := { b with attempt := 0 }

end Backoff

structure Connection where
  bytes : ℕ
  parked : Option Seconds
  last : Seconds
  closed : Bool
  handedOver : Bool
  reported : Option Bool

def Connection.new (now : Seconds) : Connection := ⟨0, none, now, false, false, none⟩

def Connection.parkedFor (c : Connection) : Seconds :=
  match c.parked with
  | none => 0
  | some t => c.last - t

/-- One more status byte was read. -/
def Connection.hears (c : Connection) (now : Seconds) : Connection :=
  { c with bytes := c.bytes + 1, last := now }

inductive AuditEvent where
  | relayParked
  | relayFailed (reason : RelayFailure)

inductive Stage where
  | loop
  | throttled (deadline : Seconds)
  | dialling
  | greeting
  /-- before the condition of the loop in `_wait_for_phone` -/
  | parked
  | reading
  | spliced
  | handing
  | verdict (deadline : Seconds)
  | failed (f : RelayFailure)
  | backingOff (deadline : Seconds)
  | ended
  deriving DecidableEq

structure Parker where
  now : Seconds
  stage : Stage
  stop : Bool
  stopping : Bool
  /-- `_carrier`, the connection that `halt` closes -/
  carrier : Option ℕ
  /-- the local `carrier`, the last connection that was opened -/
  dialled : ℕ
  keepalives : ℕ
  parkedAt : Option Seconds
  backoff : Backoff
  spliceBudget : TokenBucket ℚ
  splices : ℕ
  authenticatedSplices : ℕ
  failing : Bool
  announced : Bool
  parkedSinceFailure : Bool
  audit : List AuditEvent
  connections : List Connection
  /-- the connections that a `halt` is about to close -/
  halting : List ℕ
  began : Seconds

inductive Dialled where
  | opened
  | sslError
  | osError

inductive Received where
  | byte (value : UInt8)
  | endOfStream
  | timeout
  | osError

inductive Action where
  | pass (elapsed : Seconds)
  | stopping
  /-- `halt` sets the event, takes the connection, and closes it. -/
  | halt
  | haltTakes
  | haltCloses (c : ℕ)
  | report (c : ℕ) (authenticated : Bool)
  /-- The condition of `_run`'s loop, `eligible_record` and `relay_admitted`. -/
  | look (eligible admitted : Bool)
  | dial (d : Dialled)
  | greet (sent : Bool)
  | enter
  | read (r : Received)
  /-- `eligible_record` at the moment of handing over -/
  | recheck (eligible : Bool)
  | handOver
  | conclude
  /-- `_note_failure`, `report_failure`, and the delay that is drawn -/
  | note (delay : Seconds)
  | wake
  | raises

namespace Parker
variable (cfg : TunnelSettings) (p : Parker)

def onDialled (f : Connection → Connection) : Parker :=
  { p with connections := p.connections.modify p.dialled f }

/-- The `finally` of `_park_once`. -/
def letGo : Parker :=
  if p.carrier.isNone then p
  else { p.onDialled fun c => { c with closed := true } with carrier := none }

/-- What `_run` does with what `_park_once` returned. -/
def returned : Ending → Parker
  | .authenticated => { p with failing := false, backoff := p.backoff.reset, stage := .loop }
  | .renew => { p with failing := false, stage := .loop }
  | .failure f => { p with stage := .failed f }

def leave (e : Ending) : Parker := p.letGo.returned e

def look (eligible admitted : Bool) : Option Parker :=
  if p.stage ≠ .loop then none
  else if p.stop || p.stopping then some { p with stage := .ended }
  else if !eligible then some { p with stage := .ended }
  else if !admitted then some { p with stage := .throttled (p.now + 1) }
  else some { p with stage := .dialling }

def dial (d : Dialled) : Option Parker :=
  if p.stage ≠ .dialling then none
  else match d with
    | .opened => some { p with
        connections := p.connections ++ [.new p.now]
        dialled := p.connections.length
        carrier := some p.connections.length
        began := p.now
        stage := .greeting }
    | .sslError => some (p.returned (.failure .tlsFailed))
    | .osError => some (p.returned (.failure .unreachable))

def greet (sent : Bool) : Option Parker :=
  if p.stage ≠ .greeting then none
  else if sent then some { p with parkedAt := none, keepalives := 0, stage := .parked }
  else some (p.leave (.failure .closed))

def enter : Option Parker :=
  if p.stage ≠ .parked then none
  else if p.stop then some (p.leave (.failure .closed))
  else some { p with stage := .reading }

def sinceParked : Seconds :=
  match p.parkedAt with
  | none => 0
  | some t => p.now - t

/-- A status byte was read. -/
def heard : Parker := p.onDialled fun c => c.hears p.now

def saidParked : Parker :=
  { p.onDialled fun c => { c with parked := some (c.parked.getD p.now) } with
    parkedAt := some p.now
    audit := if !p.announced || (p.failing && !p.parkedSinceFailure) then p.audit ++ [.relayParked]
      else p.audit
    parkedSinceFailure := p.parkedSinceFailure ||
      (!p.announced || (p.failing && !p.parkedSinceFailure))
    announced := true
    stage := .parked }

def saidKeepalive : Parker :=
  if cfg.keepaliveBurst + cfg.keepalivePerSecond * p.sinceParked < p.keepalives + 1 then
    { p with keepalives := p.keepalives + 1 }.leave (.failure .misbehaved)
  else { p with keepalives := p.keepalives + 1, stage := .parked }

/-- What `_wait_for_phone` and `_park_once` do with a status. -/
def said : Option RelayStatus → Parker
  | some .parked => p.saidParked
  | some .keepalive => p.saidKeepalive cfg
  | some .spliced => { p with stage := .spliced }
  | some .parkExpired =>
    p.leave (if cfg.minParkSeconds ≤ p.sinceParked then .renew else .failure .misbehaved)
  -- a byte that no status has is the end of the stream for `RelayRefused`
  | none => p.leave (.failure .closed)
  | some _ => p.leave (.failure .refused)

def read (r : Received) : Option Parker :=
  if p.stage ≠ .reading then none
  else match r with
    | .timeout => some (p.leave (.failure .silent))
    | .endOfStream | .osError => some (p.leave (.failure .closed))
    | .byte value => some (p.heard.said cfg (decodeStatus value))

def recheck (eligible : Bool) : Option Parker :=
  if p.stage ≠ .spliced then none
  else if !eligible then some (p.leave (.failure .closed))
  else if (p.spliceBudget.take p.now).1 then
    some { p with
      spliceBudget := (p.spliceBudget.take p.now).2
      carrier := none
      splices := p.splices + 1
      stage := .handing }
  else some ({ p with spliceBudget := (p.spliceBudget.take p.now).2 }.leave (.failure .spliceQuota))

def handOver : Option Parker :=
  if p.stage ≠ .handing then none
  else some { p.onDialled fun c => { c with handedOver := true } with
    stage := .verdict (p.now + cfg.handshakeWait) }

def reported : Option Bool := p.connections[p.dialled]?.bind Connection.reported

def conclude : Option Parker :=
  match p.stage with
  | .verdict deadline =>
    if p.reported = none ∧ p.stop = false ∧ p.now < deadline then none
    else if p.reported = some true then
      some ({ p with authenticatedSplices := p.authenticatedSplices + 1 }.leave .authenticated)
    else some (p.leave (.failure .unauthenticatedSplice))
  | _ => none

/-- `_note_failure` -/
def noteFailure (f : RelayFailure) : Parker :=
  if p.failing then p
  else { p with failing := true, parkedSinceFailure := false, audit := p.audit ++ [.relayFailed f] }

def note (delay : Seconds) : Option Parker :=
  match p.stage with
  | .failed f =>
    if p.backoff.draws delay then
      some { p.noteFailure f with
        backoff := p.backoff.next
        began := p.now
        stage := .backingOff (p.now + delay) }
    else none
  | _ => none

/-- A wait ends because the event is set, or because its time is over. -/
def wake : Option Parker :=
  match p.stage with
  | .throttled deadline | .backingOff deadline =>
    if p.stop then some { p with stage := .ended }
    else if deadline ≤ p.now then some { p with stage := .loop }
    else none
  | _ => none

def raises : Option Parker :=
  match p.stage with
  | .loop | .dialling | .failed _ => some { p with stage := .ended }
  | .greeting | .parked | .reading | .spliced | .handing => some { p.letGo with stage := .ended }
  | _ => none

def haltTakes : Option Parker :=
  if p.stop then some { p with halting := p.carrier.toList ++ p.halting } else none

def haltCloses (c : ℕ) : Option Parker :=
  if c ∈ p.halting then
    some { p with connections := p.connections.modify c fun conn => { conn with closed := true } }
  else none

def report (c : ℕ) (authenticated : Bool) : Option Parker :=
  if p.connections[c]?.any fun conn => conn.handedOver && conn.reported.isNone then
    some { p with
      connections := p.connections.modify c fun conn => { conn with reported := some authenticated } }
  else none

def step : Action → Option Parker
  | .pass elapsed => if 0 ≤ elapsed then some { p with now := p.now + elapsed } else none
  | .stopping => some { p with stopping := true }
  | .halt => some { p with stop := true }
  | .haltTakes => p.haltTakes
  | .haltCloses c => p.haltCloses c
  | .report c authenticated => p.report c authenticated
  | .look eligible admitted => p.look eligible admitted
  | .dial d => p.dial d
  | .greet sent => p.greet sent
  | .enter => p.enter
  | .read r => p.read cfg r
  | .recheck eligible => p.recheck eligible
  | .handOver => p.handOver cfg
  | .conclude => p.conclude
  | .note delay => p.note delay
  | .wake => p.wake
  | .raises => p.raises

/-- `_Parker.__init__`, at the start of the thread -/
def new (cfg : TunnelSettings) (now : Seconds) : Parker where
  now := now
  stage := .loop
  stop := false
  stopping := false
  carrier := none
  dialled := 0
  keepalives := 0
  parkedAt := none
  backoff := ⟨cfg.backoffInitial, cfg.backoffMax, 0⟩
  spliceBudget := ⟨cfg.spliceBurst, cfg.spliceRefillPerSecond, cfg.spliceBurst, now⟩
  splices := 0
  authenticatedSplices := 0
  failing := false
  announced := false
  parkedSinceFailure := false
  audit := []
  connections := []
  halting := []
  began := now

end Parker

def parkerMachine (cfg : TunnelSettings) : Machine Parker Action where
  start p := ∃ now, p = Parker.new cfg now
  step p a := p.step cfg a

def Meets (p : Parker) : Action → Prop
  | .read (.byte value) => decodeStatus value = some .parked → p.parkedAt = none
  | .raises => p.stage ≠ .handing
  | _ => True

end QronosAgent.Tunnel

import Mathlib.Algebra.Order.Floor.Defs
import Mathlib.Data.Rat.Floor
import Mathlib.Logic.Function.Basic
import QronosAgent.Lib.Json

/-! `SecurityMonitor` of `core/security_monitor.py`: counted signals, throttles, and the latches
of containment and quarantine with the file they are kept in. -/
namespace QronosAgent.Security
open Lib

/-- Clock readings and durations, as exact numbers. -/
abbrev Seconds := ℚ

inductive PrincipalKind where
  | lanPeer
  | relay
  | device
  | system
  deriving DecidableEq

def PrincipalKind.value : PrincipalKind → PyStr
  | lanPeer => py "lan_peer"
  | relay => py "relay"
  | device => py "device"
  | system => py "system"

structure Principal where
  kind : PrincipalKind
  ident : PyStr
  scope : PyStr
  deriving DecidableEq

namespace Principal

def relay : Principal := ⟨.relay, py "relay", []⟩

/-- `none` is `ValueError`. -/
def device (deviceId scope : PyStr) : Option Principal :=
  if deviceId.length ≠ 16 ∨ ∃ c ∈ deviceId, c ∉ py "0123456789abcdef" then none
  else some ⟨.device, deviceId, scope⟩

def system : Principal := ⟨.system, py "qronos", []⟩

def describe (p : Principal) : PyStr :=
  p.kind.value ++ py ":" ++ p.ident ++ if p.scope.isEmpty then [] else py "@" ++ p.scope

end Principal

inductive SignalKind where
  | handshakeFailed
  | pairingOverRelay
  | unauthenticatedSplice
  | relayMisbehaved
  | tampering
  | requestRefused
  | rateLimited
  | commandConflict
  | protocolFault
  | registryUnreadable
  deriving DecidableEq

def SignalKind.value : SignalKind → PyStr
  | handshakeFailed => py "handshake_failed"
  | pairingOverRelay => py "pairing_over_relay"
  | unauthenticatedSplice => py "unauthenticated_splice"
  | relayMisbehaved => py "relay_misbehaved"
  | tampering => py "tampering"
  | requestRefused => py "request_refused"
  | rateLimited => py "rate_limited"
  | commandConflict => py "command_conflict"
  | protocolFault => py "protocol_fault"
  | registryUnreadable => py "registry_unreadable"

inductive Response where
  | allow
  | reject
  | throttle
  | contain
  | quarantine
  | safeShutdown
  deriving DecidableEq

/-- `response.name.lower()`. -/
def Response.text : Response → PyStr
  | allow => py "allow"
  | reject => py "reject"
  | throttle => py "throttle"
  | contain => py "contain"
  | quarantine => py "quarantine"
  | safeShutdown => py "safe_shutdown"

structure Policy where
  principals : List PrincipalKind
  threshold : ℕ
  window : Seconds
  response : Response
  duration : Seconds

abbrev Policies := SignalKind → Option Policy

/-- `DEFAULT_POLICIES`. -/
def defaultPolicies : Policies
  | .handshakeFailed => some ⟨[.lanPeer, .relay], 10, 60, .throttle, 300⟩
  | .pairingOverRelay => some ⟨[.relay], 3, 3600, .throttle, 3600⟩
  | .unauthenticatedSplice => some ⟨[.relay], 10, 600, .throttle, 900⟩
  | .relayMisbehaved => some ⟨[.relay], 5, 600, .throttle, 900⟩
  | .tampering => some ⟨[.relay], 1, 60, .contain, 0⟩
  | .requestRefused => some ⟨[.device], 20, 600, .throttle, 900⟩
  | .rateLimited => some ⟨[.device], 10, 600, .throttle, 900⟩
  | .commandConflict => some ⟨[.device], 5, 600, .throttle, 900⟩
  | .protocolFault => some ⟨[.device], 5, 600, .throttle, 900⟩
  | .registryUnreadable => some ⟨[.system], 1, 60, .contain, 0⟩

inductive Segment where
  | lan
  | other
  deriving DecidableEq

/-- `_CAPS`. -/
def Segment.cap : Segment → ℕ
  | lan => 1024
  | other => 256

/-- `_segment`. -/
def Principal.segment (p : Principal) : Segment := if p.kind = .lanPeer then .lan else .other

def lanRetryInterval : Seconds := 5

def quarantineAfter : ℕ := 3

def quarantineWindow : Seconds := 24 * 3600

def maxMemoryIncidents : ℕ := 512

structure Decision where
  response : Response
  signal : SignalKind
  principal : Principal
  throttledUntil : Option Seconds

structure Admission where
  allowed : Bool
  reason : PyStr

structure Throttle where
  endsAt : Seconds
  nextAttempt : Seconds
  deriving DecidableEq

inductive MonitorError where
  | refused (message : PyStr)
  /-- `UnicodeEncodeError`: the incident's text holds a lone surrogate. -/
  | unicode
  | disk

/-- Python's `round(x, 3)`. -/
def roundMillis (x : Seconds) : Seconds :=
  let n := ⌊x * 1000⌋
  let rest := x * 1000 - n
  let n := if rest < 1 / 2 then n else if 1 / 2 < rest then n + 1 else if n % 2 = 0 then n else n + 1
  n / 1000

inductive Incident where
  | decided (madeAt : Seconds) (response : PyStr) (signal : PyStr) (principal : PyStr)
    (seconds : Option Seconds)
  | reset (madeAt : Seconds)

inductive Hook where
  | contain
  | quarantine
  | safeShutdown
  | reset
  deriving DecidableEq

abbrev CallbackId := ℕ

structure Call where
  hook : Hook
  callback : CallbackId
  reason : PyStr

/-- One segment's counters and throttles, the least recently seen first. -/
structure Tracked where
  windows : Dict (Principal × SignalKind) (List Seconds)
  throttles : Dict Principal Throttle

structure SecurityMonitor where
  tracked : Segment → Tracked
  contained : Bool
  containedReason : PyStr
  quarantined : Bool
  quarantineReason : PyStr
  containHistory : List Seconds
  incidents : List Incident
  hooks : Hook → List CallbackId
  ready : Bool

structure MonitorConfig where
  policies : Policies
  shutdownOnQuarantine : Bool

structure Reading where
  now : Seconds
  wall : Seconds
  diskTakes : Bool

/-- What a call leaves: its result, the callbacks it called, and what it saved. -/
structure Outcome (α : Type) where
  monitor : SecurityMonitor
  result : Except MonitorError α
  calls : List Call
  saved : Option (Json Seconds)

/-- `windows[key] = window`, after `windows.pop(key)`, and the oldest dropped past the cap. -/
def remember {K V : Type} [DecidableEq K] (cap : ℕ) (d : Dict K V) (k : K) (v : V) : Dict K V :=
  let d := (d.erase k).set k v
  d.drop (d.items.length - cap)

/-- Append to a deque that holds at most `maxlen`. -/
def pushBounded {α : Type} (maxlen : ℕ) (w : List α) (x : α) : List α :=
  (w ++ [x]).drop (w.length + 1 - maxlen)

/-- One turn of `_bound_throttles`: an expired throttle goes first, then the oldest. -/
def forgiveOne (now : Seconds) (throttles : Dict Principal Throttle) : Dict Principal Throttle :=
  match throttles.items.find? fun pt => pt.2.endsAt ≤ now with
  | some (p, _) => throttles.erase p
  | none => throttles.drop 1

/-- `_bound_throttles`. Each turn of the loop takes one throttle away. -/
def boundThrottles (segment : Segment) (now : Seconds) (throttles : Dict Principal Throttle) :
    Dict Principal Throttle :=
  (forgiveOne now)^[throttles.items.length - segment.cap] throttles

namespace SecurityMonitor

/-- The window of one principal and signal, once `now` is counted in it. -/
def window (m : SecurityMonitor) (policy : Policy) (now : Seconds) (signal : SignalKind)
    (principal : Principal) : List Seconds :=
  let old := ((m.tracked principal.segment).windows.get? (principal, signal)).getD []
  pushBounded (max 1 policy.threshold) (old.dropWhile fun t => policy.window < now - t) now

def setTracked (m : SecurityMonitor) (segment : Segment) (tracked : Tracked) : SecurityMonitor :=
  { m with tracked := Function.update m.tracked segment tracked }

def count (m : SecurityMonitor) (policy : Policy) (now : Seconds) (signal : SignalKind)
    (principal : Principal) : SecurityMonitor × Bool :=
  let segment := principal.segment
  let w := m.window policy now signal principal
  let reached := decide (policy.threshold ≤ w.length)
  let windows := remember segment.cap (m.tracked segment).windows (principal, signal)
    (if reached then [] else w)
  (m.setTracked segment { m.tracked segment with windows }, reached)

/-- `_record`; `none` when the incident cannot be encoded, which the log does first. -/
def record (m : SecurityMonitor) (wall : Seconds) (response : Response) (signal : SignalKind)
    (principal : Principal) (seconds : Option Seconds) : Option SecurityMonitor :=
  if principal.describe.Encodable then
    some { m with
      incidents := pushBounded maxMemoryIncidents m.incidents
        (.decided (roundMillis wall) response.text signal.value principal.describe seconds) }
  else none

/-- The document `_save` writes. -/
def payload (m : SecurityMonitor) : Json Seconds :=
  .obj [(py "version", .int 1), (py "contained", .bool m.contained),
    (py "contained_reason", .str m.containedReason), (py "quarantined", .bool m.quarantined),
    (py "quarantine_reason", .str m.quarantineReason),
    (py "contain_history",
      .arr ((m.containHistory.drop (m.containHistory.length - quarantineAfter)).map .float))]

/-- `_call` on the lists gathered while the lock was held. -/
def callbacks (m : SecurityMonitor) (escalate : List (Hook × PyStr)) : List Call :=
  escalate.flatMap fun hr => (m.hooks hr.1).map fun callback => ⟨hr.1, callback, hr.2⟩

def throttle (m : SecurityMonitor) (policy : Policy) (r : Reading) (signal : SignalKind)
    (principal : Principal) : Outcome Decision :=
  let segment := principal.segment
  let tracked := m.tracked segment
  let endsAt := r.now + policy.duration
  let current := (tracked.throttles.get? principal).map Throttle.endsAt
  let throttles := (tracked.throttles.erase principal).set principal
    ⟨max endsAt (current.getD 0), r.now + lanRetryInterval⟩
  let m := m.setTracked segment { tracked with throttles := boundThrottles segment r.now throttles }
  match m.record r.wall .throttle signal principal
    (if policy.duration = 0 then none else some policy.duration) with
  | none => ⟨m, .error .unicode, [], none⟩
  | some m => ⟨m, .ok ⟨.throttle, signal, principal, some endsAt⟩, [], none⟩

/-- The containments that still count, with this one. -/
def historyAt (m : SecurityMonitor) (wall : Seconds) : List Seconds :=
  m.containHistory.filter (fun t => wall - t < quarantineWindow) ++ [wall]

def latch (cfg : MonitorConfig) (m : SecurityMonitor) (wall : Seconds) (signal : SignalKind)
    (principal : Principal) :
    SecurityMonitor × Option (Response × List (Hook × PyStr)) :=
  let m := { m with
    contained := true
    containedReason := signal.value
    containHistory := m.historyAt wall }
  match m.record wall .contain signal principal none with
  | none => (m, none)
  | some m =>
    if m.containHistory.length < quarantineAfter then
      (m, some (.contain, [(.contain, signal.value)]))
    else
      let reason := py "repeated_containment"
      let m := { m with quarantined := true, quarantineReason := reason }
      match m.record wall .quarantine signal principal none with
      | none => (m, none)
      | some m =>
        if cfg.shutdownOnQuarantine then
          match m.record wall .safeShutdown signal principal none with
          | none => (m, none)
          | some m =>
            (m, some (.safeShutdown,
              [(.contain, signal.value), (.quarantine, reason), (.safeShutdown, reason)]))
        else (m, some (.quarantine, [(.contain, signal.value), (.quarantine, reason)]))

/-- `_contain_locked`, and the calls `observe` makes after it. A save that fails raises before
any of them. -/
def contain (cfg : MonitorConfig) (m : SecurityMonitor) (r : Reading) (signal : SignalKind)
    (principal : Principal) : Outcome Decision :=
  if m.contained || m.quarantined then
    ⟨m, .ok ⟨.contain, signal, principal, none⟩, [], none⟩
  else
    match m.latch cfg r.wall signal principal with
    | (m, none) => ⟨m, .error .unicode, [], none⟩
    | (m, some (response, escalate)) =>
      if r.diskTakes then
        ⟨m, .ok ⟨response, signal, principal, none⟩, m.callbacks escalate, some m.payload⟩
      else ⟨m, .error .disk, [], none⟩

def observe (cfg : MonitorConfig) (m : SecurityMonitor) (r : Reading) (signal : SignalKind)
    (principal : Principal) : Outcome Decision :=
  let refusal : MonitorError :=
    .refused (signal.value ++ py " cannot be held against a " ++ principal.kind.value)
  match cfg.policies signal with
  | none => ⟨m, .error refusal, [], none⟩
  | some policy =>
    if principal.kind ∈ policy.principals then
      match m.count policy r.now signal principal with
      | (m, false) => ⟨m, .ok ⟨.reject, signal, principal, none⟩, [], none⟩
      | (m, true) =>
        if policy.response = .throttle then m.throttle policy r signal principal
        else m.contain cfg r signal principal
    else ⟨m, .error refusal, [], none⟩

def remoteAdmission (m : SecurityMonitor) : Admission :=
  if !m.ready then ⟨false, py "security_monitor_not_ready"⟩
  else if m.quarantined then ⟨false, py "security_quarantined"⟩
  else if m.contained then ⟨false, py "security_contained"⟩
  else ⟨true, []⟩

def linkAdmission (m : SecurityMonitor) : Admission :=
  if m.quarantined then ⟨false, py "security_quarantined"⟩ else ⟨true, []⟩

def admitPrincipal (m : SecurityMonitor) (now : Seconds) (principal : Principal) :
    SecurityMonitor × Bool :=
  let segment := principal.segment
  let tracked := m.tracked segment
  match tracked.throttles.get? principal with
  | none => (m, true)
  | some t =>
    if t.endsAt ≤ now then
      (m.setTracked segment { tracked with throttles := tracked.throttles.erase principal }, true)
    else if principal.kind = .lanPeer ∧ t.nextAttempt ≤ now then
      (m.setTracked segment { tracked with
        throttles := tracked.throttles.set principal
          { t with nextAttempt := now + lanRetryInterval } }, true)
    else (m, false)

def throttled (m : SecurityMonitor) (now : Seconds) (principal : Principal) : Bool :=
  match (m.tracked principal.segment).throttles.get? principal with
  | none => false
  | some t => now < t.endsAt

/-- The user, at the PC, says it is over. -/
def reset (m : SecurityMonitor) (r : Reading) (caller : PyStr) : Outcome Unit :=
  if caller ≠ py "console" then
    ⟨m, .error (.refused (py "only the console can reset the security monitor")), [], none⟩
  else
    let m := { m with
      contained := false
      containedReason := []
      quarantined := false
      quarantineReason := []
      tracked := fun _ => ⟨.empty, .empty⟩
      incidents := pushBounded maxMemoryIncidents m.incidents (.reset (roundMillis r.wall)) }
    if r.diskTakes then ⟨m, .ok (), m.callbacks [(.reset, [])], some m.payload⟩
    else ⟨m, .error .disk, [], none⟩

/-- `on_contain`, `on_quarantine`, `on_safe_shutdown` and `on_reset`. -/
def register (m : SecurityMonitor) (hook : Hook) (callback : CallbackId) : SecurityMonitor :=
  { m with hooks := Function.update m.hooks hook (m.hooks hook ++ [callback]) }

end SecurityMonitor

/-! The file `SecurityMonitor` keeps its latches in, and `_load`. -/

structure Conversions where
  strOf : Json Seconds → PyStr
  /-- `float` of a string; `none` is `ValueError`. -/
  floatOfStr : PyStr → Option Seconds
  /-- `float` of an integer; `none` is `OverflowError`. -/
  floatOfInt : ℤ → Option Seconds

inductive StateFile where
  | absent
  | unreadable
  /-- It nests deeper than the interpreter recurses. -/
  | tooDeep
  | document (v : Json Seconds)

inductive Converted where
  | history (ts : List Seconds)
  | malformed
  /-- `OverflowError`, which `_load` does not handle. -/
  | overflow

/-- `bool(v)`. -/
def truthy : Json Seconds → Bool
  | .null => false
  | .bool b => b
  | .int n => n ≠ 0
  | .float x => x ≠ 0
  | .str s => s ≠ []
  | .arr xs => !xs.isEmpty
  | .obj ms => !ms.isEmpty

/-- `v == 1`. -/
def isVersion : Json Seconds → Bool
  | .bool b => b
  | .int n => n = 1
  | .float x => x = 1
  | .null | .str _ | .arr _ | .obj _ => false

/-- What iterating over a value gives; `none` is `TypeError`. -/
def elements : Json Seconds → Option (List (Json Seconds))
  | .arr xs => some xs
  | .str s => some (s.map fun c => .str [c])
  | .obj ms => some (ms.map fun kv => .str kv.1)
  | .null | .bool _ | .int _ | .float _ => none

namespace Conversions
variable (py3 : Conversions)

def str : Json Seconds → PyStr
  | .str s => s
  | v => py3.strOf v

/-- `float(v)`; the error says whether it overflowed. -/
def float : Json Seconds → Except Bool Seconds
  | .float x => .ok x
  | .bool b => .ok (if b then 1 else 0)
  | .int n => ((py3.floatOfInt n).map .ok).getD (.error true)
  | .str s => ((py3.floatOfStr s).map .ok).getD (.error false)
  | .null | .arr _ | .obj _ => .error false

/-- `[float(t) for t in value]`. -/
def history (value : Json Seconds) : Converted :=
  match elements value with
  | none => .malformed
  | some ts =>
    match ts.mapM py3.float with
    | .ok ts => .history ts
    | .error true => .overflow
    | .error false => .malformed

end Conversions

/-- The last entries `_save` writes and `_load` keeps. -/
def lastContainments (ts : List Seconds) : List Seconds := ts.drop (ts.length - quarantineAfter)

namespace SecurityMonitor

/-- A monitor before `_load`. -/
def fresh : SecurityMonitor where
  tracked := fun _ => ⟨.empty, .empty⟩
  contained := false
  containedReason := []
  quarantined := false
  quarantineReason := []
  containHistory := []
  incidents := []
  hooks := fun _ => []
  ready := true

/-- Unreadable means unknown, and unknown is not safe for remote access. -/
def unknown (m : SecurityMonitor) : SecurityMonitor :=
  { m with contained := true, containedReason := py "state_unreadable" }

/-- `raw.get(key, default)`. -/
def fieldOr (ms : List (PyStr × Json Seconds)) (key : PyStr) (default : Json Seconds) :
    Json Seconds :=
  (Json.member? ms key).getD default

/-- `_load` on the members of an object of this version. -/
def restore (py3 : Conversions) (ms : List (PyStr × Json Seconds)) : Option SecurityMonitor :=
  let m := { fresh with
    contained := truthy (fieldOr ms (py "contained") (.bool false))
    containedReason := py3.str (fieldOr ms (py "contained_reason") (.str []))
    quarantined := truthy (fieldOr ms (py "quarantined") (.bool false))
    quarantineReason := py3.str (fieldOr ms (py "quarantine_reason") (.str [])) }
  match py3.history (fieldOr ms (py "contain_history") (.arr [])) with
  | .history ts => some { m with containHistory := lastContainments ts }
  | .malformed => some m.unknown
  | .overflow => none

/-- A new monitor over the file; `none` when its constructor raises. -/
def load (py3 : Conversions) : StateFile → Option SecurityMonitor
  | .absent => some fresh
  | .unreadable => some fresh.unknown
  | .tooDeep => none
  | .document (.obj ms) =>
    if ((Json.member? ms (py "version")).map isVersion).getD false then restore py3 ms
    else some fresh.unknown
  | .document _ => some fresh.unknown

theorem mapM_float (py3 : Conversions) (ts : List Seconds) :
    (ts.map Json.float).mapM py3.float = .ok ts := by
  induction ts with
  | nil => rfl
  | cons t ts ih =>
    rw [List.map_cons, List.mapM_cons, ih]
    rfl

/-- What a monitor saved is what the next one finds. -/
theorem load_payload (py3 : Conversions) (m : SecurityMonitor) :
    load py3 (.document m.payload) = some { fresh with
      contained := m.contained
      containedReason := m.containedReason
      quarantined := m.quarantined
      quarantineReason := m.quarantineReason
      containHistory := lastContainments m.containHistory } := by
  have hlast : lastContainments (lastContainments m.containHistory) =
      lastContainments m.containHistory := by
    simp only [lastContainments, List.length_drop, List.drop_drop]
    congr 1
    omega
  have hfloats : py3.history (.arr ((lastContainments m.containHistory).map .float)) =
      .history (lastContainments m.containHistory) := by
    simp only [Conversions.history, elements, mapM_float]
  have hrestore : load py3 (.document m.payload) = restore py3
      [(py "version", .int 1), (py "contained", .bool m.contained),
        (py "contained_reason", .str m.containedReason), (py "quarantined", .bool m.quarantined),
        (py "quarantine_reason", .str m.quarantineReason),
        (py "contain_history", .arr ((lastContainments m.containHistory).map .float))] := rfl
  rw [hrestore, restore]
  dsimp only
  rw [show fieldOr _ (py "contain_history") _ =
    .arr ((lastContainments m.containHistory).map .float) from rfl, hfloats]
  dsimp only
  rw [hlast]
  rfl

end SecurityMonitor
end QronosAgent.Security

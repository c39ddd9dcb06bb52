import QronosAgent.Lib.IpAddress
import QronosAgent.Lib.Machine
import QronosAgent.Link.DeviceTables

/-! `scope_for_peer` of `core/link_capability.py`: where a connection arrived from. -/
namespace QronosAgent.Link
open Lib Lib.IpAddress

inductive LinkScope where
  | localNetwork
  | remoteTunnel
  deriving DecidableEq

/-- `LOCAL_NETWORKS`. -/
def localNetworks : List IpNetwork :=
  [⟨.v4 (ofOctets 10 0 0 0), 8⟩, ⟨.v4 (ofOctets 172 16 0 0), 12⟩,
    ⟨.v4 (ofOctets 192 168 0 0), 16⟩, ⟨.v4 (ofOctets 169 254 0 0), 16⟩,
    ⟨.v4 (ofOctets 127 0 0 0), 8⟩]

/-- `LOCAL_NETWORKS_V6`. -/
def localNetworksV6 : List IpNetwork :=
  [⟨.v6 1, 128⟩, ⟨.v6 (0xFE80 * 2 ^ 112), 10⟩, ⟨.v6 (0xFC00 * 2 ^ 112), 7⟩]

def networksFor : IpAddress → List IpNetwork
  | .v4 _ => localNetworks
  | .v6 _ => localNetworksV6

def scopeForPeer (address : PyStr) : Option LinkScope :=
  match parse (PyStr.strip address) with
  | none => none
  | some parsed =>
    let judged := parsed.v4Mapped.getD parsed
    if (networksFor judged).any judged.inNetwork then some .localNetwork else none

example : scopeForPeer (py " ::ffff:192.168.1.5 ") = some .localNetwork := by decide +kernel

example : scopeForPeer (py "203.0.113.7") = none := by decide +kernel

end QronosAgent.Link

/-! `PairingService` of `core/link_pairing.py`: one window at a time, in memory, for one device
that is pending in the registry. Every registry operation may raise, and revocations may fall
between two of them. -/
namespace QronosAgent.Link
open Lib

def payloadVersion : ℕ := 1

structure PairingPayload where
  host : PyStr
  port : ℕ
  deviceId : DeviceId
  secret : List UInt8
  expiresAt : Seconds
  version : ℕ

structure OpenWindow where
  deviceId : DeviceId
  openedAt : Seconds
  expiresAt : Seconds
  payload : PairingPayload
  used : Bool

inductive PairingRefusal where
  | noWindow
  | expired
  | alreadyUsed
  | wrongDevice
  | notLocalNetwork
  | unknownDevice
  | notPending

structure PairingOutcome where
  paired : Bool
  refusal : Option PairingRefusal
  device : Option DeviceRecord

inductive RegistryError where
  | lookup (e : StoreError)
  | change (e : ChangeError)

/-- A call of `revoke`, by this process's registry or by that of another process. -/
structure Revocation where
  id : DeviceId
  own : Bool
  faults : Faults
  now : Seconds
  signature : Signature

namespace DeviceWorld

/-- `get`, which may raise. -/
def get (w : DeviceWorld) (fails : Bool) (id : DeviceId) :
    Except StoreError (Option DeviceRecord) × DeviceWorld :=
  if fails then (.error .corrupt, w)
  else
    match w.registry.refresh w.file with
    | .error e => (.error e, w)
    | .ok reg => (.ok (reg.records.get? id), { w with registry := reg })

def revokedBy (w : DeviceWorld) (r : Revocation) : DeviceWorld :=
  if r.own then (w.change r.faults r.now r.signature (.revoke r.id)).2
  else
    let other : DeviceWorld := ⟨w.file, ⟨Dict.empty, none⟩⟩
    { w with file := (other.change r.faults r.now r.signature (.revoke r.id)).2.file }

end DeviceWorld

/-- What happens around the registry operations of `cancel`: whether the lookup raises, the
revocations between the two operations, and how the removal fares. -/
structure Closing where
  getFails : Bool
  meanwhile : List Revocation
  faults : Faults
  now : Seconds
  signature : Signature

/-- The registry's part in `cancel`: a device that is still pending is removed. -/
def DeviceWorld.discard (w : DeviceWorld) (id : DeviceId) (env : Closing) :
    Except RegistryError Unit × DeviceWorld :=
  match w.get env.getFails id with
  | (.error e, w) => (.error (.lookup e), w)
  | (.ok none, w) => (.ok (), w)
  | (.ok (some record), w) =>
    if record.status = .pending then
      match (env.meanwhile.foldl .revokedBy w).change env.faults env.now env.signature
          (.remove id) with
      | (.error e, w) => (.error (.change e), w)
      | (.ok _, w) => (.ok (), w)
    else (.ok (), w)

/-- Of `open`: how the window before is closed, the service's clock, and how the creation fares. -/
structure Opening where
  closing : Closing
  now : Seconds
  faults : Faults
  createdAt : Seconds
  drawn : List DeviceId
  secret : List UInt8
  signature : Signature

/-- Of `complete`: the service's clock, how an expired window is closed, whether the lookup
raises, the revocations before the activation, and how that fares. -/
structure Completing where
  now : Seconds
  closing : Closing
  getFails : Bool
  meanwhile : List Revocation
  faults : Faults
  activatedAt : Seconds
  signature : Signature

structure PairingService where
  devices : DeviceWorld
  host : PyStr
  port : ℕ
  windowSeconds : Seconds
  window : Option OpenWindow

namespace PairingService

def cancel (s : PairingService) (env : Closing) : Except RegistryError Unit × PairingService :=
  match s.window with
  | none => (.ok (), s)
  | some window =>
    let (res, devices) := s.devices.discard window.deviceId env
    (res, { s with window := none, devices := devices })

def payloadFor (s : PairingService) (env : Opening) (record : DeviceRecord) : PairingPayload where
  host := s.host
  port := s.port
  deviceId := record.deviceId
  secret := record.secret
  expiresAt := env.now + s.windowSeconds
  version := payloadVersion

def windowFor (s : PairingService) (env : Opening) (record : DeviceRecord) : OpenWindow where
  deviceId := record.deviceId
  openedAt := env.now
  expiresAt := (s.payloadFor env record).expiresAt
  payload := s.payloadFor env record
  used := false

/-- `open`; a creation that does not raise returns a record. -/
def open_ (s : PairingService) (name : PyStr) (env : Opening) :
    Except RegistryError (Option PairingPayload) × PairingService :=
  match s.cancel env.closing with
  | (.error e, s) => (.error e, s)
  | (.ok _, s) =>
    match s.devices.change env.faults env.createdAt env.signature
        (.create name [] none env.drawn env.secret) with
    | (.error e, devices) => (.error (.change e), { s with devices := devices })
    | (.ok created, devices) =>
      (.ok (created.map (s.payloadFor env)),
        { s with devices := devices, window := created.map (s.windowFor env) })

def expireIfDue (s : PairingService) (now : Seconds) (env : Closing) :
    Except RegistryError Bool × PairingService :=
  match s.window with
  | none => (.ok false, s)
  | some window =>
    if window.used then (.ok false, s)
    else if now < window.expiresAt then (.ok false, s)
    else
      match s.cancel env with
      | (.error e, s) => (.error e, s)
      | (.ok _, s) => (.ok true, s)

def refuse (refusal : PairingRefusal) : Except RegistryError PairingOutcome :=
  .ok ⟨false, some refusal, none⟩

/-- The end of `complete`, when the window, the device and the peer are right. -/
def activate (s : PairingService) (window : OpenWindow) (env : Completing) :
    Except RegistryError PairingOutcome × PairingService :=
  match s.devices.get env.getFails window.deviceId with
  | (.error e, devices) => (.error (.lookup e), { s with devices := devices })
  | (.ok none, devices) => (refuse .unknownDevice, { s with devices := devices })
  | (.ok (some record), devices) =>
    if record.status ≠ .pending then (refuse .notPending, { s with devices := devices })
    else
      match (env.meanwhile.foldl .revokedBy devices).change env.faults env.activatedAt
          env.signature (.activate window.deviceId) with
      | (.error e, devices) => (.error (.change e), { s with devices := devices })
      | (.ok activated, devices) =>
        (.ok ⟨true, none, activated⟩,
          { s with devices := devices, window := some { window with used := true } })

def complete (s : PairingService) (deviceId : DeviceId) (peerAddress : PyStr)
    (env : Completing) : Except RegistryError PairingOutcome × PairingService :=
  match s.window with
  | none => (refuse .noWindow, s)
  | some window =>
    if window.used then (refuse .alreadyUsed, s)
    else if window.expiresAt ≤ env.now then
      match s.cancel env.closing with
      | (.error e, s) => (.error e, s)
      | (.ok _, s) => (refuse .expired, s)
    else if deviceId ≠ window.deviceId then (refuse .wrongDevice, s)
    else if scopeForPeer peerAddress ≠ some .localNetwork then (refuse .notLocalNetwork, s)
    else s.activate window env

def unpaired (s : PairingService) : List DeviceId :=
  (s.window.filter fun window => !window.used).toList.map OpenWindow.deviceId

end PairingService

inductive PairingOp where
  | open_ (name : PyStr) (env : Opening)
  | cancel (env : Closing)
  | expireIfDue (now : Seconds) (env : Closing)
  | complete (deviceId : DeviceId) (peerAddress : PyStr) (env : Completing)
  | revoke (r : Revocation)

/-- The service; how many windows it has opened, through which of them a device was paired, and
the devices whose window was closed, or followed by another one, before they were. -/
structure PairingSys where
  service : PairingService
  opened : ℕ
  completed : List ℕ
  closed : List DeviceId

namespace PairingSys

/-- The devices whose window is closed once the service is `service'`. -/
def closedBy (s : PairingSys) (service' : PairingService) : List DeviceId :=
  (s.service.unpaired ++ s.closed).filter fun id =>
    service'.window.map OpenWindow.deviceId ≠ some id

def paired (outcome : Except RegistryError PairingOutcome) : Bool :=
  outcome.toOption.any PairingOutcome.paired

def step (s : PairingSys) : PairingOp → PairingSys
  | .open_ name env =>
    let (r, service') := s.service.open_ name env
    { s with
      service := service'
      opened := if r.toOption.isSome then s.opened + 1 else s.opened
      closed := s.closedBy service' }
  | .cancel env =>
    let (_, service') := s.service.cancel env
    { s with service := service', closed := s.closedBy service' }
  | .expireIfDue now env =>
    let (_, service') := s.service.expireIfDue now env
    { s with service := service', closed := s.closedBy service' }
  | .complete deviceId peerAddress env =>
    let (outcome, service') := s.service.complete deviceId peerAddress env
    { s with
      service := service'
      completed := if paired outcome then s.opened :: s.completed else s.completed
      closed := s.closedBy service' }
  | .revoke r => { s with service := { s.service with devices := s.service.devices.revokedBy r } }

def hasStatus (s : PairingSys) (id : DeviceId) (status : DeviceStatus) : Prop :=
  ∃ r, r.status = status ∧
    (DeviceTable.get (fileTable s.service.devices.file) id = .ok (some r) ∨
      DeviceTable.get s.service.devices.lookups id = .ok (some r))

end PairingSys

/-- At first there is no window, no device waits for one, and the registry has the file. -/
def pairingMachine : Machine PairingSys PairingOp where
  start s := s.service.window = none ∧ s.service.devices.Agrees ∧ s.completed = [] ∧
    s.closed = [] ∧ ∀ id, ¬ s.hasStatus id .pending
  step s op := some (s.step op)

end QronosAgent.Link

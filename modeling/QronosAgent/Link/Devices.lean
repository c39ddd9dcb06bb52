import Mathlib.Data.Finset.Basic
import QronosAgent.Lib.Sorted
import QronosAgent.Link.CommandLedger

/-! `core/link_devices.py`: the paired devices in one JSON file, the copy of it that a process
keeps, and the changes that are made under the file's lock. A file is the records it lists, or
unreadable; its signature is what `stat` says of it. -/
namespace QronosAgent.Link
open Lib

inductive Capability where
  | ask
  | searchWeb
  | readStatus
  | readFiles
  | writeFiles
  | runApplication
  | controlSystem
  | deleteFiles
  | manageDevices
  deriving DecidableEq

inductive DeviceStatus where
  | pending
  | active
  | revoked
  deriving DecidableEq

structure DeviceRecord where
  deviceId : DeviceId
  name : PyStr
  secret : List UInt8
  status : DeviceStatus
  createdAt : Seconds
  lastSeenAt : Option Seconds
  pairedFrom : PyStr
  /-- `none` is everything that the scope allows. -/
  grants : Option (Finset Capability)
  remoteEnabled : Bool
  remoteExpiresAt : Option Seconds

namespace DeviceRecord

def canAuthenticate (r : DeviceRecord) : Bool :=
  r.status = .pending || r.status = .active

def remoteAllowed (r : DeviceRecord) (now : Seconds) : Bool :=
  r.status = .active && r.remoteEnabled && r.remoteExpiresAt.any fun e => decide (now < e)

end DeviceRecord

/-- `[0-9a-f]`. -/
def isLowerHex (c : PyChar) : Bool :=
  let n := c.code
  (0x30 ≤ n && n ≤ 0x39) || (0x61 ≤ n && n ≤ 0x66)

/-- `^[0-9a-f]{16}$`, whose `$` also matches before a line feed at the end. -/
def isValidDeviceId (id : DeviceId) : Bool :=
  (id.take 16).length = 16 && (id.take 16).all isLowerHex && (id.drop 16 = [] || id.drop 16 = [lf])

abbrev DeviceTable := Dict DeviceId DeviceRecord

structure Signature where
  mtimeNs : ℤ
  size : ℕ
  inode : ℕ
  deriving DecidableEq

/-- What is in a device file: a device list, or what `_load` cannot read. -/
inductive Image where
  | devices (records : List DeviceRecord)
  | unreadable

structure DeviceFile where
  signature : Signature
  image : Image

inductive StoreError where
  | corrupt
  deriving DecidableEq

def tableOf (records : List DeviceRecord) : DeviceTable :=
  records.foldl (fun t r => t.set r.deviceId r) Dict.empty

/-- The records of a table as `_save` writes them and `all` returns them. -/
def DeviceTable.byCreation (t : DeviceTable) : List DeviceRecord :=
  sortedBy (fun a b => decide (a < b)) DeviceRecord.createdAt t.values

/-- A process's copy of the file, and the signature of the file it was read from. -/
structure DeviceRegistry where
  records : DeviceTable
  signature : Option Signature

namespace DeviceRegistry

/-- `_load`, with the signature it records. -/
def load (file : Option DeviceFile) : Except StoreError DeviceRegistry :=
  match file with
  | none => .ok ⟨Dict.empty, none⟩
  | some f =>
    match f.image with
    | .unreadable => .error .corrupt
    | .devices records => .ok ⟨tableOf records, some f.signature⟩

/-- `_refresh`. -/
def refresh (reg : DeviceRegistry) (file : Option DeviceFile) :
    Except StoreError DeviceRegistry :=
  if file.map DeviceFile.signature = reg.signature then .ok reg else load file

def lookups (reg : DeviceRegistry) (file : Option DeviceFile) : Except StoreError DeviceTable :=
  (reg.refresh file).map records

end DeviceRegistry

/-! The queries, on the table that `_refresh` left or on what it raised. -/

namespace DeviceTable

def get (t : Except StoreError DeviceTable) (id : DeviceId) :
    Except StoreError (Option DeviceRecord) := t.map fun t => t.get? id

def all (t : Except StoreError DeviceTable) : Except StoreError (List DeviceRecord) :=
  t.map byCreation

def secretFor (t : Except StoreError DeviceTable) (id : DeviceId) :
    Except StoreError (Option (List UInt8)) :=
  if isValidDeviceId id then
    (get t id).map fun r? => r?.bind fun r => if r.canAuthenticate then some r.secret else none
  else .ok none

end DeviceTable

def defaultRemoteSeconds : Seconds := 30 * 24 * 3600

def maxRemoteSeconds : Seconds := 365 * 24 * 3600

inductive DeviceOp where
  /-- With the ids that `new_device_id` draws, one after the other, and the key. -/
  | create (name pairedFrom : PyStr) (grants : Option (Finset Capability))
      (drawn : List DeviceId) (secret : List UInt8)
  | activate (id : DeviceId)
  | revoke (id : DeviceId)
  | rename (id : DeviceId) (name : PyStr)
  | touch (id : DeviceId)
  | setRemoteEnabled (id : DeviceId) (enabled : Bool) (expiresAt : Option Seconds)
  | setGrants (id : DeviceId) (grants : Option (Finset Capability))
  | remove (id : DeviceId)

inductive Refusal where
  | unknownDevice (id : DeviceId)
  | revoked (id : DeviceId)
  /-- `ValueError`: a remote opt-in must end in the future. -/
  | inThePast
  /-- The loop that draws a new id has not ended with these draws. -/
  | drawing

structure Changed where
  table : DeviceTable
  record : Option DeviceRecord

/-- `_update`. -/
def DeviceTable.update (t : DeviceTable) (id : DeviceId) (changes : DeviceRecord → DeviceRecord) :
    Except Refusal Changed :=
  match t.get? id with
  | none => .error (.unknownDevice id)
  | some record => .ok ⟨t.set id (changes record), some (changes record)⟩

namespace DeviceOp

def activated (now : Seconds) (r : DeviceRecord) : DeviceRecord :=
  { r with status := .active, lastSeenAt := some now }

def revoked (r : DeviceRecord) : DeviceRecord :=
  { r with status := .revoked, remoteEnabled := false, remoteExpiresAt := none }

def optedOut (r : DeviceRecord) : DeviceRecord :=
  { r with remoteEnabled := false, remoteExpiresAt := none }

def optedIn (until_ : Seconds) (r : DeviceRecord) : DeviceRecord :=
  { r with remoteEnabled := true, remoteExpiresAt := some until_ }

/-- When an opt-in ends that is asked to end at `expiresAt`. -/
def optInEnd (now : Seconds) (expiresAt : Option Seconds) : Seconds :=
  expiresAt.getD (now + defaultRemoteSeconds)

def apply (now : Seconds) (op : DeviceOp) (t : DeviceTable) : Except Refusal Changed :=
  match op with
  | create name pairedFrom grants drawn secret =>
    match drawn.find? fun id => (t.get? id).isNone with
    | none => .error .drawing
    | some id =>
      let record : DeviceRecord := ⟨id, name, secret, .pending, now, none, pairedFrom, grants,
        false, none⟩
      .ok ⟨t.set id record, some record⟩
  | activate id =>
    match t.get? id with
    | none => .error (.unknownDevice id)
    | some record =>
      if record.status = .revoked then .error (.revoked id) else t.update id (activated now)
  | revoke id => t.update id revoked
  | rename id name => t.update id fun r => { r with name := name }
  | touch id => t.update id fun r => { r with lastSeenAt := some now }
  | setRemoteEnabled id enabled expiresAt =>
    if !enabled then t.update id optedOut
    else
      match t.get? id with
      | none => .error (.unknownDevice id)
      | some record =>
        if record.status = .revoked then .error (.revoked id)
        else if optInEnd now expiresAt ≤ now then .error .inThePast
        else t.update id (optedIn (min (optInEnd now expiresAt) (now + maxRemoteSeconds)))
  | setGrants id grants => t.update id fun r => { r with grants := grants }
  | remove id =>
    match t.get? id with
    | none => .error (.unknownDevice id)
    | some _ => .ok ⟨t.erase id, none⟩

end DeviceOp

/-- The points at which `_save` can fail; the file is as it was behind each of them. -/
inductive SaveFault where
  | directory
  | restriction
  | write
  | replace

/-- What goes wrong in one change: the file's lock is not had, the file cannot be read this
time, the save fails. -/
structure Faults where
  lock : Bool
  read : Bool
  save : Option SaveFault

def Faults.none : Faults := ⟨false, false, .none⟩

inductive ChangeError where
  /-- `DeviceStoreBusy`, or an `OSError` of the lock file -/
  | lock
  | store (e : StoreError)
  | refused (r : Refusal)
  | save (fault : SaveFault)

structure DeviceWorld where
  file : Option DeviceFile
  registry : DeviceRegistry

namespace DeviceWorld

def lookups (w : DeviceWorld) : Except StoreError DeviceTable := w.registry.lookups w.file

/-- One change: lock, read the file, change one record, write the file, whose signature will
be `signature`. -/
def change (w : DeviceWorld) (faults : Faults) (now : Seconds) (signature : Signature)
    (op : DeviceOp) : Except ChangeError (Option DeviceRecord) × DeviceWorld :=
  if faults.lock then (.error .lock, w)
  else if faults.read then (.error (.store .corrupt), w)
  else
    match DeviceRegistry.load w.file with
    | .error e => (.error (.store e), w)
    | .ok reg =>
      match op.apply now reg.records with
      | .error r => (.error (.refused r), { w with registry := reg })
      | .ok changed =>
        match faults.save with
        | some fault =>
          (.error (.save fault), { w with registry := { reg with records := changed.table } })
        | none =>
          (.ok changed.record,
            ⟨some ⟨signature, .devices changed.table.byCreation⟩,
              ⟨changed.table, some signature⟩⟩)

end DeviceWorld
end QronosAgent.Link

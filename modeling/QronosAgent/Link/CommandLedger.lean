import Mathlib.Data.Rat.Defs
import Mathlib.Algebra.Order.Ring.Rat
import QronosAgent.Lib.Dict
import QronosAgent.Lib.PyText

/-! `CommandLedger` of `core/link_commands.py`: which command ids each device has used, and what
came of them. Outcomes are of any type that has an encoded size. -/
namespace QronosAgent.Link
open Lib

abbrev DeviceId := PyStr

abbrev CommandId := PyStr

abbrev Fingerprint := PyStr

/-- Clock readings and durations, as exact numbers. -/
abbrev Seconds := ℚ

inductive CommandState where
  | new
  | inProgress
  | done
  | conflict
  deriving DecidableEq

structure CommandDecision (ο : Type) where
  state : CommandState
  outcome : Option ο

structure Entry (ο : Type) where
  fingerprint : Fingerprint
  startedAt : Seconds
  finished : Bool
  outcome : Option ο
  retainedBytes : ℕ

structure LedgerConfig (ο : Type) where
  ttl : Seconds
  maxPerDevice : ℕ
  maxResultBytes : ℕ
  maxTotalBytes : ℕ
  encodedSize : ο → ℕ

abbrev Entries (ο : Type) := Dict CommandId (Entry ο)

structure CommandLedger (ο : Type) where
  devices : Dict DeviceId (Entries ο)
  retained : ℤ

variable {ο : Type}

namespace Entries

/-- The finished entries that started before the cutoff, as `_expire` lists them. -/
def expired (entries : Entries ο) (cutoff : Seconds) : List (CommandId × Entry ο) :=
  entries.items.filter fun ce => ce.2.finished && decide (ce.2.startedAt < cutoff)

def withoutExpired (entries : Entries ο) (cutoff : Seconds) : Entries ο :=
  entries.filter fun _ e => !(e.finished && decide (e.startedAt < cutoff))

def oldestFinished? (entries : Entries ο) : Option (CommandId × Entry ο) :=
  entries.items.find? fun ce => ce.2.finished

end Entries

def retainedBytes (removed : List (CommandId × Entry ο)) : ℤ :=
  (removed.map fun ce => (ce.2.retainedBytes : ℤ)).sum

/-- An entry taken out of a full table, with the size the table had. -/
structure Evicted (ο : Type) where
  commandId : CommandId
  entry : Entry ο
  held : ℕ

structure Room (ο : Type) where
  entries : Entries ο
  evicted : List (Evicted ο)
  free : Bool

/-- `while len(entries) >= max_per_device`: evict the oldest finished entry. Each turn takes one
entry away, so as many turns as there are entries are enough. -/
def Entries.makeRoom (maxPerDevice : ℕ) : ℕ → Entries ο → Room ο
  | 0, entries => ⟨entries, [], decide (entries.items.length < maxPerDevice)⟩
  | turns + 1, entries =>
    if entries.items.length < maxPerDevice then ⟨entries, [], true⟩
    else
      match entries.oldestFinished? with
      | none => ⟨entries, [], false⟩
      | some ce =>
        let room := makeRoom maxPerDevice turns (entries.erase ce.1)
        { room with evicted := ⟨ce.1, ce.2, entries.items.length⟩ :: room.evicted }

/-- What `begin` leaves, decides, and took out of the device's table on the way. -/
structure Begun (ο : Type) where
  ledger : CommandLedger ο
  decision : CommandDecision ο
  expired : List (CommandId × Entry ο)
  evicted : List (Evicted ο)

namespace CommandLedger

def empty : CommandLedger ο := ⟨.empty, 0⟩

/-- `self._devices.get(device_id, ())`. -/
def entries (l : CommandLedger ο) (deviceId : DeviceId) : Entries ο :=
  (l.devices.get? deviceId).getD .empty

def entryOf (l : CommandLedger ο) (deviceId : DeviceId) (commandId : CommandId) :
    Option (Entry ο) :=
  (l.entries deviceId).get? commandId

/-- Put a device's table back after `removed` was taken out of it. -/
def withEntries (l : CommandLedger ο) (deviceId : DeviceId) (entries : Entries ο)
    (removed : List (CommandId × Entry ο)) : CommandLedger ο :=
  ⟨l.devices.set deviceId entries, l.retained - retainedBytes removed⟩

def begin (cfg : LedgerConfig ο) (l : CommandLedger ο) (expiryNow startNow : Seconds)
    (deviceId : DeviceId) (commandId : CommandId) (fingerprint : Fingerprint) : Begun ο :=
  let cutoff := expiryNow - cfg.ttl
  let expired := (l.entries deviceId).expired cutoff
  let entries := (l.entries deviceId).withoutExpired cutoff
  let l := l.withEntries deviceId entries expired
  match entries.get? commandId with
  | some entry =>
    let decision : CommandDecision ο :=
      if entry.fingerprint ≠ fingerprint then ⟨.conflict, none⟩
      else if !entry.finished then ⟨.inProgress, none⟩
      else ⟨.done, entry.outcome⟩
    ⟨l, decision, expired, []⟩
  | none =>
    let room := entries.makeRoom cfg.maxPerDevice entries.items.length
    let removed := room.evicted.map fun v => (v.commandId, v.entry)
    if room.free then
      let entry : Entry ο := ⟨fingerprint, startNow, false, none, 0⟩
      ⟨l.withEntries deviceId (room.entries.set commandId entry) removed, ⟨.new, none⟩, expired,
        room.evicted⟩
    else ⟨l.withEntries deviceId room.entries removed, ⟨.inProgress, none⟩, expired, room.evicted⟩

def allEntries (l : CommandLedger ο) : List (DeviceId × CommandId × Entry ο) :=
  l.devices.items.flatMap fun de => de.2.items.map fun ce => (de.1, ce.1, ce.2)

def oldestOutcome? (l : CommandLedger ο) : Option (DeviceId × CommandId × Entry ο) :=
  l.allEntries.foldl (fun oldest dce =>
    if dce.2.2.outcome.isSome &&
        ((oldest.map fun o => decide (dce.2.2.startedAt < o.2.2.startedAt)).getD true) then
      some dce
    else oldest) none

def modifyEntry (l : CommandLedger ο) (deviceId : DeviceId) (commandId : CommandId)
    (f : Entry ο → Entry ο) : CommandLedger ο :=
  { l with devices := l.devices.modify deviceId fun entries => entries.modify commandId f }

def addRetained (l : CommandLedger ο) (n : ℤ) : CommandLedger ο :=
  { l with retained := l.retained + n }

/-- `_drop_oldest_outcome`; `none` when no answer is kept anywhere. -/
def dropOldestOutcome (l : CommandLedger ο) : Option (CommandLedger ο) :=
  l.oldestOutcome?.map fun o =>
    (l.addRetained (-(o.2.2.retainedBytes : ℤ))).modifyEntry o.1 o.2.1 fun e =>
      { e with outcome := none, retainedBytes := 0 }

def fits (cfg : LedgerConfig ο) (l : CommandLedger ο) (size : ℕ) : Bool :=
  l.retained + size ≤ cfg.maxTotalBytes

/-- Drop answers until `size` more bytes fit or none is left. Each turn drops one answer, so as
many turns as there are entries are enough. -/
def dropUntilFits (cfg : LedgerConfig ο) (size : ℕ) : ℕ → CommandLedger ο → CommandLedger ο
  | 0, l => l
  | turns + 1, l =>
    if l.fits cfg size then l
    else
      match l.dropOldestOutcome with
      | none => l
      | some l => dropUntilFits cfg size turns l

def finish (cfg : LedgerConfig ο) (l : CommandLedger ο) (deviceId : DeviceId)
    (commandId : CommandId) (outcome : ο) : CommandLedger ο :=
  let size := cfg.encodedSize outcome
  match l.entryOf deviceId commandId with
  | none => l
  | some entry =>
    if entry.finished then l
    else
      let l := l.modifyEntry deviceId commandId fun e => { e with finished := true }
      if cfg.maxResultBytes < size then l
      else
        let l := l.dropUntilFits cfg size l.allEntries.length
        if l.fits cfg size then
          (l.addRetained size).modifyEntry deviceId commandId fun e =>
            { e with outcome := some outcome, retainedBytes := size }
        else l

def forgetDevice (l : CommandLedger ο) (deviceId : DeviceId) : CommandLedger ο :=
  ⟨l.devices.erase deviceId, l.retained - retainedBytes (l.entries deviceId).items⟩

end CommandLedger

end QronosAgent.Link

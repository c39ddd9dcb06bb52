import Mathlib.Algebra.Order.Ring.Rat
import QronosAgent.Lib.Dict
import QronosAgent.Lib.PyText

/-! `core/artifact_ownership.py`: who owns every artifact, over a file system whose answers are
arbitrary. Paths are of any type. -/
namespace QronosAgent.Storage
open Lib

/-- Clock readings and durations, as exact numbers. -/
abbrev Seconds := ℚ

/-- What resolving or inspecting a path raises: `OSError` or `ValueError`, or `RuntimeError`. -/
inductive PathError where
  | os
  | runtime
  deriving DecidableEq

structure PathLib (P : Type) where
  str : P → PyStr
  isRelativeTo : P → P → Bool
  expanduser : P → Except PathError P

inductive Node where
  | file (size : ℤ) (modifiedAt : Seconds)
  | directory
  | other

def Node.isFile : Node → Bool
  | .file _ _ => true
  | _ => false

structure FileSystem {P : Type} (lib : PathLib P) where
  resolve : P → Except PathError P
  reparse : P → Bool
  /-- `stat` does not fail for want of permission -/
  readable : P → Bool
  node : P → Option Node
  resolve_resolve : ∀ p q, resolve p = .ok q → resolve q = .ok q
  resolve_absolute : ∀ p q, resolve p = .ok q → lib.expanduser q = .ok q

namespace FileSystem
variable {P : Type} {lib : PathLib P} (fs : FileSystem lib)

/-- What `stat` finds; `none` is a missing file. -/
def stat (p : P) : Except PathError (Option Node) :=
  if !fs.readable p then .error .os
  else
    match fs.resolve p with
    | .error _ => .ok none
    | .ok q => .ok (fs.node q)

def exists_ (p : P) : Except PathError Bool := (fs.stat p).map Option.isSome

def isFile (p : P) : Except PathError Bool := (fs.stat p).map fun n => n.any Node.isFile

def unlink [DecidableEq P] (p : P) : FileSystem lib where
  resolve := fs.resolve
  reparse := fs.reparse
  readable := fs.readable
  node q := if fs.resolve p = .ok q then none else fs.node q
  resolve_resolve := fs.resolve_resolve
  resolve_absolute := fs.resolve_absolute

/-- `Path(path).expanduser().resolve()`. -/
def normalise (p : P) : Except PathError P := lib.expanduser p >>= fs.resolve

theorem normalise_normalise {p q : P} (h : fs.normalise p = .ok q) : fs.normalise q = .ok q := by
  unfold normalise at h ⊢
  cases he : lib.expanduser p with
  | error e =>
    rw [he] at h
    contradiction
  | ok r =>
    rw [he] at h
    rw [fs.resolve_absolute r q h]
    exact fs.resolve_resolve r q h

end FileSystem

inductive BudgetComponent where
  | memory
  | visionTemp
  | imageTemp
  | filesystemMetadata
  | logsAndTemp
  deriving DecidableEq

inductive ArtifactOwner where
  | qronos
  | user
  deriving DecidableEq

structure ArtifactRecord (P : Type) where
  artifactId : PyStr
  path : P
  owner : ArtifactOwner
  component : BudgetComponent
  sizeBytes : ℤ
  createdAt : Seconds
  transferredAt : Option Seconds
  deriving DecidableEq

def ArtifactRecord.transferred {P : Type} (record : ArtifactRecord P) (destination : P) (size : ℤ)
    (at_ : Seconds) : ArtifactRecord P :=
  { record with path := destination, owner := .user, sizeBytes := size, transferredAt := some at_ }

inductive OwnershipError (P : Type) where
  | negativeSize (size : ℤ)
  | alreadyRegistered (owner : ArtifactOwner) (target : P)
  | duplicateId (id : PyStr)
  | unknownId (id : PyStr)
  | alreadyUserOwned (id : PyStr)
  | noFile (destination : P)
  | destinationRegistered (destination : P)
  | userOwned (id : PyStr)
  | path (e : PathError)
  | notSaved

structure ArtifactOwnershipRegistry (P : Type) where
  records : Dict PyStr (ArtifactRecord P)
  store : List (ArtifactRecord P)

namespace ArtifactOwnershipRegistry
variable {P : Type} {lib : PathLib P}

def empty : ArtifactOwnershipRegistry P := ⟨Dict.empty, []⟩

def load (store : List (ArtifactRecord P)) : ArtifactOwnershipRegistry P :=
  ⟨store.foldl (fun records r => records.set r.artifactId r) Dict.empty, store⟩

/-- `self._records` has been changed, and is persisted. -/
def persist (r : ArtifactOwnershipRegistry P) (records : Dict PyStr (ArtifactRecord P))
    (saves : Bool) : ArtifactOwnershipRegistry P :=
  ⟨records, if saves then records.values else r.store⟩

/-- The result of an operation whose last step is to persist. -/
def saved {α : Type} (saves : Bool) (a : α) : Except (OwnershipError P) α :=
  if saves then .ok a else .error .notSaved

variable [DecidableEq P] (fs : FileSystem lib) (r : ArtifactOwnershipRegistry P)

def find (target : P) : Option (ArtifactRecord P) :=
  r.records.values.find? fun record => record.path = target

def forPath (path : P) : Except PathError (Option (ArtifactRecord P)) :=
  (fs.normalise path).map r.find

def isUserOwned (path : P) : Except PathError Bool :=
  (r.forPath fs path).map fun record => record.any fun record => record.owner = .user

structure Registration (P : Type) where
  path : P
  component : BudgetComponent
  sizeBytes : ℤ
  createdAt : Seconds
  artifactId : PyStr

def Registration.record (a : Registration P) (target : P) : ArtifactRecord P :=
  ⟨a.artifactId, target, .qronos, a.component, a.sizeBytes, a.createdAt, none⟩

def register (a : Registration P) (saves : Bool) :
    Except (OwnershipError P) (ArtifactRecord P) × ArtifactOwnershipRegistry P :=
  if a.sizeBytes < 0 then (.error (.negativeSize a.sizeBytes), r)
  else
    match fs.normalise a.path with
    | .error e => (.error (.path e), r)
    | .ok target =>
      match r.forPath fs target with
      | .error e => (.error (.path e), r)
      | .ok (some existing) => (.error (.alreadyRegistered existing.owner target), r)
      | .ok none =>
        if a.artifactId ∈ r.records.keys then (.error (.duplicateId a.artifactId), r)
        else
          (saved saves (a.record target),
            r.persist (r.records.set a.artifactId (a.record target)) saves)

/-- `destination.stat().st_size`. -/
def measured (destination : P) : Except PathError ℤ :=
  match fs.stat destination with
  | .error e => .error e
  | .ok (some (.file size _)) => .ok size
  | .ok _ => .error .os

def transferToUser (artifactId : PyStr) (finalPath : P) (transferredAt : Seconds)
    (sizeBytes : Option ℤ) (saves : Bool) :
    Except (OwnershipError P) (ArtifactRecord P) × ArtifactOwnershipRegistry P :=
  match r.records.get? artifactId with
  | none => (.error (.unknownId artifactId), r)
  | some record =>
    if record.owner = .user then (.error (.alreadyUserOwned artifactId), r)
    else
      match fs.normalise finalPath with
      | .error e => (.error (.path e), r)
      | .ok destination =>
        match fs.isFile destination with
        | .error e => (.error (.path e), r)
        | .ok false => (.error (.noFile destination), r)
        | .ok true =>
          match r.forPath fs destination with
          | .error e => (.error (.path e), r)
          | .ok clash =>
            if clash.any fun c => c.artifactId ≠ artifactId then
              (.error (.destinationRegistered destination), r)
            else
              match sizeBytes.elim (measured fs destination) .ok with
              | .error e => (.error (.path e), r)
              | .ok size =>
                let record := record.transferred destination size transferredAt
                (saved saves record, r.persist (r.records.set artifactId record) saves)

def forget (artifactId : PyStr) (saves : Bool) :
    Except (OwnershipError P) Unit × ArtifactOwnershipRegistry P :=
  match r.records.get? artifactId with
  | none => (.ok (), r)
  | some record =>
    if record.owner = .user then (.error (.userOwned artifactId), r)
    else (saved saves (), r.persist (r.records.erase artifactId) saves)

/-- The loop of `prune_missing_qronos_records`: the records that are left, and those that were
removed before a path could not be inspected. -/
def pruneLoop : List (ArtifactRecord P) → Dict PyStr (ArtifactRecord P) →
    Except PathError (List (ArtifactRecord P)) × Dict PyStr (ArtifactRecord P)
  | [], records => (.ok [], records)
  | record :: rest, records =>
    if record.owner ≠ .qronos then pruneLoop rest records
    else
      match fs.exists_ record.path with
      | .error e => (.error e, records)
      | .ok true => pruneLoop rest records
      | .ok false =>
        let (removed, records) := pruneLoop rest (records.erase record.artifactId)
        (removed.map (record :: ·), records)

def pruneMissingQronosRecords (saves : Bool) :
    Except (OwnershipError P) (List (ArtifactRecord P)) × ArtifactOwnershipRegistry P :=
  match pruneLoop fs r.records.values r.records with
  | (.error e, records) => (.error (.path e), { r with records := records })
  | (.ok removed, records) =>
    if removed.isEmpty then (.ok removed, { r with records := records })
    else (saved saves removed, r.persist records saves)

end ArtifactOwnershipRegistry
end QronosAgent.Storage

import QronosAgent.Lib.Machine
import QronosAgent.Media.Looks

/-! The roots, files and assets of the media index: `_record_root` and `remove_root` of
`qronos_media/service.py`, `apply` of `qronos_media/scan.py`, `mark_changed` and the hashing of
`qronos_media/jobs.py`, a step for every transaction. What is on the disk is given. -/
namespace QronosAgent.Media
open Lib

structure FileState where
  size : ℕ
  mtimeNs : ℤ
  fileId : ℕ
  deriving DecidableEq

structure RootRow where
  path : FilePath
  file : Bool
  maxDepth : ℕ

structure CatalogFile where
  rootId : RootId
  stat : FileState
  assetId : Option AssetId
  hashed : Option FileState
  status : FileStatus
  error : Option PyStr
  seenAt : Seconds

def outOfScope : PyStr := py "out_of_scope"

inductive DerivedTable where
  | stream
  | subtitleTrack
  | dialogue
  | scene
  | keyframe
  | semanticWindow
  | asrChunk
  | stage

structure DerivedRow (ρ : Type) where
  asset : AssetId
  table : DerivedTable
  row : ρ

structure HashRecord where
  asset : AssetId
  path : FilePath
  root : RootId

structure Catalog (ρ : Type) where
  roots : Dict RootId RootRow
  /-- The next value of the autoincremented `root_id`. -/
  nextRoot : RootId
  files : Dict FilePath CatalogFile
  assets : List AssetId
  derived : List (DerivedRow ρ)
  hashed : List HashRecord

namespace Catalog
variable {ρ : Type} (db : Catalog ρ)

def empty : Catalog ρ := ⟨Dict.empty, 1, Dict.empty, [], [], []⟩

/-- `_record_root`: the root of a path is updated in place. -/
def recordRoot (row : RootRow) : Catalog ρ :=
  match db.roots.items.find? fun r => r.2.path = row.path with
  | some (id, _) => { db with roots := db.roots.set id row }
  | none => { db with roots := db.roots.set db.nextRoot row, nextRoot := db.nextRoot + 1 }

def pendingRow (root : RootId) (stat : FileState) (error : Option PyStr) (now : Seconds) :
    CatalogFile :=
  ⟨root, stat, none, none, .pendingIdentity, error, now⟩

/-- One entry of a scan; a row cannot be inserted for a root that is not recorded. -/
def scanEntry (root : RootId) (now : Seconds) (db : Catalog ρ) (entry : FilePath × FileState) :
    Option (Catalog ρ) :=
  match db.files.get? entry.1 with
  | none =>
    if (db.roots.get? root).isSome then
      some { db with files := db.files.set entry.1 (pendingRow root entry.2 none now) }
    else none
  | some row =>
    if row.rootId ≠ root then some db
    else if row.stat = entry.2 ∧ (row.status = .present ∨ row.status = .pendingIdentity) then
      some { db with files := db.files.modify entry.1 fun row => { row with seenAt := now } }
    else
      some { db with
        files := db.files.modify entry.1 fun row => pendingRow row.rootId entry.2 none now }

def scanBatch (root : RootId) (now : Seconds) (entries : List (FilePath × FileState)) :
    Option (Catalog ρ) :=
  entries.foldlM (scanEntry root now) db

/-- The files that a whole scan of a root has not seen. -/
def scanMissing (root : RootId) (seen : List FilePath) (now : Seconds) : Catalog ρ :=
  let unseen := db.files.items.filter fun f =>
    f.2.rootId = root ∧ f.2.status ≠ .missing ∧ f.1 ∉ seen
  { db with
    files := unseen.foldl (fun files f => files.modify f.1 fun row =>
      { row with status := .missing, seenAt := now }) db.files }

/-- `mark_out_of_scope`. -/
def markOutOfScope (paths : List FilePath) : Catalog ρ :=
  { db with
    files := paths.foldl (fun files path => files.modify path fun row =>
      { row with status := .missing, error := some outOfScope }) db.files }

/-- `mark_changed`, with the stat that each file has, if it is still there. -/
def markChanged (paths : List (FilePath × Option FileState)) : Catalog ρ :=
  { db with
    files := paths.foldl (fun files p => files.modify p.1 fun row =>
      match p.2 with
      | none => { row with assetId := none, hashed := none, status := .missing }
      | some stat =>
        { row with
          assetId := none
          hashed := none
          stat := stat
          status := .pendingIdentity
          error := some (py "changed since hashed") }) db.files }

def hashFailed (path : FilePath) (error : PyStr) : Catalog ρ :=
  { db with
    files := db.files.modify path fun row => { row with status := .failed, error := some error } }

def hashRecords (path : FilePath) (root : RootId) (asset : AssetId) : List HashRecord :=
  ⟨asset, path, root⟩ :: ((db.files.get? path).map fun row => ⟨asset, path, row.rootId⟩).toList

def hashCommit (path : FilePath) (root : RootId) (stat : FileState) (asset : AssetId) :
    Catalog ρ :=
  { db with
    assets := if asset ∈ db.assets then db.assets else asset :: db.assets
    files := db.files.modify path fun row =>
      { row with assetId := some asset, status := .present, error := none, hashed := some stat }
    hashed := db.hashRecords path root asset ++ db.hashed }

def stageCommit (asset : AssetId) (rows : List (DerivedTable × ρ)) : Option (Catalog ρ) :=
  if asset ∈ db.assets ∨ rows = [] then
    let kept := db.derived.filter fun d => d.asset ≠ asset
    some { db with derived := kept ++ rows.map fun r => ⟨asset, r.1, r.2⟩ }
  else none

def Linked (root : RootId) (asset : AssetId) : Prop :=
  ∃ path row, db.files.get? path = some row ∧ row.rootId = root ∧ row.assetId = some asset

def HashedUnder (root : RootId) (asset : AssetId) : Prop :=
  ∃ r ∈ db.hashed, r.asset = asset ∧ r.root = root

def Recorded (root : RootId) : Prop := (db.roots.get? root).isSome

/-- The assets that `remove_root` finds: a file row of the root refers to each, and no row of
another root does. -/
def orphaned (root : RootId) : List AssetId :=
  let candidates := (db.files.items.filter fun f => f.2.rootId = root).filterMap
    fun f => f.2.assetId
  candidates.dedup.filter fun asset =>
    (db.files.items.find? fun f => f.2.assetId = some asset ∧ f.2.rootId ≠ root).isNone

/-- The transaction of `remove_root`. It fails while a file row that stays refers to an asset
that is to go. -/
def removeRoot (root : RootId) (orphans : List AssetId) : Option (Catalog ρ) :=
  let files := db.files.filter fun _ row => row.rootId ≠ root
  if files.items.any fun f => f.2.assetId.any fun asset => asset ∈ db.assets ∧ asset ∈ orphans then
    none
  else
    some { db with
      files := files
      assets := db.assets.filter fun asset => asset ∉ orphans
      derived := db.derived.filter fun d => d.asset ∉ orphans
      roots := db.roots.erase root }

end Catalog

/-- A call of `remove_root` that has returned: the index that it read, and the index before and
after its transaction. -/
structure Removal (ρ : Type) where
  root : RootId
  read : Catalog ρ
  before : Catalog ρ
  after : Catalog ρ

/-- The index, with the files that are being hashed and the removals under way. -/
structure CatalogSys (ρ : Type) where
  db : Catalog ρ
  hashing : ℕ → Option (FilePath × RootId × FileState)
  removing : ℕ → Option (RootId × Catalog ρ)
  removals : List (Removal ρ)

inductive CatalogMove (ρ : Type) where
  | recordRoot (row : RootRow)
  | scanBatch (root : RootId) (now : Seconds) (entries : List (FilePath × FileState))
  | scanMissing (root : RootId) (seen : List FilePath) (now : Seconds)
  | markOutOfScope (paths : List FilePath)
  | markChanged (paths : List (FilePath × Option FileState))
  | hashRead (runner : ℕ) (path : FilePath)
  | hashFailed (runner : ℕ) (error : PyStr)
  | hashStopped (runner : ℕ)
  | hashCommit (runner : ℕ) (asset : AssetId)
  | stageCommit (asset : AssetId) (rows : List (DerivedTable × ρ))
  | removeRead (call : ℕ) (root : RootId)
  | removeCommit (call : ℕ)
  | removeRefused (call : ℕ)

namespace CatalogSys
variable {ρ : Type}

def start : CatalogSys ρ := ⟨Catalog.empty, fun _ => none, fun _ => none, []⟩

/-- A transaction that may fail, and then leaves the index as it is. -/
def attempt (s : CatalogSys ρ) (db : Option (Catalog ρ)) : CatalogSys ρ :=
  { s with db := db.getD s.db }

def step (s : CatalogSys ρ) : CatalogMove ρ → Option (CatalogSys ρ)
  | .recordRoot row => some { s with db := s.db.recordRoot row }
  | .scanBatch root now entries => some (s.attempt (s.db.scanBatch root now entries))
  | .scanMissing root seen now => some { s with db := s.db.scanMissing root seen now }
  | .markOutOfScope paths => some { s with db := s.db.markOutOfScope paths }
  | .markChanged paths => some { s with db := s.db.markChanged paths }
  | .hashRead runner path =>
    match s.hashing runner, s.db.files.get? path with
    | none, some row =>
      if row.status = .pendingIdentity ∧ (s.db.roots.get? row.rootId).isSome then
        some { s with
          hashing := Function.update s.hashing runner (some (path, row.rootId, row.stat)) }
      else none
    | _, _ => none
  | .hashFailed runner error =>
    (s.hashing runner).map fun h =>
      { s with
        db := s.db.hashFailed h.1 error
        hashing := Function.update s.hashing runner none }
  | .hashStopped runner => some { s with hashing := Function.update s.hashing runner none }
  | .hashCommit runner asset =>
    (s.hashing runner).map fun h =>
      { s with
        db := s.db.hashCommit h.1 h.2.1 h.2.2 asset
        hashing := Function.update s.hashing runner none }
  | .stageCommit asset rows => some (s.attempt (s.db.stageCommit asset rows))
  | .removeRead call root =>
    if (s.removing call).isNone ∧ (s.db.roots.get? root).isSome then
      some { s with removing := Function.update s.removing call (some (root, s.db)) }
    else none
  | .removeCommit call =>
    (s.removing call).map fun r =>
      let s := { s with removing := Function.update s.removing call none }
      match s.db.removeRoot r.1 (r.2.orphaned r.1) with
      | some db => { s with db := db, removals := ⟨r.1, r.2, s.db, db⟩ :: s.removals }
      | none => s
  | .removeRefused call =>
    (s.removing call).map fun _ =>
      { s with removing := Function.update s.removing call none }

end CatalogSys

def catalogMachine (ρ : Type) : Machine (CatalogSys ρ) (CatalogMove ρ) where
  start s := s = .start
  step := CatalogSys.step

end QronosAgent.Media

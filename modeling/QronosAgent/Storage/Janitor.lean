import QronosAgent.Lib.JsonCompact
import QronosAgent.Storage.Ownership

/-! `core/storage_janitor.py` with what it uses of `core/storage_budget.py`: planning a cleanup,
and deleting the files of a plan. -/
namespace QronosAgent.Storage
open Lib

inductive CapLevel where
  | normal
  | soft
  | hard
  deriving DecidableEq

inductive CleanupTrigger where
  | none
  | age
  | size
  | ageAndSize
  deriving DecidableEq

inductive DeleteReason where
  | expired
  | overSizeCap
  deriving DecidableEq

inductive SkipReason where
  | userOwned
  | outsideRoot
  | symlink
  | notAFile
  | missing
  | unreadable
  | orphanNotEligible
  | componentNotDisposable
  | changedSincePlan
  deriving DecidableEq

structure ComponentBudget (P : Type) where
  component : BudgetComponent
  root : P
  softCapBytes : ℤ
  hardCapBytes : ℤ
  maxAgeSeconds : Option Seconds
  disposable : Bool
  soft_pos : 0 < softCapBytes
  soft_lt_hard : softCapBytes < hardCapBytes
  age_pos : ∀ a, maxAgeSeconds = some a → 0 < a

structure FileEntry (P : Type) where
  path : P
  sizeBytes : ℤ
  modifiedAt : Seconds

structure ComponentUsage (P : Type) where
  totalBytes : ℤ
  entries : List (FileEntry P)

structure CleanupCandidate (P : Type) where
  path : P
  sizeBytes : ℤ
  ageSeconds : Seconds
  reason : DeleteReason

structure SkippedItem (P : Type) where
  path : P
  reason : SkipReason

structure CleanupPlan (P : Type) where
  component : BudgetComponent
  root : P
  trigger : CleanupTrigger
  candidates : List (CleanupCandidate P)
  skipped : List (SkippedItem P)
  usageBeforeBytes : ℤ
  targetBytes : ℤ

section Plan
variable {P : Type}

def FileEntry.ageSeconds (entry : FileEntry P) (now : Seconds) : Seconds :=
  max 0 (now - entry.modifiedAt)

/-- `(modified_at, str(path))` before another. -/
def entryLt (a b : Seconds × PyStr) : Bool :=
  a.1 < b.1 || (a.1 == b.1 && Json.strLt a.2 b.2)

def ComponentUsage.entriesOldestFirst (lib : PathLib P) (usage : ComponentUsage P) :
    List (FileEntry P) :=
  sortedBy entryLt (fun e => (e.modifiedAt, lib.str e.path)) usage.entries

def expired (maxAge : Option Seconds) (now : Seconds) (entry : FileEntry P) : Bool :=
  maxAge.any fun limit => limit ≤ entry.ageSeconds now

def classifyUsage (budget : ComponentBudget P) (usage : ComponentUsage P) : CapLevel :=
  if budget.hardCapBytes ≤ usage.totalBytes then .hard
  else if budget.softCapBytes ≤ usage.totalBytes then .soft
  else .normal

def resolveTrigger (budget : ComponentBudget P) (usage : ComponentUsage P) (now : Seconds) :
    CleanupTrigger :=
  let bySize := classifyUsage budget usage ≠ .normal
  let byAge := usage.entries.any (expired budget.maxAgeSeconds now)
  if bySize ∧ byAge then .ageAndSize else if byAge then .age else if bySize then .size else .none

/-- `is_nameable`. -/
def isNameable (text : PyStr) : Bool := text.all fun c => 0x20 ≤ c.code

variable [DecidableEq P] {lib : PathLib P}

/-- What the guarded body of `_screen` yields: a reason, or the error it meets. -/
def screenBody (fs : FileSystem lib) (registry : ArtifactOwnershipRegistry P) (path root : P)
    (includeOrphans : Bool) : Except PathError (Option SkipReason) :=
  if !isNameable (lib.str path) then .ok (some .unreadable)
  else do
    if ← registry.isUserOwned fs path then return some .userOwned
    if fs.reparse path then return some .symlink
    let resolvedRoot ← fs.normalise root
    let resolvedPath ← fs.normalise path
    if !lib.isRelativeTo resolvedPath resolvedRoot then return some .outsideRoot
    if !(← fs.exists_ path) then return some .missing
    if !(← fs.isFile path) then return some .notAFile
    if !includeOrphans then
      if (← registry.forPath fs path).isNone then return some .orphanNotEligible
    return none

/-- `_screen`: an `OSError` or a `ValueError` becomes a reason, a `RuntimeError` gets out. -/
def screen (fs : FileSystem lib) (registry : ArtifactOwnershipRegistry P) (path root : P)
    (includeOrphans : Bool) : Except PathError (Option SkipReason) :=
  match screenBody fs registry path root includeOrphans with
  | .error .os => .ok (some .unreadable)
  | r => r

def screenAll (fs : FileSystem lib) (registry : ArtifactOwnershipRegistry P) (root : P)
    (includeOrphans : Bool) :
    List (FileEntry P) → Except PathError (List (SkippedItem P) × List (FileEntry P))
  | [] => .ok ([], [])
  | entry :: entries =>
    match screen fs registry entry.path root includeOrphans with
    | .error e => .error e
    | .ok reason =>
      (screenAll fs registry root includeOrphans entries).map fun r =>
        match reason with
        | some reason => (⟨entry.path, reason⟩ :: r.1, r.2)
        | none => (r.1, entry :: r.2)

def FileEntry.candidate (entry : FileEntry P) (now : Seconds) (reason : DeleteReason) :
    CleanupCandidate P :=
  ⟨entry.path, entry.sizeBytes, entry.ageSeconds now, reason⟩

def selectExpired (maxAge : Option Seconds) (now : Seconds) (allowed : List (FileEntry P)) :
    Dict P (CleanupCandidate P) :=
  allowed.foldl (fun selected entry =>
    if expired maxAge now entry then selected.set entry.path (entry.candidate now .expired)
    else selected) Dict.empty

def selectOldest (now : Seconds) (target : ℤ) (expiredPaths : List P) :
    List (FileEntry P) → ℤ → Dict P (CleanupCandidate P) → Dict P (CleanupCandidate P)
  | [], _, selected => selected
  | entry :: entries, projected, selected =>
    if projected ≤ target then selected
    else if entry.path ∈ expiredPaths then
      selectOldest now target expiredPaths entries projected selected
    else
      selectOldest now target expiredPaths entries (projected - entry.sizeBytes)
        (selected.set entry.path (entry.candidate now .overSizeCap))

def selected (budget : ComponentBudget P) (usage : ComponentUsage P) (now : Seconds)
    (allowed : List (FileEntry P)) : Dict P (CleanupCandidate P) :=
  let chosen := selectExpired budget.maxAgeSeconds now allowed
  if classifyUsage budget usage ≠ .normal then
    selectOldest now (min budget.softCapBytes usage.totalBytes) chosen.keys allowed
      (usage.totalBytes - (chosen.values.map CleanupCandidate.sizeBytes).sum) chosen
  else chosen

/-- `StorageJanitor.plan`. -/
def plan (fs : FileSystem lib) (registry : ArtifactOwnershipRegistry P)
    (budget : ComponentBudget P) (usage : ComponentUsage P) (now : Seconds)
    (includeOrphans : Option Bool) : Except PathError (CleanupPlan P) :=
  let trigger := resolveTrigger budget usage now
  let target := min budget.softCapBytes usage.totalBytes
  let entries := usage.entriesOldestFirst lib
  if !budget.disposable then
    .ok ⟨budget.component, budget.root, trigger, [],
      entries.map fun e => ⟨e.path, .componentNotDisposable⟩, usage.totalBytes, target⟩
  else if trigger = .none then
    .ok ⟨budget.component, budget.root, trigger, [], [], usage.totalBytes, target⟩
  else
    (screenAll fs registry budget.root (includeOrphans.getD budget.disposable) entries).map
      fun r =>
        let chosen := selected budget usage now r.2
        ⟨budget.component, budget.root, trigger, r.2.filterMap fun e => chosen.get? e.path, r.1,
          usage.totalBytes, target⟩

end Plan

inductive Verdict where
  | rejected (reason : SkipReason)
  | failed
  | deleted (size : ℤ)

/-- What the disk does around one candidate: what it has become by then, and whether `unlink`
and the store's `save` work. -/
structure Turn {P : Type} (lib : PathLib P) where
  fs : FileSystem lib
  unlinks : Bool
  saves : Bool

section Execute
variable {P : Type} [DecidableEq P] {lib : PathLib P}

def checkCandidate (fs : FileSystem lib) (registry : ArtifactOwnershipRegistry P) (root : P)
    (candidate : CleanupCandidate P) : Except PathError (SkipReason ⊕ ℤ) :=
  match screen fs registry candidate.path root true with
  | .error e => .error e
  | .ok (some reason) => .ok (.inl reason)
  | .ok none =>
    match ArtifactOwnershipRegistry.measured fs candidate.path with
    | .error _ => .ok (.inl .missing)
    | .ok size => if size ≠ candidate.sizeBytes then .ok (.inl .changedSincePlan) else .ok (.inr size)

/-- `_forget_if_registered`. -/
def forgetIfRegistered (fs : FileSystem lib) (registry : ArtifactOwnershipRegistry P) (path : P)
    (saves : Bool) : Except (OwnershipError P) Unit × ArtifactOwnershipRegistry P :=
  match registry.forPath fs path with
  | .error e => (.error (.path e), registry)
  | .ok none => (.ok (), registry)
  | .ok (some record) => registry.forget record.artifactId saves

structure Deletion {P : Type} (lib : PathLib P) where
  root : P
  candidate : CleanupCandidate P
  fs : FileSystem lib
  registry : ArtifactOwnershipRegistry P

structure Disk {P : Type} (lib : PathLib P) where
  fs : FileSystem lib
  registry : ArtifactOwnershipRegistry P
  deletions : List (Deletion lib)

/-- One round of the loop. -/
def executeOne (root : P) (dryRun : Bool) (d : Disk lib) (candidate : CleanupCandidate P)
    (turn : Turn lib) : Except (OwnershipError P) Verdict × Disk lib :=
  match checkCandidate turn.fs d.registry root candidate with
  | .error e => (.error (.path e), { d with fs := turn.fs })
  | .ok (.inl reason) => (.ok (.rejected reason), { d with fs := turn.fs })
  | .ok (.inr size) =>
    if dryRun then (.ok (.deleted size), { d with fs := turn.fs })
    else if !turn.unlinks then (.ok .failed, { d with fs := turn.fs })
    else
      let fs := turn.fs.unlink candidate.path
      let (r, registry) := forgetIfRegistered fs d.registry candidate.path turn.saves
      (r.map fun _ => .deleted size,
        ⟨fs, registry, ⟨root, candidate, turn.fs, d.registry⟩ :: d.deletions⟩)

/-- `StorageJanitor.execute`; the verdicts are those of the outcome, in order. An exception ends
the pass without an outcome. -/
def execute (root : P) (dryRun : Bool) :
    List (CleanupCandidate P × Turn lib) → Disk lib →
      Except (OwnershipError P) (List Verdict) × Disk lib
  | [], d => (.ok [], d)
  | (candidate, turn) :: rest, d =>
    match executeOne root dryRun d candidate turn with
    | (.error e, d) => (.error e, d)
    | (.ok verdict, d) =>
      let (r, d) := execute root dryRun rest d
      (r.map (verdict :: ·), d)

end Execute
end QronosAgent.Storage

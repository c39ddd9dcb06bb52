import QronosAgent.Lib.Fated
import QronosAgent.Lib.Json

/-! A disk: the objects at its paths, and where a path leads through links. -/
namespace QronosAgent.Files
open Lib

abbrev Path := List PyStr

inductive Kind where
  | file (content : List UInt8)
  | folder (size : ℕ)
  | link (dest : Path) (size : ℕ)
  deriving DecidableEq

structure Node where
  volume : ℕ
  inode : ℕ
  modified : ℤ
  kind : Kind
  deriving DecidableEq

namespace Node

def size (n : Node) : ℕ := match n.kind with
  | .file content => content.length
  | .folder size => size
  | .link _ size => size

def isFile (n : Node) : Bool := match n.kind with
  | .file _ => true
  | _ => false

def isFolder (n : Node) : Bool := match n.kind with
  | .folder _ => true
  | _ => false

def isLink (n : Node) : Bool := match n.kind with
  | .link _ _ => true
  | _ => false

def leadsTo (n : Node) : Option Path := match n.kind with
  | .link dest _ => some dest
  | _ => none

theorem isLink_of_isFile {n : Node} (h : n.isFile = true) : n.isLink = false := by
  unfold isFile at h
  unfold isLink
  split at h <;> simp_all

theorem isLink_of_isFolder {n : Node} (h : n.isFolder = true) : n.isLink = false := by
  unfold isFolder at h
  unfold isLink
  split at h <;> simp_all

theorem isFolder_of_isFile {n : Node} (h : n.isFile = true) : n.isFolder = false := by
  unfold isFile at h
  unfold isFolder
  split at h <;> simp_all

theorem leadsTo_eq_none {n : Node} (h : n.isLink = false) : n.leadsTo = none := by
  unfold isLink at h
  unfold leadsTo
  split at h <;> simp_all

end Node

abbrev Disk := Dict Path Node

namespace Disk

/-- Where a path leads, when `follow` tells it of the path of a link. -/
def resolveWith (d : Disk) (follow : Path → Option Path) : Path → Option Path
  | [] => some []
  | name :: folder => (resolveWith d follow folder).bind fun folder =>
      if name = py ".." then some folder.tail
      else match (d.get? (name :: folder)).bind Node.leadsTo with
        | some dest => follow dest
        | none => some (name :: folder)

/-- Where a path leads, through `n` links one within the other. -/
def resolveIn (d : Disk) : ℕ → Path → Option Path
  | 0 => resolveWith d fun _ => none
  | n + 1 => resolveWith d (resolveIn d n)

/-- Where a path leads; `none` when its links go in a circle. -/
def resolve (d : Disk) : Path → Option Path := resolveIn d d.items.length

/-- The place of a path whose last name is not followed. -/
def place (d : Disk) : Path → Option Path
  | [] => some []
  | name :: folder =>
    if name = py ".." then resolve d (name :: folder)
    else (resolve d folder).map (name :: ·)

/-- `os.stat` -/
def stat? (d : Disk) (path : Path) : Option Node := (resolve d path).bind d.get?

/-- `os.lstat` -/
def lstat? (d : Disk) (path : Path) : Option Node := (place d path).bind d.get?

def isFileAt (d : Disk) (path : Path) : Bool := (stat? d path).any Node.isFile

def isFolderAt (d : Disk) (path : Path) : Bool := (stat? d path).any Node.isFolder

def isLinkAt (d : Disk) (path : Path) : Bool := (lstat? d path).any Node.isLink

/-- `os.path.samefile` -/
def sameFile (d : Disk) (path other : Path) : Bool :=
  match stat? d path, stat? d other with
  | some n, some m => n.volume = m.volume && n.inode = m.inode
  | _, _ => false

/-- Nothing is in this place's folder. -/
def emptyAt (d : Disk) (path : Path) : Bool := d.keys.all fun key => key.tail ≠ path || key = []

/-- A file at this place, a folder with what is in it, is at the other place. -/
def moved (d : Disk) (source target : Path) : Disk :=
  match d.get? source with
  | none => d
  | some n =>
    if n.isFolder then
      d.items.foldl (fun e item => e.set
        (if source <:+ item.1 then item.1.take (item.1.length - source.length) ++ target
          else item.1) item.2) .empty
    else (d.erase source).set target n

def Plain (d : Disk) : Path → Prop
  | [] => True
  | name :: folder => name ≠ py ".." ∧ (∀ n, d.get? (name :: folder) = some n → n.isLink = false) ∧
      Plain d folder

def IsTree (d : Disk) : Prop := (d.get? []).any Node.isFolder = true ∧
  ∀ name folder n, d.get? (name :: folder) = some n → (d.get? folder).any Node.isFolder = true

variable {d e : Disk} {path target folder : Path} {name : PyStr} {n : Node}

theorem Plain.tail (h : Plain d path) : Plain d path.tail := by
  cases path with
  | nil => exact h
  | cons name folder => exact h.2.2

theorem Plain.resolveWith {follow : Path → Option Path} (h : Plain d path) :
    resolveWith d follow path = some path := by
  induction path with
  | nil => rfl
  | cons name folder ih =>
    obtain ⟨hname, hnot, hfolder⟩ := h
    rw [Disk.resolveWith, ih hfolder, Option.bind_some, if_neg hname]
    have hlink : (d.get? (name :: folder)).bind Node.leadsTo = none := by
      rw [Option.bind_eq_none_iff]
      intro n hn
      exact Node.leadsTo_eq_none (hnot n hn)
    rw [hlink]

theorem Plain.resolve (h : Plain d path) : resolve d path = some path := by
  unfold Disk.resolve
  cases d.items.length with
  | zero => exact h.resolveWith
  | succ _ => exact h.resolveWith

theorem plain_of_resolveWith {follow : Path → Option Path}
    (hfollow : ∀ dest q, follow dest = some q → Plain d q)
    (h : Disk.resolveWith d follow path = some target) : Plain d target := by
  induction path generalizing target with
  | nil =>
    cases h
    trivial
  | cons name folder ih =>
    rw [Disk.resolveWith, Option.bind_eq_some_iff] at h
    obtain ⟨base, hbase, h⟩ := h
    have hplain := ih hbase
    by_cases hname : name = py ".."
    · rw [if_pos hname] at h
      cases h
      exact hplain.tail
    · rw [if_neg hname] at h
      cases hlink : (d.get? (name :: base)).bind Node.leadsTo with
      | some dest =>
        rw [hlink] at h
        exact hfollow dest target h
      | none =>
        rw [hlink] at h
        cases h
        refine ⟨hname, fun n hn => ?_, hplain⟩
        rw [hn, Option.bind_some] at hlink
        cases hkind : n.kind with
        | file | folder => simp [Node.isLink, hkind]
        | link dest size => simp [Node.leadsTo, hkind] at hlink

theorem plain_of_resolveIn {k : ℕ} (h : resolveIn d k path = some target) : Plain d target := by
  induction k generalizing path target with
  | zero =>
    apply plain_of_resolveWith _ h
    intro dest q hq
    cases hq
  | succ k ih => exact plain_of_resolveWith (fun dest q hq => ih hq) h

/-- Where a path leads is no link, and in no link. -/
theorem plain_of_resolve (h : Disk.resolve d path = some target) : Plain d target :=
  plain_of_resolveIn h

theorem Plain.stat (h : Plain d path) : stat? d path = d.get? path := by
  rw [stat?, h.resolve, Option.bind_some]

theorem Plain.place (h : Plain d folder) (hname : name ≠ py "..") :
    Disk.place d (name :: folder) = some (name :: folder) := by
  rw [Disk.place, if_neg hname, h.resolve, Option.map_some]

theorem Plain.place_self (h : Plain d path) : Disk.place d path = some path := by
  cases path with
  | nil => rfl
  | cons name folder => exact h.2.2.place h.1

theorem Plain.lstat (h : Plain d path) : lstat? d path = d.get? path := by
  rw [lstat?, h.place_self, Option.bind_some]

theorem Plain.congr (h : Plain d path)
    (hlinks : ∀ p n, e.get? p = some n → n.isLink = true → d.get? p = some n) : Plain e path := by
  induction path with
  | nil => trivial
  | cons name folder ih =>
    refine ⟨h.1, fun n hn => ?_, ih h.2.2⟩
    by_contra hlink
    have hlink : n.isLink = true := by simpa using hlink
    rw [h.2.1 n (hlinks _ n hn hlink)] at hlink
    cases hlink

end Disk

/-! The disk calls of a file action, as `pathlib`, `os` and `shutil` make them. Each of them may
fail. -/

structure Failure where
  type : PyStr
  message : PyStr

/-- `f"{type(exc).__name__}: {exc}"` -/
def Failure.text (e : Failure) : PyStr := e.type ++ py ": " ++ e.message

inductive DiskCall where
  | opens
  | sourceIsFile
  | destinationIsDir
  | parentIsDir
  | targetExists
  | copySame
  | copyOpen
  | copyPart
  | copyRest
  | copyStat
  | moveIsDir
  | moveSame
  | moveExists
  | moveIsTree
  | moveTree
  | moveUnlink
  | rename
  | mkdir
  | unlink
  | rmdir
  | sourceExists
  | movedExists
  | leftExists
  | targetIsFile
  | targetIsDir
  | targetStat
  | sourceStat
  | lstat
  | identityIsDir
  | identityIsLink
  deriving DecidableEq

structure Chance where
  refusal : Failure
  /-- How much of the content a failing write has written. -/
  part : ℕ
  made : Kind → Node
  made_kind : ∀ kind, (made kind).kind = kind
  folderSize : ℕ
  /-- What a failing move of a folder to another volume leaves. -/
  tree : Disk → Disk
  sha256 : Option PyStr

structure Platform where
  text : Path → PyStr
  path : PyStr → Path
  /-- `Path(text).expanduser()`; `none` when it is not absolute. -/
  expanded : PyStr → Except Failure (Option Path)
  /-- `os.rename` puts a file in the place of one that is there. -/
  renameReplaces : Bool

abbrev OnDisk (α : Type) := Fated DiskCall Failure Disk Failure α

def asks (call : DiskCall) (f : Disk → Bool) : OnDisk Bool :=
  Fated.rescue (do
    Fated.effect call id id
    Fated.look f) fun _ => pure false

def reads {α : Type} (call : DiskCall) (refusal : Failure) (f : Disk → Option α) : OnDisk α := do
  Fated.effect call id id
  let read ← Fated.look f
  Fated.demand refusal read

def changes {α : Type} (call : DiskCall) (refusal : Failure) (f : Disk → Option α)
    (change : α → Disk → Disk) : OnDisk Unit := do
  let found ← Fated.look f
  let found ← Fated.demand refusal found
  Fated.effect call id (change found)

namespace Disk

def contentOf (n : Node) : Option (List UInt8) := match n.kind with
  | .file content => some content
  | _ => none

/-- The place that `open(path, "wb")` writes. -/
def writable (d : Disk) (path : Path) : Option Path :=
  (d.resolve path).filter fun place =>
    (d.get? place.tail).any Node.isFolder && !(d.get? place).any Node.isFolder

/-- The places of an `os.rename` that the system does not refuse. -/
def renamable (d : Disk) (replaces : Bool) (source target : Path) : Option (Path × Path) := do
  let source ← d.place source
  let target ← d.place target
  let n ← d.get? source
  let free := (d.get? target).all fun m =>
    replaces && if n.isFolder then m.isFolder && d.emptyAt target else !m.isFolder
  let apart := source = target || !(n.isFolder && source <:+ target)
  if (d.get? target.tail).any Node.isFolder && free && apart then some (source, target) else none

/-- The place of an object that `p` holds of. -/
def placeOf (d : Disk) (p : Node → Bool) (path : Path) : Option Path := do
  let place ← d.place path
  let n ← d.get? place
  if p n then some place else none

/-- The place of an `os.mkdir` that the system does not refuse. -/
def makable (d : Disk) (path : Path) : Option Path := do
  let place ← d.place path
  if (d.get? place).isNone && (d.get? place.tail).any Node.isFolder then some place else none

end Disk

def Chance.write (chance : Chance) (place : Path) (content : List UInt8) (d : Disk) : Disk :=
  let made := chance.made (.file content)
  d.set place (match d.get? place with
    | some n => { n with modified := made.modified, kind := .file content }
    | none => made)

/-- `shutil.copy2` -/
def copy2 (chance : Chance) (source target : Path) : OnDisk Unit := do
  let same ← asks .copySame fun d => d.sameFile source target
  Fated.require (same = false) ⟨py "SameFileError", []⟩
  let read ← Fated.look fun d => d.stat? source
  let n ← Fated.demand chance.refusal read
  let content ← Fated.demand chance.refusal (Disk.contentOf n)
  let found ← Fated.look fun d => d.writable target
  let place ← Fated.demand chance.refusal found
  Fated.effect .copyOpen id (chance.write place [])
  Fated.effect .copyPart id (chance.write place (content.take chance.part))
  Fated.effect .copyRest id (chance.write place content)
  Fated.effect .copyStat id fun d => d.modify place fun m => { m with modified := n.modified }

/-- `os.rename` -/
def rename (plat : Platform) (chance : Chance) (source target : Path) : OnDisk Unit :=
  changes .rename chance.refusal (fun d => d.renamable plat.renameReplaces source target)
    fun places d => d.moved places.1 places.2

/-- `os.unlink` -/
def unlink (chance : Chance) (call : DiskCall) (path : Path) : OnDisk Unit :=
  changes call chance.refusal (fun d => d.placeOf (fun n => !n.isFolder) path) fun place d =>
    d.erase place

/-- `os.rmdir` -/
def rmdir (chance : Chance) (path : Path) : OnDisk Unit :=
  changes .rmdir chance.refusal
    (fun d => (d.placeOf Node.isFolder path).filter fun place => d.emptyAt place)
    fun place d => d.erase place

/-- `os.mkdir` -/
def mkdir (chance : Chance) (path : Path) : OnDisk Unit :=
  changes .mkdir chance.refusal (fun d => d.makable path) fun place d =>
    d.set place (chance.made (.folder chance.folderSize))

/-- `copytree` and `rmtree`, for a folder on another volume. -/
def moveTree (chance : Chance) (source target : Path) : OnDisk Unit := fun fates d =>
  match fates .moveTree with
  | .goes => (.returned (), d.moved source target)
  | .fails why => (.raised why, chance.tree d)
  | .stops => (.stopped, chance.tree d)

/-- `shutil.move`; `source` is where a path leads, so it is no link. -/
def move (plat : Platform) (chance : Chance) (source target : Path) : OnDisk Unit := do
  let isDir ← asks .moveIsDir fun d => d.isFolderAt target
  let same ← if isDir then asks .moveSame fun d => d.sameFile source target else pure false
  let taken ← if isDir then
      asks .moveExists fun d => (d.stat? (source.headD [] :: target)).isSome
    else pure false
  let real := if isDir && !same then source.headD [] :: target else target
  Fated.require (same || !taken) ⟨py "Error",
    py "Destination path '" ++ plat.text real ++ py "' already exists"⟩
  if same then rename plat chance source target
  else Fated.rescue (rename plat chance source real) fun _ => do
    let isTree ← asks .moveIsTree fun d => d.isFolderAt source
    if isTree then moveTree chance source real
    else do
      copy2 chance source real
      unlink chance .moveUnlink source

/-- `f"v1d:…"` of a folder, and `f"v1f:…"` of what is taken for a file. -/
def identityText (isFolder : Bool) (n : Node) : PyStr :=
  if isFolder then py "v1d:" ++ natText n.volume ++ py ":" ++ natText n.inode
  else py "v1f:" ++ natText n.volume ++ py ":" ++ natText n.inode ++ py ":" ++ natText n.size ++
    py ":" ++ intText n.modified

/-- `file_identity`; empty when it cannot be read. -/
def fileIdentity (chance : Chance) (path : Path) : OnDisk PyStr :=
  Fated.rescue (do
    let n ← reads .lstat chance.refusal fun d => d.lstat? path
    let isDir ← asks .identityIsDir fun d => d.isFolderAt path
    let isLink ← asks .identityIsLink fun d => d.isLinkAt path
    pure (identityText (isDir && !isLink) n)) fun _ => pure []

end QronosAgent.Files

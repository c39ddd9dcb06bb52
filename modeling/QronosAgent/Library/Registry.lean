import QronosAgent.Lib.Dict
import QronosAgent.Lib.Fated
import QronosAgent.Lib.PathNames

/-! `core/artifact_registry.py`: the folders that the Library works on, the artifacts' records, and
the statements that change them. Each call of the system, and each transaction, may fail. -/
namespace QronosAgent.Library
open Lib

structure Place (F : Type) where
  folder : F
  name : PyStr
  deriving DecidableEq

inductive Kind where
  | file (bytes : List UInt8)
  | folder
  | link (leads : Bool)

def Kind.isLink : Kind → Bool
  | .link _ => true
  | _ => false

def Kind.isFile : Kind → Bool
  | .file _ => true
  | _ => false

/-- `path.exists()` of it. -/
def Kind.leads : Kind → Bool
  | .link leads => leads
  | _ => true

structure FileState where
  dev : ℕ
  ino : ℕ
  mtimeNs : ℤ
  /-- The marker is the time of birth, or the one of the last change. -/
  born : Bool
  markerNs : ℤ
  deriving DecidableEq

structure Identity where
  size : ℕ
  sha256 : PyStr
  state : FileState
  deriving DecidableEq

inductive Where (F : Type) where
  | file (place : Place F)
  | url (text : PyStr)
  deriving DecidableEq

def Where.isUrl {F : Type} : Where F → Bool
  | .url _ => true
  | .file _ => false

structure Artifact (F : Type) where
  pathOrUrl : Where F
  name : PyStr
  sizeBytes : ℕ
  contentHash : PyStr
  /-- What `json.loads` makes of `file_identity`. -/
  identity : Option Identity
  available : Bool
  duplicateGroup : Option PyStr

structure State (F : Type) where
  /-- By folder and name as the file system takes it. -/
  disk : F × PyStr → Option Kind
  recycleBin : List (Place F × List UInt8)
  records : Dict PyStr (Artifact F)

structure System where
  windows : Bool
  /-- Two names that it makes one are one name for the file system. -/
  fold : PyStr → PyStr
  sha256 : List UInt8 → PyStr
  upper : PyStr → PyStr
  lower : PyStr → PyStr

inductive OsError where
  | crossDevice
  | fileExists
  | other
  deriving DecidableEq

inductive Way where
  | there
  | back

/-- What is renamed: the artifact's file, or its partial copy to a candidate's name. -/
inductive Named where
  | artifact
  | copy (i : ℕ)

inductive Transaction where
  | current
  | relocate
  | register
  | renameLink
  | remove
  | recompute
  | get

inductive Call where
  | pathLstat
  | pathIsFile
  | pathResolve
  | pathStat
  | pathHash
  | targetExists
  | targetLstat
  | targetExistsAgain
  | sameFile
  | rename (w : Way) (n : Named)
  | link (w : Way) (n : Named)
  | unlinkOld (w : Way) (n : Named)
  | copyOpen (w : Way)
  | copyPart (w : Way)
  | copyRest (w : Way)
  | copyStat (w : Way)
  | partialStat (w : Way)
  | sourceStat (w : Way)
  | identityStat (w : Way)
  | partialHash (w : Way)
  | candidateLstat (w : Way) (i : ℕ)
  | partialExists (w : Way)
  | unlinkPartial (w : Way)
  | unlinkSource (w : Way)
  | unlinkCreated (w : Way)
  | registeredLstat
  | registeredIsFile
  | registeredStat
  | registeredIdentity
  | registeredHash
  | createdIsFile
  | createdLstat
  | unlinkCopy
  | recycle
  | recycledExists
  | recycledLstat
  | transaction (t : Transaction)

/-- What the system answers in one operation, beside what the folders show. -/
structure Given where
  partialName : Way → PyStr
  /-- How much of the content a failing copy has written. -/
  part : Way → ℕ
  /-- The target is another name of the artifact's own file. -/
  linked : Bool
  plain : Bool
  /-- The path is in a protected folder, or is one of Qronos's state files. -/
  guarded : Bool
  state : FileState
  newId : PyStr
  takes : Bool

inductive Refusal where
  | removed
  | changed
  | isLink
  | missing
  | leadsElsewhere
  | otherFile
  | guarded
  | name (message : PyStr)
  | taken
  | sameFolder
  | linkAsFile
  deriving DecidableEq

inductive LibraryError where
  | os (e : OsError)
  | database
  | refused (why : Refusal)
  | copyDiffers
  | noFreeName
  | isLink
  | noFile
  | concurrently
  | unnamed
  | unknown
  | notTaken
  | inRecycleBin
  | remains
  | putBack
  deriving DecidableEq

abbrev OnLibrary (F α : Type) := Fated Call OsError (State F) LibraryError α

section
variable {F : Type} [DecidableEq F] (sys : System)

def Place.key (p : Place F) : F × PyStr := (p.folder, sys.fold p.name)

namespace State
variable (s : State F)

def at? (p : Place F) : Option Kind := s.disk (p.key sys)

def bytes? (p : Place F) : Option (List UInt8) := (s.at? sys p).bind fun kind => match kind with
  | .file bytes => some bytes
  | _ => none

def put (p : Place F) (kind : Option Kind) : State F :=
  { s with disk := Function.update s.disk (p.key sys) kind }

def write (p : Place F) (bytes : List UInt8) : State F := s.put sys p (some (.file bytes))

def linked (source target : Place F) : State F := s.put sys target (s.at? sys source)

def renamed (source target : Place F) : State F :=
  (s.put sys source none).put sys target (s.at? sys source)

/-- How the system refuses a new name; `same` if another way to write the old one is none. -/
def refuses (same : Bool) (source target : Place F) : Except OsError Unit :=
  if (s.at? sys source).isNone then .error .other
  else if (s.at? sys target).isNone || same && source.key sys = target.key sys then .ok ()
  else .error .fileExists

end State

/-- A look that answers `answer` when the call fails. -/
def asks (call : Call) (answer : Bool) (f : State F → Bool) : OnLibrary F Bool :=
  Fated.rescue (do
    Fated.effect call .os id
    Fated.look f) fun _ => pure answer

/-- `is_link_or_reparse_point`: what cannot be looked at is taken for a link. -/
def isLinkOrReparsePoint (call : Call) (p : Place F) : OnLibrary F Bool :=
  asks call true fun s => (s.at? sys p).any Kind.isLink

/-- `path.exists()` -/
def exists? (call : Call) (p : Place F) : OnLibrary F Bool :=
  asks call false fun s => (s.at? sys p).any Kind.leads

/-- `path.is_file()` of what is no link. -/
def isFile (call : Call) (p : Place F) : OnLibrary F Bool :=
  asks call false fun s => (s.at? sys p).any Kind.isFile

/-- The bytes of the file, once the call has not failed. -/
def reads (call : Call) (p : Place F) : OnLibrary F (List UInt8) := do
  Fated.effect call .os id
  let found ← Fated.look fun s => s.bytes? sys p
  Fated.demand (.os .other) found

def hashInlineMaxBytes : ℕ := 128 * 1024 * 1024

/-- `file_identity` -/
def fileIdentity (given : Given) (stat hash : Call) (p : Place F) : OnLibrary F Identity := do
  let bytes ← reads sys stat p
  if bytes.length ≤ hashInlineMaxBytes then do
    let bytes ← reads sys hash p
    pure ⟨bytes.length, sys.sha256 bytes, given.state⟩
  else pure ⟨bytes.length, [], given.state⟩

/-- `_same_file_state` -/
def sameFileState (recorded : Option Identity) (size : ℕ) (state : FileState) : Bool :=
  recorded.any fun r => r.state.ino ≠ 0 && r.size = size && r.state = state

/-- `str(recorded.get("sha256") or content_hash or "")` -/
def expectedHash (recorded : Option Identity) (contentHash : PyStr) : PyStr :=
  match recorded with
  | some r => if r.sha256 = [] then contentHash else r.sha256
  | none => contentHash

/-- `identity_matches`; `size` is the recorded one, if there is one. -/
def hashMatches (stat hash : Call) (expected : PyStr) (size : Option ℕ) (p : Place F) :
    OnLibrary F Bool := do
  let bytes ← reads sys stat p
  if size.any (· ≠ bytes.length) || bytes.length > hashInlineMaxBytes then pure false
  else do
    let bytes ← reads sys hash p
    pure (sys.sha256 bytes = expected)

def identityMatches (given : Given) (artifact : Artifact F) (p : Place F) : OnLibrary F Bool :=
  let expected := expectedHash artifact.identity artifact.contentHash
  if expected = [] then do
    let bytes ← reads sys .pathStat p
    pure (sameFileState artifact.identity bytes.length given.state)
  else hashMatches sys .pathStat .pathHash expected (artifact.identity.map Identity.size) p

def Artifact.atFile (a : Artifact F) (p : Place F) (identity : Identity) : Artifact F :=
  { a with
    pathOrUrl := .file p
    name := p.name
    sizeBytes := identity.size
    contentHash := identity.sha256
    identity := some identity
    available := true }

def newArtifact (p : Place F) (identity : Identity) : Artifact F :=
  ⟨.file p, p.name, identity.size, identity.sha256, some identity, true, none⟩

def State.groupOf (s : State F) (a : Artifact F) : Option PyStr :=
  if a.contentHash ≠ [] ∧ 1 < (s.records.values.filter (·.contentHash = a.contentHash)).length then
    some (py "dup-" ++ a.contentHash.take 16)
  else none

def Artifact.grouped (a : Artifact F) (group : Option PyStr) : Artifact F :=
  { a with duplicateGroup := group }

/-- What `_recompute_duplicates` writes into each record. -/
def State.recomputed (s : State F) : State F :=
  { s with records := s.records.keys.foldl (fun records id =>
      records.modify id fun a => a.grouped (s.groupOf a)) s.records }

def transaction (t : Transaction) (f : State F → State F) : OnLibrary F Unit :=
  Fated.effect (.transaction t) (fun _ => .database) f

/-- `_recompute_duplicates` -/
def recomputeDuplicates : OnLibrary F Unit := transaction .recompute State.recomputed

/-- `get` -/
def get (t : Transaction) (id : PyStr) : OnLibrary F (Artifact F) := do
  transaction t fun s => s
  let found ← Fated.look fun s => s.records.get? id
  Fated.demand .unknown found

def State.withRecord (s : State F) (id : PyStr) (a : Artifact F) : State F :=
  { s with records := s.records.set id a }

/-- The record that the statement's `WHERE id=? AND path_or_url=?` finds. -/
def State.recordAt (s : State F) (id : PyStr) (expected : Where F) : Option (Artifact F) :=
  (s.records.get? id).filter fun a => a.pathOrUrl = expected

/-- `relocate` -/
def relocate (given : Given) (id : PyStr) (p : Place F) (expected : Where F) :
    OnLibrary F (Artifact F) := do
  let _ ← reads sys .registeredStat p
  let identity ← fileIdentity sys given .registeredIdentity .registeredHash p
  let found ← Fated.look fun s => s.recordAt id expected
  transaction .relocate fun s => match found with
    | some a => s.withRecord id (a.atFile p identity)
    | none => s
  Fated.require (found.isSome = true) .concurrently
  recomputeDuplicates
  get .get id

def State.recordOf (s : State F) (p : Place F) : Option (PyStr × Artifact F) :=
  s.records.items.find? fun item => item.2.pathOrUrl = .file p

/-- What `register_file` writes, and for which artifact. -/
def State.registered (s : State F) (newId : PyStr) (p : Place F) (identity : Identity) :
    PyStr × State F :=
  match s.recordOf p with
  | some (id, a) => (id, s.withRecord id (a.atFile p identity))
  | none => (newId, s.withRecord newId (newArtifact p identity))

/-- `register_file` -/
def registerFile (given : Given) (p : Place F) : OnLibrary F PyStr := do
  let link ← isLinkOrReparsePoint sys .registeredLstat p
  Fated.require (link = false) .isLink
  let file ← isFile sys .registeredIsFile p
  Fated.require (file = true) .noFile
  let _ ← reads sys .registeredStat p
  let identity ← fileIdentity sys given .registeredIdentity .registeredHash p
  -- an `id` that is taken already is refused
  let fresh ← Fated.look fun s => (s.recordOf p).isSome || (s.records.get? given.newId).isNone
  Fated.require (fresh = true) .database
  let id ← Fated.look fun s => (s.registered given.newId p identity).1
  transaction .register fun s => (s.registered given.newId p identity).2
  recomputeDuplicates
  let _ ← get .get id
  pure id

/-- `rename_link` -/
def renameLink (id newName : PyStr) (expected : Where F) : OnLibrary F Unit := do
  let cleaned := newName.strip
  Fated.require (cleaned ≠ []) .unnamed
  let found ← Fated.look fun s => (s.recordAt id expected).filter fun a => a.pathOrUrl.isUrl
  transaction .renameLink fun s => match found with
    | some a => s.withRecord id { a with name := cleaned }
    | none => s
  Fated.require (found.isSome = true) .concurrently
  let _ ← get .get id
  pure ()

/-- `remove` -/
def remove (id : PyStr) (expected : Where F) : OnLibrary F Unit := do
  let found ← Fated.look fun s => s.recordAt id expected
  transaction .remove fun s => if found.isSome then { s with records := s.records.erase id } else s
  Fated.require (found.isSome = true) .concurrently
  recomputeDuplicates

end
end QronosAgent.Library

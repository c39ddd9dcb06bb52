import QronosAgent.Lib.Json
import QronosAgent.Library.Registry

/-! `core/library_executor.py`: what a rename, a move, a copy and a deletion of one artifact do. -/
namespace QronosAgent.Library
open Lib

def windowsReservedNames : List PyStr :=
  [py "CON", py "PRN", py "AUX", py "NUL", py "CONIN$", py "CONOUT$"] ++
    ((List.range 9).map fun i => py "COM" ++ natText (i + 1)) ++
    (List.range 9).map fun i => py "LPT" ++ natText (i + 1)

def executableExtensions : List PyStr :=
  ["exe", "com", "bat", "cmd", "ps1", "psm1", "psd1", "ps1xml", "psc1", "vbs", "vbe", "vb", "js",
    "jse", "wsf", "wsh", "ws", "wsc", "msi", "msp", "mst", "scr", "pif", "lnk", "url", "hta", "cpl",
    "jar", "reg", "dll", "sys", "drv", "ocx", "appx", "appxbundle", "msix", "msixbundle",
    "appref-ms", "application", "gadget", "inf", "scf", "py", "pyw", "pyz", "pyc", "sct", "msc",
    "chm", "settingcontent-ms", "library-ms", "search-ms", "diagcab", "xbap", "iso", "img", "vhd",
    "vhdx"].map py

/-- `is_executable_name` -/
def isExecutableName (sys : System) (name : PyStr) : Bool :=
  let cleaned := sys.lower ((name.strip.reverse.dropWhile fun c =>
    c = .scalar '.' || c = .scalar ' ').reverse)
  executableExtensions.any fun ext => (py "." ++ ext).isSuffixOf cleaned

/-- `validated_file_name` -/
def validatedFileName (sys : System) (value : PyStr) : Except LibraryError PyStr :=
  let name := value.strip
  let refuse (message : PyStr) : Except LibraryError PyStr := .error (.refused (.name message))
  if name = [] || name = py "." || name = py ".." then refuse (py "The new name must not be empty.")
  else if 255 < name.length then refuse (py "The new name is too long.")
  else if name.any fun c => (py "<>:\"/\\|?*").contains c || c.code < 32 then
    refuse (py "The new name contains a path separator or a character Windows does not allow.")
  else if (py ".").isSuffixOf name || (py " ").isSuffixOf name then
    refuse (py "The new name must not end with a dot or a space.")
  else if windowsReservedNames.contains (sys.upper (PyStr.strip (name.takeWhile (· ≠ .scalar '.')))) then
    refuse (py "The new name is reserved by Windows.")
  else if isExecutableName sys name then
    refuse (py "Renaming an artifact into an executable or script type is not allowed.")
  else .ok name

/-- `_validated_link_name` -/
def validatedLinkName (value : PyStr) : Except LibraryError PyStr :=
  let name := value.strip
  if name = [] then .error (.refused (.name (py "The new name must not be empty.")))
  else if 255 < name.length || name.any (·.code < 32) then
    .error (.refused (.name (py "The new name is not a valid display name.")))
  else .ok name

def maxCopyNameAttempts : ℕ := 1000

/-- `_copy_names`, after the first: `f"{stem} ({index}){suffix}"`. -/
def copyNames {F : Type} (folder : F) (name : PyStr) : List (Place F) :=
  (List.range maxCopyNameAttempts).map fun i =>
    ⟨folder, (splitext name).1 ++ py " (" ++ natText (i + 2) ++ py ")" ++ (splitext name).2⟩

section
variable {F : Type} [DecidableEq F] (sys : System) (given : Given)

/-- `try: … finally: …` -/
def always {α : Type} (m : OnLibrary F α) (cleanup : OnLibrary F Unit) : OnLibrary F α :=
  fun fates s =>
    match m fates s with
    | (.returned a, s) => (do
        cleanup
        pure a : OnLibrary F α) fates s
    | (.raised e, s) => (do
        cleanup
        Fated.raise e : OnLibrary F α) fates s
    | (.stopped, s) => (.stopped, s)

/-- `path.exists() or is_link_or_reparse_point(path)` -/
def isTaken (existing lstat : Call) (p : Place F) : OnLibrary F Bool := do
  let there ← exists? sys existing p
  if there then pure true else isLinkOrReparsePoint sys lstat p

/-- `path.is_file() and not is_link_or_reparse_point(path)` -/
def isPlainFile (file lstat : Call) (p : Place F) : OnLibrary F Bool := do
  let there ← isFile sys file p
  if there then do
    let link ← isLinkOrReparsePoint sys lstat p
    pure !link
  else pure false

/-- `_rename_no_replace` -/
def renameNoReplace (w : Way) (n : Named) (source target : Place F) : OnLibrary F Unit := do
  let admitted ← Fated.look fun s => s.refuses sys sys.windows source target
  Fated.ofExcept (admitted.mapError .os)
  if sys.windows then Fated.effect (.rename w n) .os fun s => s.renamed sys source target
  else do
    Fated.effect (.link w n) .os fun s => s.linked sys source target
    -- what unlinking raises is about no other volume, and about no file that exists
    Fated.effect (.unlinkOld w n) (fun _ => .os .other) fun s => s.put sys source none

/-- `shutil.copy2` -/
def copy2 (w : Way) (source target : Place F) : OnLibrary F Unit := do
  let found ← Fated.look fun s => s.bytes? sys source
  let bytes ← Fated.demand (.os .other) found
  Fated.effect (.copyOpen w) .os fun s => s.write sys target []
  Fated.effect (.copyPart w) .os fun s => s.write sys target (bytes.take (given.part w))
  Fated.effect (.copyRest w) .os fun s => s.write sys target bytes
  Fated.effect (.copyStat w) .os id

def verifyCopy (w : Way) (artifact : Artifact F) (source copy : Place F) : OnLibrary F Unit := do
  let copied ← reads sys (.partialStat w) copy
  let original ← reads sys (.sourceStat w) source
  Fated.require (copied.length = original.length) .copyDiffers
  let expected := expectedHash artifact.identity artifact.contentHash
  if expected = [] then pure ()
  else do
    let same ← hashMatches sys (.identityStat w) (.partialHash w) expected none copy
    Fated.require (same = true) .copyDiffers

def nameCopy (w : Way) (copy : Place F) : ℕ → List (Place F) → OnLibrary F (Place F)
  | _, [] => Fated.raise .noFreeName
  | i, candidate :: candidates => do
    let link ← isLinkOrReparsePoint sys (.candidateLstat w i) candidate
    if link then nameCopy w copy (i + 1) candidates
    else Fated.rescue (do
      renameNoReplace sys w (.copy i) copy candidate
      pure candidate) fun e =>
        if e = .os .fileExists then nameCopy w copy (i + 1) candidates else Fated.raise e

def partialCopy (w : Way) (first : Place F) : Place F := ⟨first.folder, given.partialName w⟩

/-- `if partial.exists(): partial.unlink()` -/
def removePartial (w : Way) (copy : Place F) : OnLibrary F Unit := do
  let left ← exists? sys (.partialExists w) copy
  if left then Fated.effect (.unlinkPartial w) .os fun s => s.put sys copy none else pure ()

/-- The body of `_copy_verified`. -/
def copyThrough (w : Way) (artifact : Artifact F) (source copy : Place F)
    (candidates : List (Place F)) : OnLibrary F (Place F) := do
  copy2 sys given w source copy
  verifyCopy sys w artifact source copy
  nameCopy sys w copy 0 candidates

/-- `_copy_verified` -/
def copyVerified (w : Way) (artifact : Artifact F) (source first : Place F)
    (candidates : List (Place F)) : OnLibrary F (Place F) :=
  let copy := partialCopy given w first
  always (copyThrough sys given w artifact source copy (first :: candidates))
    (removePartial sys w copy)

/-- `_move_file`; whether the file went to another volume. -/
def moveFile (w : Way) (artifact : Artifact F) (source target : Place F) : OnLibrary F Bool :=
  Fated.rescue (do
    renameNoReplace sys w .artifact source target
    pure false) fun e =>
      if e ≠ .os .crossDevice then Fated.raise e
      else do
        let created ← copyVerified sys given w artifact source target []
        Fated.rescue (Fated.effect (.unlinkSource w) .os fun s => s.put sys source none) fun e => do
          Fated.effect (.unlinkCreated w) .os fun s => s.put sys created none
          Fated.raise e
        pure true

/-- `_relocate_or_roll_back` -/
def relocateOrRollBack (id : PyStr) (artifact : Artifact F) (original movedTo : Place F)
    (crossVolume : Bool) : OnLibrary F Unit :=
  Fated.rescue (do
    let _ ← relocate sys given id movedTo artifact.pathOrUrl
    pure ()) fun _ => do
      Fated.rescue (if crossVolume then do
          let _ ← moveFile sys given .back artifact movedTo original
          pure ()
        else renameNoReplace sys .back .artifact movedTo original) fun _ => Fated.raise .remains
      Fated.raise .putBack

/-- The target of `_rename`, when its name is right and free. -/
def renameTarget (path : Place F) (newName : PyStr) : OnLibrary F (Place F) := do
  let name ← Fated.ofExcept (validatedFileName sys newName)
  let target : Place F := ⟨path.folder, name⟩
  let taken ← isTaken sys .targetExists .targetLstat target
  if taken then do
    let again ← exists? sys .targetExistsAgain target
    Fated.require (again = true) (.refused .taken)
    Fated.effect .sameFile .os fun s => s
    Fated.require (target.key sys = path.key sys ∨ given.linked = true) (.refused .taken)
    pure target
  else pure target

/-- `_rename` of a file -/
def rename (id : PyStr) (artifact : Artifact F) (path : Place F) (newName : PyStr) :
    OnLibrary F Unit := do
  let target ← renameTarget sys given path newName
  renameNoReplace sys .there .artifact path target
  relocateOrRollBack sys given id artifact path target false

/-- The target of `_move`, when it is free. -/
def moveTarget (path : Place F) (dest : F) : OnLibrary F (Place F) := do
  Fated.require (path.folder ≠ dest) (.refused .sameFolder)
  let target : Place F := ⟨dest, path.name⟩
  let taken ← isTaken sys .targetExists .targetLstat target
  Fated.require (taken = false) (.refused .taken)
  pure target

/-- `_move` -/
def move (id : PyStr) (artifact : Artifact F) (path : Place F) (dest : F) : OnLibrary F Unit := do
  let target ← moveTarget sys path dest
  let crossVolume ← moveFile sys given .there artifact path target
  relocateOrRollBack sys given id artifact path target crossVolume

/-- `_copy`; the new artifact's id. -/
def copy (artifact : Artifact F) (path : Place F) (dest : F) : OnLibrary F PyStr := do
  let created ← copyVerified sys given .there artifact path ⟨dest, path.name⟩
    (copyNames dest path.name)
  Fated.rescue (registerFile sys given created) fun e => do
    let plain ← isPlainFile sys .createdIsFile .createdLstat created
    if plain then do
      Fated.effect .unlinkCopy .os fun s => s.put sys created none
      Fated.raise e
    else Fated.raise e

/-- The file is in the Recycle Bin. -/
def State.binned (s : State F) (path : Place F) (bytes : List UInt8) : State F :=
  { s.put sys path none with recycleBin := (path, bytes) :: s.recycleBin }

/-- The Recycle Bin, `send_to_recycle_bin` or another. -/
def recycle (path : Place F) : OnLibrary F Unit :=
  Fated.effect .recycle .os fun s => match s.bytes? sys path with
    | some bytes => if given.takes then s.binned sys path bytes else s
    | none => s

/-- `_delete` of a file -/
def delete (id : PyStr) (artifact : Artifact F) (path : Place F) : OnLibrary F Unit := do
  recycle sys given path
  let left ← isTaken sys .recycledExists .recycledLstat path
  Fated.require (left = false) .notTaken
  Fated.rescue (remove id artifact.pathOrUrl) fun _ => Fated.raise .inRecycleBin

inductive Operation (F : Type) where
  | rename (newName : PyStr)
  | move (dest : F)
  | copy (dest : F)
  | delete

structure Item (F : Type) where
  id : PyStr
  path : Where F
  identity : Option Identity

/-- `_verified_file`, and `_refuse_protected_source` -/
def verifiedFile (artifact : Artifact F) (path : Place F) : OnLibrary F Unit := do
  let link ← isLinkOrReparsePoint sys .pathLstat path
  Fated.require (link = false) (.refused .isLink)
  let file ← isFile sys .pathIsFile path
  Fated.require (file = true) (.refused .missing)
  Fated.effect .pathResolve .os id
  Fated.require (given.plain = true) (.refused .leadsElsewhere)
  let same ← identityMatches sys given artifact path
  Fated.require (same = true) (.refused .otherFile)
  Fated.require (given.guarded = false) (.refused .guarded)

/-- `_current_target` -/
def currentTarget (item : Item F) : OnLibrary F (Artifact F) := do
  let artifact ← get .current item.id
  Fated.require (artifact.pathOrUrl = item.path ∧ artifact.identity = item.identity)
    (.refused .changed)
  match artifact.pathOrUrl with
  | .file path => verifiedFile sys given artifact path
  | .url _ => pure ()
  pure artifact

def operateFile (id : PyStr) (artifact : Artifact F) (path : Place F) :
    Operation F → OnLibrary F (Option PyStr)
  | .rename newName => do
    rename sys given id artifact path newName
    pure none
  | .move dest => do
    move sys given id artifact path dest
    pure none
  | .copy dest => do
    let new ← copy sys given artifact path dest
    pure (some new)
  | .delete => do
    delete sys given id artifact path
    pure none

def operateLink (id : PyStr) (artifact : Artifact F) : Operation F → OnLibrary F (Option PyStr)
  | .rename newName => do
    let name ← Fated.ofExcept (validatedLinkName newName)
    renameLink id name artifact.pathOrUrl
    pure none
  | .delete => do
    remove id artifact.pathOrUrl
    pure none
  | .move _ | .copy _ => Fated.raise (.refused .linkAsFile)

/-- The end of `_commit_item`; the id of a copy's artifact. -/
def carryOut (item : Item F) (op : Operation F) : OnLibrary F (Option PyStr) := do
  let artifact ← currentTarget sys given item
  match artifact.pathOrUrl with
  | .file path => operateFile sys given item.id artifact path op
  | .url _ => operateLink item.id artifact op

end

/-! How the file steps of an operation end, by which of the calls that they make are refused. -/

inductive RenameEnd where
  | moved
  | refused (e : OsError)
  | doubled

inductive NameEnd (F : Type) where
  | named (c : Place F)
  | nowhere
  | doubled (c : Place F)

inductive CopyEnd (F : Type) where
  | made (c : Place F)
  /-- What a failure leaves: a copy under a name, and the partial copy. -/
  | failed (named : Option (Place F)) (left : Bool)

inductive Shift where
  | moved (crossVolume : Bool)
  | stayed (clean : Bool)
  | doubled
  deriving DecidableEq

inductive Reached where
  | unwritten
  /-- It is committed, and then a statement fails. -/
  | written
  | whole
  deriving DecidableEq

/-- It does not say that the file is in another place. -/
def LibraryError.isPlain : LibraryError → Bool
  | .remains | .inRecycleBin => false
  | _ => true

section
variable {F : Type} [DecidableEq F] (sys : System) (given : Given) (refusal : Call → Option OsError)

def works (call : Call) : Bool := (refusal call).isNone

def renameEnd (w : Way) (n : Named) : Except OsError Unit → RenameEnd
  | .error e => .refused e
  | .ok () =>
    if sys.windows then match refusal (.rename w n) with
      | none => .moved
      | some e => .refused e
    else match refusal (.link w n) with
      | none => if works refusal (.unlinkOld w n) then .moved else .doubled
      | some e => .refused e

def nameEnd (w : Way) (s : State F) (copy : Place F) : ℕ → List (Place F) → NameEnd F
  | _, [] => .nowhere
  | i, candidate :: candidates =>
    if !works refusal (.candidateLstat w i) || (s.at? sys candidate).any Kind.isLink then
      nameEnd w s copy (i + 1) candidates
    else match renameEnd sys refusal w (.copy i) (s.refuses sys sys.windows copy candidate) with
      | .moved => .named candidate
      | .refused e => if e = .fileExists then nameEnd w s copy (i + 1) candidates else .nowhere
      | .doubled => .doubled candidate

def verifies (w : Way) (artifact : Artifact F) (bytes : List UInt8) : Bool :=
  let expected := expectedHash artifact.identity artifact.contentHash
  works refusal (.partialStat w) && works refusal (.sourceStat w) && (expected = [] ||
    works refusal (.identityStat w) && bytes.length ≤ hashInlineMaxBytes &&
      works refusal (.partialHash w) && sys.sha256 bytes = expected)

def copyEnd (w : Way) (artifact : Artifact F) (s : State F) (bytes : List UInt8) (first : Place F)
    (candidates : List (Place F)) : CopyEnd F :=
  let copy := partialCopy given w first
  let left := !(works refusal (.partialExists w) && works refusal (.unlinkPartial w))
  if !works refusal (.copyOpen w) then .failed none false
  else if !(works refusal (.copyPart w) && works refusal (.copyRest w) &&
      works refusal (.copyStat w) && verifies sys refusal w artifact bytes) then .failed none left
  else match nameEnd sys refusal w (s.write sys copy bytes) copy 0 (first :: candidates) with
    | .named c => .made c
    | .nowhere => .failed none left
    | .doubled c => .failed (some c) left

def moveEnd (w : Way) (artifact : Artifact F) (s : State F) (bytes : List UInt8)
    (source target : Place F) : Shift :=
  match renameEnd sys refusal w .artifact (s.refuses sys sys.windows source target) with
  | .moved => .moved false
  | .doubled => .doubled
  | .refused e =>
    if e ≠ .crossDevice then .stayed true
    else match copyEnd sys given refusal w artifact s bytes target [] with
      | .failed none left => .stayed !left
      | .failed (some _) _ => .doubled
      | .made _ =>
        if works refusal (.unlinkSource w) then .moved true
        else if works refusal (.unlinkCreated w) then .stayed true
        else .doubled

def RenameEnd.shift : RenameEnd → Shift
  | .moved => .moved false
  | .refused _ => .stayed true
  | .doubled => .doubled

def identifies (stat hash : Call) (bytes : List UInt8) : Bool :=
  works refusal stat && (hashInlineMaxBytes < bytes.length || works refusal hash)

def housekept : Bool := works refusal (.transaction .recompute) && works refusal (.transaction .get)

def identityOf (bytes : List UInt8) : Identity :=
  ⟨bytes.length, if bytes.length ≤ hashInlineMaxBytes then sys.sha256 bytes else [], given.state⟩

/-- What a committed change leaves. -/
def housekeeping (s : State F) : State F :=
  if works refusal (.transaction .recompute) then s.recomputed else s

/-- How far `relocate` gets. -/
def relocateEnd (bytes : List UInt8) : Reached :=
  if !(works refusal .registeredStat &&
      identifies refusal .registeredIdentity .registeredHash bytes &&
      works refusal (.transaction .relocate)) then .unwritten
  else if housekept refusal then .whole
  else .written

/-- How far `register_file` gets. -/
def registerEnd (s : State F) (p : Place F) (bytes : List UInt8) : Reached :=
  if !(works refusal .registeredLstat && works refusal .registeredIsFile &&
      works refusal .registeredStat &&
      identifies refusal .registeredIdentity .registeredHash bytes &&
      ((s.recordOf p).isSome || (s.records.get? given.newId).isNone) &&
      works refusal (.transaction .register)) then .unwritten
  else if housekept refusal then .whole
  else .written

/-- How far `remove` gets. -/
def removeEnd : Reached :=
  if !works refusal (.transaction .remove) then .unwritten
  else if works refusal (.transaction .recompute) then .whole
  else .written

/-- How far `rename_link` gets. -/
def renameLinkEnd : Reached :=
  if !works refusal (.transaction .renameLink) then .unwritten
  else if works refusal (.transaction .get) then .whole
  else .written

end
end QronosAgent.Library

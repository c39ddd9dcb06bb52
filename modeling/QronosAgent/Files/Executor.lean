import QronosAgent.Files.Disk

/-! `core/file_executor.py` and the part of `core/undo_journal.py` that it uses: what a file action
does, what its undo entry holds, and what the undo does. -/
namespace QronosAgent.Files
open Lib

inductive FileOperation where
  | openFile
  | copyFile
  | moveFile
  | renameFile
  | createFolder
  deriving DecidableEq

/-- `FileAction`. Its paths are looked at again when it is performed; the new name is the one that
`__post_init__` admits. -/
structure FileAction where
  operation : FileOperation
  source : PyStr
  destination : PyStr
  newName : PyStr
  basename : operation = .renameFile → newName.strip ≠ [] ∧ newName.strip ≠ py "." ∧
    newName.strip ≠ py ".." ∧ .scalar '/' ∉ newName.strip ∧ .scalar '\\' ∉ newName.strip

inductive Reversal where
  | nothingToUndo
  | restoreContent
  | moveBack
  | deleteCreated
  | stopStarted
  | appUndoSteps
  | irreversible
  deriving DecidableEq

def Reversal.value : Reversal → PyStr
  | .nothingToUndo => py "nothing_to_undo"
  | .restoreContent => py "restore_content"
  | .moveBack => py "move_back"
  | .deleteCreated => py "delete_created"
  | .stopStarted => py "stop_started"
  | .appUndoSteps => py "app_undo_steps"
  | .irreversible => py "irreversible"

/-- `_REQUIRES_RESTORATION` -/
def Reversal.requiresRestoration : Reversal → Bool
  | .nothingToUndo | .irreversible => false
  | _ => true

inductive EntryState where
  | pending
  | undone
  | failed
  | expired
  deriving DecidableEq

def EntryState.value : EntryState → PyStr
  | .pending => py "pending"
  | .undone => py "undone"
  | .failed => py "failed"
  | .expired => py "expired"

structure Left where
  before : Disk
  after : Disk

structure UndoEntry where
  actionId : PyStr
  summary : PyStr
  reversal : Reversal
  restoration : List (PyStr × PyStr)
  state : EntryState
  /-- Not in the source: what the action of the entry did. -/
  left : Option Left

structure ActionRequest where
  actionId : PyStr
  summary : PyStr
  named : actionId.blank = false

def invalidAction (message : PyStr) : Failure := ⟨py "InvalidAction", message⟩

/-- `_absolute_path` -/
def absolutePath (plat : Platform) (value field : PyStr) : OnDisk Path := do
  let cleaned := value.strip
  Fated.require (cleaned ≠ [])
    (invalidAction (py "File action " ++ field ++ py " must not be empty."))
  let path ← Fated.ofExcept (plat.expanded cleaned)
  let path ← Fated.demand (invalidAction (py "File action " ++ field ++
    py " must be an absolute path: " ++ cleaned)) path
  Fated.look fun d => (d.resolve path).getD path

/-- `_existing_file` -/
def existingFile (plat : Platform) (value : PyStr) : OnDisk Path := do
  let path ← absolutePath plat value (py "source")
  let isFile ← asks .sourceIsFile fun d => d.isFileAt path
  Fated.require (isFile = true) ⟨py "FileNotFoundError", plat.text path⟩
  pure path

/-- `_existing_directory` -/
def existingDirectory (plat : Platform) (value : PyStr) : OnDisk Path := do
  let path ← absolutePath plat value (py "destination")
  let isDir ← asks .destinationIsDir fun d => d.isFolderAt path
  Fated.require (isDir = true) ⟨py "FileNotFoundError",
    py "Destination directory does not exist: " ++ plat.text path⟩
  pure path

/-- `if target.exists(): raise FileExistsError(str(target))` -/
def requireFree (plat : Platform) (target : Path) : OnDisk Unit := do
  let taken ← asks .targetExists fun d => (d.stat? target).isSome
  Fated.require (taken = false) ⟨py "FileExistsError", plat.text target⟩

def verify (p : Bool) (message : PyStr) : OnDisk Unit :=
  Fated.require (p = true) ⟨py "RuntimeError", message⟩

structure Performed where
  detail : PyStr
  reversal : Reversal
  restoration : List (PyStr × PyStr)

/-- The end of a move and of a rename. -/
def movedBack (plat : Platform) (chance : Chance) (detail message : PyStr) (source target : Path) :
    OnDisk Performed := do
  let stays ← asks .sourceExists fun d => (d.stat? source).isSome
  let isFile ← asks .targetIsFile fun d => d.isFileAt target
  verify (!stays && isFile) message
  let identity ← fileIdentity chance target
  pure ⟨detail ++ plat.text source ++ py " to " ++ plat.text target, .moveBack,
    [(py "from", plat.text target), (py "to", plat.text source), (py "identity", identity)]⟩

def openFile (plat : Platform) (action : FileAction) : OnDisk Performed := do
  let source ← existingFile plat action.source
  Fated.effect .opens id id
  pure ⟨py "Opened " ++ plat.text source, .nothingToUndo, []⟩

def copyFile (plat : Platform) (chance : Chance) (action : FileAction) : OnDisk Performed := do
  let source ← existingFile plat action.source
  let destination ← existingDirectory plat action.destination
  let target := source.headD [] :: destination
  requireFree plat target
  copy2 chance source target
  let isFile ← asks .targetIsFile fun d => d.isFileAt target
  verify isFile (py "Copy verification failed.")
  let copied ← reads .targetStat chance.refusal fun d => d.stat? target
  let original ← reads .sourceStat chance.refusal fun d => d.stat? source
  verify (copied.size = original.size) (py "Copy verification failed.")
  let identity ← fileIdentity chance target
  pure ⟨py "Copied " ++ plat.text source ++ py " to " ++ plat.text target, .deleteCreated,
    [(py "path", plat.text target), (py "identity", identity),
      (py "sha256", chance.sha256.getD [])]⟩

def moveFile (plat : Platform) (chance : Chance) (action : FileAction) : OnDisk Performed := do
  let source ← existingFile plat action.source
  let destination ← existingDirectory plat action.destination
  let target := source.headD [] :: destination
  requireFree plat target
  move plat chance source target
  movedBack plat chance (py "Moved ") (py "Move verification failed.") source target

def renameFile (plat : Platform) (chance : Chance) (action : FileAction) : OnDisk Performed := do
  let source ← existingFile plat action.source
  let target := action.newName.strip :: source.tail
  requireFree plat target
  rename plat chance source target
  movedBack plat chance (py "Renamed ") (py "Rename verification failed.") source target

def createFolder (plat : Platform) (chance : Chance) (action : FileAction) : OnDisk Performed := do
  let target ← absolutePath plat action.destination (py "destination")
  requireFree plat target
  let isDir ← asks .parentIsDir fun d => d.isFolderAt target.tail
  Fated.require (isDir = true) ⟨py "FileNotFoundError",
    py "Parent folder does not exist: " ++ plat.text target.tail⟩
  mkdir chance target
  let made ← asks .targetIsDir fun d => d.isFolderAt target
  verify made (py "Create-folder verification failed.")
  let identity ← fileIdentity chance target
  pure ⟨py "Created folder " ++ plat.text target, .deleteCreated,
    [(py "path", plat.text target), (py "identity", identity)]⟩

/-- `_perform` -/
def perform (plat : Platform) (chance : Chance) (action : FileAction) : OnDisk Performed :=
  match action.operation with
  | .openFile => openFile plat action
  | .copyFile => copyFile plat chance action
  | .moveFile => moveFile plat chance action
  | .renameFile => renameFile plat chance action
  | .createFolder => createFolder plat chance action

/-- `entry.restoration[key]` -/
def restored (entry : UndoEntry) (key : String) : OnDisk PyStr :=
  Fated.demand ⟨py "KeyError", py "'" ++ py key ++ py "'"⟩ (entry.restoration.lookup (py key))

def requireSame (plat : Platform) (chance : Chance) (entry : UndoEntry) : OnDisk Unit := do
  let recorded := (entry.restoration.lookup (py "identity")).getD []
  let key := if entry.reversal = .moveBack then py "from" else py "path"
  let current := (entry.restoration.lookup key).getD []
  if recorded = [] then pure () else
    let identity ← fileIdentity chance (plat.path current)
    Fated.require (identity = recorded) ⟨py "RuntimeError",
      py "The file is no longer the one this action left; nothing was undone."⟩

def moveBack (plat : Platform) (chance : Chance) (entry : UndoEntry) : OnDisk Unit := do
  let sourceText ← restored entry "from"
  let source ← absolutePath plat sourceText (py "undo source")
  let targetText ← restored entry "to"
  let target ← absolutePath plat targetText (py "undo target")
  let exists_ ← asks .sourceExists fun d => (d.stat? source).isSome
  Fated.require (exists_ = true) ⟨py "FileNotFoundError", plat.text source⟩
  requireFree plat target
  let isDir ← asks .parentIsDir fun d => d.isFolderAt target.tail
  Fated.require (isDir = true) ⟨py "FileNotFoundError",
    py "Undo parent does not exist: " ++ plat.text target.tail⟩
  move plat chance source target
  let stays ← asks .leftExists fun d => (d.stat? source).isSome
  let moved ← asks .movedExists fun d => (d.stat? target).isSome
  verify (!stays && moved) (py "Move-back verification failed.")

/-- The branches of `_perform_undo` that remove a file and a folder. -/
def removeCreated (plat : Platform) (chance : Chance) (target : Path) : OnDisk Unit := do
  let isFile ← asks .targetIsFile fun d => d.isFileAt target
  if isFile then unlink chance .unlink target
  else do
    let isDir ← asks .targetIsDir fun d => d.isFolderAt target
    if isDir then rmdir chance target
    else do
      let exists_ ← asks .targetExists fun d => (d.stat? target).isSome
      Fated.raise (if exists_ then
          ⟨py "RuntimeError", py "Unsupported created target: " ++ plat.text target⟩
        else ⟨py "FileNotFoundError", plat.text target⟩)

def deleteCreated (plat : Platform) (chance : Chance) (entry : UndoEntry) : OnDisk Unit := do
  let text ← restored entry "path"
  let target ← absolutePath plat text (py "undo target")
  removeCreated plat chance target
  let stays ← asks .leftExists fun d => (d.stat? target).isSome
  verify (!stays) (py "Delete-created verification failed.")

/-- `_perform_undo` -/
def performUndo (plat : Platform) (chance : Chance) (entry : UndoEntry) : OnDisk Unit := do
  requireSame plat chance entry
  match entry.reversal with
  | .moveBack => moveBack plat chance entry
  | .deleteCreated => deleteCreated plat chance entry
  | reversal => Fated.raise ⟨py "NotUndoable",
      py "FileExecutor cannot perform reversal " ++ reversal.value ++ py "."⟩

/-- `UndoJournal.record`, with the checks of `UndoEntry.__post_init__`. -/
def record (request : ActionRequest) (reversal : Reversal) (restoration : List (PyStr × PyStr))
    (left : Left) : Except Failure UndoEntry :=
  if request.actionId.blank then .error (invalidAction (py "An undo entry must name an action."))
  else if reversal.requiresRestoration ∧ restoration = [] then
    .error (invalidAction (reversal.value ++ py " needs restoration data; an entry that cannot actually be reversed must be recorded as irreversible instead."))
  else .ok ⟨request.actionId, request.summary, reversal, restoration, .pending, some left⟩

def notUndoable (message : PyStr) : Failure := ⟨py "NotUndoable", message⟩

/-- `UndoJournal.claim` -/
def claim (entries : List UndoEntry) (actionId : PyStr) : Except Failure UndoEntry :=
  match entries.find? fun entry => entry.actionId = actionId with
  | none => .error (notUndoable (py "No undo entry for action " ++ actionId ++ py "."))
  | some entry =>
    if entry.reversal = .irreversible then
      .error (notUndoable (entry.summary ++ py " cannot be undone by Qronos."))
    else if entry.reversal = .nothingToUndo then
      .error (notUndoable (entry.summary ++ py " changed nothing."))
    else if entry.state ≠ .pending then
      .error (notUndoable (entry.summary ++ py " is already " ++ entry.state.value ++ py "."))
    else .ok entry

/-- `UndoJournal.mark`, of an action that has an entry. -/
def mark (actionId : PyStr) (state : EntryState) : List UndoEntry → List UndoEntry
  | [] => []
  | entry :: entries =>
    if entry.actionId = actionId then { entry with state := state } :: entries
    else entry :: mark actionId state entries

inductive ActionOutcome where
  | succeeded
  | failed
  | refused
  | awaitingApproval
  deriving DecidableEq

structure Verdict where
  refused : Bool
  needsApproval : Bool
  decision : PyStr
  reason : PyStr

structure FileExecution where
  outcome : ActionOutcome
  detail : PyStr
  undoEntry : Option UndoEntry

structure FileExecutor where
  disk : Disk
  journal : Option (List UndoEntry)

abbrev Fails := DiskCall → Option Failure

def Fails.fate (fails : Fails) (call : DiskCall) : Fate Failure := match fails call with
  | none => .goes
  | some why => .fails why

def attempt {α : Type} (m : OnDisk α) (fails : Fails) (d : Disk) : Except Failure α × Disk :=
  match m.run fails.fate d with
  | (.returned a, d) => (.ok a, d)
  | (.raised e, d) => (.error e, d)
  | (.stopped, d) => (.error ⟨py "KeyboardInterrupt", []⟩, d)

/-- `_run` -/
def FileExecutor.run (plat : Platform) (chance : Chance) (fails : Fails) (request : ActionRequest)
    (action : FileAction) (w : FileExecutor) : Except Failure FileExecution × FileExecutor :=
  match attempt (perform plat chance action) fails w.disk with
  | (.error e, disk) => (.ok ⟨.failed, e.text, none⟩, { w with disk := disk })
  | (.ok done, disk) =>
    match w.journal with
    | none => (.ok ⟨.succeeded, done.detail, none⟩, { w with disk := disk })
    | some entries =>
      match record request done.reversal done.restoration ⟨w.disk, disk⟩ with
      | .error e => (.error e, { w with disk := disk })
      | .ok entry =>
        (.ok ⟨.succeeded, done.detail, some entry⟩, ⟨disk, some (entries ++ [entry])⟩)

/-- `execute_prepared` -/
def FileExecutor.execute (plat : Platform) (chance : Chance) (fails : Fails) (verdict : Verdict)
    (approval : Option PyStr) (request : ActionRequest) (action : FileAction) (w : FileExecutor) :
    Except Failure FileExecution × FileExecutor :=
  if verdict.refused then (.ok ⟨.refused, verdict.reason, none⟩, w)
  else if verdict.needsApproval ∧ approval ≠ some verdict.decision then
    (.ok ⟨.awaitingApproval, verdict.reason, none⟩, w)
  else w.run plat chance fails request action

def FileExecutor.undo (plat : Platform) (chance : Chance) (fails : Fails) (actionId : PyStr)
    (w : FileExecutor) : Except Failure Unit × FileExecutor :=
  match w.journal with
  | none => (.error (notUndoable (py "This FileExecutor has no UndoJournal.")), w)
  | some entries =>
    match claim entries actionId with
    | .error e => (.error e, w)
    | .ok entry =>
      match attempt (performUndo plat chance entry) fails w.disk with
      | (.error e, disk) => (.error e, ⟨disk, some (mark actionId .failed entries)⟩)
      | (.ok _, disk) => (.ok (), ⟨disk, some (mark actionId .undone entries)⟩)

end QronosAgent.Files

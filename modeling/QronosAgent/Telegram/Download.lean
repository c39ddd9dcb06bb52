import QronosAgent.Permission.Control
import QronosAgent.Telegram.Names
import QronosAgent.Workflow.Driver

/-! `TelegramDownloadWorkflow.download` of `core/telegram_workflow.py`: what a run reads of the window,
the folder, the clock and Stop, and what it asks of the journal. -/
namespace QronosAgent.Telegram
open Lib
open Permission (PermissionDecision)
open Workflow (SideEffectState Failure Want Procedure Phase)

structure MessageView where
  elementId : PyStr
  incoming : Bool
  kind : PyStr
  fileName : PyStr
  sizeText : PyStr
  downloadElementId : PyStr
  downloaded : Bool
  deriving DecidableEq

structure Prepared where
  contact : PyStr
  digest : PyStr
  identityToken : PyStr
  message : MessageView
  destination : PyStr

structure WorkflowApproval where
  approvalId : PyStr
  planDigest : PyStr
  decision : PermissionDecision
  evidenceIdentityToken : Option PyStr

/-- `WorkflowApproval.require_for`, for a step that needs the user's confirmation in the window. -/
def WorkflowApproval.requireFor (approval : WorkflowApproval) (prepared : Prepared) : Bool :=
  !PyStr.blank approval.approvalId && approval.decision = .requireUiConfirmation &&
    approval.planDigest = prepared.digest &&
      approval.evidenceIdentityToken = some prepared.identityToken

structure Checkpoint where
  cancelled : Bool
  approvalValid : Bool
  evidenceExpired : Bool
  /-- `revalidate` finds the window that was inspected. -/
  sameWindow : Bool
  detail : PyStr

def Checkpoint.passes (c : Checkpoint) : Bool :=
  !c.cancelled && c.approvalValid && !c.evidenceExpired && c.sameWindow

inductive Started where
  | returns
  /-- `TelegramActionNotStarted`: nothing happened. -/
  | notStarted (detail : PyStr)
  | raises (name : PyStr)

/-- The names and sizes of the regular files in the folder; Windows has no name with a line feed. -/
structure Listing where
  files : Dict PyStr ℕ
  legal : ∀ name ∈ files.keys, lf ∉ name

inductive Reading where
  | entry (granted : Bool) (identityToken : PyStr)
  | checkpoint (c : Checkpoint)
  | title (t : PyStr)
  | messages (ms : List MessageView)
  | directory (real : Bool)
  | listing (l : Listing)
  | started (o : Started)
  | clock (late : Bool)
  | slept (cancelled : Bool)
  | regular (real : Bool)
  | raised (name : PyStr)

structure Readings where
  title : Option PyStr
  document : Option MessageView
  directory : Option Bool
  checkpoint : Option Checkpoint
  regular : Option (PyStr × Bool)

inductive Report where
  | succeeded (name : PyStr) (size : ℕ)
  | uncertain
  deriving DecidableEq

def Report.state : Report → SideEffectState
  | .succeeded .. => .confirmed
  | .uncertain => .uncertain

/-- `type(error).__name__` -/
def typeName : Failure → PyStr
  | .value | .save .value => py "ValueError"
  | .busy | .missing | .unreadable | .malformed => py "JournalUnavailable"
  | .raised => py "Exception"
  | .alreadyAttempted | .sameContent => py "DuplicateSideEffect"
  | .workflow => py "WorkflowError"
  | .save (.os name) => name
  | .save .unicodeEncode => py "UnicodeEncodeError"
  | .marker => py "OSError"

/-- Where a download stands; `refused` and `unclear` are the two handlers of what is raised at its
start, `rescue` that of what is raised after it. -/
inductive Point where
  | entry
  | reverify
  | title
  | messages
  | directory
  | before
  | ready
  | begin
  | guard
  | start
  | refused (detail : PyStr)
  | unclear (name : PyStr)
  | deadline
  | polling
  | regular (name : PyStr) (size : ℕ)
  | late
  | sleeping
  | concluding (detail : PyStr) (report : Report)
  | rescue (name : PyStr)
  | look
  | reported (report : Report)
  | raised (asked : Bool)
  deriving DecidableEq

structure Download where
  prepared : Prepared
  approval : WorkflowApproval
  readings : Readings
  before : Listing
  stable : Option (PyStr × ℕ)
  polls : List Listing
  point : Point

def maxInspectedMessages : ℕ := 60

section
variable (texts : Texts)

def firstDocument : List MessageView → Option MessageView
  | [] => none
  | m :: ms =>
    if !m.incoming || m.kind ≠ py "document" then firstDocument ms
    else if !safeFileName texts m.fileName || m.downloaded || m.downloadElementId = [] then none
    else some m

/-- `_newest_incoming_document`; `none` raises. -/
def newestIncomingDocument (messages : List MessageView) : Option MessageView :=
  firstDocument texts (messages.take maxInspectedMessages)

def sameMessage (m approved : MessageView) : Bool :=
  m.elementId = approved.elementId && m.fileName = approved.fileName &&
    m.sizeText = approved.sizeText

namespace Download

def goTo (d : Download) (point : Point) : Download := { d with point := point }

def new (d : Download) (l : Listing) : List (PyStr × ℕ) :=
  l.files.items.filter fun f =>
    !d.before.files.keys.contains f.1 && matchesAttachment texts f.1 d.prepared.message.fileName

def sizeBounds (d : Download) : Option (ℕ × ℕ) :=
  (approximateSize texts d.prepared.message.sizeText).getD none

/-- One round of `_verify`, with what it finds in the folder. -/
def poll (d : Download) (l : Listing) : Download :=
  let d := { d with polls := d.polls ++ [l] }
  match d.new texts l with
  | [] => d.goTo .late
  | [f] =>
    if d.stable = some f && 0 < f.2 && fits (d.sizeBounds texts) f.2 then
      d.goTo (.regular f.1 f.2)
    else { d with stable := some f, point := .late }
  | _ => d.goTo (.concluding (py "several matching files appeared") .uncertain)

def check (d : Download) (c : Checkpoint) (passed stopped : Point) : Download :=
  { d with
    readings := { d.readings with checkpoint := some c }
    point := if c.passes then passed else stopped }

/-- Where an exception leads that is none of those above. -/
def fails (d : Download) (name : PyStr) : Option Download :=
  match d.point with
  | .entry | .reverify | .title | .messages | .directory | .before | .ready =>
    some (d.goTo (.raised false))
  | .guard => some (d.goTo (.unclear name))
  | .deadline | .polling | .regular .. | .late | .sleeping => some (d.goTo (.rescue name))
  | _ => none

def look (d : Download) : Reading → Option Download
  | .entry granted identityToken =>
    if d.point = .entry then
      some (d.goTo (if d.approval.requireFor d.prepared && granted &&
        identityToken = d.prepared.identityToken then .reverify else .raised false))
    else none
  | .checkpoint c =>
    match d.point with
    | .reverify => some (d.check c .title (.raised false))
    | .ready => some (d.check c .begin (.raised false))
    | .guard => some (d.check c .start (.refused c.detail))
    | _ => none
  | .title t =>
    if d.point = .title then
      some { d with
        readings := { d.readings with title := some t }
        point := if nameKey texts t = nameKey texts d.prepared.contact then .messages
          else .raised false }
    else none
  | .messages ms =>
    if d.point = .messages then
      some (match newestIncomingDocument texts ms with
        | none => d.goTo (.raised false)
        | some m => { d with
          readings := { d.readings with document := some m }
          point := if sameMessage m d.prepared.message then .directory else .raised false })
    else none
  | .directory real =>
    if d.point = .directory then
      some { d with
        readings := { d.readings with directory := some real }
        point := if real then .before else .raised false }
    else none
  | .listing l =>
    match d.point with
    | .before => some { d with before := l, point := .ready }
    | .polling => some (d.poll texts l)
    | _ => none
  | .clock isLate =>
    match d.point with
    | .deadline => some (d.goTo .polling)
    | .late => some (d.goTo (if isLate then
        .concluding (py "no complete file before timeout") .uncertain else .sleeping))
    | _ => none
  | .slept cancelled =>
    if d.point = .sleeping then
      some (d.goTo (if cancelled then
        .concluding (py "stopped while verifying") .uncertain else .polling))
    else none
  | .regular real =>
    match d.point with
    | .regular name size => some { d with
        readings := { d.readings with regular := some (name, real) }
        point := if real then .concluding name (.succeeded name size)
          else .concluding (py "result is not a regular file") .uncertain }
    | _ => none
  | .started _ => none
  | .raised name => d.fails name

def begins (d : Download) : Started → Download × List Download
  | .returns =>
    -- `approximate_size` comes first in `_verify`
    (d.goTo (if (approximateSize texts d.prepared.message.sizeText).isSome then .deadline
      else .rescue (py "OverflowError")), [d])
  | .notStarted detail => (d.goTo (.refused detail), [])
  | .raises name => (d.goTo (.unclear name), [d])

def read (d : Download) (r : Reading) : Option (Download × List Download) :=
  match r with
  | .started o => if d.point = .start then some (d.begins texts o) else none
  | r => (d.look texts r).map fun d' => (d', [])

def parts (d : Download) : List PyStr :=
  [nameKey texts d.prepared.contact, texts.casefold d.prepared.message.fileName,
    d.prepared.message.sizeText, texts.casefold d.prepared.destination]

/-- What it asks of the journal. -/
def wants (d : Download) : Option Want :=
  match d.point with
  | .begin => some (.begin (py "telegram-download") (d.parts texts)
      (py "Telegram " ++ d.prepared.message.fileName))
  | .refused detail => some (.settle .notSubmitted detail)
  | .unclear name => some (.settle .uncertain name)
  | .concluding detail report => some (.settle report.state detail)
  | .rescue name => some (.settle .uncertain name)
  | .look => some .get
  | _ => none

def told (d : Download) (r : Except Failure (Option SideEffectState)) : Download :=
  match d.point, r with
  | .begin, .ok _ => d.goTo .guard
  | .begin, .error _ => d.goTo (.raised false)
  | .refused _, _ => d.goTo (.raised false)
  | .unclear _, .ok _ => d.goTo (.reported .uncertain)
  | .unclear _, .error _ => d.goTo (.raised true)
  | .concluding _ report, .ok _ => d.goTo (.reported report)
  -- every failure of the journal is caught once
  | .concluding .., .error e => d.goTo (.rescue (typeName e))
  | .rescue _, .ok _ => d.goTo (.reported .uncertain)
  | .rescue _, .error e => d.goTo (if e.isWorkflowError then .look else .raised true)
  | .look, .ok state =>
    d.goTo (if state.all SideEffectState.unresolved then .raised true else .reported .uncertain)
  | .look, .error _ => d.goTo (.raised true)
  | _, _ => d

def isFirst (d : Download) : Bool :=
  d.point = .entry && d.readings.title.isNone && d.readings.document.isNone &&
    d.readings.directory.isNone && d.readings.checkpoint.isNone && d.readings.regular.isNone &&
      d.stable.isNone && d.polls.isEmpty

end Download

/-- The downloads; `operationKey` makes the key of an approval and a plan. -/
def downloads (operationKey : PyStr → PyStr → PyStr) : Procedure Download Reading Download where
  operationKey d := operationKey d.approval.approvalId d.prepared.digest
  content d := (py "telegram-download", d.parts texts)
  first := Download.isFirst
  wants := Download.wants texts
  told := Download.told
  input := Download.read texts
  invokes _ := true

end
end QronosAgent.Telegram

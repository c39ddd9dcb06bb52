import QronosAgent.Lib.PathNames
import QronosAgent.Permission.Control
import QronosAgent.Workflow.Driver

/-! Printers and print jobs of `core/print_workflow.py`, as the spooler tells of them. -/
namespace QronosAgent.Print
open Lib

structure PrinterState where
  name : PyStr
  port : PyStr
  driver : PyStr
  status : ℕ
  attributes : ℕ

/-- The bits of `_BLOCKING_PRINTER`. -/
def blockingPrinter : List ℕ :=
  [0x1, 0x2, 0x4, 0x8, 0x10, 0x40, 0x80, 0x1000, 0x40000, 0x100000, 0x400000, 0x200000, 0x800000,
    0x800]

/-- `PRINTER_ATTRIBUTE_WORK_OFFLINE` -/
def workOffline : ℕ := 0x400

def hasBit (value bit : ℕ) : Bool := value &&& bit ≠ 0

/-- `problems` -/
def PrinterState.hasProblems (p : PrinterState) : Bool :=
  blockingPrinter.any (hasBit p.status) || hasBit p.attributes workOffline

structure PrintJobState where
  jobId : ℕ
  document : PyStr
  user : PyStr
  status : ℕ
  deriving DecidableEq

namespace PrintJobState

def isPaused (status : ℕ) : Bool := hasBit status 0x1

def isError (status : ℕ) : Bool := hasBit status 0x2

/-- `JOB_STATUS_PRINTED | JOB_STATUS_COMPLETE` -/
def isPrinted (status : ℕ) : Bool := hasBit status (0x80 ||| 0x1000)

/-- `JOB_STATUS_DELETING` or `JOB_STATUS_DELETED` -/
def isDeleted (status : ℕ) : Bool := hasBit status 0x4 || hasBit status 0x100

/-- What a person has to see to. -/
def needsAttention (status : ℕ) : Bool :=
  hasBit status (0x40 ||| 0x20 ||| 0x400 ||| 0x200 ||| 0x2 ||| 0x1)

end PrintJobState

section
variable (casefold : PyStr → PyStr)

/-- `_document_matches` -/
def documentMatches (document fileName : PyStr) : Bool :=
  let shown := PyStr.strip (casefold (basename document))
  let wanted := casefold fileName
  shown ≠ [] && (shown = wanted || (py " - " ++ wanted).isSuffixOf shown ||
    shown = (splitext wanted).1 || wanted.isPrefixOf shown || shown.tails.any wanted.isPrefixOf)

/-- `_printer`: the one with this name; `none` raises. -/
def printerNamed (printers : List PrinterState) (name : PyStr) : Option PrinterState :=
  match printers.filter fun p => casefold p.name = casefold name with
  | [p] => some p
  | _ => none

end

def foundJobs (seen live : List PrintJobState) : Dict ℕ PrintJobState :=
  (seen ++ live).foldl (fun d job => d.set job.jobId job) .empty

/-! `PrintWorkflow.submit` of `core/print_workflow.py`, and the worker thread of
`core/print_renderer.py`: what a run reads of the file, the printer, the spooler, the handler and
Stop, and what it asks of the journal. -/

open Permission (PermissionDecision)
open Workflow (SideEffectState Failure Want Procedure Phase)

inductive Route where
  | printto
  | renderer
  deriving DecidableEq

structure PreparedPrint where
  filePath : PyStr
  fileName : PyStr
  sha256 : PyStr
  size : ℕ
  printer : PrinterState
  handler : PyStr
  digest : PyStr
  route : Route

structure WorkflowApproval where
  approvalId : PyStr
  planDigest : PyStr
  decision : PermissionDecision
  evidenceIdentityToken : Option PyStr

/-- `require_for`, for a step that needs the typed secret and uses no window. -/
def WorkflowApproval.requireFor (approval : WorkflowApproval) (prepared : PreparedPrint) : Bool :=
  !PyStr.blank approval.approvalId && approval.decision = .requireTypedSecret &&
    approval.planDigest = prepared.digest && approval.evidenceIdentityToken.isNone

inductive WorkerPoint where
  | preparing
  /-- `StartDoc` has returned, and `job_id` is not set yet. -/
  | startedDoc
  | drawing
  | ending
  | gone
  deriving DecidableEq

structure RenderedJob where
  jobId : Option ℕ
  notSubmittedReason : Option PyStr
  error : Option PyStr
  done : Bool
  startDoc : Option ℕ
  point : WorkerPoint

def newJob : RenderedJob := ⟨none, none, none, false, none, .preparing⟩

inductive WorkerMove where
  /-- The preparation raises, or `StartDoc` gives no job. -/
  | fails (reason : PyStr)
  | startDoc (jobId : ℕ)
  | publish
  | drawn
  | drawFails (error : PyStr)
  /-- What is released at the end may raise, and then `_done` is not set. -/
  | ends (cleared : Bool)

/-- `_render` -/
def RenderedJob.move (job : RenderedJob) : WorkerMove → Option RenderedJob
  | .fails reason =>
    if job.point = .preparing then
      some { job with notSubmittedReason := some reason, point := .ending }
    else none
  | .startDoc jobId =>
    if job.point = .preparing && 0 < jobId then
      some { job with startDoc := some jobId, point := .startedDoc }
    else none
  | .publish =>
    if job.point = .startedDoc then some { job with jobId := job.startDoc, point := .drawing }
    else none
  | .drawn => if job.point = .drawing then some { job with point := .ending } else none
  | .drawFails error =>
    if job.point = .drawing then some { job with error := some error, point := .ending } else none
  | .ends cleared =>
    if job.point = .ending then some { job with done := cleared, point := .gone } else none

/-- `exit_code` of a job that is done -/
def RenderedJob.exitCode (job : RenderedJob) : ℤ :=
  if job.error.isNone && job.notSubmittedReason.isNone then 0 else 1

inductive Handle where
  | none
  | held
  | closed
  deriving DecidableEq

inductive Awaited where
  | notSubmitted
  | spooled
  | stopped
  | nothing
  | several
  | job (jobId status : ℕ)
  deriving DecidableEq

inductive Outcome where
  | succeeded
  | submitted
  | uncertain
  | needsAttention
  deriving DecidableEq

structure Report where
  outcome : Outcome
  jobId : Option ℕ
  deriving DecidableEq

inductive After where
  | settle (r : Awaited)
  | uncertain
  | raise
  deriving DecidableEq

inductive Point where
  | entry
  | recheckFile
  | file
  | recheckPrinter
  | printer
  | handler
  | user
  | before
  | watch
  | submitCheck
  | grant
  | begin
  /-- The watcher is closed because nothing was begun. -/
  | dropping
  | stopped
  | guard
  | start
  | refused (detail : PyStr)
  | unclear (name : PyStr)
  | poll
  | exact (found : List PrintJobState)
  | finished
  | sleep
  | returned (r : Awaited)
  | rescue (name : PyStr)
  | look
  | closeHandler (after : After)
  | closeWatcher (after : After)
  | settling (r : Awaited)
  | judge
  | resuming
  | attention
  | clock
  | monitorSleep
  | follow
  | reported (report : Report)
  | raised
  deriving DecidableEq

structure Readings where
  file : Option (PyStr × ℕ)
  printer : Option PrinterState
  handler : Option PyStr

structure Printing where
  prepared : PreparedPrint
  approval : WorkflowApproval
  readings : Readings
  user : PyStr
  before : List ℕ
  watcher : Handle
  handler : Handle
  worker : Option RenderedJob
  exactId : Option ℕ
  handlerDone : Bool
  taken : Option ℕ
  status : ℕ
  resumed : Bool
  asked : Bool
  notLaunched : Bool
  states : List SideEffectState
  point : Point

inductive Started where
  | returns
  | notSubmitted (detail : PyStr)
  | raises (name : PyStr)

inductive Reading where
  | entry (granted : Bool)
  | checkpoint (cancelled approvalValid : Bool) (detail : PyStr)
  | file (f : Option (PyStr × ℕ))
  | printers (ps : List PrinterState)
  | handler (h : Option PyStr)
  | user (u : PyStr)
  | queue (ids : List ℕ)
  | watch (available : Bool)
  | active (active : Bool)
  | started (o : Started)
  | jobs (seen live : List PrintJobState)
  | go
  /-- The clock, and a handler that is a process. -/
  | finished (expired done : Bool)
  | slept (cancelled : Bool)
  | control
  | clock (late : Bool)
  /-- The live queue, unless the spooler does not answer. -/
  | live (jobs : Option (List PrintJobState))
  | raised (name : PyStr)
  | worker (m : WorkerMove)

/-- What is done outside: the handler is started, or a job is resumed. -/
inductive Note where
  | started (p : Printing)
  | control (printer : PyStr) (jobId : ℕ)

def Note.isStarted : Note → Bool
  | .started _ => true
  | .control .. => false

namespace Printing
variable (casefold : PyStr → PyStr) (p : Printing)

def goTo (point : Point) : Printing := { p with point := point }

def newJobs (found : List PrintJobState) : List PrintJobState :=
  match p.exactId with
  | some jobId => found.filter fun job => job.jobId = jobId
  | none => found.filter fun job =>
    !p.before.contains job.jobId && casefold job.user = casefold p.user &&
      documentMatches casefold job.document p.prepared.fileName

def take (found : List PrintJobState) : Printing :=
  let p := { p with exactId := p.worker.bind RenderedJob.jobId }
  match p.newJobs casefold found with
  | [] => p.goTo .finished
  | [job] => { p with
      taken := some job.jobId, status := job.status
      point := .returned (.job job.jobId job.status) }
  | _ => p.goTo (.returned .several)

/-- The handler is asked whether it has finished; `expired` if the time for the job to appear is
over. -/
def checkFinished (expired done : Bool) : Printing :=
  let done := match p.worker with
    | some job => job.done
    | none => done
  if !p.handlerDone && done then
    let p := { p with handlerDone := true }
    if (p.worker.bind RenderedJob.notSubmittedReason).isSome then p.goTo (.returned .notSubmitted)
    else if p.exactId.isSome && p.worker.any fun job => job.exitCode = 0 then
      p.goTo (.returned .spooled)
    else p.goTo (if expired then .returned .nothing else .sleep)
  else p.goTo (if expired then .returned .nothing else .sleep)

/-- One round of `_monitor`. -/
def judge : Printing :=
  if PrintJobState.isPrinted p.status then p.goTo (.reported ⟨.succeeded, p.taken⟩)
  else if PrintJobState.isPaused p.status && !PrintJobState.isError p.status && !p.resumed then
    { p with resumed := true, point := .resuming }
  else if PrintJobState.needsAttention p.status then p.goTo .attention
  else p.goTo .clock

def find (jobs : Option (List PrintJobState)) : Printing :=
  match jobs with
  | none => p.goTo .judge
  | some jobs =>
    match jobs.find? fun job => p.taken = some job.jobId with
    | none => p.goTo (.reported ⟨.succeeded, p.taken⟩)
    | some job =>
      if PrintJobState.isDeleted job.status then
        { p with status := job.status, point := .reported ⟨.needsAttention, p.taken⟩ }
      else { p with status := job.status, point := .judge }

/-- What is closed at the end of `submit`'s `try`. -/
def closes (after : After) : Printing :=
  p.goTo (if p.handler = .held then .closeHandler after else if p.watcher = .held then
    .closeWatcher after else match after with
      | .settle r => .settling r
      | .uncertain => .reported ⟨.uncertain, none⟩
      | .raise => .raised)

/-- It raises before anything was begun; only where the watcher is closed on the way is that
different. -/
def fails (name : PyStr) : Option Printing :=
  match p.point with
  | .entry | .recheckFile | .file | .recheckPrinter | .printer | .handler | .user | .before
  | .watch | .submitCheck | .dropping => some (p.goTo .stopped)
  | .grant => some (p.goTo .dropping)
  | .guard => some (p.goTo (.unclear name))
  | .poll | .exact _ | .finished | .sleep => some (p.goTo (.rescue name))
  | .returned _ => some (p.closes .raise)
  -- an exception of `handler.close` leaves the watcher as it is
  | .closeHandler _ | .closeWatcher _ => some (p.goTo .raised)
  | .judge | .attention | .clock | .monitorSleep | .follow =>
    some (p.goTo (.reported ⟨.submitted, p.taken⟩))
  | _ => none

/-- Before the attempt is begun. -/
def prepare : Reading → Option Printing
  | .entry granted =>
    if p.point = .entry then
      some (p.goTo (if p.approval.requireFor p.prepared && granted then .recheckFile else .stopped))
    else none
  | .checkpoint cancelled approvalValid _ =>
    let passes := !cancelled && approvalValid
    match p.point with
    | .recheckFile => some (p.goTo (if passes then .file else .stopped))
    | .recheckPrinter => some (p.goTo (if passes then .printer else .stopped))
    | .submitCheck => some (p.goTo (if passes then .grant else .stopped))
    | _ => none
  | .file f =>
    if p.point = .file then
      some { p with
        readings := { p.readings with file := f }
        point := if f = some (p.prepared.sha256, p.prepared.size) then .recheckPrinter
          else .stopped }
    else none
  | .printers ps =>
    if p.point = .printer then
      some (match printerNamed casefold ps p.prepared.printer.name with
        | none => p.goTo .stopped
        | some printer => { p with
          readings := { p.readings with printer := some printer }
          point := if printer.port = p.prepared.printer.port &&
            printer.driver = p.prepared.printer.driver && !printer.hasProblems then .handler
            else .stopped })
    else none
  | .handler h =>
    if p.point = .handler then
      some { p with
        readings := { p.readings with handler := h }
        point := if h = some p.prepared.handler then .user else .stopped }
    else none
  | .user u => if p.point = .user then some { p with user := u, point := .before } else none
  | .queue ids => if p.point = .before then some { p with before := ids, point := .watch } else none
  | .watch available =>
    if p.point = .watch then
      some { p with watcher := if available then .held else .none, point := .submitCheck }
    else none
  | .active active =>
    if p.point = .grant then some (p.goTo (if active then .begin else .dropping)) else none
  | .go =>
    if p.point = .dropping then
      some { p with
        watcher := if p.watcher = .held then .closed else p.watcher
        point := .stopped }
    else none
  | _ => none

/-- From the journal's entry to the end of the `try`, without the start itself. -/
def await : Reading → Option Printing
  | .checkpoint cancelled approvalValid detail =>
    if p.point = .guard then
      some (p.goTo (if !cancelled && approvalValid then .start else .refused detail))
    else none
  | .jobs seen live =>
    if p.point = .poll then
      some (p.goTo (.exact (foundJobs (if p.watcher = .held then seen else []) live).values))
    else none
  | .finished expired done =>
    if p.point = .finished then some (p.checkFinished expired done) else none
  | .slept cancelled =>
    if p.point = .sleep then some (p.goTo (if cancelled then .returned .stopped else .poll))
    else none
  | .go =>
    match p.point with
    | .exact found => some (p.take casefold found)
    | .returned r => some (p.closes (.settle r))
    | .closeHandler after => some ({ p with handler := .closed }.closes after)
    | .closeWatcher after => some ({ p with watcher := .closed }.closes after)
    | _ => none
  | _ => none

/-- `_monitor`, without the control of the job. -/
def monitor : Reading → Option Printing
  | .go =>
    match p.point with
    | .judge => some p.judge
    | .attention => some (p.goTo (.reported ⟨.needsAttention, p.taken⟩))
    | _ => none
  | .clock late =>
    if p.point = .clock then
      some (p.goTo (if late then .reported ⟨.submitted, p.taken⟩ else .monitorSleep))
    else none
  | .slept cancelled =>
    if p.point = .monitorSleep then
      some (p.goTo (if cancelled then .reported ⟨.submitted, p.taken⟩ else .follow))
    else none
  | .live jobs => if p.point = .follow then some (p.find jobs) else none
  | _ => none

/-- `start` -/
def starts : Started → Printing
  | .returns => { p with
    asked := true
    handler := .held
    worker := if p.prepared.route = .renderer then some newJob else none
    point := .poll }
  | .notSubmitted detail =>
    { p with asked := true, notLaunched := true, point := .refused detail }
  | .raises name => { p with asked := true, point := .unclear name }

def controlNote : List Note :=
  match p.readings.printer, p.taken with
  | some printer, some jobId => [.control (casefold printer.name) jobId]
  | _, _ => []

/-- `control_job` -/
def controls : Reading → Option (Printing × List Note)
  | .control => some (p.goTo .clock, p.controlNote casefold)
  | .raised _ => some (p.goTo (.reported ⟨.submitted, p.taken⟩), p.controlNote casefold)
  | _ => none

def read (r : Reading) : Option (Printing × List Note) :=
  match r with
  | .worker m => (p.worker.bind fun job => job.move m).map fun job =>
    ({ p with worker := some job }, [])
  | .started o => if p.point = .start then some (p.starts o, [.started p]) else none
  | r =>
    if p.point = .resuming then p.controls casefold r
    else match r with
      | .raised name => (p.fails name).map fun p => (p, [])
      | r => (((p.prepare casefold r).or (p.await casefold r)).or (p.monitor r)).map
        fun p => (p, [])

def awaitedState : Awaited → SideEffectState
  | .notSubmitted => .notSubmitted
  | .spooled | .job .. => .confirmed
  | .stopped | .nothing | .several => .uncertain

def printerName : PyStr := (p.readings.printer.map PrinterState.name).getD []

def settleDetail : Awaited → PyStr
  | .notSubmitted => ((p.worker.bind RenderedJob.notSubmittedReason).filter
      (· ≠ [])).getD (py "not submitted")
  | .spooled => py "job " ++ (((p.worker.bind RenderedJob.jobId).map natText).getD []) ++ py " spooled"
  | .stopped => py "stopped while waiting for the job"
  | .nothing => py "no matching job seen"
  | .several => py "several matching jobs"
  | .job jobId _ => py "job " ++ natText jobId

/-- The parts of the content; the options are not among them. -/
def parts : List PyStr := [p.prepared.sha256, casefold p.printerName]

/-- What it asks of the journal. -/
def wants : Option Want :=
  match p.point with
  | .begin => some (.begin (py "print") (p.parts casefold)
    (py "print " ++ p.prepared.fileName ++ py " on " ++ p.printerName))
  | .refused detail => some (.settle .notSubmitted detail)
  | .unclear name => some (.settle .uncertain name)
  | .rescue name => some (.settle .uncertain name)
  | .settling r => some (.settle (awaitedState r) (p.settleDetail r))
  | .look => some .get
  | _ => none

/-- What becomes of the states that the attempt may have. -/
def given (state : SideEffectState) (r : Except Failure (Option SideEffectState)) : Printing :=
  { p with states := match r with
    | .ok _ => [state]
    | .error _ => state :: p.states }

def told (r : Except Failure (Option SideEffectState)) : Printing :=
  match p.point with
  | .begin => match r with
    | .ok _ => { p with states := [.submitting], point := .guard }
    | .error _ => p.goTo .dropping
  | .refused _ => (p.given .notSubmitted r).closes .raise
  | .unclear _ => (p.given .uncertain r).closes (match r with
    | .ok _ => .uncertain
    | .error _ => .raise)
  | .rescue _ => match r with
    | .ok _ => (p.given .uncertain r).closes .uncertain
    | .error e =>
      if e.isWorkflowError then (p.given .uncertain r).goTo .look
      else (p.given .uncertain r).closes .raise
  | .look => match r with
    | .ok state =>
      p.closes (if state.all SideEffectState.unresolved then .raise else .uncertain)
    | .error _ => p.closes .raise
  | .settling a => match r with
    | .error _ => (p.given (awaitedState a) r).goTo .raised
    | .ok _ => (p.given (awaitedState a) r).goTo (match a with
      | .notSubmitted => .raised
      | .spooled => .reported ⟨.succeeded, p.worker.bind RenderedJob.jobId⟩
      | .stopped | .nothing | .several => .reported ⟨.uncertain, none⟩
      | .job .. => .judge)
  | _ => p

def isFirst : Bool :=
  p.point = .entry && p.readings.file.isNone && p.readings.printer.isNone &&
    p.readings.handler.isNone && p.watcher = .none && p.handler = .none && p.worker.isNone &&
      p.exactId.isNone && !p.handlerDone && p.taken.isNone && !p.resumed && !p.asked && !p.notLaunched && p.states = []

end Printing

/-- The submits; `operationKey` makes the key of an approval and a plan. -/
def submits (casefold : PyStr → PyStr) (operationKey : PyStr → PyStr → PyStr) :
    Procedure Printing Reading Note where
  operationKey p := operationKey p.approval.approvalId p.prepared.digest
  content p := (py "print", p.parts casefold)
  first := Printing.isFirst
  wants := Printing.wants casefold
  told := Printing.told
  input := Printing.read casefold
  invokes := Note.isStarted

end QronosAgent.Print

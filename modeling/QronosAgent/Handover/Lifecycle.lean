import QronosAgent.Lib.Json
import QronosAgent.Lib.Machine

/-! `desktop/src-tauri/src/runtime/lifecycle.rs`: what the launch reads before it starts the update
service, and what it makes of the answer. -/
namespace QronosAgent.Handover
open Lib

section
variable {F : Type}

/-- `Value::get` with a name: only an object has members. -/
def field (v : Json F) (name : PyStr) : Option (Json F) :=
  match v with
  | .obj ms => Json.member? ms name
  | _ => none

/-- `Value::as_bool` -/
def asBool : Json F → Option Bool
  | .bool b => some b
  | _ => none

/-- `Value::as_str` -/
def asStr : Json F → Option PyStr
  | .str s => some s
  | _ => none

/-- `Value::is_object` -/
def isObject : Json F → Bool
  | .obj _ => true
  | _ => false

/-- `PROVED_NO_START`: refusals raised before the update service records a start. -/
def provedNoStart : List PyStr :=
  [py "launch_unavailable", py "runtime_running", py "update_in_progress", py "writers_active",
    py "recovery_pending", py "not_approved", py "approval_expired", py "permission_denied",
    py "not_staged", py "package_mismatch", py "launch_failed"]

inductive LaunchLine (F : Type) where
  | notStarted (error : PyStr)
  | answer (value : Json F)
  | noAnswer (why : PyStr)

inductive Classified (F : Type) where
  | launched (handoff : Json F)
  | notStarted (code message : PyStr)
  | unknown (why : PyStr)

/-- `classify` on an answer. -/
def classifyAnswer (value : Json F) : Classified F :=
  let ok := (field value (py "ok")).bind asBool = some true
  let handoff := (field value (py "handoff")).filter isObject
  let code := ((field value (py "code")).bind asStr).getD []
  if ok then
    match handoff with
    | some handoff => .launched handoff
    | none => .unknown (py "answer is not understood")
  else if code ∈ provedNoStart then
    .notStarted code ((((field value (py "error")).bind asStr).getD []).take 400)
  else if code ≠ [] then .unknown (py "refusal " ++ code)
  else .unknown (py "answer is not understood")

/-- `classify` -/
def classify : LaunchLine F → Classified F
  | .notStarted error => .notStarted (py "backend_not_started")
      (py "The update service could not be started (" ++ error ++ py "); nothing ran.")
  | .noAnswer why => .unknown why
  | .answer value => classifyAnswer value

def Classified.isNotStarted : Classified F → Bool
  | .notStarted _ _ => true
  | _ => false

def LaunchLine.provesNoStart (line : LaunchLine F) : Prop := (classify line).isNotStarted = true

/-- `is_token`, on the bytes of the token. -/
def isToken (token : List UInt8) : Bool :=
  token.length = 43 && token.all fun b =>
    (48 ≤ b && b ≤ 57) || (65 ≤ b && b ≤ 90) || (97 ≤ b && b ≤ 122) || b = 45 || b = 95

/-- `preflight`: the refusal, if a launch may not be tried. An error is what `update_status`
raised. -/
def preflight : Except PyStr (Json F) → Option (PyStr × PyStr)
  | .error error => some (py "status_unavailable", error)
  | .ok value =>
    let status := (field value (py "status")).getD .null
    let flag := fun name => (field status name).bind asBool
    if flag (py "updateInProgress") ≠ some false then
      some (py "update_in_progress", py "An update is already in progress.")
    else if flag (py "recoveryPending") ≠ some false then
      some (py "recovery_pending", py "An interrupted update must be recovered first.")
    else if flag (py "launchAvailable") ≠ some true then
      some (py "launch_unavailable", py "Starting an update installer is not enabled.")
    else if ¬ ((field status (py "launchReady")).map isObject).getD false then
      some (py "not_approved", py "No approved launch is ready.")
    else none

/-- The answer of a launch that proved no start. -/
def refusal (code message : PyStr) (runtimeRestarted : Bool) : Json F :=
  .obj [(py "ok", .bool false), (py "outcome", .str (py "not_started")), (py "code", .str code),
    (py "error", .str message), (py "runtimeRestarted", .bool runtimeRestarted)]

def launchedAnswer (handoff : Json F) : Json F :=
  .obj [(py "ok", .bool true), (py "outcome", .str (py "launched")), (py "handoff", handoff),
    (py "exiting", .bool true)]

def unknownAnswer (why : PyStr) : Json F :=
  .obj [(py "ok", .bool false), (py "outcome", .str (py "unknown")),
    (py "code", .str (py "launch_outcome_unknown")),
    (py "error", .str (py "Whether the installer started is unknown (" ++ why ++ py ").")),
    (py "runtimeRestarted", .bool false), (py "exiting", .bool true)]

end

/-! `Lifecycle::launch`, the service gate and the runtime starts, each section under a lock as one
step. What the app answers (`LaunchHost`) is given with the step that receives it. -/

structure Gate where
  closed : Bool
  active : ℕ

inductive Phase where
  | idle
  | launching
  | exitRequired
  deriving DecidableEq

structure Refusal where
  code : PyStr
  message : PyStr
  restart : Bool

inductive Stage where
  /-- The phase was moved; the token is checked next. -/
  | entered
  /-- In `host.stop_playback()`, after a first look at the tickets. -/
  | playback (drained : Bool)
  | draining
  | status
  /-- In `host.stop_runtime()`, before it has taken the process out of its slot. -/
  | takeRuntime
  | stopping
  /-- The stop is proved; `host.launch` is called next. -/
  | stopped
  | launching
  | backToIdle (r : Refusal)
  | reopen (r : Refusal)
  /-- In `host.restart_runtime()`, before it has the slot. -/
  | restart (r : Refusal)
  /-- In `host.restart_runtime()`, with the slot locked. -/
  | restarting (r : Refusal)

/-- A launch that is in progress, and what the host has answered it. -/
structure Call (F : Type) where
  token : List UInt8
  stage : Stage
  status : Option (Except PyStr (Json F))
  stop : Option (Except PyStr Bool)
  line : Option (LaunchLine F)

inductive StartStage where
  | locked
  | phaseRead
  | allowed
  deriving DecidableEq

/-- `start_runtime_inner` with the slot locked: a request, or the restart of a launch. -/
structure Start where
  owner : Option ℕ
  stage : StartStage

inductive StartOutcome where
  | started
  | alreadyRunning
  | failed

structure Desktop (F : Type) where
  gate : Gate
  phase : Phase
  tickets : List ℕ
  slot : Option Start
  starts : ℕ
  /-- The launches in progress: those past the check of the phase that have not returned. -/
  calls : Dict ℕ (Call F)
  lines : List (LaunchLine F)
  returned : List (ℕ × Json F)

inductive Move (F : Type) where
  | checkToken
  | playbackStopped
  /-- The wait ends: the tickets are looked at again, after the bound when it is up. -/
  | wake (timedOut : Bool)
  | statusAnswered (answer : Except PyStr (Json F))
  | takeRuntime
  | stopAnswered (answer : Except PyStr Bool)
  | callLaunch
  | launchAnswered (line : LaunchLine F)
  | setIdle
  | reopen
  | lockSlot

inductive Action (F : Type) where
  | begin (i : ℕ) (token : List UInt8)
  | move (i : ℕ) (m : Move F)
  /-- `ServiceGate::enter`; the ticket it gives is a new one. -/
  | enter (ticket : ℕ)
  | dropTicket (ticket : ℕ)
  | startRequest
  | readPhase
  | readGate
  | startEnded (outcome : StartOutcome)

section
variable {F : Type}

namespace Desktop

def initial : Desktop F where
  gate := ⟨false, 0⟩
  phase := .idle
  tickets := []
  slot := none
  starts := 0
  calls := .empty
  lines := []
  returned := []

/-- The launch goes on with this. -/
def put (s : Desktop F) (i : ℕ) (c : Call F) : Desktop F := { s with calls := s.calls.set i c }

/-- The launch returns. -/
def answer (s : Desktop F) (i : ℕ) (value : Json F) : Desktop F :=
  { s with calls := s.calls.erase i, returned := s.returned ++ [(i, value)] }

/-- The part of `close_and_drain` before the first look at the tickets. -/
def close (s : Desktop F) : Desktop F := { s with gate := { s.gate with closed := true } }

/-- `reopen` -/
def open_ (s : Desktop F) : Desktop F := { s with gate := { s.gate with closed := false } }

end Desktop

def busy (running : ℕ) : Refusal where
  code := py "desktop_busy"
  message := natText running ++
    py " Qronos request(s) did not finish in time; nothing was stopped or started."
  restart := false

def stopUnproved (why : PyStr) : Refusal where
  code := py "runtime_stop_unproved"
  message := py "The runtime did not provably stop: " ++ why
  restart := false

/-- A launch after `host.launch` has answered. -/
def Desktop.launchAnswered (s : Desktop F) (i : ℕ) (c : Call F) (line : LaunchLine F) : Desktop F :=
  let s := { s with lines := s.lines ++ [line] }
  match classify line with
  | .notStarted code message =>
    let wasRunning := match c.stop with
      | some (.ok wasRunning) => wasRunning
      | _ => false
    s.put i { c with stage := .backToIdle ⟨code, message, wasRunning⟩, line := some line }
  | .launched handoff => { s with phase := .exitRequired }.answer i (launchedAnswer handoff)
  | .unknown why => { s with phase := .exitRequired }.answer i (unknownAnswer why)

/-- A step of a launch; `none` when it is not its next one. -/
def Desktop.move (s : Desktop F) (i : ℕ) (c : Call F) : Stage → Move F → Option (Desktop F)
  | .entered, .checkToken =>
    if isToken c.token then some (s.close.put i { c with stage := .playback (s.gate.active = 0) })
    else some ({ s with phase := .idle }.answer i (refusal (py "not_approved")
      (py "The launch token is not valid; nothing was started.") false))
  | .playback true, .playbackStopped => some (s.put i { c with stage := .status })
  | .playback false, .playbackStopped =>
    some (s.close.put i { c with stage := if s.gate.active = 0 then .status else .draining })
  | .draining, .wake timedOut =>
    if s.gate.active = 0 then some (s.put i { c with stage := .status })
    else if timedOut then some (s.put i { c with stage := .backToIdle (busy s.gate.active) })
    else some s
  | .status, .statusAnswered status =>
    match preflight status with
    | some (code, message) =>
      some (s.put i { c with stage := .backToIdle ⟨code, message, false⟩, status := some status })
    | none => some (s.put i { c with stage := .takeRuntime, status := some status })
  | .takeRuntime, .takeRuntime =>
    if s.slot = none then some (s.put i { c with stage := .stopping }) else none
  | .stopping, .stopAnswered (.ok wasRunning) =>
    some (s.put i { c with stage := .stopped, stop := some (.ok wasRunning) })
  | .stopping, .stopAnswered (.error why) =>
    some (s.put i { c with stage := .backToIdle (stopUnproved why), stop := some (.error why) })
  | .stopped, .callLaunch => some (s.put i { c with stage := .launching })
  | .launching, .launchAnswered line => some (s.launchAnswered i c line)
  | .backToIdle r, .setIdle => some ({ s with phase := .idle }.put i { c with stage := .reopen r })
  | .reopen r, .reopen =>
    if r.restart then some (s.open_.put i { c with stage := .restart r })
    else some (s.open_.answer i (refusal r.code r.message false))
  | .restart r, .lockSlot =>
    if s.slot = none then
      some ({ s with slot := some ⟨some i, .locked⟩ }.put i { c with stage := .restarting r })
    else none
  | _, _ => none

def Desktop.endStart (s : Desktop F) (start : Start) (isOk : Bool) : Desktop F :=
  let s := { s with slot := none }
  match start.owner with
  | none => s
  | some i =>
    match (s.calls.get? i).map Call.stage with
    | some (.restarting r) => s.answer i (refusal r.code r.message isOk)
    | _ => s

namespace Desktop

def begin (s : Desktop F) (i : ℕ) (token : List UInt8) : Desktop F :=
  match s.phase with
  | .idle => { s with phase := .launching }.put i ⟨token, .entered, none, none, none⟩
  | .launching => { s with returned := s.returned ++
      [(i, refusal (py "update_busy") (py "An update launch is already in progress.") false)] }
  | .exitRequired => { s with returned := s.returned ++
      [(i, refusal (py "exit_required") (py "Qronos is closing for an update.") false)] }

/-- `enter` -/
def enter (s : Desktop F) (ticket : ℕ) : Desktop F :=
  if s.gate.closed then s
  else { s with gate := { s.gate with active := s.gate.active + 1 }, tickets := ticket :: s.tickets }

/-- `Ticket::drop` -/
def dropTicket (s : Desktop F) (ticket : ℕ) : Desktop F :=
  { s with gate := { s.gate with active := s.gate.active - 1 }, tickets := s.tickets.erase ticket }

/-- `runtime_start_allowed` reads the phase. -/
def readPhase (s : Desktop F) (start : Start) : Desktop F :=
  if s.phase = .exitRequired then s.endStart start false
  else { s with slot := some { start with stage := .phaseRead } }

/-- `runtime_start_allowed` asks whether the gate is closed. -/
def readGate (s : Desktop F) (start : Start) : Desktop F :=
  if s.gate.closed then s.endStart start false
  else { s with slot := some { start with stage := .allowed } }

/-- The rest of `start_runtime_inner`. -/
def startEnded (s : Desktop F) (start : Start) : StartOutcome → Desktop F
  | .started => { s with starts := s.starts + 1 }.endStart start true
  | .alreadyRunning => s.endStart start true
  | .failed => s.endStart start false

def startAt (s : Desktop F) (stage : StartStage) : Option Start :=
  s.slot.filter fun start => start.stage = stage

end Desktop

def desktopMachine (F : Type) : Machine (Desktop F) (Action F) where
  start s := s = .initial
  step s
    | .begin i token => if (s.calls.get? i).isSome then none else some (s.begin i token)
    | .move i m => (s.calls.get? i).bind fun c => s.move i c c.stage m
    | .enter ticket => if ticket ∈ s.tickets then none else some (s.enter ticket)
    | .dropTicket ticket => if ticket ∈ s.tickets then some (s.dropTicket ticket) else none
    | .startRequest =>
      if s.slot = none then some { s with slot := some ⟨none, .locked⟩ } else none
    | .readPhase => (s.startAt .locked).map s.readPhase
    | .readGate => (s.startAt .phaseRead).map s.readGate
    | .startEnded outcome => (s.startAt .allowed).map fun start => s.startEnded start outcome

end
end QronosAgent.Handover

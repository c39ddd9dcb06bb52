import Mathlib.Algebra.Order.Field.Rat
import QronosAgent.Lib.Machine
import QronosAgent.Lib.PyText

/-! `core/supervisor.py`: one `Supervisor.run`, its children and the threads beside it, and the
runtime's listener. What the launcher, the channel and the clock answer stands in the acts; each look
at the stop event or at the child is a step. -/
namespace QronosAgent.Supervision
open Lib

/-- `PROTOCOL_VERSION` -/
def protocolVersion : ℤ := 1

/-- `STARTUP_REFUSED_EXIT` -/
def startupRefusedExit : ℤ := 78

inductive FromRuntime where
  | hello (pid protocol : ℤ)
  | heartbeat (seq busy : ℤ)
  | goodbye (reason : PyStr)

inductive ToRuntime where
  | welcome (protocol supervisorPid : ℤ)
  | shutdown (reason : PyStr)

inductive SupervisorState where
  | starting
  | running
  | backingOff
  | stopping
  | stopped
  | degraded
  deriving DecidableEq

/-- `SupervisorPolicy`, less the deadlines, which the acts decide about. -/
structure SupervisorPolicy where
  heartbeatIntervalSeconds : ℚ
  heartbeatTimeoutSeconds : ℚ
  restartBackoffInitialSeconds : ℚ
  restartBackoffMaxSeconds : ℚ
  maxRestarts : ℕ
  restartWindowSeconds : ℚ
  stableAfterSeconds : ℚ
  commandLoopWarnSeconds : ℚ
  interval_pos : 0 < heartbeatIntervalSeconds
  interval_lt : heartbeatIntervalSeconds < heartbeatTimeoutSeconds
  initial_pos : 0 < restartBackoffInitialSeconds
  initial_le : restartBackoffInitialSeconds ≤ restartBackoffMaxSeconds
  window_pos : 0 < restartWindowSeconds
  stable_pos : 0 < stableAfterSeconds
  warn_pos : 0 < commandLoopWarnSeconds

structure RestartBudget where
  restarts : List ℚ
  consecutive : ℕ

namespace RestartBudget

/-- The failures in a row that `after_failure` counts for the delay. -/
def row (policy : SupervisorPolicy) (budget : RestartBudget) (ranFor : ℚ) : ℕ :=
  if policy.stableAfterSeconds ≤ ranFor then 0 else budget.consecutive

def recent (policy : SupervisorPolicy) (budget : RestartBudget) (now : ℚ) : List ℚ :=
  budget.restarts.filter fun restart => now - restart < policy.restartWindowSeconds

/-- `2 ** self._consecutive` is beyond the floats and is asked for. -/
def Overflows (policy : SupervisorPolicy) (budget : RestartBudget) (now ranFor : ℚ) : Prop :=
  (budget.recent policy now).length < policy.maxRestarts ∧ 1024 ≤ budget.row policy ranFor

instance (policy : SupervisorPolicy) (budget : RestartBudget) (now ranFor : ℚ) :
    Decidable (budget.Overflows policy now ranFor) :=
  inferInstanceAs (Decidable (_ ∧ _))

/-- `after_failure`; the outer `none` is the `OverflowError`. -/
def afterFailure (policy : SupervisorPolicy) (budget : RestartBudget) (now ranFor : ℚ) :
    Option (RestartBudget × Option ℚ) :=
  let row := budget.row policy ranFor
  let recent := budget.recent policy now
  if policy.maxRestarts ≤ recent.length then some (⟨recent, row⟩, none)
  else if 1024 ≤ row then none
  else some (⟨recent ++ [now], row + 1⟩,
    some (min policy.restartBackoffMaxSeconds (policy.restartBackoffInitialSeconds * 2 ^ row)))

theorem afterFailure_isSome {policy : SupervisorPolicy} {budget : RestartBudget} {now ranFor : ℚ}
    (h : ¬ budget.Overflows policy now ranFor) :
    (budget.afterFailure policy now ranFor).isSome = true := by
  unfold Overflows at h
  unfold afterFailure
  simp only
  split_ifs with hmax hrow
  · rfl
  · exact absurd ⟨not_le.mp hmax, hrow⟩ h
  · rfl

end RestartBudget

structure Process where
  pid : ℤ
  relayed : Bool
  exit : Option ℤ
  /-- The run has gone on without having seen its exit. -/
  left : Bool

inductive Reason where
  | notLaunched
  | stopping
  | wrongHello
  | exitedBeforeConnecting (code : ℤ)
  | didNotConnect
  | exited (code : ℤ)
  | closedChannel
  | goodbye
  | unexpectedMessage
  | stoppedResponding
  deriving DecidableEq

structure Round where
  startedAt : ℚ
  child : Option ℕ
  channel : Bool
  reason : Reason
  deriving DecidableEq

inductive ConnectPoint where
  | listen
  | accept
  | look
  | receive
  | welcome
  deriving DecidableEq

structure Watch where
  lastBeat : ℚ
  stallReported : Bool
  deriving DecidableEq

inductive WatchPoint where
  | stop
  | poll
  | receive
  deriving DecidableEq

inductive ShutPoint where
  | ask
  | request
  | send
  | grace
  | closeChannel
  | terminatePoll
  | terminate
  | terminateWait
  | killPoll
  | kill
  | killWait
  | closeServer
  deriving DecidableEq

inductive LeavePoint where
  | stop
  | refused
  | budget
  deriving DecidableEq

inductive Phase where
  | top
  | starting
  | launching (startedAt : ℚ)
  | connecting (startedAt : ℚ) (child : ℕ) (point : ConnectPoint)
  | watching (startedAt : ℚ) (child : ℕ) (watch : Watch) (point : WatchPoint)
  | shutting (round : Round) (point : ShutPoint)
  | leaving (round : Round) (point : LeavePoint)
  | backingOff (delay : ℚ)
  | final
  | ended (state : Option SupervisorState)
  deriving DecidableEq

namespace Phase

def child? : Phase → Option ℕ
  | .connecting _ c _ | .watching _ c _ _ => some c
  | .shutting r _ | .leaving r .stop | .leaving r .refused => r.child
  | _ => none

/-- The loop has looked at the stop event and the launcher is not yet called. -/
def beforeLaunch : Phase → Bool
  | .starting | .launching _ => true
  | _ => false

def isEnded : Phase → Bool
  | .ended _ => true
  | _ => false

/-- Something is called here whose exceptions are not all caught. -/
def mayRaise : Phase → Bool
  | .starting | .connecting _ _ .accept | .connecting _ _ .receive | .connecting _ _ .welcome
  | .watching _ _ _ .receive => true
  | .shutting _ point => match point with
    | .request | .send | .closeChannel | .terminate | .terminateWait | .kill | .killWait
    | .closeServer => true
    | _ => false
  | _ => false

end Phase

inductive Event where
  | set (state : SupervisorState)
  | launched (child : ℕ) (pid : ℤ)
  | launchFailed (child : Option ℕ)
  | exited (child : ℕ) (code : ℤ)
  | stopCalled
  | accepted (pid : ℤ)
  | hello (pid protocol : ℤ)
  | requestedStop (child : ℕ)
  | asked (child : ℕ)
  | terminated (child : ℕ)
  | killed (child : ℕ)
  | warned (busy : ℤ)
  | exhausted
  | returned (state : SupervisorState)
  | raised
  deriving DecidableEq

/-- The supervisor during one `run`; the processes and the log, newest first, are the world's. -/
structure Supervisor where
  policy : SupervisorPolicy
  state : SupervisorState
  stop : Bool
  budget : RestartBudget
  starts : ℕ
  connecting : Bool
  interrupted : Bool
  /-- `exited`, as the child's watcher has left it. -/
  exited : Option ℤ
  phase : Phase
  processes : List Process
  log : List Event

inductive Received where
  | message (message : FromRuntime)
  | timeout
  | error

inductive Act where
  | stop
  /-- `stop` interrupts the server that is connecting. -/
  | interrupt
  | exit (child : ℕ) (code : ℤ)
  /-- The thread of `watch_child` finds that the child has exited. -/
  | notice
  /-- The run goes on to its next statement, by what it finds. -/
  | go
  | prepared (now : ℚ)
  | launched (pid : ℤ) (relayed : Bool)
  | launchRaised (left : Option ℤ)
  | accepted
  | acceptCancelled
  | acceptFailed
  | late
  | received (received : Received) (now : ℚ)
  | welcomed (now : ℚ)
  | sendFailed
  | called
  | waited
  | budgeted (now again : ℚ)
  | raises

/-- The acts of the thread that runs `run`. -/
def Act.own : Act → Bool
  | .stop | .interrupt | .exit .. | .notice => false
  | _ => true

namespace Supervisor
variable (s : Supervisor)

def emit (e : Event) : Supervisor := { s with log := e :: s.log }

def goto (phase : Phase) : Supervisor := { s with phase := phase }

/-- `_set` -/
def set (state : SupervisorState) : Supervisor :=
  { s with state := state, log := .set state :: s.log }

/-- `poll` of a child that is in the table. -/
def poll (c : ℕ) : Option ℤ := s.processes[c]?.bind Process.exit

def pid (c : ℕ) : ℤ := (s.processes[c]?.map Process.pid).getD 0

/-- `poll`, of `_NoChild` also. -/
def pollChild (r : Round) : Option ℤ :=
  match r.child with
  | none => some 1
  | some c => s.poll c

/-- What `run` does first with the reason for stopping. -/
def stopRuntime (r : Round) : Supervisor := (s.set .stopping).goto (.shutting r .ask)

/-- `_start` returns without a channel. -/
def notConnected (t : ℚ) (c : ℕ) (reason : Reason) : Supervisor :=
  { s with connecting := false }.stopRuntime ⟨t, some c, false, reason⟩

/-- `_watch` returns. -/
def watched (t : ℚ) (c : ℕ) (reason : Reason) : Supervisor :=
  s.stopRuntime ⟨t, some c, true, reason⟩

def finish (state : SupervisorState) : Supervisor :=
  ((s.set state).emit (.returned state)).goto (.ended (some state))

def raise : Supervisor :=
  ({ s with connecting := false }.emit .raised).goto (.ended none)

/-- The run goes on without having seen the child's exit. -/
def leave (r : Round) : Supervisor :=
  match r.child with
  | some c => { s with processes := s.processes.modify c fun p => { p with left := p.exit.isNone } }
  | none => s

/-- Why `ChannelCancelled` has come. -/
def cancelReason : Reason :=
  match s.exited with
  | some code => if s.stop then .stopping else .exitedBeforeConnecting code
  | none => .stopping

/-- The message that `_receive_hello` has returned. -/
def introduced (t : ℚ) (c : ℕ) : FromRuntime → Supervisor
  | .hello pid protocol =>
    let s' := s.emit (.hello pid protocol)
    if pid = s.pid c ∧ protocol = protocolVersion then s'.goto (.connecting t c .welcome)
    else s'.notConnected t c .wrongHello
  | _ => s.notConnected t c .wrongHello

/-- The end of a turn of `_watch`. -/
def beatChecked (t : ℚ) (c : ℕ) (w : Watch) (now : ℚ) : Supervisor :=
  if s.policy.heartbeatTimeoutSeconds < now - w.lastBeat then s.watched t c .stoppedResponding
  else s.goto (.watching t c w .stop)

/-- The message that `_watch` has received. -/
def heard (t : ℚ) (c : ℕ) (w : Watch) (now : ℚ) : FromRuntime → Supervisor
  | .heartbeat _ busy =>
    if s.policy.commandLoopWarnSeconds ≤ busy ∧ w.stallReported = false then
      (s.emit (.warned busy)).beatChecked t c ⟨now, true⟩ now
    else s.beatChecked t c ⟨now, if busy = 0 then false else w.stallReported⟩ now
  | .goodbye _ => s.watched t c .goodbye
  | .hello .. => s.watched t c .unexpectedMessage

/-- A statement whose course is settled by what it finds. -/
def go : Option Supervisor :=
  match s.phase with
  | .top => some (if s.stop then s.goto .final else (s.set .starting).goto .starting)
  | .connecting t c .listen =>
    some ({ s with connecting := true, interrupted := s.interrupted || s.stop }.goto
      (.connecting t c .accept))
  | .connecting t c .look =>
    some (if s.stop then s.notConnected t c .stopping else s.goto (.connecting t c .receive))
  | .watching t c w .stop =>
    some (if s.stop then s.watched t c .stopping else s.goto (.watching t c w .poll))
  | .watching t c w .poll => some <|
    match s.poll c with
    | some code => s.watched t c (.exited code)
    | none => s.goto (.watching t c w .receive)
  | .shutting r .ask => some <| s.goto <| .shutting r <|
    if s.pollChild r = none ∧ r.channel = true then .request
    else if r.channel then .grace else .terminatePoll
  | .shutting r .terminatePoll =>
    some (s.goto (.shutting r (if s.pollChild r = none then .terminate else .killPoll)))
  | .shutting r .killPoll =>
    some (s.goto (.shutting r (if s.pollChild r = none then .kill else .closeServer)))
  | .leaving r .stop => some (s.goto (if s.stop then .final else .leaving r .refused))
  | .leaving r .refused =>
    some (if s.pollChild r = some startupRefusedExit then s.finish .degraded
      else (s.leave r).goto (.leaving r .budget))
  -- The wait for the stop event has seen it.
  | .backingOff _ => if s.stop then some (s.goto .final) else none
  | .final => some (s.finish .stopped)
  | _ => none

/-- A call that goes to the child; `_NoChild` does nothing. -/
def emitFor (r : Round) (event : ℕ → Event) : Supervisor :=
  match r.child with
  | some c => s.emit (event c)
  | none => s

/-- `request_stop`, where the child has it. -/
def requestStop (r : Round) : Supervisor :=
  if (r.child.bind fun c => s.processes[c]?).any Process.relayed then s.emitFor r .requestedStop
  else s

def called : Option Supervisor :=
  match s.phase with
  | .shutting r .closeServer => some (s.goto (.leaving r .stop))
  | .shutting r .closeChannel => some (s.goto (.shutting r .terminatePoll))
  | .shutting r .request => some ((s.requestStop r).goto (.shutting r .send))
  | .shutting r .send => some ((s.emitFor r .asked).goto (.shutting r .grace))
  | .shutting r .terminate => some ((s.emitFor r .terminated).goto (.shutting r .terminateWait))
  | .shutting r .kill => some ((s.emitFor r .killed).goto (.shutting r .killWait))
  | _ => none

def waited : Option Supervisor :=
  match s.phase with
  | .shutting r .grace => some (s.goto (.shutting r .closeChannel))
  | .shutting r .terminateWait => some (s.goto (.shutting r .killPoll))
  | .shutting r .killWait => some (s.goto (.shutting r .closeServer))
  | .backingOff _ => some (s.goto .top)
  | _ => none

def add (started : List Process) : Supervisor := { s with processes := s.processes ++ started }

def launch (t : ℚ) (pid : ℤ) (relayed : Bool) : Supervisor :=
  let c := s.processes.length
  ((s.add [⟨pid, relayed, none, false⟩]).emit (.launched c pid)).goto (.connecting t c .listen)

def launchFailed (t : ℚ) (left : Option ℤ) : Supervisor :=
  let c := left.map fun _ => s.processes.length
  ((s.add (left.map fun pid => ⟨pid, false, none, true⟩).toList).emit (.launchFailed c)).stopRuntime
    ⟨t, none, false, .notLaunched⟩

/-- `after_failure` has answered, or raised. -/
def budgeted (answer : Option (RestartBudget × Option ℚ)) : Supervisor :=
  match answer with
  | none => s.raise
  | some (budget, none) => ({ s with budget := budget }.emit .exhausted).finish .degraded
  | some (budget, some delay) =>
    ({ s with budget := budget }.set .backingOff).goto (.backingOff delay)

def step (s : Supervisor) : Act → Option Supervisor
  | .stop => some ({ s with stop := true }.emit .stopCalled)
  | .interrupt =>
    if s.stop then some { s with interrupted := s.interrupted || s.connecting } else none
  | .exit c code => s.processes[c]?.bind fun p =>
    if p.exit.isNone then
      some ({ s with processes := s.processes.set c { p with exit := some code } }.emit
        (.exited c code))
    else none
  | .notice =>
    match s.phase with
    | .connecting _ c _ =>
      (s.poll c).map fun code => { s with exited := some code, interrupted := true }
    | _ => none
  | .go => s.go
  | .prepared now =>
    match s.phase with
    | .starting => some ({ s with starts := s.starts + 1, interrupted := false, exited := none }.goto
        (.launching now))
    | _ => none
  | .launched pid relayed =>
    match s.phase with
    | .launching t => some (s.launch t pid relayed)
    | _ => none
  | .launchRaised left =>
    match s.phase with
    | .launching t => some (s.launchFailed t left)
    | _ => none
  | .accepted =>
    match s.phase with
    | .connecting t c .accept => some ((s.emit (.accepted (s.pid c))).goto (.connecting t c .look))
    | _ => none
  | .acceptCancelled =>
    match s.phase with
    | .connecting t c .accept =>
      if s.interrupted then some (s.notConnected t c s.cancelReason) else none
    | _ => none
  | .acceptFailed =>
    match s.phase with
    | .connecting t c .accept => some (s.notConnected t c .didNotConnect)
    | _ => none
  | .late =>
    match s.phase with
    | .connecting t c .look =>
      if s.stop then none else some (s.notConnected t c .didNotConnect)
    | _ => none
  | .received received now =>
    match s.phase, received with
    | .connecting t c .receive, .message message => some (s.introduced t c message)
    | .connecting t c .receive, .timeout => some (s.goto (.connecting t c .look))
    | .connecting t c .receive, .error => some (s.notConnected t c .didNotConnect)
    | .watching t c w .receive, .message message => some (s.heard t c w now message)
    | .watching t c w .receive, .timeout => some (s.beatChecked t c w now)
    | .watching t c _ .receive, .error => some (s.watched t c .closedChannel)
    | _, _ => none
  | .welcomed now =>
    match s.phase with
    | .connecting t c .welcome =>
      some (({ s with connecting := false }.set .running).goto (.watching t c ⟨now, false⟩ .stop))
    | _ => none
  | .sendFailed =>
    match s.phase with
    | .connecting t c .welcome => some (s.notConnected t c .didNotConnect)
    | .shutting r .send => some ((s.emitFor r .asked).goto (.shutting r .grace))
    | _ => none
  | .called => s.called
  | .waited => s.waited
  | .budgeted now again =>
    match s.phase with
    | .leaving r .budget =>
      some (s.budgeted (s.budget.afterFailure s.policy now (again - r.startedAt)))
    | _ => none
  | .raises => if s.phase.mayRaise then some s.raise else none

structure Fresh (s : Supervisor) : Prop where
  state : s.state = .stopped
  stop : s.stop = false
  budget : s.budget = ⟨[], 0⟩
  phase : s.phase = .top
  processes : s.processes = []
  log : s.log = []

end Supervisor

/-- One run; `stop` may have been called before it. -/
def supervisorMachine : Machine Supervisor Act where
  start s := s.Fresh
  step := Supervisor.step

def Every {ε : Type} (J : ε → List ε → Prop) : List ε → Prop
  | [] => True
  | e :: older => J e older ∧ Every J older

namespace Event

def process? : Event → Option ℕ
  | .launched c _ => some c
  | .launchFailed c => c
  | _ => none

def isLaunch : Event → Bool
  | .launched .. | .launchFailed _ => true
  | _ => false

end Event

namespace Log

def lastLaunched : List Event → Option (ℕ × ℤ)
  | [] => none
  | .launched c pid :: _ => some (c, pid)
  | _ :: older => lastLaunched older

def sinceLaunch : List Event → List Event
  | [] => []
  | .launched .. :: _ => []
  | e :: older => e :: sinceLaunch older

def lastState : List Event → SupervisorState
  | [] => .stopped
  | .set state :: _ => state
  | _ :: older => lastState older

/-- The child launched last has been accepted, and has then introduced itself. -/
def Served (log : List Event) : Prop :=
  ∃ c pid newer older, lastLaunched log = some (c, pid) ∧
    sinceLaunch log = newer ++ .hello pid protocolVersion :: older ∧ .accepted pid ∈ older

def Refused (log : List Event) : Prop :=
  ∃ c pid, lastLaunched log = some (c, pid) ∧ .exited c startupRefusedExit ∈ log

structure MayLaunch (log : List Event) : Prop where
  exited : ∀ e ∈ log, ∀ c, e.process? = some c → ∃ code, .exited c code ∈ log
  accepted : ∀ c, .exited c startupRefusedExit ∉ log
  exhausted : .exhausted ∉ log
  returned : ∀ state, .returned state ∉ log

end Log

def Event.Justified : Event → List Event → Prop
  | .launched .., older | .launchFailed _, older => Log.MayLaunch older
  | .set state, older => Log.lastState older = .running → state = .stopping
  | .requestedStop c, older | .asked c, older | .terminated c, older | .killed c, older =>
    ∃ pid, Log.lastLaunched older = some (c, pid)
  | .returned state, older => Log.lastState older = state ∧
    (state = .degraded ∧ (Log.Refused older ∨ .exhausted ∈ older) ∨
      state = .stopped ∧ .stopCalled ∈ older)
  | .raised, _ => False
  | _, _ => True

def Orderly (s : Supervisor) : Act → Prop
  | .raises => False
  | .budgeted now again => ∀ r, s.phase = .leaving r .budget →
    ¬ s.budget.Overflows s.policy now (again - r.startedAt)
  | .launched .. | .launchRaised _ => ∀ p ∈ s.processes, p.left = true →
    ∃ code, p.exit = some code ∧ code ≠ startupRefusedExit
  | _ => True

inductive Listener where
  | looking
  | receiving
  | requesting (reason : PyStr)
  | calling (reason : PyStr)
  | done
  deriving DecidableEq

inductive ClientEvent where
  | received (listener : ℕ) (message : ToRuntime)
  | lost (listener : ℕ)
  | called (listener : ℕ) (reason : PyStr)

structure Client where
  supervisorPid : ℤ
  stopping : Bool
  shutdownCalled : Bool
  listeners : List Listener
  log : List ClientEvent

inductive ClientAct where
  /-- `start`, with the first message of the supervisor; `none` when something raised before. -/
  | start (answer : Option ToRuntime)
  | stop
  | look (i : ℕ)
  | received (i : ℕ) (message : ToRuntime)
  | timeout (i : ℕ)
  | lost (i : ℕ)
  | request (i : ℕ)
  | call (i : ℕ)

namespace Client

def setListener (c : Client) (i : ℕ) (l : Listener) : Client :=
  { c with listeners := c.listeners.set i l }

/-- The end of `start`. -/
def welcomed (c : Client) : ToRuntime → Client
  | .welcome _ pid =>
    if pid = c.supervisorPid then { c with listeners := c.listeners ++ [.looking] } else c
  | .shutdown _ => c

/-- What `_listen` does with a message. -/
def heard : ToRuntime → Listener
  | .shutdown reason => .requesting reason
  | .welcome .. => .looking

/-- The text that `_listen` passes when the channel is gone. -/
def gone : PyStr := py "the supervisor is gone"

def step (c : Client) : ClientAct → Option Client
  | .start answer => some (answer.elim c c.welcomed)
  | .stop => some { c with stopping := true }
  | .look i => if c.listeners[i]? = some .looking then
      some (c.setListener i (if c.stopping then .done else .receiving)) else none
  | .received i message => if c.listeners[i]? = some .receiving then
      some { c.setListener i (heard message) with log := .received i message :: c.log } else none
  | .timeout i => if c.listeners[i]? = some .receiving then some (c.setListener i .looking) else none
  | .lost i => if c.listeners[i]? = some .receiving then
      some { c.setListener i (.requesting gone) with log := .lost i :: c.log } else none
  -- The section of `_request_shutdown`.
  | .request i => c.listeners[i]?.bind fun l =>
    match l with
    | .requesting reason =>
      some (if c.shutdownCalled then c.setListener i .done
        else { c.setListener i (.calling reason) with shutdownCalled := true })
    | _ => none
  | .call i => c.listeners[i]?.bind fun l =>
    match l with
    | .calling reason => some { c.setListener i .done with
        stopping := true, log := .called i reason :: c.log }
    | _ => none

end Client

/-- `on_shutdown` is called for the first time, for what the listener has met. -/
def ClientEvent.Justified : ClientEvent → List ClientEvent → Prop
  | .called i reason, older => (∀ j r, .called j r ∉ older) ∧
    (.received i (.shutdown reason) ∈ older ∨ reason = Client.gone ∧ .lost i ∈ older)
  | _, _ => True

end QronosAgent.Supervision

import Mathlib.Logic.Function.Basic
import QronosAgent.Lib.Dict
import QronosAgent.Lib.Machine
import QronosAgent.Lib.PyText

/-! `core/action_cancellation.py`: one registry of computer actions and any number of threads. Each
section under the registry's lock is a step, and so is each cancellation of a token. -/
namespace QronosAgent.Actions
open Lib

inductive Reason where
  | userStop
  | shutdown
  | pause
  deriving DecidableEq

def Reason.ofValue? (value : PyStr) : Option Reason :=
  if value = py "user_stop" then some .userStop
  else if value = py "runtime_shutdown" then some .shutdown
  else if value = py "runtime_paused" then some .pause
  else none

structure CancellationToken where
  label : PyStr
  reason : Option Reason

namespace CancellationToken

def cancelled (token : CancellationToken) : Bool := token.reason.isSome

/-- `cancel`: the token, and whether this call has cancelled it. -/
def cancel (token : CancellationToken) (reason : Reason) : CancellationToken × Bool :=
  if token.cancelled then (token, false) else ({ token with reason := some reason }, true)

end CancellationToken

/-- The epoch that `mark_turn_start` records. The rest is what the proofs compare later states with. -/
structure Turn where
  epoch : ℕ
  since : ℕ
  closed : Bool

inductive Stage where
  | checked (stopped : Option Reason)
  /-- The token has been cancelled before its registration. -/
  | refused
  | running (key entry : ℕ)
  | exited (entry left : ℕ)

namespace Stage

/-- The epoch of the registration. -/
def entry? : Stage → Option ℕ
  | .running _ e | .exited e _ => some e
  | _ => none

/-- Registered at the `k`th sweep. -/
def In (k : ℕ) : Stage → Prop
  | .running _ e => e < k
  | .exited e left => e < k ∧ k ≤ left
  | _ => False

end Stage

structure Action where
  token : CancellationToken
  /-- The turn of the thread that has called `begin`. -/
  turn : Option Turn
  stage : Stage

def Action.since (a : Action) : ℕ := (a.turn.map Turn.since).getD 0

inductive CallStage where
  | entering
  | cancelling (epoch : ℕ) (rest : List ℕ) (labels : List PyStr)
  | returned (epoch : ℕ) (labels : List PyStr)

namespace CallStage

def sweep? : CallStage → Option ℕ
  | .entering => none
  | .cancelling k _ _ | .returned k _ => some k

def rest : CallStage → List ℕ
  | .cancelling _ rest _ => rest
  | _ => []

end CallStage

structure Call where
  ofClose : Bool
  reason : Reason
  stage : CallStage

inductive Wait where
  | waiting
  | returned (idle : Bool)

structure Registry (T : Type) where
  /-- `_active`, whose actions stand in `begins`. -/
  active : Dict ℕ ℕ
  nextKey : ℕ
  epoch : ℕ
  lastReason : Option Reason
  closed : Bool
  turn : T → Option Turn
  begins : List Action
  calls : List Call
  waits : List Wait
  /-- The reasons of the sections of `close` and `cancel_all`, in order. -/
  given : List Reason

namespace Registry
variable {T : Type} (s : Registry T)

/-- `stopped_since_turn_start` -/
def stoppedSinceTurnStart (t : T) : Option Reason :=
  if s.closed then some .shutdown
  else (s.turn t).bind fun turn => if turn.epoch ≠ s.epoch then s.lastReason else none

def setAction (b : ℕ) (a : Action) : Registry T := { s with begins := s.begins.set b a }

def setCall (c : ℕ) (call : Call) : Registry T := { s with calls := s.calls.set c call }

/-- The section of `begin` that registers its action. -/
def register (b : ℕ) (a : Action) : Registry T :=
  { s.setAction b { a with stage := .running s.nextKey s.epoch } with
    active := s.active.set s.nextKey b
    nextKey := s.nextKey + 1 }

/-- The section of `cancel_all`. -/
def sweep (c : ℕ) (call : Call) : Registry T :=
  { s.setCall c { call with stage := .cancelling (s.epoch + 1) s.active.values [] } with
    epoch := s.epoch + 1
    lastReason := some call.reason
    given := s.given ++ [call.reason] }

/-- One turn of the loop in `cancel_all`. -/
def cancelNext (c : ℕ) (call : Call) (k b : ℕ) (rest : List ℕ) (labels : List PyStr) :
    Option (Registry T) :=
  s.begins[b]?.map fun a =>
    let cancelled := a.token.cancel call.reason
    (s.setAction b { a with token := cancelled.1 }).setCall c { call with
      stage := .cancelling k rest (if cancelled.2 then labels ++ [a.token.label] else labels) }

/-- What the predicate of `wait_idle` makes of a wait. -/
def lookIdle : Wait := if s.active.items = [] then .returned true else .waiting

end Registry

inductive Act (T : Type) where
  | markTurnStart (t : T)
  /-- A call of `begin`, up to the answer of `stopped_since_turn_start`. -/
  | enter (t : T) (label : PyStr)
  | refuse (b : ℕ)
  | register (b : ℕ)
  | exit (b : ℕ)
  | cancelAll (reason : PyStr)
  | close
  | sweep (c : ℕ)
  | cancel (c : ℕ)
  | finish (c : ℕ)
  | waitIdle
  | look (w : ℕ)
  | giveUp (w : ℕ)

variable {T : Type} [DecidableEq T]

def Registry.step (s : Registry T) : Act T → Option (Registry T)
  | .markTurnStart t => some
    { s with turn := Function.update s.turn t (some ⟨s.epoch, s.given.length, s.closed⟩) }
  | .enter t label => some
    { s with begins := s.begins ++ [⟨⟨label, none⟩, s.turn t, .checked (s.stoppedSinceTurnStart t)⟩] }
  | .refuse b => s.begins[b]?.bind fun a =>
    match a.stage with
    | .checked (some reason) =>
      some (s.setAction b { a with token := (a.token.cancel reason).1, stage := .refused })
    | _ => none
  | .register b => s.begins[b]?.bind fun a =>
    match a.stage with
    | .checked none | .refused => some (s.register b a)
    | _ => none
  | .exit b => s.begins[b]?.bind fun a =>
    match a.stage with
    | .running key e => some
      { s.setAction b { a with stage := .exited e s.epoch } with active := s.active.erase key }
    | _ => none
  | .cancelAll value =>
    match Reason.ofValue? value with
    -- `ValueError`
    | none => some s
    | some reason => some { s with calls := s.calls ++ [⟨false, reason, .entering⟩] }
  | .close => some { s with
      closed := true
      calls := s.calls ++ [⟨true, .shutdown, .entering⟩]
      given := s.given ++ [.shutdown] }
  | .sweep c => s.calls[c]?.bind fun call =>
    match call.stage with
    | .entering => some (s.sweep c call)
    | _ => none
  | .cancel c => s.calls[c]?.bind fun call =>
    match call.stage with
    | .cancelling k (b :: rest) labels => s.cancelNext c call k b rest labels
    | _ => none
  | .finish c => s.calls[c]?.bind fun call =>
    match call.stage with
    | .cancelling k [] labels => some (s.setCall c { call with stage := .returned k labels })
    | _ => none
  | .waitIdle => some { s with waits := s.waits ++ [s.lookIdle] }
  | .look w => s.waits[w]?.bind fun wait =>
    match wait with
    | .waiting => some { s with waits := s.waits.set w s.lookIdle }
    | _ => none
  | .giveUp w => s.waits[w]?.bind fun wait =>
    match wait with
    | .waiting => some { s with waits := s.waits.set w (.returned false) }
    | _ => none

structure Registry.Fresh (s : Registry T) : Prop where
  active : s.active = Dict.empty
  epoch : s.epoch = 0
  closed : s.closed = false
  turn : ∀ t, s.turn t = none
  begins : s.begins = []
  calls : s.calls = []
  waits : s.waits = []
  given : s.given = []

def registryMachine (T : Type) [DecidableEq T] : Machine (Registry T) (Act T) where
  start s := s.Fresh
  step := Registry.step

/-! What is said of every state, and of every step. -/

/-- The reason was given since the action's turn began, or is the one that `close` leaves for the
turns after it. -/
def Action.Given (a : Action) (given : List Reason) (reason : Reason) : Prop :=
  reason ∈ given.drop a.since ∨ a.turn.any Turn.closed = true ∧ reason = .shutdown

/-- What the `k`th sweep is to stop: what is registered then, and what is registered later in a turn
that was marked before, or in any turn when the call was `close`. -/
def Action.Heeds (a : Action) (k : ℕ) (ofClose : Bool) : Prop :=
  a.stage.In k ∨ ∃ e, a.stage.entry? = some e ∧ k ≤ e ∧
    (ofClose = true ∨ ∃ t, a.turn = some t ∧ t.epoch < k)

structure StopReaches (s : Registry T) : Prop where
  stopped : ∀ call ∈ s.calls, ∀ k labels, call.stage = .returned k labels →
    ∀ a ∈ s.begins, a.Heeds k call.ofClose → ∃ r, a.token.reason = some r ∧ a.Given s.given r
  /-- Without `close`, a turn marked after the sections of all calls is not stopped. -/
  spared : s.closed = false → ∀ a ∈ s.begins, ∀ t, a.turn = some t →
    (∀ call ∈ s.calls, ∃ k labels, call.stage = .returned k labels ∧ k ≤ t.epoch) →
      a.token.reason = none

def Registry.KeepsReasons (s s' : Registry T) : Prop :=
  ∀ (b : ℕ) a r, s.begins[b]? = some a → a.token.reason = some r →
    ∃ a', s'.begins[b]? = some a' ∧ a'.token.reason = some r

/-- A wait that ends with `True` ends while nothing is registered, every call of `begin` that had
registered its action having left. -/
def Registry.WaitsTruly (s s' : Registry T) : Prop :=
  ∀ w : ℕ, s'.waits[w]? = some (.returned true) → s.waits[w]? = some (.returned true) ∨
    s'.active.items = [] ∧ ∀ a ∈ s'.begins, ∀ key e, a.stage ≠ .running key e

def Registry.Misses (s : Registry T) (call : Call) : Prop :=
  ∃ a ∈ s.begins, a.stage = .checked none ∧ (a.turn.isSome = true ∨ call.ofClose = true)

def Orderly (s : Registry T) : Act T → Prop
  | .sweep c => ∀ call, s.calls[c]? = some call → ¬ s.Misses call
  | _ => True

end QronosAgent.Actions

import QronosAgent.Lib.Machine
import QronosAgent.Lib.NamedMutex

/-! `core/instance_ownership.py`, and `MutexHold` of `core/update_service.py`: calls of
`acquire_unless_updating` and `release`, and update launches, each call of Windows one step. -/
namespace QronosAgent.Ownership
open Lib

/-- The thread of an `OwnedMutex`, of a call, of a `release`, of a `MutexHold`, or an installer. -/
inductive Party where
  | mutex (k : ℕ)
  | call (c : ℕ)
  | release (r : ℕ)
  | updater (u : ℕ)
  | installer (i : ℕ)
  deriving DecidableEq

/-- What Windows does with a call; one that raises may have had its effect. -/
inductive Native where
  | works
  | fails
  | raises (did : Bool)
  deriving DecidableEq

def Native.takesEffect : Native → Bool
  | .works => true
  | .fails => false
  | .raises did => did

inductive Outcome where
  | owned
  | busy
  | error
  deriving DecidableEq

inductive HoldPoint where
  | create
  | wait
  | refusing (busy : Bool)
  | granted (abandoned : Bool)
  | reporting (outcome : Outcome)
  | holding
  | releasing
  | closing (released : Bool)
  | failing (handle : Bool)
  | finishing
  | exiting
  | ended
  deriving DecidableEq

structure OwnedMutex (N : Type) where
  name : N
  caller : ℕ
  point : HoldPoint
  outcome : Option Outcome
  owned : Bool
  abandoned : Bool
  released : Bool
  release : Bool
  done : Bool
  releaseConfirmed : Bool
  /-- How often `ReleaseMutex` has succeeded on the holder thread. -/
  freed : ℕ
  /-- `CloseHandle` has succeeded there after that. -/
  closed : Bool

/-- `__init__`, and the thread is started. -/
def newMutex {N : Type} (name : N) (caller : ℕ) : OwnedMutex N :=
  ⟨name, caller, .create, none, false, false, false, false, false, false, 0, false⟩

section
variable {N : Type} [DecidableEq N]

abbrev Kernel (N : Type) := NamedMutexes N Party

/-- The next step of `_hold`. -/
def OwnedMutex.hold (m : OwnedMutex N) (kernel : Kernel N) (k : ℕ) (a : Native) :
    Option (OwnedMutex N × Kernel N) :=
  match m.point with
  | .create =>
    let made := if a.takesEffect then kernel.create m.name (.mutex k) else kernel
    some ({ m with point := match a with
      | .works => .wait
      | .fails => .reporting .error
      | .raises _ => .failing false }, made)
  | .wait =>
    let can := kernel.canAcquire m.name (.mutex k)
    let waited := if a.takesEffect && can then kernel.acquire m.name (.mutex k) else kernel
    some ({ m with point := match a with
      | .works => if can then .granted (kernel.abandoned m.name) else .refusing true
      | .fails => .refusing false
      | .raises _ => .failing true }, waited)
  | .refusing busy =>
    let closed := if a.takesEffect then kernel.close m.name (.mutex k) else kernel
    some ({ m with point := match a with
      | .raises _ => .failing true
      | _ => .reporting (if busy then .busy else .error) }, closed)
  | .granted abandoned =>
    some ({ m with owned := true, abandoned := abandoned, point := .reporting .owned }, kernel)
  | .reporting outcome => some ({ m with
      outcome := some outcome
      point := if outcome = .owned then .holding else .finishing }, kernel)
  | .holding => if m.release then some ({ m with point := .releasing }, kernel) else none
  | .releasing =>
    let frees := a.takesEffect && kernel.owner m.name = some (.mutex k)
    some ({ m with
      freed := if frees then m.freed + 1 else m.freed
      point := match a with
        | .raises _ => .failing true
        | _ => .closing frees }, if frees then kernel.release m.name (.mutex k) else kernel)
  | .closing released =>
    some ({ m with
      closed := released && a.takesEffect
      releaseConfirmed := released && a = .works
      point := match a with
        | .raises _ => .failing true
        | _ => .finishing },
      if a.takesEffect then kernel.close m.name (.mutex k) else kernel)
  | .failing handle => some ({ m with
      outcome := m.outcome.or (some .error)
      point := .finishing },
      if handle && a.takesEffect then kernel.close m.name (.mutex k) else kernel)
  | .finishing => some ({ m with done := true, point := .exiting }, kernel)
  | .exiting => some ({ m with point := .ended }, kernel.abandon (· = .mutex k))
  | .ended => none

inductive ReleasePoint where
  | asked
  | marked
  | waiting
  | reported (confirmed : Bool)
  deriving DecidableEq

/-- The next step of `release`; `late` if the holder thread did not end in time. -/
def OwnedMutex.releaseStep (m : OwnedMutex N) (late : Bool) :
    ReleasePoint → Option (OwnedMutex N × ReleasePoint)
  | .asked =>
    if !m.owned || m.released then some (m, .reported m.releaseConfirmed)
    else some ({ m with released := true }, .marked)
  | .marked => some ({ m with release := true }, .waiting)
  | .waiting =>
    if m.done then some (m, .reported m.releaseConfirmed)
    else if late then some (m, .reported false) else none
  | .reported _ => none

end

inductive Problem where
  | alreadyOwned
  | unavailable
  | updateInProgress
  deriving DecidableEq

inductive CallPoint where
  | acquiring
  | awaiting (k : ℕ)
  /-- The holder did not report; it is asked to give up next. -/
  | givingUp (k : ℕ)
  /-- The fence is looked for because another process owns the name. -/
  | busyCheck
  | fenceCheck (k : ℕ)
  /-- `owned.release()`, because the fence exists, or is unknown. -/
  | releasing (k : ℕ) (point : ReleasePoint) (unknown : Bool)
  | deadline
  | returned (k : ℕ)
  | raised (problem : Problem)
  | dead
  deriving DecidableEq

structure Call (N : Type) where
  name : N
  point : CallPoint

structure Release where
  mutex : ℕ
  point : ReleasePoint

inductive LaunchPoint (N : Type) where
  | working (left : List N)
  | waits (name : N) (left : List N)
  /-- `let_go`: what is still to be released and closed; whether it was refused. -/
  | lettingGo (owned opened : List N) (refused : Bool)
  | refusing
  | holding
  | exiting
  | ended

inductive LaunchMain where
  | waiting
  | held
  | raised
  | released
  | dead
  deriving DecidableEq

structure Launch (N : Type) where
  main : LaunchMain
  point : LaunchPoint N
  opened : List N
  owned : List N
  /-- What is in the queue `_result`: whether it holds. -/
  answer : Option Bool
  release : Bool
  acquired : Bool

structure Names (N : Type) where
  fence : N
  runtime : List N

def newLaunch {N : Type} (names : Names N) : Launch N :=
  ⟨.waiting, .working (names.fence :: names.runtime), [], [], none, false, false⟩

section
variable {N : Type} [DecidableEq N]

/-- The next step of `_hold`; an exception that is no `UpdateError` ends the thread. -/
def Launch.hold (l : Launch N) (kernel : Kernel N) (u : ℕ) (a : Native) :
    Option (Launch N × Kernel N) :=
  match l.point with
  | .working [] => some ({ l with answer := some true, acquired := true, point := .holding }, kernel)
  | .working (name :: left) =>
    let made := if a.takesEffect then kernel.create name (.updater u) else kernel
    match a with
    | .works => some ({ l with
        opened := l.opened ++ [name]
        point := if kernel.exists? name then .lettingGo l.owned (l.opened ++ [name]) true
          else .waits name left }, made)
    | .fails => some ({ l with point := .lettingGo l.owned l.opened true }, made)
    | .raises _ => some ({ l with point := .exiting }, made)
  | .waits name left =>
    let can := kernel.canAcquire name (.updater u)
    let waited := if a.takesEffect && can then kernel.acquire name (.updater u) else kernel
    match a with
    | .works =>
      if can && !kernel.abandoned name then
        some ({ l with owned := l.owned ++ [name], point := .working left }, waited)
      else some ({ l with point := .lettingGo l.owned l.opened true }, waited)
    | .fails => some ({ l with point := .lettingGo l.owned l.opened true }, waited)
    | .raises _ => some ({ l with point := .exiting }, waited)
  | .lettingGo (name :: owned) opened refused =>
    let freed := if a.takesEffect then kernel.release name (.updater u) else kernel
    match a with
    | .raises _ => some ({ l with point := .exiting }, freed)
    | _ => some ({ l with point := .lettingGo owned opened refused }, freed)
  | .lettingGo [] (name :: opened) refused =>
    let closed := if a.takesEffect then kernel.close name (.updater u) else kernel
    match a with
    | .raises _ => some ({ l with point := .exiting }, closed)
    | _ => some ({ l with point := .lettingGo [] opened refused }, closed)
  | .lettingGo [] [] refused =>
    some ({ l with point := if refused then .refusing else .exiting }, kernel)
  | .refusing => some ({ l with answer := some false, point := .exiting }, kernel)
  | .holding =>
    if l.release then some ({ l with point := .lettingGo l.owned l.opened false }, kernel) else none
  | .exiting => some ({ l with point := .ended }, kernel.abandon (· = .updater u))
  | .ended => none

end

structure Sys (N : Type) where
  kernel : Kernel N
  mutexes : ℕ → Option (OwnedMutex N)
  calls : ℕ → Option (Call N)
  releases : ℕ → Option Release
  launches : ℕ → Option (Launch N)
  installers : ℕ → Option ℕ

inductive Move (N : Type) where
  | call (c : ℕ) (name : N)
  /-- `OwnedMutex.acquire`; whether the thread was started -/
  | acquire (c k : ℕ) (started : Bool)
  | hear (c : ℕ)
  | timeOut (c : ℕ)
  | giveUp (c : ℕ)
  /-- `_fence_now`; whether the check gave an answer -/
  | checkFence (c : ℕ) (answered : Bool)
  | callRelease (c : ℕ) (late : Bool)
  | deadline (c : ℕ) (passed : Bool)
  | hold (k : ℕ) (a : Native)
  | release (r k : ℕ)
  | releaseStep (r : ℕ) (late : Bool)
  | launch (u : ℕ)
  | launchHold (u : ℕ) (a : Native)
  | hearLaunch (u : ℕ)
  | launchTimeOut (u : ℕ)
  | launchRelease (u : ℕ)
  /-- The installer is started, and the fence is duplicated into it. -/
  | handOver (u i : ℕ)
  | threadEnds (t : Party)
  | processEnds (p : ℕ)

namespace Sys
variable {N : Type} [DecidableEq N] (s : Sys N)

def setMutex (k : ℕ) (m : OwnedMutex N) : Sys N :=
  { s with mutexes := Function.update s.mutexes k (some m) }

def setCall (c : ℕ) (call : Call N) : Sys N :=
  { s with calls := Function.update s.calls c (some call) }

def setRelease (r : ℕ) (release : Release) : Sys N :=
  { s with releases := Function.update s.releases r (some release) }

def setLaunch (u : ℕ) (launch : Launch N) : Sys N :=
  { s with launches := Function.update s.launches u (some launch) }

def endThreads (gone : Party → Bool) (whole : Bool) : Sys N :=
  { s with
    mutexes := fun k => (s.mutexes k).map fun m =>
      if gone (.mutex k) then { m with point := .ended } else m
    calls := fun c => (s.calls c).map fun call =>
      if gone (.call c) then { call with point := .dead } else call
    releases := fun r => if gone (.release r) then none else s.releases r
    launches := fun u => (s.launches u).map fun l =>
      if gone (.updater u) then
        { l with point := .ended, main := if whole then .dead else l.main }
      else l
    installers := fun i => if gone (.installer i) then none else s.installers i }

def goTo (c : ℕ) (call : Call N) (point : CallPoint) : Sys N :=
  s.setCall c { call with point := point }

variable (names : Names N) (process : Party → ℕ)

/-- The caller takes what the holder thread has reported. -/
def hear (c : ℕ) (call : Call N) (k : ℕ) (m : OwnedMutex N) : Option (Sys N) :=
  m.outcome.map fun outcome => s.goTo c call (match outcome with
    | .owned => .fenceCheck k
    | .busy => .busyCheck
    | .error => .raised .unavailable)

/-- The fence is looked for; `none` is no answer. -/
def checkFence (c : ℕ) (call : Call N) (answer : Option Bool) : Option (Sys N) :=
  match call.point with
  | .busyCheck => some (s.goTo c call (match answer with
    | none => .raised .unavailable
    | some true => .deadline
    | some false => .raised .alreadyOwned))
  | .fenceCheck k => some (s.goTo c call (match answer with
    | none => .releasing k .asked true
    | some true => .releasing k .asked false
    | some false => .returned k))
  | _ => none

/-- A step of `owned.release()`, or it is over. -/
def callRelease (c : ℕ) (call : Call N) (late : Bool) : Option (Sys N) :=
  match call.point with
  | .releasing _ (.reported _) unknown =>
    some (s.goTo c call (if unknown then .raised .unavailable else .deadline))
  | .releasing k point unknown =>
    (s.mutexes k).bind fun m => (m.releaseStep late point).map fun r =>
      (s.setMutex k r.1).goTo c call (.releasing k r.2 unknown)
  | _ => none

def callStep (c : ℕ) (call : Call N) : Move N → Option (Sys N)
  | .acquire _ k started =>
    if call.point = .acquiring then
      if !started then some (s.goTo c call (.raised .unavailable))
      else if s.mutexes k = none ∧ process (.mutex k) = process (.call c) then
        some ((s.setMutex k (newMutex call.name c)).goTo c call (.awaiting k))
      else none
    else none
  | .hear _ => match call.point with
    | .awaiting k => (s.mutexes k).bind (s.hear c call k)
    | _ => none
  | .timeOut _ => match call.point with
    | .awaiting k => (s.mutexes k).bind fun m =>
      if m.outcome = none then some (s.goTo c call (.givingUp k)) else none
    | _ => none
  | .giveUp _ => match call.point with
    | .givingUp k => (s.mutexes k).map fun m =>
      (s.setMutex k { m with release := true }).goTo c call (.raised .unavailable)
    | _ => none
  | .checkFence _ answered =>
    s.checkFence c call (if answered then some (s.kernel.exists? names.fence) else none)
  | .callRelease _ late => s.callRelease c call late
  | .deadline _ passed =>
    if call.point = .deadline then
      some (s.goTo c call (if passed then .raised .updateInProgress else .acquiring))
    else none
  | _ => none

def launchStep (u : ℕ) (l : Launch N) : Move N → Option (Sys N)
  | .launchHold _ a => (l.hold s.kernel u a).map fun r =>
    { s.setLaunch u r.1 with kernel := r.2 }
  | .hearLaunch _ => if l.main = .waiting then
      l.answer.map fun holds => s.setLaunch u { l with main := if holds then .held else .raised }
    else none
  | .launchTimeOut _ =>
    if l.main = .waiting ∧ l.answer = none then
      some (s.setLaunch u { l with main := .raised, release := true })
    else none
  | .launchRelease _ => if l.main = .held then
      some (s.setLaunch u { l with main := .released, release := true })
    else none
  | .handOver _ i =>
    if l.main = .held ∧ s.installers i = none ∧ (names.fence, .updater u) ∈ s.kernel.handles then
      some { s with
        kernel := s.kernel.create names.fence (.installer i)
        installers := Function.update s.installers i (some u) }
    else none
  | _ => none

def step (move : Move N) : Option (Sys N) :=
  match move with
  | .call c name =>
    if s.calls c = none then some (s.setCall c ⟨name, .acquiring⟩) else none
  | .acquire c _ _ | .hear c | .timeOut c | .giveUp c | .checkFence c _ | .callRelease c _
  | .deadline c _ => (s.calls c).bind fun call => s.callStep names process c call move
  | .hold k a => (s.mutexes k).bind fun m => (m.hold s.kernel k a).map fun r =>
    { s.setMutex k r.1 with kernel := r.2 }
  | .release r k => (s.mutexes k).bind fun m => (s.calls m.caller).bind fun call =>
    if call.point = .returned k ∧ s.releases r = none ∧
        process (.release r) = process (.mutex k) then
      some (s.setRelease r ⟨k, .asked⟩)
    else none
  | .releaseStep r late => (s.releases r).bind fun release => (s.mutexes release.mutex).bind fun m =>
    (m.releaseStep late release.point).map fun x =>
      (s.setMutex release.mutex x.1).setRelease r { release with point := x.2 }
  | .launch u => if s.launches u = none then some (s.setLaunch u (newLaunch names)) else none
  | .launchHold u _ | .hearLaunch u | .launchTimeOut u | .launchRelease u | .handOver u _ =>
    (s.launches u).bind fun l => s.launchStep names u l move
  | .threadEnds t => match t with
    | .mutex _ | .updater _ =>
      some { s.endThreads (· = t) false with kernel := s.kernel.abandon (· = t) }
    | _ => none
  | .processEnds p =>
    some { s.endThreads (process · = p) true with kernel := s.kernel.leave (process · = p) }

end Sys

/-- At first there is nothing. -/
def ownershipMachine {N : Type} [DecidableEq N] (names : Names N) (process : Party → ℕ) :
    Machine (Sys N) (Move N) where
  start s := s.kernel.handles = [] ∧ (∀ name, s.kernel.owner name = none) ∧
    (∀ k, s.mutexes k = none) ∧ (∀ c, s.calls c = none) ∧ (∀ r, s.releases r = none) ∧
      (∀ u, s.launches u = none) ∧ ∀ i, s.installers i = none
  step s move := s.step names process move

end QronosAgent.Ownership

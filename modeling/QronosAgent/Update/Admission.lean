import Mathlib.Logic.Function.Basic
import QronosAgent.Lib.Machine

/-! `core/store_admission.py` with `MutexHold` and `LaunchHold` of `core/update_service.py`: the
lock of the admission file, the named mutexes, and the writers, guards and installers that take
them, each system call one step. -/
namespace QronosAgent.Update
open Lib

/-- Who holds a lock or a handle: one call of `admit_writer`, one `LaunchHold`, one installer, or
another program that has a runtime mutex. -/
inductive Party where
  | writer (n : ℕ)
  | guard (n : ℕ)
  | installer (n : ℕ)
  | other (n : ℕ)
  deriving DecidableEq

inductive WriterStage where
  | idle
  | locked
  | admitted
  /-- The fence exists; the admission is given back next. -/
  | refusing
  | refused
  | released
  | dead
  deriving DecidableEq

inductive GuardStage where
  | idle
  | locked
  | waiting
  | held
  /-- `MutexHold` raised; the admission is given back next. -/
  | failing
  | refused
  /-- `release` has told the holder thread to let go; the admission is given back next. -/
  | releasing
  | released
  | dead
  deriving DecidableEq

inductive HolderStage (N : Type) where
  | unstarted
  | working (left : List N)
  /-- A name is taken, or Windows failed; it lets go next. -/
  | refusing
  | failed
  /-- It has answered that the mutexes are held, and waits to be told to let go. -/
  | holding
  | ended
  deriving DecidableEq

inductive InstallerStage where
  | idle
  | running
  | dead
  deriving DecidableEq

structure Guard (N : Type) where
  stage : GuardStage
  holder : HolderStage N
  release : Bool

structure AdmissionSys (N : Type) where
  shared : List Party
  exclusive : Option Party
  handles : List (N × Party)
  writers : ℕ → WriterStage
  guards : ℕ → Guard N
  installers : ℕ → InstallerStage

structure MutexNames (N : Type) where
  fence : N
  runtime : List N

def WriterStage.locks : WriterStage → Bool
  | .locked | .admitted | .refusing => true
  | .idle | .refused | .released | .dead => false

def GuardStage.locks : GuardStage → Bool
  | .locked | .waiting | .held | .failing | .releasing => true
  | .idle | .refused | .released | .dead => false

def HolderStage.runs {N : Type} : HolderStage N → Bool
  | .working _ | .refusing | .holding => true
  | .unstarted | .failed | .ended => false

namespace AdmissionSys
variable {N : Type} [DecidableEq N] (s : AdmissionSys N)

def Exists (name : N) : Prop := ∃ party, (name, party) ∈ s.handles

instance (name : N) : Decidable (s.Exists name) :=
  decidable_of_iff (∃ h ∈ s.handles, h.1 = name) ⟨
    fun ⟨h, hmem, hname⟩ => ⟨h.2, hname ▸ hmem⟩, fun ⟨_, hmem⟩ => ⟨_, hmem, rfl⟩⟩

/-- Neither lock is held. -/
def Free : Prop := s.shared = [] ∧ s.exclusive = none

instance : Decidable s.Free := inferInstanceAs (Decidable (_ ∧ _))

def setWriter (n : ℕ) (stage : WriterStage) : AdmissionSys N :=
  { s with writers := Function.update s.writers n stage }

def setGuard (n : ℕ) (g : Guard N) : AdmissionSys N :=
  { s with guards := Function.update s.guards n g }

def goTo (n : ℕ) (stage : GuardStage) : AdmissionSys N :=
  s.setGuard n { s.guards n with stage := stage }

def holderTo (n : ℕ) (holder : HolderStage N) : AdmissionSys N :=
  s.setGuard n { s.guards n with holder := holder }

def unlock (party : Party) : AdmissionSys N :=
  { s with
    shared := s.shared.filter (· ≠ party)
    exclusive := s.exclusive.filter (· ≠ party) }

def openHandle (name : N) (party : Party) : AdmissionSys N :=
  { s with handles := (name, party) :: s.handles }

def closeHandles (party : Party) : AdmissionSys N :=
  { s with handles := s.handles.filter (·.2 ≠ party) }

def die (process : Party → ℕ) (p : ℕ) : AdmissionSys N where
  shared := s.shared.filter (process · ≠ p)
  exclusive := s.exclusive.filter (process · ≠ p)
  handles := s.handles.filter (process ·.2 ≠ p)
  writers n := if process (.writer n) = p then .dead else s.writers n
  guards n := if process (.guard n) = p then ⟨.dead, .ended, true⟩ else s.guards n
  installers n := if process (.installer n) = p then .dead else s.installers n

end AdmissionSys

/-- The steps. A `Bool` tells whether Windows did what was asked. -/
inductive AdmissionMove (N : Type) where
  | lockShared (w : ℕ) (opened : Bool)
  | checkFence (w : ℕ)
  | releaseShared (w : ℕ)
  | lockExclusive (g : ℕ) (opened : Bool)
  | startHolder (g : ℕ) (started : Bool)
  /-- `CreateMutexW` and `WaitForSingleObject` for the next name -/
  | create (g : ℕ) (created acquired : Bool)
  | answer (g : ℕ)
  | letGo (g : ℕ)
  | hear (g : ℕ)
  | timeOut (g : ℕ)
  | release (g : ℕ)
  | releaseExclusive (g : ℕ)
  /-- The installer is started and the fence is duplicated into it. -/
  | handOver (g i : ℕ)
  | installerLock (i : ℕ)
  | otherOpens (n : ℕ) (name : N)
  | otherCloses (n : ℕ)
  | dies (process : ℕ)

namespace AdmissionSys
variable {N : Type} [DecidableEq N]

def createNext (s : AdmissionSys N) (g : ℕ) (created acquired : Bool) : Option (AdmissionSys N) :=
  match (s.guards g).holder with
  | .working (name :: left) =>
    if !created then some (s.holderTo g .refusing)
    else if s.Exists name ∨ !acquired then
      some ((s.holderTo g .refusing).openHandle name (.guard g))
    else some ((s.holderTo g (.working left)).openHandle name (.guard g))
  | _ => none

def hearAnswer (s : AdmissionSys N) (g : ℕ) : Option (AdmissionSys N) :=
  match (s.guards g).holder with
  | .holding => some (s.goTo g .held)
  | .failed => some (s.goTo g .failing)
  | _ => none

/-- `let_go`: after an error, or once the thread was told to. -/
def letGo (s : AdmissionSys N) (g : ℕ) : Option (AdmissionSys N) :=
  match (s.guards g).holder with
  | .refusing => some ((s.holderTo g .failed).closeHandles (.guard g))
  | .holding =>
    if (s.guards g).release then some ((s.holderTo g .ended).closeHandles (.guard g)) else none
  | _ => none

/-- `Admission.release` where it is next. -/
def releaseExclusive (s : AdmissionSys N) (g : ℕ) : Option (AdmissionSys N) :=
  match (s.guards g).stage with
  | .failing => some ((s.goTo g .refused).unlock (.guard g))
  | .releasing => some ((s.goTo g .released).unlock (.guard g))
  | _ => none

def releaseShared (s : AdmissionSys N) (w : ℕ) : Option (AdmissionSys N) :=
  match s.writers w with
  | .refusing => some ((s.setWriter w .refused).unlock (.writer w))
  | .admitted => some ((s.setWriter w .released).unlock (.writer w))
  | _ => none

variable (names : MutexNames N) (process : Party → ℕ)

def step (s : AdmissionSys N) : AdmissionMove N → Option (AdmissionSys N)
  | .lockShared w opened =>
    if s.writers w ≠ .idle then none
    else if opened ∧ s.exclusive = none then
      some { s.setWriter w .locked with shared := .writer w :: s.shared }
    else some (s.setWriter w .refused)
  | .checkFence w =>
    if s.writers w ≠ .locked then none
    else some (s.setWriter w (if s.Exists names.fence then .refusing else .admitted))
  | .releaseShared w => s.releaseShared w
  | .lockExclusive g opened =>
    if (s.guards g).stage ≠ .idle then none
    else if opened ∧ s.Free then some { s.goTo g .locked with exclusive := some (.guard g) }
    else some (s.goTo g .refused)
  | .startHolder g started =>
    if (s.guards g).stage ≠ .locked then none
    else if started then
      some (s.setGuard g ⟨.waiting, .working (names.fence :: names.runtime), false⟩)
    else some (s.goTo g .failing)
  | .create g created acquired => s.createNext g created acquired
  | .answer g =>
    if (s.guards g).holder = .working [] then some (s.holderTo g .holding) else none
  | .letGo g => s.letGo g
  | .hear g => if (s.guards g).stage = .waiting then s.hearAnswer g else none
  | .timeOut g =>
    if (s.guards g).stage = .waiting then
      some (s.setGuard g { s.guards g with stage := .failing, release := true })
    else none
  | .release g =>
    if (s.guards g).stage = .held then
      some (s.setGuard g { s.guards g with stage := .releasing, release := true })
    else none
  | .releaseExclusive g => s.releaseExclusive g
  | .handOver g i =>
    if (s.guards g).stage = .held ∧ s.installers i = .idle then
      some ({ s with installers := Function.update s.installers i .running }.openHandle
        names.fence (.installer i))
    else none
  | .installerLock i =>
    if s.installers i = .running ∧ s.Free then
      some { s with exclusive := some (.installer i) }
    else none
  | .otherOpens n name =>
    if name ≠ names.fence then some (s.openHandle name (.other n)) else none
  | .otherCloses n => some (s.closeHandles (.other n))
  | .dies p => some (s.die process p)

/-- Nothing is locked or open yet, but for the runtime's own mutexes. -/
def Starts (s : AdmissionSys N) : Prop :=
  s.shared = [] ∧ s.exclusive = none ∧
    (∀ h ∈ s.handles, h.1 ≠ names.fence ∧ ∃ n, h.2 = .other n) ∧ (∀ w, s.writers w = .idle) ∧
    (∀ g, s.guards g = ⟨.idle, .unstarted, false⟩) ∧ ∀ i, s.installers i = .idle

end AdmissionSys

def admissionMachine {N : Type} [DecidableEq N] (names : MutexNames N) (process : Party → ℕ) :
    Machine (AdmissionSys N) (AdmissionMove N) where
  start s := s.Starts names
  step s move := s.step names process move

end QronosAgent.Update

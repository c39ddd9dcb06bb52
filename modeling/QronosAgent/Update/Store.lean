import QronosAgent.Lib.Fated
import QronosAgent.Lib.Machine
import QronosAgent.Update.Package

/-! `update-state.json`: the state document of `LocalUpdateStore`, with the checks of
`_check_state` and `_check_record` as the reading of a JSON value. -/
namespace QronosAgent.Update
open Lib

def historyLimit : ℕ := 50

/-- A staged package. The names of its two files are made of its digest. -/
structure Record where
  kind : UpdateKind
  version : VersionText
  package : Package
  keyId : KeyId
  securityFloor : VersionText
  fromVersion : VersionText
  deriving DecidableEq

structure HistoryEntry where
  kind : UpdateKind
  fromVersion : VersionText
  version : VersionText
  packageSha256 : Digest
  keyId : KeyId

/-- The phase, with the record that is staged in every phase but the first. -/
inductive Phase where
  | idle
  | staged (record : Record)
  | handedOff (record : Record)

/-- `state["staged"]` -/
def Phase.record? : Phase → Option Record
  | .idle => none
  | .staged r => some r
  | .handedOff r => some r

def lastEntries {α : Type} (limit : ℕ) (entries : List α) : List α :=
  entries.drop (entries.length - limit)

theorem length_lastEntries_le {α : Type} (limit : ℕ) (entries : List α) :
    (lastEntries limit entries).length ≤ limit := by
  unfold lastEntries
  rw [List.length_drop]
  omega

structure StoreState where
  phase : Phase
  securityFloor : Option VersionText
  previous : Option Record
  history : List HistoryEntry
  bounded : history.length ≤ historyLimit

namespace StoreState

def initial : StoreState := ⟨.idle, none, none, [], Nat.zero_le _⟩

/-- `state["staged"]` -/
abbrev staged (s : StoreState) : Option Record := s.phase.record?

def withPhase (s : StoreState) (phase : Phase) : StoreState := { s with phase := phase }

def Names (s : StoreState) (r : Record) : Prop := s.staged = some r ∨ s.previous = some r

end StoreState

def Record.historyEntry (r : Record) : HistoryEntry :=
  ⟨r.kind, r.fromVersion, r.version, r.package.sha256, r.keyId⟩

section
variable {F : Type}

end

section
variable {F : Type} [PyFloat F]

end

/-! `LocalUpdateStore` of `core/local_update.py`: `stage`, `handoff`, `confirm` and `discard` on
the folder of the store, an effect for every file operation. Each holds the lock of the store. -/

inductive Failure where
  | denied
  | other

inductive Part where
  | installer
  | manifest
  deriving DecidableEq

/-- The folder of the store: what `update-state.json` says, and the staged files. -/
structure StoreDisk where
  state : StoreState
  staged : Dict (Digest × Part) ByteArray

inductive StoreEffect where
  | lock
  | readState
  | makeFolder
  | publishInstaller
  | publishManifest
  | readStaged
  | unlinkInstaller
  | unlinkManifest
  | saveState
  deriving DecidableEq

abbrev StoreFates := StoreEffect → Fate Failure

abbrev StoreCall := Fated StoreEffect Failure StoreDisk Raised

/-- The lock is not free in time, or the folder of the store cannot be used. -/
def lockError : Failure → Raised
  | .denied => .update .busy
  | .other => .os

/-- `_publish`: the destination is in use, or cannot be written. -/
def publishError : Failure → Raised
  | .denied => .update .busy
  | .other => .update .store

namespace StoreDisk

def empty : StoreDisk := ⟨.initial, .empty⟩

def write (name : Digest × Part) (data : ByteArray) (d : StoreDisk) : StoreDisk :=
  { d with staged := d.staged.set name data }

def unlink (name : Digest × Part) (d : StoreDisk) : StoreDisk :=
  { d with staged := d.staged.erase name }

def save (state : StoreState) (d : StoreDisk) : StoreDisk := { d with state := state }

end StoreDisk

namespace Store

def lockedState : StoreCall StoreState := do
  Fated.effect .lock lockError id
  Fated.effect .readState (fun _ => .update .store) id
  Fated.look (·.state)

/-- One file of `_remove`. -/
def removeFile (effect : StoreEffect) (name : Digest × Part) : StoreCall Unit := do
  let present ← Fated.look fun d => (d.staged.get? name).isSome
  if present then Fated.effect effect (fun _ => .update .busy) (StoreDisk.unlink name) else pure ()

/-- `_remove` -/
def remove (r : Record) : StoreCall Unit := do
  removeFile .unlinkInstaller (r.package.sha256, .installer)
  removeFile .unlinkManifest (r.package.sha256, .manifest)

/-- `_remove`, for a record that there may not be. -/
def removeAny : Option Record → StoreCall Unit
  | some r => remove r
  | none => pure ()

def save (state : StoreState) : StoreCall Unit :=
  Fated.effect .saveState publishError (StoreDisk.save state)

section
variable (v : Verifier)

def stagedRecord (update : VerifiedUpdate) (version : VersionText) : Record :=
  ⟨update.kind, update.payload.version, update.payload.package, update.keyId,
    update.payload.securityFloor, version⟩

def replaced (state : StoreState) (sha256 : Digest) : Option Record :=
  state.staged.filter fun r => r.package.sha256 ≠ sha256

/-- `stage` from the lock on: the package was verified against `floor`; `source` is what the chosen
installer holds when it is copied. -/
def stage (floor : Option VersionText) (update : VerifiedUpdate) (envelope source : ByteArray)
    (version : VersionText) : StoreCall Unit := do
  let state ← lockedState
  Fated.require (state.securityFloor = floor) (.update .busy)
  let sha256 := update.payload.package.sha256
  Fated.effect .makeFolder (fun _ => .os) id
  Fated.require (source.size = update.payload.package.bytes ∧ v.sha256 source = sha256)
    (.update .packageMismatch)
  Fated.effect .publishInstaller publishError (StoreDisk.write (sha256, .installer) source)
  Fated.effect .publishManifest publishError (StoreDisk.write (sha256, .manifest) envelope)
  removeAny (replaced state sha256)
  save (state.withPhase (.staged (stagedRecord update version)))

/-- A staged file; one that is missing is refused. -/
def ownedExisting (name : Digest × Part) : StoreCall ByteArray := do
  let file ← Fated.look fun d => d.staged.get? name
  Fated.demand (.update .store) file

/-- `handoff`: the record whose installer is given to the install step. -/
def handoff (keys : Keys) (version : VersionText) (data : InstalledData) :
    StoreCall (Record × VerifiedUpdate) := do
  let state ← lockedState
  let staged ← Fated.demand (.update .store) state.staged
  let envelope ← ownedExisting (staged.package.sha256, .manifest)
  Fated.effect .readStaged (fun _ => .os) id
  Fated.require (envelope.size ≤ maxEnvelopeBytes) (.update .malformed)
  let package ← ownedExisting (staged.package.sha256, .installer)
  Fated.require (package.size = staged.package.bytes) (.update .packageMismatch)
  let update ← Fated.ofExcept
    (verifyUpdate v envelope (some package) keys ⟨version, data, state.securityFloor⟩)
  Fated.require (update.payload.package.sha256 = staged.package.sha256) (.update .packageMismatch)
  save (state.withPhase (.handedOff staged))
  return (staged, update)

end

inductive Confirmation where
  | nothingStaged
  | notApplied
  | unconfirmed
  | applied (kind : UpdateKind)

def raisedFloor (floor : Option VersionText) (staged : Record) : VersionText :=
  match floor with
  | none => staged.securityFloor
  | some floor => if 0 < staged.securityFloor.compare floor then staged.securityFloor else floor

def confirmed (state : StoreState) (staged : Record) : StoreState where
  phase := .idle
  securityFloor := some (raisedFloor state.securityFloor staged)
  previous := some staged
  history := lastEntries historyLimit (state.history ++ [staged.historyEntry])
  bounded := length_lastEntries_le _ _

/-- The part of `confirm` that records an applied update. -/
def apply (state : StoreState) (staged : Record) : StoreCall Confirmation := do
  removeAny (state.previous.filter fun r => r.package.sha256 ≠ staged.package.sha256)
  save (confirmed state staged)
  return .applied staged.kind

/-- `confirm` -/
def confirm (version : VersionText) (replacementEvidence : Bool) : StoreCall Confirmation := do
  let state ← lockedState
  match state.staged with
  | none => return .nothingStaged
  | some staged =>
    if version.compare staged.version ≠ 0 then return .notApplied
    else if staged.kind = .repair ∧ ¬ replacementEvidence then return .unconfirmed
    else apply state staged

/-- `discard` -/
def discard : StoreCall Unit := do
  let state ← lockedState
  removeAny state.staged
  save (state.withPhase .idle)

end Store

/-! The calls on the folder of an update store, by any number of processes and each with its own
file operations that fail or are not reached; and what each call leaves of the staged files. -/

structure Staging where
  floor : Option VersionText
  update : VerifiedUpdate
  envelope : ByteArray
  version : VersionText

def Staging.sha256 (st : Staging) : Digest := st.update.payload.package.sha256

structure CallRecord where
  before : StoreDisk
  after : StoreDisk
  raised : Bool
  handed : Option (VerifiedUpdate × VersionText)

structure StoreSys where
  disk : StoreDisk
  staging : ℕ → Option Staging
  calls : List CallRecord

inductive StoreMove where
  | verify (process : ℕ) (envelope : ByteArray) (package : Option ByteArray) (keys : Keys)
      (version : VersionText) (data : InstalledData)
  | stage (process : ℕ) (source : ByteArray) (fates : StoreFates)
  | handoff (keys : Keys) (version : VersionText) (data : InstalledData) (fates : StoreFates)
  | confirm (version : VersionText) (replacementEvidence : Bool) (fates : StoreFates)
  | discard (fates : StoreFates)

def hasRaised {α : Type} : Ending Raised α → Bool
  | .raised _ => true
  | _ => false

def returned? {α : Type} : Ending Raised α → Option α
  | .returned a => some a
  | _ => none

namespace StoreSys

def ended {α : Type} (s : StoreSys) (call : StoreCall α) (fates : StoreFates)
    (handed : α → Option (VerifiedUpdate × VersionText)) : StoreSys :=
  let r := call.run fates s.disk
  { s with
    disk := r.2
    calls := ⟨s.disk, r.2, hasRaised r.1, (returned? r.1).bind handed⟩ :: s.calls }

variable (v : Verifier)

def step (s : StoreSys) : StoreMove → Option StoreSys
  | .verify process envelope package keys version data =>
    let floor := s.disk.state.securityFloor
    match verifyUpdate v envelope package keys ⟨version, data, floor⟩ with
    | .ok update => some { s with
        staging := Function.update s.staging process (some ⟨floor, update, envelope, version⟩) }
    | .error _ => some { s with calls := ⟨s.disk, s.disk, true, none⟩ :: s.calls }
  | .stage process source fates =>
    (s.staging process).map fun st =>
      let call := Store.stage v st.floor st.update st.envelope source st.version
      { s.ended call fates fun _ => none with
        staging := Function.update s.staging process none }
  | .handoff keys version data fates =>
    some (s.ended (Store.handoff v keys version data) fates fun r => some (r.2, version))
  | .confirm version evidence fates =>
    some (s.ended (Store.confirm version evidence) fates fun _ => none)
  | .discard fates => some (s.ended Store.discard fates fun _ => none)

end StoreSys

namespace StoreDisk
variable (v : Verifier) (d : StoreDisk)

def Present (r : Record) : Prop :=
  (∃ installer, d.staged.get? (r.package.sha256, .installer) = some installer ∧
    installer.size = r.package.bytes ∧ v.sha256 installer = r.package.sha256) ∧
  ∃ manifest, d.staged.get? (r.package.sha256, .manifest) = some manifest

def Truthful : Prop := ∀ r, d.state.Names r → d.Present v r

/-- `handoff` gives the staged update, when no file operation fails. -/
def Usable (keys : Keys) (version : VersionText) (data : InstalledData) : Prop :=
  ∃ r t, Fated.Returns (Store.handoff v keys version data) Fated.smooth d r t

/-- The state, and every staged file but those of this digest, are as they were. -/
structure Apart (sha256 : Digest) (d d' : StoreDisk) : Prop where
  state : d'.state = d.state
  files : ∀ name : Digest × Part, name.1 ≠ sha256 → d'.staged.get? name = d.staged.get? name

end StoreDisk

/-- The runs start with a folder whose records are true, such as an empty one. -/
def storeMachine (v : Verifier) : Machine StoreSys StoreMove where
  start s := s.disk.Truthful v ∧ (∀ process, s.staging process = none) ∧ s.calls = []
  step s move := s.step v move

namespace StoreDisk
variable {v : Verifier} {d d' : StoreDisk}

theorem get?_write (d : StoreDisk) (name other : Digest × Part) (data : ByteArray) :
    (d.write name data).staged.get? other =
      if other = name then some data else d.staged.get? other := by
  unfold write
  rw [Dict.get?_set]

theorem get?_unlink (d : StoreDisk) (name other : Digest × Part) :
    (d.unlink name).staged.get? other = if other = name then none else d.staged.get? other := by
  unfold unlink
  rw [Dict.get?_erase]

theorem Apart.trans {sha256 : Digest} {a b c : StoreDisk} (hab : Apart sha256 a b)
    (hbc : Apart sha256 b c) : Apart sha256 a c where
  state := hbc.state.trans hab.state
  files name hne := (hbc.files name hne).trans (hab.files name hne)

theorem apart_write (d : StoreDisk) (name : Digest × Part) (data : ByteArray) :
    Apart name.1 d (d.write name data) where
  state := rfl
  files other hne := by
    rw [get?_write, if_neg]
    rintro rfl
    exact hne rfl

theorem apart_unlink (d : StoreDisk) (name : Digest × Part) :
    Apart name.1 d (d.unlink name) where
  state := rfl
  files other hne := by
    rw [get?_unlink, if_neg]
    rintro rfl
    exact hne rfl

theorem Apart.present {sha256 : Digest} (h : Apart sha256 d d') {r : Record}
    (hne : r.package.sha256 ≠ sha256) (hr : d.Present v r) : d'.Present v r := by
  obtain ⟨⟨installer, hget, hsize, hsha⟩, manifest, hmanifest⟩ := hr
  exact ⟨⟨installer, (h.files _ hne).trans hget, hsize, hsha⟩, manifest,
    (h.files _ hne).trans hmanifest⟩

theorem Present.write_installer {r : Record} (hr : d.Present v r) {source : ByteArray}
    (hsize : source.size = r.package.bytes) (hsha : v.sha256 source = r.package.sha256) :
    (d.write (r.package.sha256, .installer) source).Present v r := by
  obtain ⟨-, manifest, hmanifest⟩ := hr
  constructor
  · exact ⟨source, by rw [get?_write, if_pos rfl], hsize, hsha⟩
  · exact ⟨manifest, by rw [get?_write, if_neg (by simp), hmanifest]⟩

theorem Present.write_manifest {r : Record} (hr : d.Present v r) (data : ByteArray) :
    (d.write (r.package.sha256, .manifest) data).Present v r := by
  obtain ⟨⟨installer, hget, hsize, hsha⟩, -⟩ := hr
  constructor
  · exact ⟨installer, by rw [get?_write, if_neg (by simp), hget], hsize, hsha⟩
  · exact ⟨data, by rw [get?_write, if_pos rfl]⟩

end StoreDisk

namespace Store
variable {v : Verifier} {fates : StoreFates} {d : StoreDisk}

theorem ensures_lockedState {Q : StoreState → StoreDisk → Prop} {R : Raised → StoreDisk → Prop}
    {C : StoreDisk → Prop} (hQ : Q d.state d) (hR : ∀ e, R e d) (hC : C d) :
    Fated.Ensures lockedState fates d Q R C := by
  unfold lockedState
  simp only [Fated.ensures_bind, Fated.ensures_effect, Fated.ensures_look, id_eq]
  exact ⟨fun _ => ⟨fun _ => hQ, fun _ _ => hR _, fun _ => hC⟩, fun _ _ => hR _, fun _ => hC⟩

theorem ensures_removeFile {effect : StoreEffect} {name : Digest × Part}
    {Q : Unit → StoreDisk → Prop} {R : Raised → StoreDisk → Prop} {C : StoreDisk → Prop}
    (hQ : (d.staged.get? name).isSome → fates effect = .goes → Q () (d.unlink name))
    (habsent : d.staged.get? name = none → Q () d)
    (hR : ∀ why e, fates effect = .fails why → R e d) (hC : fates effect = .stops → C d) :
    Fated.Ensures (removeFile effect name) fates d Q R C := by
  unfold removeFile
  simp only [Fated.ensures_bind, Fated.ensures_look]
  by_cases hsome : (d.staged.get? name).isSome
  · rw [if_pos hsome, Fated.ensures_effect]
    exact ⟨hQ hsome, fun why hwhy => hR why _ hwhy, hC⟩
  · rw [if_neg hsome]
    exact habsent (Option.not_isSome_iff_eq_none.mp hsome)

/-- A removal that is not cut short once it has begun. -/
theorem ensures_remove_whole {r : Record}
    (hpresent : (d.staged.get? (r.package.sha256, .installer)).isSome)
    (hwhole : fates .unlinkInstaller = .goes → fates .unlinkManifest = .goes) :
    Fated.Ensures (remove r) fates d
      (fun _ t => StoreDisk.Apart r.package.sha256 d t ∧ fates .unlinkInstaller = .goes)
      (fun _ t => t = d) (fun t => t = d) := by
  unfold remove
  rw [Fated.ensures_bind]
  apply ensures_removeFile
  · intro _ hgoes
    have happart := StoreDisk.apart_unlink d (r.package.sha256, .installer)
    apply ensures_removeFile
    · intro _ _
      exact ⟨happart.trans (StoreDisk.apart_unlink _ (r.package.sha256, .manifest)), hgoes⟩
    · intro _
      exact ⟨happart, hgoes⟩
    · intro why e hwhy
      rw [hwhole hgoes] at hwhy
      contradiction
    · intro hstops
      rw [hwhole hgoes] at hstops
      contradiction
  · intro hnone
    rw [hnone] at hpresent
    contradiction
  · exact fun _ _ _ => rfl
  · exact fun _ => rfl

end Store
end QronosAgent.Update

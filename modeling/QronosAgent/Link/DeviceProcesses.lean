import Mathlib.Logic.Function.Basic
import QronosAgent.Lib.Machine
import QronosAgent.Link.DeviceTables

/-! Any number of processes over one device file, each with the threads that share its registry.
What a thread does between two accesses to the shared state is one step; a process's `_lock` is
held by at most one of its threads, the file's lock by at most one process. -/
namespace QronosAgent.Link
open Lib

abbrev ProcessId := ℕ

/-- One call of a query. -/
abbrev LookupId := ℕ

inductive LoadStage where
  | stat
  | read (signature : Signature)
  | record (signature : Option Signature) (t : DeviceTable)
  | store (t : DeviceTable)

inductive Loader where
  | refresh (l : LookupId)
  | change (op : DeviceOp)

/-- What the thread that holds a process's `_lock` is about to do. -/
inductive Busy where
  | free
  | restat (l : LookupId)
  | recompare (l : LookupId) (signature : Option Signature)
  | load (who : Loader) (stage : LoadStage)
  | lockFile (op : DeviceOp)
  | apply (op : DeviceOp)
  | save (now : Seconds) (op : DeviceOp)
  /-- The file is replaced; `_save` is about to record its signature. -/
  | sign (op : DeviceOp)
  | leave (op : DeviceOp)

/-- A process's registry. One that has not been built is as it is when the file is missing;
building it is its first load. -/
structure Process where
  records : DeviceTable
  signature : Option Signature
  busy : Busy

inductive LookupStage where
  | idle
  /-- `_refresh`, the comparison without the lock -/
  | stat
  | compare (signature : Option Signature)
  | wait
  | locked
  /-- `_refresh` has returned and the records are about to be read. -/
  | answer
  deriving DecidableEq

structure Lookup where
  process : ProcessId
  stage : LookupStage
  /-- The devices whose revocation had returned when the lookup started, and that have not been
  removed since. -/
  revoked : List DeviceId

structure Commit where
  signature : Signature
  now : Seconds
  op : DeviceOp

structure Fleet where
  file : Option DeviceFile
  fileLock : Option ProcessId
  processes : ProcessId → Process
  lookups : LookupId → Lookup
  base : Option DeviceFile
  /-- The changes that have been written, the last one first. -/
  log : List Commit
  /-- The devices with a revocation that has returned, and that have not been removed since. -/
  revoked : List DeviceId

inductive FleetMove where
  | lookup (l : LookupId) (p : ProcessId)
  | stat (l : LookupId)
  | compare (l : LookupId)
  | enter (l : LookupId)
  | answer (l : LookupId)
  | restat (p : ProcessId)
  | recompare (p : ProcessId)
  | loadStat (p : ProcessId)
  | loadRead (p : ProcessId)
  | loadRecord (p : ProcessId)
  | loadStore (p : ProcessId)
  | loadFails (p : ProcessId)
  | change (p : ProcessId) (op : DeviceOp)
  | lockFile (p : ProcessId)
  | lockFails (p : ProcessId)
  | apply (p : ProcessId) (now : Seconds)
  | saveFails (p : ProcessId)
  | replace (p : ProcessId) (signature : Signature)
  | sign (p : ProcessId)
  | leave (p : ProcessId)

namespace Fleet

def setProcess (s : Fleet) (p : ProcessId) (proc : Process) : Fleet :=
  { s with processes := Function.update s.processes p proc }

def setBusy (s : Fleet) (p : ProcessId) (busy : Busy) : Fleet :=
  s.setProcess p { s.processes p with busy := busy }

def setStage (s : Fleet) (l : LookupId) (stage : LookupStage) : Fleet :=
  { s with lookups := Function.update s.lookups l { s.lookups l with stage := stage } }

def unlockFile (s : Fleet) : Fleet := { s with fileLock := none }

/-- `_stat_signature`. -/
def stat (s : Fleet) : Option Signature := s.file.map DeviceFile.signature

/-- What `_load` makes of the text of the file. -/
def readFile (s : Fleet) : Option DeviceTable :=
  match s.file with
  | some ⟨_, .devices records⟩ => some (tableOf records)
  | _ => none

def used (s : Fleet) : List Signature :=
  s.log.map Commit.signature ++ (s.base.map DeviceFile.signature).toList

/-- The file is replaced by one with the records `t`. A device that is removed may be enrolled
again under its id, whatever was revoked before. -/
def commit (s : Fleet) (c : Commit) (t : DeviceTable) : Fleet :=
  { s with
    file := some ⟨c.signature, .devices t.byCreation⟩
    log := c :: s.log
    lookups := fun l =>
      { s.lookups l with
        revoked := (s.lookups l).revoked.filter fun id => c.op.removes ≠ some id }
    revoked := s.revoked.filter fun id => c.op.removes ≠ some id }

def returned (s : Fleet) (op : DeviceOp) : Fleet :=
  { s with revoked := op.revokes.toList ++ s.revoked }

/-- The stage behind the `stat` of `_load`. -/
def afterStat : Option Signature → LoadStage
  | none => .record none Dict.empty
  | some signature => .read signature

def step (s : Fleet) : FleetMove → Option Fleet
  | .lookup l p =>
    match (s.lookups l).stage with
    | .idle =>
      some { s with lookups := Function.update s.lookups l ⟨p, .stat, s.revoked⟩ }
    | _ => none
  | .stat l =>
    match (s.lookups l).stage with
    | .stat => some (s.setStage l (.compare s.stat))
    | _ => none
  | .compare l =>
    match (s.lookups l).stage with
    | .compare signature =>
      if signature = (s.processes (s.lookups l).process).signature then
        some (s.setStage l .answer)
      else some (s.setStage l .wait)
    | _ => none
  | .enter l =>
    match (s.lookups l).stage, (s.processes (s.lookups l).process).busy with
    | .wait, .free =>
      some ((s.setStage l .locked).setBusy (s.lookups l).process (.restat l))
    | _, _ => none
  | .answer l =>
    match (s.lookups l).stage with
    | .answer => some (s.setStage l .idle)
    | _ => none
  | .restat p =>
    match (s.processes p).busy with
    | .restat l => some (s.setBusy p (.recompare l s.stat))
    | _ => none
  | .recompare p =>
    match (s.processes p).busy with
    | .recompare l signature =>
      if signature = (s.processes p).signature then
        some ((s.setBusy p .free).setStage l .answer)
      else some (s.setBusy p (.load (.refresh l) .stat))
    | _ => none
  | .loadStat p =>
    match (s.processes p).busy with
    | .load who .stat => some (s.setBusy p (.load who (afterStat s.stat)))
    | _ => none
  | .loadRead p =>
    match (s.processes p).busy with
    | .load who (.read signature) =>
      s.readFile.map fun t => s.setBusy p (.load who (.record (some signature) t))
    | _ => none
  | .loadRecord p =>
    match (s.processes p).busy with
    | .load who (.record signature t) =>
      some (s.setProcess p ⟨(s.processes p).records, signature, .load who (.store t)⟩)
    | _ => none
  | .loadStore p =>
    match (s.processes p).busy with
    | .load (.refresh l) (.store t) =>
      some ((s.setProcess p ⟨t, (s.processes p).signature, .free⟩).setStage l .answer)
    | .load (.change op) (.store t) =>
      some (s.setProcess p ⟨t, (s.processes p).signature, .apply op⟩)
    | _ => none
  | .loadFails p =>
    match (s.processes p).busy with
    | .load (.refresh l) .stat | .load (.refresh l) (.read _) =>
      some ((s.setBusy p .free).setStage l .idle)
    | .load (.change _) .stat | .load (.change _) (.read _) =>
      some (s.setBusy p .free).unlockFile
    | _ => none
  | .change p op =>
    match (s.processes p).busy with
    | .free => some (s.setBusy p (.lockFile op))
    | _ => none
  | .lockFile p =>
    match (s.processes p).busy, s.fileLock with
    | .lockFile op, none => some { s.setBusy p (.load (.change op) .stat) with fileLock := p }
    | _, _ => none
  | .lockFails p =>
    match (s.processes p).busy with
    | .lockFile _ => some (s.setBusy p .free)
    | _ => none
  | .apply p now =>
    match (s.processes p).busy with
    | .apply op =>
      match op.apply now (s.processes p).records with
      | .error _ => some (s.setBusy p .free).unlockFile
      | .ok changed =>
        some (s.setProcess p ⟨changed.table, (s.processes p).signature, .save now op⟩)
    | _ => none
  | .saveFails p =>
    match (s.processes p).busy with
    | .save _ _ => some (s.setBusy p .free).unlockFile
    | _ => none
  | .replace p signature =>
    match (s.processes p).busy with
    | .save now op =>
      some ((s.commit ⟨signature, now, op⟩ (s.processes p).records).setBusy p (.sign op))
    | _ => none
  | .sign p =>
    match (s.processes p).busy with
    | .sign op => some (s.setProcess p ⟨(s.processes p).records, s.stat, .leave op⟩)
    | _ => none
  | .leave p =>
    match (s.processes p).busy with
    | .leave op => some ((s.returned op).setBusy p .free).unlockFile
    | _ => none

end Fleet

def fleetMachine : Machine Fleet FleetMove where
  start s := s.fileLock = none ∧ (∀ p, s.processes p = ⟨Dict.empty, none, .free⟩) ∧
    (∀ l, (s.lookups l).stage = .idle ∧ (s.lookups l).revoked = []) ∧
    s.base = s.file ∧ s.log = [] ∧ s.revoked = []
  step := Fleet.step

namespace Fleet

inductive Fires (s : Fleet) : FleetMove → Fleet → Prop
  | lookup {l : LookupId} {p : ProcessId} : (s.lookups l).stage = .idle →
      Fires s (.lookup l p)
        { s with lookups := Function.update s.lookups l ⟨p, .stat, s.revoked⟩ }
  | stat {l : LookupId} : (s.lookups l).stage = .stat →
      Fires s (.stat l) (s.setStage l (.compare s.stat))
  | current {l : LookupId} {signature : Option Signature} :
      (s.lookups l).stage = .compare signature →
      signature = (s.processes (s.lookups l).process).signature →
      Fires s (.compare l) (s.setStage l .answer)
  | changed {l : LookupId} {signature : Option Signature} :
      (s.lookups l).stage = .compare signature → Fires s (.compare l) (s.setStage l .wait)
  | enter {l : LookupId} : (s.lookups l).stage = .wait →
      (s.processes (s.lookups l).process).busy = .free →
      Fires s (.enter l) ((s.setStage l .locked).setBusy (s.lookups l).process (.restat l))
  | answer {l : LookupId} : (s.lookups l).stage = .answer →
      Fires s (.answer l) (s.setStage l .idle)
  | restat {p : ProcessId} {l : LookupId} : (s.processes p).busy = .restat l →
      Fires s (.restat p) (s.setBusy p (.recompare l s.stat))
  | recurrent {p : ProcessId} {l : LookupId} {signature : Option Signature} :
      (s.processes p).busy = .recompare l signature → signature = (s.processes p).signature →
      Fires s (.recompare p) ((s.setBusy p .free).setStage l .answer)
  | rechanged {p : ProcessId} {l : LookupId} {signature : Option Signature} :
      (s.processes p).busy = .recompare l signature →
      Fires s (.recompare p) (s.setBusy p (.load (.refresh l) .stat))
  | loadStat {p : ProcessId} {who : Loader} : (s.processes p).busy = .load who .stat →
      Fires s (.loadStat p) (s.setBusy p (.load who (afterStat s.stat)))
  | loadRead {p : ProcessId} {who : Loader} {signature : Signature} {t : DeviceTable} :
      (s.processes p).busy = .load who (.read signature) → s.readFile = some t →
      Fires s (.loadRead p) (s.setBusy p (.load who (.record (some signature) t)))
  | loadRecord {p : ProcessId} {who : Loader} {signature : Option Signature} {t : DeviceTable} :
      (s.processes p).busy = .load who (.record signature t) →
      Fires s (.loadRecord p)
        (s.setProcess p ⟨(s.processes p).records, signature, .load who (.store t)⟩)
  | refreshed {p : ProcessId} {l : LookupId} {t : DeviceTable} :
      (s.processes p).busy = .load (.refresh l) (.store t) →
      Fires s (.loadStore p)
        ((s.setProcess p ⟨t, (s.processes p).signature, .free⟩).setStage l .answer)
  | loaded {p : ProcessId} {op : DeviceOp} {t : DeviceTable} :
      (s.processes p).busy = .load (.change op) (.store t) →
      Fires s (.loadStore p) (s.setProcess p ⟨t, (s.processes p).signature, .apply op⟩)
  | refreshFails {p : ProcessId} {l : LookupId} {stage : LoadStage} :
      (s.processes p).busy = .load (.refresh l) stage → (∀ t, stage ≠ .store t) →
      Fires s (.loadFails p) ((s.setBusy p .free).setStage l .idle)
  | loadFails {p : ProcessId} {op : DeviceOp} {stage : LoadStage} :
      (s.processes p).busy = .load (.change op) stage → (∀ t, stage ≠ .store t) →
      Fires s (.loadFails p) (s.setBusy p .free).unlockFile
  | change {p : ProcessId} {op : DeviceOp} : (s.processes p).busy = .free →
      Fires s (.change p op) (s.setBusy p (.lockFile op))
  | lockFile {p : ProcessId} {op : DeviceOp} : (s.processes p).busy = .lockFile op →
      s.fileLock = none →
      Fires s (.lockFile p) { s.setBusy p (.load (.change op) .stat) with fileLock := p }
  | lockFails {p : ProcessId} {op : DeviceOp} : (s.processes p).busy = .lockFile op →
      Fires s (.lockFails p) (s.setBusy p .free)
  | refused {p : ProcessId} {now : Seconds} {op : DeviceOp} : (s.processes p).busy = .apply op →
      Fires s (.apply p now) (s.setBusy p .free).unlockFile
  | apply {p : ProcessId} {now : Seconds} {op : DeviceOp} {c : Changed} :
      (s.processes p).busy = .apply op → op.apply now (s.processes p).records = .ok c →
      Fires s (.apply p now) (s.setProcess p ⟨c.table, (s.processes p).signature, .save now op⟩)
  | saveFails {p : ProcessId} {now : Seconds} {op : DeviceOp} :
      (s.processes p).busy = .save now op →
      Fires s (.saveFails p) (s.setBusy p .free).unlockFile
  | replace {p : ProcessId} {signature : Signature} {now : Seconds} {op : DeviceOp} :
      (s.processes p).busy = .save now op →
      Fires s (.replace p signature)
        ((s.commit ⟨signature, now, op⟩ (s.processes p).records).setBusy p (.sign op))
  | sign {p : ProcessId} {op : DeviceOp} : (s.processes p).busy = .sign op →
      Fires s (.sign p) (s.setProcess p ⟨(s.processes p).records, s.stat, .leave op⟩)
  | leave {p : ProcessId} {op : DeviceOp} : (s.processes p).busy = .leave op →
      Fires s (.leave p) ((s.returned op).setBusy p .free).unlockFile

theorem fires {s s' : Fleet} {m : FleetMove} (h : s.step m = some s') : Fires s m s' := by
  cases m with
  | lookup l p =>
    simp only [step] at h
    split at h
    · exact Option.some.inj h ▸ .lookup ‹_›
    · contradiction
  | stat l =>
    simp only [step] at h
    split at h
    · exact Option.some.inj h ▸ .stat ‹_›
    · contradiction
  | compare l =>
    simp only [step] at h
    split at h
    · split at h
      · exact Option.some.inj h ▸ .current ‹_› ‹_›
      · exact Option.some.inj h ▸ .changed ‹_›
    · contradiction
  | enter l =>
    simp only [step] at h
    split at h
    · exact Option.some.inj h ▸ .enter ‹_› ‹_›
    · contradiction
  | answer l =>
    simp only [step] at h
    split at h
    · exact Option.some.inj h ▸ .answer ‹_›
    · contradiction
  | restat p =>
    simp only [step] at h
    split at h
    · exact Option.some.inj h ▸ .restat ‹_›
    · contradiction
  | recompare p =>
    simp only [step] at h
    split at h
    · split at h
      · exact Option.some.inj h ▸ .recurrent ‹_› ‹_›
      · exact Option.some.inj h ▸ .rechanged ‹_›
    · contradiction
  | loadStat p =>
    simp only [step] at h
    split at h
    · exact Option.some.inj h ▸ .loadStat ‹_›
    · contradiction
  | loadRead p =>
    simp only [step] at h
    split at h
    · obtain ⟨t, ht, rfl⟩ := Option.map_eq_some_iff.mp h
      exact .loadRead ‹_› ht
    · contradiction
  | loadRecord p =>
    simp only [step] at h
    split at h
    · exact Option.some.inj h ▸ .loadRecord ‹_›
    · contradiction
  | loadStore p =>
    simp only [step] at h
    split at h
    · exact Option.some.inj h ▸ .refreshed ‹_›
    · exact Option.some.inj h ▸ .loaded ‹_›
    · contradiction
  | loadFails p =>
    simp only [step] at h
    split at h
    · exact Option.some.inj h ▸ .refreshFails ‹_› (by simp)
    · exact Option.some.inj h ▸ .refreshFails ‹_› (by simp)
    · exact Option.some.inj h ▸ .loadFails ‹_› (by simp)
    · exact Option.some.inj h ▸ .loadFails ‹_› (by simp)
    · contradiction
  | change p op =>
    simp only [step] at h
    split at h
    · exact Option.some.inj h ▸ .change ‹_›
    · contradiction
  | lockFile p =>
    simp only [step] at h
    split at h
    · exact Option.some.inj h ▸ .lockFile ‹_› ‹_›
    · contradiction
  | lockFails p =>
    simp only [step] at h
    split at h
    · exact Option.some.inj h ▸ .lockFails ‹_›
    · contradiction
  | apply p now =>
    simp only [step] at h
    split at h
    · split at h
      · exact Option.some.inj h ▸ .refused ‹_›
      · exact Option.some.inj h ▸ .apply ‹_› ‹_›
    · contradiction
  | saveFails p =>
    simp only [step] at h
    split at h
    · exact Option.some.inj h ▸ .saveFails ‹_›
    · contradiction
  | replace p signature =>
    simp only [step] at h
    split at h
    · exact Option.some.inj h ▸ .replace ‹_›
    · contradiction
  | sign p =>
    simp only [step] at h
    split at h
    · exact Option.some.inj h ▸ .sign ‹_›
    · contradiction
  | leave p =>
    simp only [step] at h
    split at h
    · exact Option.some.inj h ▸ .leave ‹_›
    · contradiction

/-- No lookup is content with the signature that `_load` has just recorded before its caller has
stored the records, and no file has the signature of an earlier one. -/
def Undisturbed (s : Fleet) : FleetMove → Prop
  | .compare l => ∀ signature who t, (s.lookups l).stage = .compare signature →
    (s.processes (s.lookups l).process).busy = .load who (.store t) →
    signature ≠ (s.processes (s.lookups l).process).signature
  | .replace _ signature => signature ∉ s.used
  | _ => True

end Fleet
end QronosAgent.Link

import QronosAgent.Lib.Machine
import QronosAgent.Media.Stages

/-! One `StageRunner` of `qronos_media/jobs.py` on the shared index: `_next_stage`, `_run_one`
and the bodies of `qronos_media/stages.py`, a step for every transaction, with the control
operations and scans of other processes in between. What a body decodes and when it stops is
given. -/
namespace QronosAgent.Media
open Lib

structure Track (ρ : Type) where
  trackId : PyStr
  asr : Bool
  data : ρ

structure Results (ρ : Type) where
  streams : List ρ
  tracks : List (Track ρ)
  dialogue : List (PyStr × ρ)
  /-- with the track's id; deleted with the track -/
  windows : List (PyStr × ρ)
  scenes : List ρ
  keyframes : List (ℕ × ρ)
  asrChunks : List ((PyStr × ℕ) × ρ)

namespace Results
variable {ρ : Type}

def empty : Results ρ := ⟨[], [], [], [], [], [], []⟩

def asrTracks (r : Results ρ) : List PyStr :=
  (r.tracks.filter Track.asr).map Track.trackId

/-- `_delete_asr`, as far as it changes result rows. -/
def deleteAsr (r : Results ρ) : Results ρ :=
  { r with
    tracks := r.tracks.filter fun t => !t.asr
    dialogue := r.dialogue.filter fun d => d.1 ∉ r.asrTracks
    windows := r.windows.filter fun w => w.1 ∉ r.asrTracks }

/-- `_delete_semantic`. -/
def deleteSemantic (r : Results ρ) : Results ρ := { r with windows := [] }

/-- The rows that `run_keyframes` deletes before it starts. -/
def deleteKeyframes (r : Results ρ) (resumeFrom : ℕ) : Results ρ :=
  { r with keyframes := r.keyframes.filter fun k => k.1 < resumeFrom }

def insertKeyframes (r : Results ρ) (rows : List (ℕ × ρ)) : Results ρ :=
  { r with keyframes := r.keyframes ++ rows }

def putAsrChunk (r : Results ρ) (key : PyStr × ℕ) (row : ρ) : Results ρ :=
  { r with asrChunks := r.asrChunks.filter (·.1 ≠ key) ++ [(key, row)] }

end Results

inductive Produced (ρ : Type) where
  | metadata (streams : List ρ)
  | subtitles (tracks : List (Track ρ)) (dialogue : List (PyStr × ρ))
  | asr (track : Track ρ) (dialogue : List (PyStr × ρ))
  | asrCleared
  | semantic (windows : List (PyStr × ρ))
  | scenes (rows : List ρ)
  | keyframes

namespace Produced
variable {ρ : Type}

def stage : Produced ρ → Stage
  | metadata _ => .metadata
  | subtitles _ _ => .subtitles
  | asr _ _ => .asr
  | asrCleared => .asr
  | semantic _ => .semantic
  | scenes _ => .scenes
  | keyframes => .keyframes

/-- `commit`, as far as it changes result rows. -/
def apply (r : Results ρ) : Produced ρ → Results ρ
  | metadata streams => { r with streams := streams }
  | subtitles tracks dialogue =>
    { r with
      tracks := tracks
      dialogue := dialogue
      windows := r.windows.filter fun w => w.1 ∉ r.tracks.map Track.trackId }
  | asr track dialogue =>
    { r.deleteAsr with
      tracks := r.deleteAsr.tracks ++ [track]
      dialogue := r.deleteAsr.dialogue ++ dialogue }
  | asrCleared => r.deleteAsr
  | semantic windows =>
    { r with windows := windows.filter fun w => w.1 ∈ r.tracks.map Track.trackId }
  | scenes rows => { r with scenes := rows }
  | keyframes => r

end Produced

structure MediaDb (ρ : Type) where
  assets : Dict AssetId (Results ρ)
  stages : StageTable

namespace MediaDb
variable {ρ : Type} (db : MediaDb ρ)

def row (asset : AssetId) (stage : Stage) : Option StageRow := db.stages.get? (asset, .known stage)

def state (asset : AssetId) (stage : Stage) : Option StageState :=
  (db.row asset stage).map StageRow.state

def updateRow (asset : AssetId) (stage : Stage) (f : StageRow → StageRow) : MediaDb ρ :=
  { db with stages := db.stages.modify (asset, .known stage) f }

def updateResults (asset : AssetId) (f : Results ρ → Results ρ) : MediaDb ρ :=
  { db with assets := db.assets.modify asset f }

def remove (assets : List AssetId) : MediaDb ρ where
  assets := db.assets.filter fun a _ => a ∉ assets
  stages := db.stages.filter fun k _ => k.1 ∉ assets

/-- `SKIP_CLEANUP` -/
def cleanup (asset : AssetId) (now : Seconds) : Stage → MediaDb ρ
  | .asr =>
    { db.updateResults asset Results.deleteAsr with
      stages := requeueSemantic db.stages asset now }
  | .semantic => db.updateResults asset Results.deleteSemantic
  | _ => db

/-- `commit` -/
def commit (asset : AssetId) (now : Seconds) (p : Produced ρ) : MediaDb ρ :=
  { db.updateResults asset (fun r => p.apply r) with
    stages := if p.stage = .asr then requeueSemantic db.stages asset now else db.stages }

/-- `ensure_stages` with the fingerprint of the subtitles, the only one its callers pass. -/
def ensure (asset : AssetId) (fp : PyStr) (now : Seconds) : MediaDb ρ :=
  { db with stages := (ensureStages db.stages asset (Dict.empty.set .subtitles fp) now).2 }

def reindex (asset : AssetId) (stage : Stage) (fp : PyStr) (now : Seconds) : MediaDb ρ :=
  let db := db.ensure asset fp now
  { db with stages := (requeue db.stages asset now stage (py "reindex requested")).2 }

/-- `backfill_stages` -/
def backfill (now : Seconds) : MediaDb ρ :=
  let stages := db.assets.keys.foldl (fun rows a => insertMissing rows a Dict.empty now) db.stages
  { db with stages := stages }

/-- `recover_interrupted` -/
def recover : MediaDb ρ :=
  { db with stages := ⟨db.stages.items.map fun e => (e.1,
      if e.2.state = .running then
        { e.2 with state := .queued, note := some (py "interrupted") }
      else e.2), by
    rw [List.map_map]
    exact db.stages.nodup⟩ }

end MediaDb

/-! The updates of a runner, each on a row in one state. -/

namespace StageRow

def skipped (row : StageRow) (reason : PyStr) (now : Seconds) : StageRow :=
  if row.state = .queued then
    { row with
      state := .completed
      finishedAt := some now
      checkpoint := none
      note := some (py "skipped:" ++ reason)
      error := none }
  else row

def unavailable (row : StageRow) (reason : PyStr) : StageRow :=
  if row.state = .queued then { row with note := some (py "unavailable:" ++ reason) } else row

def marked (row : StageRow) (now : Seconds) : StageRow :=
  if row.state = .queued then
    { row with state := .running, attempts := row.attempts + 1, startedAt := some now, error := none }
  else row

def saved (row : StageRow) (checkpoint : PyStr) : StageRow :=
  if row.state = .running then { row with checkpoint := some checkpoint } else row

/-- `_set` to QUEUED or, with an error, to FAILED. -/
def settled (row : StageRow) (error : Option PyStr) (note : Option PyStr) (now : Seconds) :
    StageRow :=
  if row.state = .running then
    { row with
      state := if error.isSome then .failed else .queued
      error := error
      note := note <|> row.note
      finishedAt := some now }
  else row

def identityChanged (row : StageRow) : StageRow :=
  if row.state = .running then
    { row with state := .queued, checkpoint := none, note := some (py "identity_changed") }
  else row

def completed (row : StageRow) (now : Seconds) : StageRow :=
  { row with state := .completed, finishedAt := some now, checkpoint := none, note := none }

end StageRow

/-- The work at hand: the row as it was chosen. The rest is history: whether another process has
cancelled or paused the stage since, when the checkpoint was written, and what became of the
lease. -/
structure Job where
  asset : AssetId
  stage : Stage
  checkpoint : Option PyStr
  revoked : Bool
  savedAt : ℕ
  reserved : ℕ
  released : ℕ

inductive Pc (ρ : Type) where
  | idle
  | fetched (job : Job)
  | chosen (job : Job)
  | skipping (job : Job)
  | working (job : Job)
  | leased (job : Job)
  | running (job : Job)
  | produced (job : Job) (p : Produced ρ)
  | interrupting (job : Job)
  | requeueing (job : Job)
  | leaving (job : Job)
  | failing (job : Job)
  | stopped

namespace Pc
variable {ρ : Type}

def job? : Pc ρ → Option Job
  | idle => none
  | fetched job => some job
  | chosen job => some job
  | skipping job => some job
  | working job => some job
  | leased job => some job
  | running job => some job
  | produced job _ => some job
  | interrupting job => some job
  | requeueing job => some job
  | leaving job => some job
  | failing job => some job
  | stopped => none

def mapJob (f : Job → Job) : Pc ρ → Pc ρ
  | idle => idle
  | fetched job => fetched (f job)
  | chosen job => chosen (f job)
  | skipping job => skipping (f job)
  | working job => working (f job)
  | leased job => leased (f job)
  | running job => running (f job)
  | produced job p => produced (f job) p
  | interrupting job => interrupting (f job)
  | requeueing job => requeueing (f job)
  | leaving job => leaving (f job)
  | failing job => failing (f job)
  | stopped => stopped

/-- Inside the `try` whose `finally` releases the lease. -/
def held : Pc ρ → Bool
  | leased _ => true
  | running _ => true
  | produced _ _ => true
  | interrupting _ => true
  | requeueing _ => true
  | leaving _ => true
  | failing _ => true
  | _ => false

end Pc

/-- What has happened to a stage: when it was last started (or found to have nothing to do),
completed and checkpointed, and the input fingerprint it was started with. -/
structure Times where
  started : ℕ
  completed : ℕ
  saved : ℕ
  input : Option PyStr

structure Effect (ρ : Type) where
  job : Job
  skip : Bool
  before : MediaDb ρ
  after : MediaDb ρ

/-- A start from a checkpoint, with the times at which it was written and at which the
dependencies last completed. -/
structure Resume where
  savedAt : ℕ
  completedAt : List ℕ

/-- The index, the runner, and what has happened. `clock` counts the steps. -/
structure MediaSys (ρ : Type) where
  db : MediaDb ρ
  pc : Pc ρ
  clock : ℕ
  times : AssetId × Stage → Times
  effects : List (Effect ρ)
  resumes : List Resume
  /-- how often the lease of a run that has ended was reserved and released -/
  leases : List (ℕ × ℕ)

inductive MediaOp (ρ : Type) where
  /- other processes -/
  | scanned (asset : AssetId) (fp : PyStr) (now : Seconds)
  | reindex (asset : AssetId) (stage : Stage) (fp : PyStr) (now : Seconds)
  | control (asset : AssetId) (stage : Stage) (c : JobControl) (now : Seconds)
  | removeRoot (assets : List AssetId)
  /- between two stages -/
  | hashed (asset : AssetId) (fp : PyStr) (now : Seconds)
  | backfill (now : Seconds)
  /- the run ends, or its process does, and the next one begins -/
  | crash
  | recover
  /- choosing -/
  | fetch (asset : AssetId) (stage : Stage)
  | checkDepends
  | leave
  | decide (skip : Bool)
  | skip (reason : PyStr) (now : Seconds)
  | unavailable (reason : PyStr)
  | reserve
  /- under the lease -/
  | mark (now : Seconds)
  | save (checkpoint : PyStr)
  | saveChunk (checkpoint : PyStr) (key : PyStr × ℕ) (row : ρ)
  | saveVectors (checkpoint : PyStr)
  | keyframesDelete (resumeFrom : ℕ)
  | keyframesInsert (rows : List (ℕ × ρ))
  | produce (p : Produced ρ)
  | childCancelled
  | settle (error : Option PyStr) (note : Option PyStr) (now : Seconds)
  | identityChanged
  | tripped
  | commit (now : Seconds)
  | lookAgain
  | requeue (note : PyStr) (now : Seconds)
  | raised
  | release

namespace MediaSys
variable {ρ : Type} (s : MediaSys ρ)

/-- A transaction of the runner. -/
def write (job : Job) (skip : Bool) (db : MediaDb ρ) : MediaSys ρ :=
  { s with db := db, effects := ⟨job, skip, s.db, db⟩ :: s.effects }

def goto (pc : Pc ρ) : MediaSys ρ := { s with pc := pc }

/-- The runner is through with the work at hand. -/
def finish (job : Job) : MediaSys ρ :=
  { s with pc := .idle, leases := (job.reserved, job.released) :: s.leases }

def setTimes (asset : AssetId) (stage : Stage) (f : Times → Times) : MediaSys ρ :=
  { s with times := fun k => if k = (asset, stage) then f (s.times k) else s.times k }

def changed (db : MediaDb ρ) : MediaSys ρ := { s with db := db }

def controlled (asset : AssetId) (stage : Stage) (c : JobControl) (now : Seconds) : MediaSys ρ :=
  let (change, rows) := jobTransition s.db.stages asset stage c now
  { s with
    db := { s.db with stages := rows }
    pc := s.pc.mapJob fun job =>
      if change ∧ (c = .cancel ∨ c = .pause) ∧ job.asset = asset ∧ job.stage = stage then
        { job with revoked := true }
      else job }

def mark (job : Job) (now : Seconds) : MediaSys ρ :=
  let db := s.db.updateRow job.asset job.stage fun row => row.marked now
  let s' := s.write job false db
  let s' := if s.db.state job.asset job.stage = some .queued then
      s'.setTimes job.asset job.stage fun t =>
        { t with
          started := s.clock
          input := (s.db.row job.asset job.stage).bind StageRow.inputFp }
    else s'
  { s' with
    pc := .running job
    resumes := if job.checkpoint.isSome then
        ⟨job.savedAt, job.stage.spec.depends.map fun d => (s.times (job.asset, d)).completed⟩ ::
          s.resumes
      else s.resumes }

def skip (job : Job) (reason : PyStr) (now : Seconds) : MediaSys ρ :=
  let db := (s.db.updateRow job.asset job.stage fun row => row.skipped reason now).cleanup
    job.asset now job.stage
  let s' := s.write job true db
  let s' := if s.db.state job.asset job.stage = some .queued then
      s'.setTimes job.asset job.stage fun t => { t with completed := s.clock }
    else s'
  s'.finish job

/-- `save`, by itself or with rows that are written only while the stage is RUNNING. -/
def save (job : Job) (checkpoint : PyStr) (write : Option (Results ρ → Results ρ)) : MediaSys ρ :=
  if write.isSome ∧ s.db.state job.asset job.stage ≠ some .running then s.goto (.interrupting job)
  else
    let db := s.db.updateResults job.asset (write.getD id)
    let s' := s.write job false
      (db.updateRow job.asset job.stage fun row => row.saved checkpoint)
    if s.db.state job.asset job.stage = some .running then
      s'.setTimes job.asset job.stage fun t => { t with saved := s.clock }
    else s'

/-- The last transaction: the result, and COMPLETED. -/
def commit (job : Job) (p : Produced ρ) (now : Seconds) : MediaSys ρ :=
  if s.db.state job.asset job.stage = some .running then
    let db := (s.db.commit job.asset now p).updateRow job.asset job.stage
      fun row => row.completed now
    ((s.write job false db).setTimes job.asset job.stage
      fun t => { t with completed := s.clock }).goto (.leaving job)
  else s.goto (.interrupting job)

def rowTo (job : Job) (f : StageRow → StageRow) (pc : Pc ρ) : MediaSys ρ :=
  (s.write job false (s.db.updateRow job.asset job.stage f)).goto pc

def ownWrite (job : Job) (f : Results ρ → Results ρ) : MediaSys ρ :=
  s.write job false (s.db.updateResults job.asset f)

/-- The stages that may have nothing to do. -/
def canSkip : Stage → Bool
  | .asr => true
  | .semantic => true
  | _ => false

def runnerStep : Pc ρ → MediaOp ρ → Option (MediaSys ρ)
  | .idle, .fetch asset stage =>
    if s.db.state asset stage = some .queued then
      some (s.goto (.fetched ⟨asset, stage, (s.db.row asset stage).bind StageRow.checkpoint, false,
        (s.times (asset, stage)).saved, 0, 0⟩))
    else none
  | .fetched job, .checkDepends =>
    some (s.goto (if job.stage.spec.depends.all fun d =>
      s.db.state job.asset d = some .completed then .chosen job else .idle))
  | .chosen job, .leave => some (s.finish job)
  | .chosen job, .decide skip =>
    if skip then
      if canSkip job.stage then
        some ((s.setTimes job.asset job.stage fun t =>
          { t with
            started := s.clock
            input := (s.db.row job.asset job.stage).bind StageRow.inputFp }).goto (.skipping job))
      else none
    else some (s.goto (.working job))
  | .skipping job, .skip reason now => some (s.skip job reason now)
  | .working job, .unavailable reason =>
    some ((s.write job false (s.db.updateRow job.asset job.stage
      fun row => row.unavailable reason)).finish job)
  | .working job, .leave => some (s.finish job)
  | .working job, .reserve => some (s.goto (.leased { job with reserved := job.reserved + 1 }))
  | .leased job, .mark now => some (s.mark job now)
  | .running job, .save checkpoint => some (s.save job checkpoint none)
  | .running job, .saveChunk checkpoint key row =>
    if job.stage = .asr then some (s.save job checkpoint (some fun r => r.putAsrChunk key row))
    else none
  | .running job, .saveVectors checkpoint =>
    if job.stage = .semantic then some (s.save job checkpoint (some id)) else none
  | .running job, .keyframesDelete resumeFrom =>
    if job.stage = .keyframes then some (s.ownWrite job fun r => r.deleteKeyframes resumeFrom)
    else none
  | .running job, .keyframesInsert rows =>
    if job.stage = .keyframes then some (s.ownWrite job fun r => r.insertKeyframes rows) else none
  | .running job, .produce p =>
    if p.stage = job.stage then some (s.goto (.produced job p)) else none
  | .running job, .childCancelled => some (s.goto (.interrupting job))
  | .running job, .settle error note now =>
    some (s.rowTo job (fun row => row.settled error note now) (.leaving job))
  | .produced job _, .identityChanged =>
    some (s.rowTo job StageRow.identityChanged (.leaving job))
  | .produced job _, .tripped => some (s.goto (.interrupting job))
  | .produced job p, .commit now => some (s.commit job p now)
  | .interrupting job, .lookAgain =>
    some (s.goto (if s.db.state job.asset job.stage = some .running then .requeueing job
      else .leaving job))
  | .requeueing job, .requeue note now =>
    some (s.rowTo job (fun row => row.settled none (some note) now) (.leaving job))
  | .leaving job, .release => some (s.finish { job with released := job.released + 1 })
  | .failing job, .release =>
    some ((s.finish { job with released := job.released + 1 }).goto .stopped)
  | pc, .raised =>
    match pc.job? with
    | none => none
    | some job => some (if pc.held then s.goto (.failing job) else (s.finish job).goto .stopped)
  | _, _ => none

def otherStep : MediaOp ρ → Option (MediaSys ρ)
  | .scanned asset fp now =>
    if (s.db.assets.get? asset).isSome then some (s.changed (s.db.ensure asset fp now)) else none
  | .reindex asset stage fp now =>
    if (s.db.assets.get? asset).isSome then some (s.changed (s.db.reindex asset stage fp now))
    else none
  | .control asset stage c now => some (s.controlled asset stage c now)
  | .removeRoot assets => some (s.changed (s.db.remove assets))
  | .crash => some (s.goto .stopped)
  | .recover =>
    match s.pc with
    | .stopped => some ((s.changed s.db.recover).goto .idle)
    | _ => none
  | .hashed asset fp now =>
    match s.pc with
    | .idle =>
      let assets := if (s.db.assets.get? asset).isSome then s.db.assets
        else s.db.assets.set asset .empty
      some (s.changed (({ s.db with assets := assets } : MediaDb ρ).ensure asset fp now))
    | _ => none
  | .backfill now =>
    match s.pc with
    | .idle => some (s.changed (s.db.backfill now))
    | _ => none
  | op => s.runnerStep s.pc op

def step (op : MediaOp ρ) : Option (MediaSys ρ) :=
  (s.otherStep op).map fun s' => { s' with clock := s.clock + 1 }

end MediaSys

def mediaMachine (ρ : Type) : Machine (MediaSys ρ) (MediaOp ρ) where
  start s := s.db = ⟨Dict.empty, Dict.empty⟩ ∧ s.pc = .stopped ∧ s.clock = 1 ∧
    s.times = (fun _ => ⟨0, 0, 0, none⟩) ∧ s.effects = [] ∧ s.resumes = [] ∧ s.leases = []
  step := MediaSys.step

end QronosAgent.Media

import QronosAgent.Lib.JsonCompact
import QronosAgent.Media.Stages

/-! How `StageRunner.run` of `qronos_media/jobs.py` looks for work: `_hash_pending`,
`_next_stage` and the loop over stages. The index may be any at every look, and what a piece of
work comes to is given. -/
namespace QronosAgent.Media
open Lib

abbrev RootId := ℤ

abbrev FilePath := PyStr

inductive FileStatus where
  | pendingIdentity
  | present
  | missing
  | failed
  deriving DecidableEq

structure FileRow where
  rootId : RootId
  assetId : Option AssetId
  status : FileStatus
  seenAt : Seconds

/-- The tables that are looked at; of an asset only the priority is. -/
structure Index where
  files : Dict FilePath FileRow
  assets : Dict AssetId ℤ
  stages : StageTable

/-! The queries. Rows that their order leaves equal come as they stand in the table. -/

namespace Index
variable (index : Index)

def pendingFiles (roots : List RootId) : List (FilePath × FileRow) :=
  index.files.items.filter fun f => f.2.status = .pendingIdentity && f.2.rootId ∈ roots

def fileBefore (a b : Seconds × FilePath) : Bool :=
  a.1 < b.1 || (a.1 == b.1 && Json.strLt a.2 b.2)

/-- `ORDER BY f.seen_at, f.path LIMIT 50` -/
def fileWindow (roots : List RootId) : List (FilePath × FileRow) :=
  (sortedBy fileBefore (fun f => (f.2.seenAt, f.1)) (index.pendingFiles roots)).take 50

def hasPresentFile (roots : List RootId) (asset : AssetId) : Bool :=
  index.files.values.any fun f =>
    f.assetId = some asset && f.status = .present && f.rootId ∈ roots

abbrev StageEntry := (AssetId × StageName) × StageRow

def queuedStages (roots : List RootId) : List StageEntry :=
  index.stages.items.filter fun e =>
    e.2.state = .queued && (index.assets.get? e.1.1).isSome && index.hasPresentFile roots e.1.1

def timeBefore : Option Seconds → Option Seconds → Bool
  | none, some _ => true
  | some a, some b => a < b
  | _, none => false

structure Rank where
  priority : ℤ
  queuedAt : Option Seconds
  asset : AssetId

def Rank.before (a b : Rank) : Bool :=
  b.priority < a.priority || (a.priority == b.priority &&
    (timeBefore a.queuedAt b.queuedAt ||
      (a.queuedAt == b.queuedAt && Json.strLt a.asset b.asset)))

def rank (e : StageEntry) : Rank := ⟨(index.assets.get? e.1.1).getD 0, e.2.queuedAt, e.1.1⟩

/-- `ORDER BY a.priority DESC, s.queued_at, s.asset_id LIMIT 500` -/
def stageWindow (roots : List RootId) : List StageEntry :=
  (sortedBy Rank.before index.rank (index.queuedStages roots)).take 500

def stageOrder : StageName → ℕ
  | .known s => Stage.all.idxOf s
  | .other _ => 99

/-- The stage is not skipped and everything it depends on is there. -/
def runnable (skip : List AssetId) (skipPairs : List (AssetId × Stage)) : StageEntry → Bool
  | ((asset, .known s), _) => asset ∉ skip && (asset, s) ∉ skipPairs &&
    s.spec.depends.all fun d =>
      (index.stages.get? (asset, .known d)).any fun row => row.state = .completed
  | ((_, .other _), _) => false

def nextStage (roots : List RootId) (skip : List AssetId) (skipPairs : List (AssetId × Stage)) :
    Option StageEntry :=
  (sortedBy (fun a b : ℕ => a < b) (fun e => stageOrder e.1.2) (index.stageWindow roots)).find?
    (index.runnable skip skipPairs)

end Index

inductive Stopped where
  | idle
  | paused
  | timeBudget
  | deferred
  | permission
  | outOfScope
  | stageBudget
  deriving DecidableEq

inductive StopReason where
  | paused
  | timeBudget
  | deferred
  | permission
  | outOfScope

def StopReason.stopped : StopReason → Stopped
  | paused => .paused
  | timeBudget => .timeBudget
  | deferred => .deferred
  | permission => .permission
  | outOfScope => .outOfScope

structure RunReport where
  hashed : ℕ
  completed : List (AssetId × Stage)
  failed : List (AssetId × Stage)
  identityChanged : List (AssetId × Stage)
  outOfScope : List FilePath
  refused : List (AssetId × Stage)
  stopped : Stopped

def RunReport.empty : RunReport := ⟨0, [], [], [], [], [], .idle⟩

inductive HashOutcome where
  | outOfScope
  | notAllowed
  | deferred
  | stopped (reason : StopReason)
  | failed
  | hashed

structure HashTurn where
  now : Seconds
  paused : Bool
  roots : List RootId
  index : Index
  outcome : HashOutcome

structure FilesLook where
  roots : List RootId
  index : Index
  skipped : List FilePath
  hashed : List FilePath

/-- `_hash_pending`: the report, and the last look when it did not stop the run. `none` is a run
that is still hashing when the turns are over. -/
def hashPending (deadline : Seconds) :
    List HashTurn → List FilePath → List FilePath → RunReport → Option (RunReport × Option FilesLook)
  | [], _, _, _ => none
  | turn :: turns, skipped, hashed, report =>
    if deadline ≤ turn.now then some ({ report with stopped := .timeBudget }, none)
    else if turn.paused then some ({ report with stopped := .paused }, none)
    else
      match (turn.index.fileWindow turn.roots).find? fun f => f.1 ∉ skipped with
      | none => some (report, some ⟨turn.roots, turn.index, skipped, hashed⟩)
      | some (path, _) =>
        match turn.outcome with
        | .outOfScope => hashPending deadline turns (path :: skipped) hashed
          { report with outOfScope := report.outOfScope ++ [path] }
        | .notAllowed => hashPending deadline turns (path :: skipped) hashed report
        | .deferred => some ({ report with stopped := .deferred }, none)
        | .stopped reason => some ({ report with stopped := reason.stopped }, none)
        | .failed => hashPending deadline turns (path :: skipped) hashed report
        | .hashed => hashPending deadline turns skipped (path :: hashed)
          { report with hashed := report.hashed + 1 }

inductive RunOutcome where
  | completed
  | failed
  | unavailable
  | deferred
  | stop (reason : StopReason) (refused : Bool)
  | identityChanged
  | noVerifiedFile
  | cancelled

/-- The report after `_run_one`. -/
def RunReport.after (report : RunReport) (key : AssetId × Stage) : RunOutcome → RunReport
  | .completed => { report with completed := report.completed ++ [key] }
  | .failed => { report with failed := report.failed ++ [key] }
  | .unavailable => { report with refused := report.refused ++ [key] }
  | .deferred => { report with stopped := .deferred }
  | .stop reason refused =>
    { report with
      refused := if refused then report.refused ++ [key] else report.refused
      stopped := reason.stopped }
  | .identityChanged => { report with identityChanged := report.identityChanged ++ [key] }
  | .noVerifiedFile => { report with identityChanged := report.identityChanged ++ [key] }
  | .cancelled => report

structure StageTurn where
  now : Seconds
  paused : Bool
  roots : List RootId
  index : Index
  outcome : RunOutcome

structure StagesLook where
  roots : List RootId
  index : Index
  skip : List AssetId
  skipPairs : List (AssetId × Stage)

def stageLoop (deadline : Seconds) (maxStages : ℕ) :
    List StageTurn → List AssetId → List (AssetId × Stage) → RunReport →
      Option (RunReport × Option StagesLook)
  | [], _, _, _ => none
  | turn :: turns, skip, skipPairs, report =>
    if maxStages ≤ report.completed.length + report.failed.length then
      some ({ report with stopped := .stageBudget }, none)
    else if deadline ≤ turn.now then some ({ report with stopped := .timeBudget }, none)
    else if turn.paused then some ({ report with stopped := .paused }, none)
    else
      match turn.index.nextStage turn.roots skip skipPairs with
      | some ((asset, .known s), _) =>
        let report := report.after (asset, s) turn.outcome
        match turn.outcome with
        | .unavailable => stageLoop deadline maxStages turns skip ((asset, s) :: skipPairs) report
        | .deferred => some (report, none)
        | .stop _ _ => some (report, none)
        | .identityChanged => stageLoop deadline maxStages turns (asset :: skip) skipPairs report
        | .noVerifiedFile => stageLoop deadline maxStages turns (asset :: skip) skipPairs report
        | .cancelled => stageLoop deadline maxStages turns (asset :: skip) skipPairs report
        | .completed => stageLoop deadline maxStages turns skip skipPairs report
        | .failed => stageLoop deadline maxStages turns skip skipPairs report
      | _ => some ({ report with stopped := .idle }, some ⟨turn.roots, turn.index, skip, skipPairs⟩)

structure RunEnd where
  report : RunReport
  files : Option FilesLook
  stages : Option StagesLook

/-- `StageRunner.run`. -/
def run (deadline : Seconds) (maxStages : ℕ) (paused : Bool) (hashTurns : List HashTurn)
    (stageTurns : List StageTurn) : Option RunEnd :=
  if paused then some ⟨{ RunReport.empty with stopped := .paused }, none, none⟩
  else
    match hashPending deadline hashTurns [] [] .empty with
    | none => none
    | some (report, none) => some ⟨report, none, none⟩
    | some (report, some files) =>
      (stageLoop deadline maxStages stageTurns [] [] report).map fun r => ⟨r.1, some files, r.2⟩

def FilesLook.Untried (look : FilesLook) (index : Index) (roots : List RootId)
    (f : FilePath × FileRow) : Prop :=
  f ∈ index.pendingFiles roots ∧ f.1 ∉ look.skipped ∧ f.1 ∉ look.hashed

/-- A stage that could run, of an asset and a stage that were not skipped. -/
def StagesLook.Runnable (look : StagesLook) (e : Index.StageEntry) : Prop :=
  e ∈ look.index.queuedStages look.roots ∧
    look.index.runnable look.skip look.skipPairs e = true

section
variable {deadline : Seconds} {maxStages : ℕ}

variable {skip : List AssetId} {skipPairs : List (AssetId × Stage)} {turns : List HashTurn}
  {skipped hashed : List FilePath} {report report' : RunReport}

/-- The only stage that is chosen has a name of the graph. -/
theorem nextStage_known {index : Index} {roots : List RootId} {e : Index.StageEntry}
    (h : index.nextStage roots skip skipPairs = some e) : ∃ s, e.1.2 = .known s := by
  have hr := List.find?_some h
  obtain ⟨⟨asset, name⟩, row⟩ := e
  cases name with
  | known s => exact ⟨s, rfl⟩
  | other name => simp [Index.runnable] at hr

theorem hashPending_done {look : FilesLook}
    (h : hashPending deadline turns skipped hashed report = some (report', some look)) :
    ∀ f ∈ look.index.fileWindow look.roots, f.1 ∈ look.skipped := by
  induction turns generalizing skipped hashed report with
  | nil => contradiction
  | cons turn turns ih =>
    rw [hashPending] at h
    split at h
    · simp at h
    · split at h
      · simp at h
      · split at h
        · rename_i hnone
          cases h
          rw [List.find?_eq_none] at hnone
          intro f hf
          simpa using hnone f hf
        · split at h
          · exact ih h
          · exact ih h
          · simp at h
          · simp at h
          · exact ih h
          · exact ih h

/-- A run that is stopped while hashing does not say that it is idle. -/
theorem hashPending_stopped
    (h : hashPending deadline turns skipped hashed report = some (report', none)) :
    report'.stopped ≠ .idle := by
  induction turns generalizing skipped hashed report with
  | nil => contradiction
  | cons turn turns ih =>
    rw [hashPending] at h
    split at h
    · simp only [Option.some.injEq, Prod.mk.injEq, and_true] at h
      simp [← h]
    · split at h
      · simp only [Option.some.injEq, Prod.mk.injEq, and_true] at h
        simp [← h]
      · split at h
        · simp at h
        · split at h
          · exact ih h
          · exact ih h
          · simp only [Option.some.injEq, Prod.mk.injEq, and_true] at h
            simp [← h]
          · rename_i reason _
            simp only [Option.some.injEq, Prod.mk.injEq, and_true] at h
            cases reason <;> simp [← h, StopReason.stopped]
          · exact ih h
          · exact ih h

theorem stageLoop_idle {turns : List StageTurn} {look : Option StagesLook}
    (h : stageLoop deadline maxStages turns skip skipPairs report = some (report', look))
    (hidle : report'.stopped = .idle) : ∃ l, look = some l ∧
      ∀ e ∈ l.index.stageWindow l.roots, l.index.runnable l.skip l.skipPairs e = false := by
  induction turns generalizing skip skipPairs report with
  | nil => contradiction
  | cons turn turns ih =>
    rw [stageLoop] at h
    split at h
    · simp only [Option.some.injEq, Prod.mk.injEq] at h
      simp [← h.1] at hidle
    · split at h
      · simp only [Option.some.injEq, Prod.mk.injEq] at h
        simp [← h.1] at hidle
      · split at h
        · simp only [Option.some.injEq, Prod.mk.injEq] at h
          simp [← h.1] at hidle
        · split at h
          · cases hout : turn.outcome with
            | unavailable => exact ih (by simpa [hout] using h)
            | deferred =>
              simp only [hout, Option.some.injEq, Prod.mk.injEq] at h
              simp [← h.1, RunReport.after] at hidle
            | stop reason refused =>
              simp only [hout, Option.some.injEq, Prod.mk.injEq] at h
              cases reason <;> simp [← h.1, RunReport.after, StopReason.stopped] at hidle
            | identityChanged => exact ih (by simpa [hout] using h)
            | noVerifiedFile => exact ih (by simpa [hout] using h)
            | cancelled => exact ih (by simpa [hout] using h)
            | completed => exact ih (by simpa [hout] using h)
            | failed => exact ih (by simpa [hout] using h)
          · rename_i hno
            simp only [Option.some.injEq, Prod.mk.injEq] at h
            refine ⟨_, h.2.symm, ?_⟩
            have hnone : turn.index.nextStage turn.roots skip skipPairs = none := by
              rw [Option.eq_none_iff_forall_ne_some]
              intro e he
              obtain ⟨s, hs⟩ := nextStage_known he
              obtain ⟨⟨asset, name⟩, row⟩ := e
              obtain rfl : name = .known s := hs
              exact hno _ _ _ he
            rw [Index.nextStage, List.find?_eq_none] at hnone
            intro e he
            simpa using hnone e (mem_sortedBy.mpr he)

end
end QronosAgent.Media

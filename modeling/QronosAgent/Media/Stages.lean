import Mathlib.Algebra.Order.Ring.Rat
import Mathlib.Logic.Relation
import Mathlib.Data.Fintype.Basic
import QronosAgent.Lib.Dict
import QronosAgent.Lib.PyText

/-! The processing graph of `qronos_media/stages.py` and the rows of the `stages` table:
`ensure_stages` and `requeue` of `qronos_media/jobs.py`, the job transitions of
`qronos_media/service.py`. -/
namespace QronosAgent.Media
open Lib

/-- Clock readings, as exact numbers. -/
abbrev Seconds := ℚ

abbrev AssetId := PyStr

inductive Stage where
  | metadata
  | subtitles
  | asr
  | semantic
  | scenes
  | keyframes
  deriving DecidableEq

/-- What the `stage` column holds; names that `STAGES` does not have may be left there. -/
inductive StageName where
  | known (stage : Stage)
  | other (name : PyStr)
  deriving DecidableEq

structure StageSpec where
  version : ℤ
  depends : List Stage

/-- `STAGES`, in its order. -/
def Stage.all : List Stage := [.metadata, .subtitles, .asr, .semantic, .scenes, .keyframes]

instance : Fintype Stage := ⟨⟨Stage.all, by decide⟩, fun s => by cases s <;> decide⟩

def Stage.spec : Stage → StageSpec
  | .metadata => ⟨1, []⟩
  | .subtitles => ⟨1, [.metadata]⟩
  | .asr => ⟨1, [.subtitles]⟩
  | .semantic => ⟨1, [.subtitles]⟩
  | .scenes => ⟨1, [.metadata]⟩
  | .keyframes => ⟨1, [.scenes]⟩

def downstream (stage : Stage) : List Stage :=
  let affected := Stage.all.foldl (fun affected s =>
    if s.spec.depends.any (· ∈ affected) then s :: affected else affected) [stage]
  Stage.all.filter (· ∈ affected)

inductive StageState where
  | queued
  | running
  | paused
  | failed
  | completed
  | cancelled
  deriving DecidableEq

structure StageRow where
  version : ℤ
  state : StageState
  attempts : ℕ
  error : Option PyStr
  checkpoint : Option PyStr
  inputFp : Option PyStr
  note : Option PyStr
  queuedAt : Option Seconds
  startedAt : Option Seconds
  finishedAt : Option Seconds
  deriving DecidableEq

abbrev StageTable := Dict (AssetId × StageName) StageRow

def Stage.newRow (s : Stage) (input : Option PyStr) (now : Seconds) : StageRow :=
  ⟨s.spec.version, .queued, 0, none, none, input, none, some now, none, none⟩

/-- `version` or `fingerprint` is not what it should be. -/
def StageRow.stale (row : StageRow) (s : Stage) (inputs : Dict Stage PyStr) : Bool :=
  row.version ≠ s.spec.version || (inputs.get? s).any fun fp => row.inputFp ≠ some fp

def StageRow.invalidated (row : StageRow) (s : Stage) (reason : PyStr) (input : Option PyStr)
    (now : Seconds) : StageRow :=
  { row with
    version := s.spec.version
    state := .queued
    checkpoint := none
    error := none
    attempts := 0
    note := some (py "invalidated:" ++ reason)
    queuedAt := some now
    inputFp := input <|> row.inputFp }

def StageRow.requeued (row : StageRow) (note : PyStr) (now : Seconds) : StageRow :=
  { row with
    state := .queued
    checkpoint := none
    error := none
    attempts := 0
    note := some note
    queuedAt := some now }

section Ensure
variable (rows : StageTable) (asset : AssetId) (inputs : Dict Stage PyStr) (now : Seconds)

def staleStages : List Stage :=
  Stage.all.filter fun s => (rows.get? (asset, .known s)).any fun row => row.stale s inputs

/-- `requeued`: what is downstream of a stale stage, each once. -/
def staleDownstream : List Stage :=
  (staleStages rows asset inputs).foldl
    (fun requeued s => requeued ++ (downstream s).filter (· ∉ requeued)) []

/-- One round of the loop over `STAGES`, for a stage that may have no row. -/
def insertMissingRow (table : StageTable) (s : Stage) : StageTable :=
  if (rows.get? (asset, .known s)).isNone then
    table.set (asset, .known s) (s.newRow (inputs.get? s) now)
  else table

def insertMissing : StageTable :=
  Stage.all.foldl (insertMissingRow rows asset inputs now) rows

def staleReason (s : Stage) : PyStr :=
  if (rows.get? (asset, .known s)).any fun row => row.version ≠ s.spec.version then py "version"
  else py "input"

def ensureStages : List Stage × StageTable :=
  let requeued := staleDownstream rows asset inputs
  (requeued, requeued.foldl (fun table s => table.modify (asset, .known s) fun row =>
    row.invalidated s (staleReason rows asset s) (inputs.get? s) now)
    (insertMissing rows asset inputs now))

def requeue (stage : Stage) (note : PyStr) : List Stage × StageTable :=
  (downstream stage, (downstream stage).foldl (fun table s =>
    table.modify (asset, .known s) fun row => row.requeued note now) rows)

/-- `requeue_semantic`. -/
def requeueSemantic : StageTable :=
  rows.modify (asset, .known .semantic) fun row =>
    if row.state = .running then row
    else { row with
      state := .queued
      checkpoint := none
      error := none
      note := some (py "invalidated:dialogue")
      queuedAt := some now }

end Ensure

/-! The job transitions of another process. -/

inductive JobControl where
  | cancel
  | pause
  | resume
  | retry
  deriving DecidableEq

namespace JobControl

def allowed : JobControl → List StageState
  | cancel => [.queued, .running, .paused]
  | pause => [.queued, .running]
  | resume => [.paused]
  | retry => [.failed, .cancelled]

def target : JobControl → StageState
  | cancel => .cancelled
  | pause => .paused
  | resume => .queued
  | retry => .queued

def note : JobControl → PyStr
  | cancel => py "cancelled by user"
  | pause => py "paused by user"
  | resume => py "resumed by user"
  | retry => py "retry requested"

end JobControl

def StageRow.controlled (row : StageRow) (c : JobControl) (now : Seconds) : StageRow :=
  if row.state ∈ c.allowed then
    { row with state := c.target, note := some c.note, queuedAt := some now }
  else row

/-- `_job_transition`, with whether it changed the row. -/
def jobTransition (rows : StageTable) (asset : AssetId) (stage : Stage) (c : JobControl)
    (now : Seconds) : Bool × StageTable :=
  ((rows.get? (asset, .known stage)).any fun row => row.state ∈ c.allowed,
    rows.modify (asset, .known stage) fun row => row.controlled c now)

variable {s : Stage} {rows : StageTable} {asset : AssetId} {inputs : Dict Stage PyStr}
  {f : Stage → StageRow → StageRow} {ss : List Stage}

/-- `downstream` is what depends on a stage, directly or not, and the stage itself. -/
theorem mem_downstream {t : Stage} :
    t ∈ downstream s ↔ Relation.ReflTransGen (fun a b : Stage => a ∈ b.spec.depends) s t := by
  have hclosed : ∀ a b c : Stage, b ∈ downstream a → b ∈ c.spec.depends → c ∈ downstream a := by
    decide
  have hself : ∀ a : Stage, a ∈ downstream a := by decide
  have hpath : ∀ a b : Stage, b ∈ downstream a → b = a ∨ a ∈ b.spec.depends ∨
      ∃ c : Stage, a ∈ c.spec.depends ∧ c ∈ b.spec.depends := by
    decide
  constructor
  · intro h
    rcases hpath s t h with rfl | hd | ⟨c, hc, hd⟩
    · exact .refl
    · exact .single hd
    · exact .tail (.single hc) hd
  · intro h
    induction h with
    | refl => exact hself s
    | tail _ hd ih => exact hclosed _ _ _ ih hd

theorem nodup_downstream (s : Stage) : (downstream s).Nodup := by
  cases s <;> decide

theorem mem_all (s : Stage) : s ∈ Stage.all := by
  cases s <;> decide

theorem mem_staleStages : s ∈ staleStages rows asset inputs ↔
      ∃ row, rows.get? (asset, .known s) = some row ∧ row.stale s inputs = true := by
  simp [staleStages, mem_all, Option.any_eq_true]

theorem mem_staleDownstream : s ∈ staleDownstream rows asset inputs ↔
      ∃ t ∈ staleStages rows asset inputs, s ∈ downstream t := by
  have hgen : ∀ (ts acc : List Stage),
      s ∈ ts.foldl (fun requeued t => requeued ++ (downstream t).filter (· ∉ requeued)) acc ↔
        s ∈ acc ∨ ∃ t ∈ ts, s ∈ downstream t := by
    intro ts
    induction ts with
    | nil => simp
    | cons t ts ih =>
      intro acc
      rw [List.foldl_cons, ih]
      by_cases hs : s ∈ acc
      · simp [hs]
      · simp [hs]
  rw [staleDownstream, hgen]
  simp

/-- Rows that are not touched stay. -/
theorem get?_foldl_modify_of_ne {k : AssetId × StageName} (hk : ∀ s ∈ ss, k ≠ (asset, .known s)) :
    (ss.foldl (fun table s => table.modify (asset, .known s) (f s)) rows).get? k =
      rows.get? k := by
  induction ss generalizing rows with
  | nil => rfl
  | cons s ss ih =>
    rw [List.foldl_cons, ih fun t ht => hk t (List.mem_cons_of_mem s ht)]
    exact Dict.get?_modify_ne (hk s List.mem_cons_self)

theorem get?_foldl_modify (hs : ss.Nodup) (h : s ∈ ss) :
    (ss.foldl (fun table s => table.modify (asset, .known s) (f s)) rows).get?
      (asset, .known s) = (rows.get? (asset, .known s)).map (f s) := by
  induction ss generalizing rows with
  | nil => contradiction
  | cons t ss ih =>
    obtain ⟨hnew, hrest⟩ := List.nodup_cons.mp hs
    rw [List.foldl_cons]
    rcases List.mem_cons.mp h with rfl | hmem
    · rw [get?_foldl_modify_of_ne, Dict.get?_modify_self]
      intro u hu heq
      obtain rfl : s = u := by simpa using heq
      exact hnew hu
    · rw [ih hrest hmem, Dict.get?_modify_ne]
      intro heq
      obtain rfl : s = t := by simpa using heq
      exact hnew hmem

theorem nodup_staleDownstream (rows : StageTable) (asset : AssetId) (inputs : Dict Stage PyStr) :
    (staleDownstream rows asset inputs).Nodup := by
  have hgen : ∀ (ts acc : List Stage), acc.Nodup →
      (ts.foldl (fun requeued t => requeued ++ (downstream t).filter (· ∉ requeued)) acc).Nodup := by
    intro ts
    induction ts with
    | nil => exact fun acc h => h
    | cons t ts ih =>
      intro acc h
      rw [List.foldl_cons]
      apply ih
      rw [List.nodup_append]
      refine ⟨h, List.Nodup.filter _ (nodup_downstream t), ?_⟩
      intro a ha b hb hab
      have hnot := (List.mem_filter.mp hb).2
      rw [← hab] at hnot
      simp [ha] at hnot
  exact hgen _ [] List.nodup_nil

/-! The table after `ensure_stages` and after `requeue`. -/

section Table
variable {rows : StageTable} {asset : AssetId} {inputs : Dict Stage PyStr} {now : Seconds}

variable {k : AssetId × StageName}

theorem get?_insertMissingRow_ne {table : StageTable} {s : Stage} (hk : k ≠ (asset, .known s)) :
    (insertMissingRow rows asset inputs now table s).get? k = table.get? k := by
  rw [insertMissingRow]
  split
  · exact Dict.get?_set_ne hk
  · rfl

theorem get?_insertMissing_ne (hk : ∀ s, k ≠ (asset, .known s)) :
    (insertMissing rows asset inputs now).get? k = rows.get? k := by
  have hgen : ∀ (ss : List Stage) (table : StageTable),
      (ss.foldl (insertMissingRow rows asset inputs now) table).get? k = table.get? k := by
    intro ss
    induction ss with
    | nil => exact fun _ => rfl
    | cons s ss ih =>
      intro table
      rw [List.foldl_cons, ih, get?_insertMissingRow_ne (hk s)]
  exact hgen _ rows

theorem get?_insertMissing (s : Stage) :
    (insertMissing rows asset inputs now).get? (asset, .known s) =
      some ((rows.get? (asset, .known s)).getD (s.newRow (inputs.get? s) now)) := by
  have hother : ∀ (ss : List Stage) (table : StageTable), s ∉ ss →
      (ss.foldl (insertMissingRow rows asset inputs now) table).get? (asset, .known s) =
        table.get? (asset, .known s) := by
    intro ss
    induction ss with
    | nil => exact fun _ _ => rfl
    | cons t ss ih =>
      intro table hs
      rw [List.mem_cons, not_or] at hs
      rw [List.foldl_cons, ih _ hs.2, get?_insertMissingRow_ne]
      simpa using hs.1
  have hgen : ∀ (ss : List Stage) (table : StageTable), ss.Nodup → s ∈ ss →
      table.get? (asset, .known s) = rows.get? (asset, .known s) →
      (ss.foldl (insertMissingRow rows asset inputs now) table).get? (asset, .known s) =
        some ((rows.get? (asset, .known s)).getD (s.newRow (inputs.get? s) now)) := by
    intro ss
    induction ss with
    | nil => intro table _ hs; contradiction
    | cons t ss ih =>
      intro table hss hs htable
      obtain ⟨hnew, hrest⟩ := List.nodup_cons.mp hss
      rw [List.foldl_cons]
      rcases List.mem_cons.mp hs with rfl | hmem
      · rw [hother ss _ hnew, insertMissingRow]
        cases hrow : rows.get? (asset, .known s) with
        | none => simp
        | some row => simp [htable, hrow]
      · apply ih _ hrest hmem
        rw [get?_insertMissingRow_ne, htable]
        intro heq
        obtain rfl : s = t := by simpa using heq
        exact hnew hmem
  exact hgen Stage.all rows (by decide) (mem_all s) rfl

/-- The row of a stage after `ensure_stages`. -/
theorem get?_ensureStages (s : Stage) :
    (ensureStages rows asset inputs now).2.get? (asset, .known s) =
      let row := (rows.get? (asset, .known s)).getD (s.newRow (inputs.get? s) now)
      some (if s ∈ staleDownstream rows asset inputs then
        row.invalidated s (staleReason rows asset s) (inputs.get? s) now else row) := by
  rw [ensureStages]
  split
  · rename_i h
    exact (get?_foldl_modify (nodup_staleDownstream _ _ _) h).trans
      (by rw [get?_insertMissing, Option.map_some])
  · rename_i h
    refine (get?_foldl_modify_of_ne ?_).trans (get?_insertMissing s)
    intro t ht heq
    obtain rfl : s = t := by simpa using heq
    exact h ht

theorem get?_ensureStages_ne (hk : ∀ s, k ≠ (asset, .known s)) :
    (ensureStages rows asset inputs now).2.get? k = rows.get? k := by
  rw [ensureStages]
  exact (get?_foldl_modify_of_ne fun s _ => hk s).trans (get?_insertMissing_ne hk)

theorem get?_requeue (stage : Stage) (note : PyStr) (s : Stage) :
    (requeue rows asset now stage note).2.get? (asset, .known s) =
      (rows.get? (asset, .known s)).map fun row =>
        if s ∈ downstream stage then row.requeued note now else row := by
  rw [requeue]
  by_cases h : s ∈ downstream stage
  · simp only [h, if_true]
    exact get?_foldl_modify (nodup_downstream stage) h
  · simp only [h, if_false, Option.map_id']
    apply get?_foldl_modify_of_ne
    intro t ht heq
    obtain rfl : s = t := by simpa using heq
    exact h ht

theorem get?_requeue_ne (stage : Stage) (note : PyStr) (hk : ∀ s, k ≠ (asset, .known s)) :
    (requeue rows asset now stage note).2.get? k = rows.get? k :=
  get?_foldl_modify_of_ne fun s _ => hk s

def QueuesExactly (affected : AssetId × StageName → Prop) (rows rows' : StageTable) : Prop :=
  ∀ k row, rows.get? k = some row →
    (affected k → ∃ row', rows'.get? k = some row' ∧ row'.state = .queued ∧
      row'.checkpoint = none) ∧
    (¬ affected k → rows'.get? k = some row)

def Needs (s t : Stage) : Prop := Relation.ReflTransGen (fun a b : Stage => a ∈ b.spec.depends) t s

/-- `ensure_stages` queues what is stale and what needs it. -/
theorem ensureStages_exactly : QueuesExactly
    (fun k => ∃ t s row, rows.get? (asset, .known t) = some row ∧ row.stale t inputs = true ∧
      Needs s t ∧ k = (asset, .known s))
    rows (ensureStages rows asset inputs now).2 := by
  intro k row hrow
  have hmem : ∀ s, s ∈ staleDownstream rows asset inputs ↔
      ∃ t row, rows.get? (asset, .known t) = some row ∧ row.stale t inputs = true ∧ Needs s t := by
    intro s
    rw [mem_staleDownstream]
    constructor
    · rintro ⟨t, ht, hs⟩
      obtain ⟨r, hr, hst⟩ := mem_staleStages.mp ht
      exact ⟨t, r, hr, hst, mem_downstream.mp hs⟩
    · rintro ⟨t, r, hr, hst, hs⟩
      exact ⟨t, mem_staleStages.mpr ⟨r, hr, hst⟩, mem_downstream.mpr hs⟩
  constructor
  · rintro ⟨t, s, r, hr, hst, hs, rfl⟩
    refine ⟨_, get?_ensureStages s, ?_⟩
    rw [if_pos ((hmem s).mpr ⟨t, r, hr, hst, hs⟩)]
    exact ⟨rfl, rfl⟩
  · intro hno
    by_cases hk : ∃ s, k = (asset, .known s)
    · obtain ⟨s, rfl⟩ := hk
      have hnot : s ∉ staleDownstream rows asset inputs := by
        intro hs
        obtain ⟨t, r, hr, hst, hs⟩ := (hmem s).mp hs
        exact hno ⟨t, s, r, hr, hst, hs, rfl⟩
      simp [get?_ensureStages, hnot, hrow]
    · rw [get?_ensureStages_ne (not_exists.mp hk)]
      exact hrow

/-- `requeue` queues a stage and what needs it. -/
theorem requeue_exactly (stage : Stage) (note : PyStr) : QueuesExactly
    (fun k => ∃ s, Needs s stage ∧ k = (asset, .known s))
    rows (requeue rows asset now stage note).2 := by
  intro k row hrow
  constructor
  · rintro ⟨s, hs, rfl⟩
    refine ⟨row.requeued note now, ?_, rfl, rfl⟩
    rw [get?_requeue, hrow, Option.map_some, if_pos (mem_downstream.mpr hs)]
  · intro hno
    by_cases hk : ∃ s, k = (asset, .known s)
    · obtain ⟨s, rfl⟩ := hk
      have hnot : s ∉ downstream stage := fun hs => hno ⟨s, mem_downstream.mp hs, rfl⟩
      rw [get?_requeue, hrow, Option.map_some, if_neg hnot]
    · rw [get?_requeue_ne stage note (not_exists.mp hk)]
      exact hrow

end Table
end QronosAgent.Media

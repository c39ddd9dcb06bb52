import QronosAgent.Media.Runner

/-! What the stage table may become without the runner's doing: rows are queued again together
with all that depends on them, and nothing becomes COMPLETED or RUNNING. -/
namespace QronosAgent.Media
open Lib

def rowOf (rows : StageTable) (a : AssetId) (s : Stage) : Option StageRow :=
  rows.get? (a, .known s)

theorem state_eq_rowOf {ρ : Type} (db : MediaDb ρ) (a : AssetId) (s : Stage) :
    db.state a s = (rowOf db.stages a s).map StageRow.state := rfl

/-- Every row has the version of the graph, and only `subtitles` has an input. -/
def Current (rows : StageTable) : Prop :=
  ∀ a s row, rowOf rows a s = some row →
    row.version = s.spec.version ∧ (s ≠ .subtitles → row.inputFp = none)

structure StageRow.Open (row : StageRow) : Prop where
  completed : row.state ≠ .completed
  running : row.state ≠ .running
  checkpoint : row.checkpoint = none

structure Loosened (rows rows' : StageTable) : Prop where
  kept : ∀ a s row, rowOf rows' a s = some row → row.state = .completed ∨ row.state = .running →
    rowOf rows a s = some row
  checkpoint : ∀ a s row, rowOf rows' a s = some row → row.checkpoint ≠ none →
    ∃ old, rowOf rows a s = some old ∧ old.checkpoint ≠ none
  depends : ∀ a d s, d ∈ s.spec.depends → ∀ row, rowOf rows a d = some row →
    row.state = .completed → rowOf rows' a d ≠ some row →
    ∀ row', rowOf rows' a s = some row' → row'.Open
  current : Current rows → Current rows'

namespace Loosened
variable {rows rows' rows'' : StageTable}

theorem refl (rows : StageTable) : Loosened rows rows where
  kept _ _ _ h _ := h
  checkpoint _ _ row h hc := ⟨row, h, hc⟩
  depends _ _ _ _ _ h _ hne := absurd h hne
  current h := h

theorem trans (h : Loosened rows rows') (h' : Loosened rows' rows'') : Loosened rows rows'' where
  kept a s row hrow hstate := h.kept a s row (h'.kept a s row hrow hstate) hstate
  checkpoint a s row hrow hc := by
    obtain ⟨old, hold, hc'⟩ := h'.checkpoint a s row hrow hc
    exact h.checkpoint a s old hold hc'
  depends a d s hd row hrow hstate hne row' hrow' := by
    by_cases hmid : rowOf rows' a d = some row
    · exact h'.depends a d s hd row hmid hstate hne row' hrow'
    · -- the row was opened before, and stays open
      have hopen := h.depends a d s hd row hrow hstate hmid
      constructor
      · intro hc
        exact (hopen row' (h'.kept a s row' hrow' (.inl hc))).completed hc
      · intro hr
        exact (hopen row' (h'.kept a s row' hrow' (.inr hr))).running hr
      · by_contra hck
        obtain ⟨old, hold, hc'⟩ := h'.checkpoint a s row' hrow' hck
        exact hc' (hopen old hold).checkpoint
  current hc := h'.current (h.current hc)

theorem of_eq (h : ∀ a s, rowOf rows' a s = rowOf rows a s) : Loosened rows rows' where
  kept a s _ hrow _ := h a s ▸ hrow
  checkpoint a s row hrow hc := ⟨row, h a s ▸ hrow, hc⟩
  depends a d _ _ _ hrow _ hne := absurd ((h a d).trans hrow) hne
  current hc a s row hrow := hc a s row (h a s ▸ hrow)

theorem of_rows
    (h : ∀ a s row', rowOf rows' a s = some row' → rowOf rows a s = some row' ∨
      (row'.state ≠ .completed ∧ row'.state ≠ .running ∧
        (row'.checkpoint ≠ none → ∃ old, rowOf rows a s = some old ∧ old.checkpoint ≠ none)))
    (hd : ∀ a d s, d ∈ s.spec.depends → ∀ row, rowOf rows a d = some row →
      row.state = .completed → rowOf rows' a d ≠ some row →
      ∀ row', rowOf rows' a s = some row' → row'.Open)
    (hcur : Current rows → Current rows') : Loosened rows rows' where
  kept a s row hrow hstate := by
    rcases h a s row hrow with hsame | ⟨hc, hr, -⟩
    · exact hsame
    · rcases hstate with hs | hs
      · exact absurd hs hc
      · exact absurd hs hr
  checkpoint a s row hrow hck := by
    rcases h a s row hrow with hsame | ⟨-, -, hold⟩
    · exact ⟨row, hsame, hck⟩
    · exact hold hck
  depends := hd
  current := hcur

end Loosened

theorem rowOf_modify (rows : StageTable) (a : AssetId) (s : Stage) (f : StageRow → StageRow)
    (a' : AssetId) (s' : Stage) : rowOf (rows.modify (a, .known s) f) a' s' =
      if a' = a ∧ s' = s then (rowOf rows a s).map f else rowOf rows a' s' := by
  rw [rowOf, Dict.get?_modify]
  by_cases h : a' = a ∧ s' = s
  · rw [if_pos h, if_pos (by rw [h.1, h.2])]
    rfl
  · rw [if_neg h, if_neg (by simpa using h)]
    rfl

structure StageRow.Relaxes (row row' : StageRow) : Prop where
  completed : row'.state ≠ .completed
  running : row'.state ≠ .running
  checkpoint : row'.checkpoint ≠ none → row.checkpoint ≠ none
  version : row'.version = row.version
  inputFp : row'.inputFp = row.inputFp

theorem Loosened.modify {rows : StageTable} {a : AssetId} {s : Stage} {f : StageRow → StageRow}
    (h : ∀ row, rowOf rows a s = some row → f row = row ∨ row.Relaxes (f row) ∧
      (row.state ≠ .completed ∨ ∀ t : Stage, s ∉ t.spec.depends)) :
    Loosened rows (rows.modify (a, .known s) f) := by
  apply Loosened.of_rows
  · intro a' s' row' hrow'
    rw [rowOf_modify] at hrow'
    split at hrow'
    · rename_i heq
      obtain ⟨row, hrow, rfl⟩ := Option.map_eq_some_iff.mp hrow'
      rw [heq.1, heq.2]
      rcases h row hrow with hf | ⟨hf, -⟩
      · exact .inl (hf.symm ▸ hrow)
      · exact .inr ⟨hf.completed, hf.running, fun hc => ⟨row, hrow, hf.checkpoint hc⟩⟩
    · exact .inl hrow'
  · intro a' d t hd row hrow hstate hne
    rw [rowOf_modify] at hne
    split at hne
    · rename_i heq
      rw [heq.1, heq.2] at hrow
      rw [hrow, Option.map_some] at hne
      rcases h row hrow with hf | ⟨-, hf⟩
      · exact absurd (congrArg some hf) hne
      · rcases hf with hf | hf
        · exact absurd hstate hf
        · exact absurd (heq.2 ▸ hd) (hf t)
    · exact absurd hrow hne
  · intro hcur a' s' row' hrow'
    rw [rowOf_modify] at hrow'
    split at hrow'
    · rename_i heq
      obtain ⟨row, hrow, rfl⟩ := Option.map_eq_some_iff.mp hrow'
      rw [heq.2]
      rcases h row hrow with hf | ⟨hf, -⟩
      · rw [hf]
        exact hcur a s row hrow
      · rw [hf.version, hf.inputFp]
        exact hcur a s row hrow
    · exact hcur a' s' row' hrow'

theorem requeueSemantic_loosened (rows : StageTable) (a : AssetId) (now : Seconds) :
    Loosened rows (requeueSemantic rows a now) := by
  apply Loosened.modify
  intro row _
  by_cases h : row.state = .running
  · exact .inl (by simp [h])
  · refine .inr ⟨?_, .inr (by decide)⟩
    constructor <;> simp [h]

theorem control_loosened (rows : StageTable) (a : AssetId) (s : Stage) (c : JobControl)
    (now : Seconds) : Loosened rows (jobTransition rows a s c now).2 := by
  refine Loosened.modify (f := fun row => row.controlled c now) ?_
  intro row _
  by_cases h : row.state ∈ c.allowed
  · refine .inr ⟨?_, .inl ?_⟩
    · constructor <;> simp [StageRow.controlled, h] <;> cases c <;> simp [JobControl.target]
    · intro hc
      rw [hc] at h
      cases c <;> simp [JobControl.allowed] at h
  · exact .inl (by simp [StageRow.controlled, h])

theorem unavailable_loosened (rows : StageTable) (a : AssetId) (s : Stage) (reason : PyStr) :
    Loosened rows (rows.modify (a, .known s) fun row => row.unavailable reason) := by
  apply Loosened.modify
  intro row _
  by_cases h : row.state = .queued
  · refine .inr ⟨?_, .inl (by simp [h])⟩
    constructor <;> simp [StageRow.unavailable, h]
  · exact .inl (by simp [StageRow.unavailable, h])

theorem settled_loosened (rows : StageTable) (a : AssetId) (s : Stage) (error note : Option PyStr)
    (now : Seconds) :
    Loosened rows (rows.modify (a, .known s) fun row => row.settled error note now) := by
  apply Loosened.modify
  intro row _
  by_cases h : row.state = .running
  · refine .inr ⟨?_, .inl (by simp [h])⟩
    cases error <;> constructor <;> simp [StageRow.settled, h]
  · exact .inl (by simp [StageRow.settled, h])

theorem identityChanged_loosened (rows : StageTable) (a : AssetId) (s : Stage) :
    Loosened rows (rows.modify (a, .known s) StageRow.identityChanged) := by
  apply Loosened.modify
  intro row _
  by_cases h : row.state = .running
  · refine .inr ⟨?_, .inl (by simp [h])⟩
    constructor <;> simp [StageRow.identityChanged, h]
  · exact .inl (by simp [StageRow.identityChanged, h])

theorem downstream_closed {t d s : Stage} (h : d ∈ downstream t) (hd : d ∈ s.spec.depends) :
    s ∈ downstream t := by
  rw [mem_downstream] at h ⊢
  exact h.tail hd

theorem insertMissing_loosened (rows : StageTable) (a : AssetId) (inputs : Dict Stage PyStr)
    (now : Seconds) (hin : ∀ s, s ≠ .subtitles → inputs.get? s = none) :
    Loosened rows (insertMissing rows a inputs now) := by
  have hrow : ∀ a' s row', rowOf (insertMissing rows a inputs now) a' s = some row' →
      rowOf rows a' s = some row' ∨
        rowOf rows a' s = none ∧ row' = s.newRow (inputs.get? s) now := by
    intro a' s row' h
    by_cases ha : a' = a
    · subst ha
      rw [rowOf, get?_insertMissing] at h
      cases hold : rowOf rows a' s with
      | none =>
        rw [rowOf] at hold
        rw [hold] at h
        exact .inr ⟨rfl, (Option.some.inj h).symm⟩
      | some old =>
        rw [rowOf] at hold
        rw [hold] at h
        exact .inl h
    · rw [rowOf, get?_insertMissing_ne (by simp [ha])] at h
      exact .inl h
  apply Loosened.of_rows
  · intro a' s row' h
    rcases hrow a' s row' h with h | ⟨-, rfl⟩
    · exact .inl h
    · exact .inr ⟨by simp [Stage.newRow], by simp [Stage.newRow], by simp [Stage.newRow]⟩
  · intro a' d s _ row hold _ hne
    refine absurd ?_ hne
    by_cases ha : a' = a
    · subst ha
      rw [rowOf] at hold ⊢
      rw [get?_insertMissing, hold]
      rfl
    · rw [rowOf, get?_insertMissing_ne (by simp [ha])]
      exact hold
  · intro hcur a' s row' h
    rcases hrow a' s row' h with h | ⟨-, rfl⟩
    · exact hcur a' s row' h
    · exact ⟨rfl, hin s⟩

theorem ensureStages_loosened (rows : StageTable) (a : AssetId) (inputs : Dict Stage PyStr)
    (now : Seconds) (hin : ∀ s, s ≠ .subtitles → inputs.get? s = none) :
    Loosened rows (ensureStages rows a inputs now).2 := by
  have hmissing := insertMissing_loosened rows a inputs now hin
  apply hmissing.trans
  have hrow : ∀ a' s, rowOf (ensureStages rows a inputs now).2 a' s =
      (rowOf (insertMissing rows a inputs now) a' s).map fun row =>
        if a' = a ∧ s ∈ staleDownstream rows a inputs then
          row.invalidated s (staleReason rows a s) (inputs.get? s) now else row := by
    intro a' s
    by_cases ha : a' = a
    · subst ha
      rw [rowOf, rowOf, get?_ensureStages, get?_insertMissing]
      simp
    · rw [rowOf, rowOf, get?_ensureStages_ne (by simp [ha]), get?_insertMissing_ne (by simp [ha])]
      simp [ha]
  apply Loosened.of_rows
  · intro a' s row' h
    rw [hrow] at h
    obtain ⟨row, hold, rfl⟩ := Option.map_eq_some_iff.mp h
    split
    · exact .inr ⟨by simp [StageRow.invalidated], by simp [StageRow.invalidated],
        by simp [StageRow.invalidated]⟩
    · exact .inl hold
  · intro a' d s hd row hold _ hne row' h
    rw [hrow, hold, Option.map_some] at hne
    rw [hrow] at h
    obtain ⟨row₀, -, rfl⟩ := Option.map_eq_some_iff.mp h
    -- a row that has changed was stale or downstream of a stale one, and so is what depends on it
    split at hne
    · rename_i hstale
      obtain ⟨t, ht, hdt⟩ := mem_staleDownstream.mp hstale.2
      have hs := mem_staleDownstream.mpr ⟨t, ht, downstream_closed hdt hd⟩
      rw [if_pos ⟨hstale.1, hs⟩]
      constructor <;> simp [StageRow.invalidated]
    · exact absurd rfl hne
  · intro hcur a' s row' h
    rw [hrow] at h
    obtain ⟨row, hold, rfl⟩ := Option.map_eq_some_iff.mp h
    split
    · refine ⟨rfl, fun hs => ?_⟩
      simp [StageRow.invalidated, hin s hs, (hcur a' s row hold).2 hs]
    · exact hcur a' s row hold

theorem requeue_loosened (rows : StageTable) (a : AssetId) (stage : Stage) (note : PyStr)
    (now : Seconds) : Loosened rows (requeue rows a now stage note).2 := by
  have hrow : ∀ a' s, rowOf (requeue rows a now stage note).2 a' s =
      (rowOf rows a' s).map fun row =>
        if a' = a ∧ s ∈ downstream stage then row.requeued note now else row := by
    intro a' s
    by_cases ha : a' = a
    · subst ha
      rw [rowOf, rowOf, get?_requeue]
      simp
    · rw [rowOf, rowOf, get?_requeue_ne stage note (by simp [ha])]
      simp [ha]
  apply Loosened.of_rows
  · intro a' s row' h
    rw [hrow] at h
    obtain ⟨row, hold, rfl⟩ := Option.map_eq_some_iff.mp h
    split
    · exact .inr ⟨by simp [StageRow.requeued], by simp [StageRow.requeued],
        by simp [StageRow.requeued]⟩
    · exact .inl hold
  · intro a' d s hd row hold _ hne row' h
    rw [hrow, hold, Option.map_some] at hne
    rw [hrow] at h
    obtain ⟨row₀, -, rfl⟩ := Option.map_eq_some_iff.mp h
    split at hne
    · rename_i hdown
      rw [if_pos ⟨hdown.1, downstream_closed hdown.2 hd⟩]
      constructor <;> simp [StageRow.requeued]
    · exact absurd rfl hne
  · intro hcur a' s row' h
    rw [hrow] at h
    obtain ⟨row, hold, rfl⟩ := Option.map_eq_some_iff.mp h
    split <;> exact hcur a' s row hold

/-! The database after the steps of other processes, and between two stages. -/

section Db
variable {ρ : Type} (db : MediaDb ρ)

theorem onlySubtitles (fp : PyStr) (s : Stage) (hs : s ≠ .subtitles) :
    ((Dict.empty : Dict Stage PyStr).set .subtitles fp).get? s = none := by
  rw [Dict.get?_set_ne hs, Dict.get?_empty]

theorem ensure_loosened (asset : AssetId) (fp : PyStr) (now : Seconds) :
    Loosened db.stages (db.ensure asset fp now).stages :=
  ensureStages_loosened _ _ _ _ (onlySubtitles fp)

theorem reindex_loosened (asset : AssetId) (stage : Stage) (fp : PyStr) (now : Seconds) :
    Loosened db.stages (db.reindex asset stage fp now).stages :=
  (ensure_loosened db asset fp now).trans (requeue_loosened _ _ _ _ _)

theorem backfill_loosened (now : Seconds) : Loosened db.stages (db.backfill now).stages := by
  have hgen : ∀ (as : List AssetId) (rows : StageTable),
      Loosened rows (as.foldl (fun rows a => insertMissing rows a Dict.empty now) rows) := by
    intro as
    induction as with
    | nil => exact Loosened.refl
    | cons a as ih =>
      intro rows
      rw [List.foldl_cons]
      exact (insertMissing_loosened rows a _ now fun _ _ => rfl).trans (ih _)
  exact hgen _ _

theorem remove_loosened (assets : List AssetId) :
    Loosened db.stages (db.remove assets).stages := by
  have hrow : ∀ a s row, rowOf (db.remove assets).stages a s = some row →
      a ∉ assets ∧ rowOf db.stages a s = some row := by
    intro a s row h
    rw [rowOf, MediaDb.remove, Dict.get?_filter, Option.filter_eq_some_iff] at h
    exact ⟨by simpa using h.2, h.1⟩
  apply Loosened.of_rows
  · intro a s row' h
    exact .inl (hrow a s row' h).2
  · intro a d s _ row hold _ hne row' h
    refine absurd ?_ hne
    have hnot := (hrow a s row' h).1
    rw [rowOf, MediaDb.remove, Dict.get?_filter, Option.filter_eq_some_iff]
    exact ⟨hold, by simpa using hnot⟩
  · intro hcur a s row h
    exact hcur a s row (hrow a s row h).2

theorem rowOf_recover (a : AssetId) (s : Stage) : rowOf db.recover.stages a s =
    (rowOf db.stages a s).map fun row =>
      if row.state = .running then
        { row with state := .queued, note := some (py "interrupted") }
      else row := by
  ext row
  rw [rowOf, Dict.get?_eq_some, Option.map_eq_some_iff]
  simp only [MediaDb.recover, List.mem_map, Prod.mk.injEq]
  constructor
  · rintro ⟨e, he, hk, rfl⟩
    exact ⟨e.2, Dict.get?_eq_some.mpr (hk ▸ he), rfl⟩
  · rintro ⟨old, hold, rfl⟩
    exact ⟨((a, .known s), old), Dict.get?_eq_some.mp hold, rfl, rfl⟩

theorem recover_loosened : Loosened db.stages db.recover.stages := by
  apply Loosened.of_rows
  · intro a s row' h
    rw [rowOf_recover] at h
    obtain ⟨row, hold, rfl⟩ := Option.map_eq_some_iff.mp h
    split
    · exact .inr ⟨by simp, by simp, fun hc => ⟨row, hold, hc⟩⟩
    · exact .inl hold
  · intro a d s _ row hold hstate hne
    rw [rowOf_recover, hold, Option.map_some, if_neg (by simp [hstate])] at hne
    exact absurd rfl hne
  · intro hcur a s row' h
    rw [rowOf_recover] at h
    obtain ⟨row, hold, rfl⟩ := Option.map_eq_some_iff.mp h
    split <;> exact hcur a s row hold

end Db
end QronosAgent.Media

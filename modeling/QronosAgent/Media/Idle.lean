import QronosAgent.Media.Looks

/-! What is left when `StageRunner.run` says that it is idle: all that the windows of its last
looks hold was tried, and nothing is known of what lies behind them. -/
namespace QronosAgent.Media
open Lib

variable {deadline : Seconds} {maxStages : ℕ} {paused : Bool} {hashTurns : List HashTurn}
  {stageTurns : List StageTurn} {e : RunEnd}

theorem run_idle (h : run deadline maxStages paused hashTurns stageTurns = some e)
    (hidle : e.report.stopped = .idle) : ∃ f l, e.files = some f ∧ e.stages = some l ∧
      (∀ x ∈ f.index.fileWindow f.roots, x.1 ∈ f.skipped) ∧
      ∀ s ∈ l.index.stageWindow l.roots, l.index.runnable l.skip l.skipPairs s = false := by
  rw [run] at h
  split at h
  · cases h
    simp at hidle
  · split at h
    · contradiction
    · rename_i report hstop
      cases h
      exact absurd hidle (hashPending_stopped hstop)
    · rename_i report f hdone
      obtain ⟨⟨report', look⟩, hloop, rfl⟩ := Option.map_eq_some_iff.mp h
      obtain ⟨l, hl, hwindow⟩ := stageLoop_idle hloop hidle
      exact ⟨f, l, rfl, hl, hashPending_done hdone, hwindow⟩

/-- An idle run has left no stage and no file if and only if none of them stood behind the
window of the last look: the first 500 candidate stages, the first 50 pending files. -/
theorem idle_means_done_iff (h : run deadline maxStages paused hashTurns stageTurns = some e)
    (hidle : e.report.stopped = .idle) : ∃ f l, e.files = some f ∧ e.stages = some l ∧
      ((∀ s, ¬ l.Runnable s) ↔ ∀ s, l.Runnable s → s ∈ l.index.stageWindow l.roots) ∧
      ((∀ x, ¬ f.Untried f.index f.roots x) ↔
        ∀ x, f.Untried f.index f.roots x → x ∈ f.index.fileWindow f.roots) ∧
      ((∀ x, ¬ f.Untried l.index l.roots x) ↔
        ∀ x, f.Untried l.index l.roots x → ∃ y ∈ f.index.fileWindow f.roots, y.1 = x.1) := by
  obtain ⟨f, l, hf, hl, hfiles, hstages⟩ := run_idle h hidle
  refine ⟨f, l, hf, hl, ?_, ?_, ?_⟩
  · constructor
    · intro hnone s hs
      exact absurd hs (hnone s)
    · intro hreach s hs
      have hrun := hstages s (hreach s hs)
      rw [hs.2] at hrun
      contradiction
  · constructor
    · intro hnone x hx
      exact absurd hx (hnone x)
    · intro hreach x hx
      exact hx.2.1 (hfiles x (hreach x hx))
  · constructor
    · intro hnone x hx
      exact absurd hx (hnone x)
    · intro hreach x hx
      obtain ⟨y, hy, hyx⟩ := hreach x hx
      exact hx.2.1 (hyx ▸ hfiles y hy)

/-! An index in which a hundred assets whose metadata stage has failed stand in front of one
that could be worked on. -/

def sampleAsset (i : ℕ) : AssetId := List.replicate i (.scalar 'a')

theorem sampleAsset_inj {i j : ℕ} (h : sampleAsset i = sampleAsset j) : i = j := by
  simpa [sampleAsset] using congrArg List.length h

def sampleRow (state : StageState) : StageRow :=
  ⟨1, state, 0, none, none, none, none, some 0, none, none⟩

def blockedState (s : Stage) : StageState := if s = .metadata then .failed else .queued

def sampleRows (i : ℕ) (state : Stage → StageState) : List Index.StageEntry :=
  Stage.all.map fun s => ((sampleAsset i, .known s), sampleRow (state s))

theorem sampleRows_nodup (i : ℕ) (state : Stage → StageState) :
    ((sampleRows i state).map Prod.fst).Nodup := by
  rw [sampleRows, List.map_map]
  apply List.Nodup.map
  · intro s t h
    simpa using h
  · decide

/-- `n` assets whose metadata stage failed, and one with nothing done yet. -/
def blockedRows (n : ℕ) : List Index.StageEntry :=
  (List.range n).flatMap (fun i => sampleRows i blockedState) ++ sampleRows n fun _ => .queued

theorem blockedRows_nodup (n : ℕ) : ((blockedRows n).map Prod.fst).Nodup := by
  have hasset : ∀ {i k state}, k ∈ (sampleRows i state).map Prod.fst → k.1 = sampleAsset i := by
    intro i k state hk
    obtain ⟨e, he, rfl⟩ := List.mem_map.mp hk
    obtain ⟨s, -, rfl⟩ := List.mem_map.mp he
    rfl
  rw [blockedRows, List.map_append, List.map_flatMap, List.nodup_append, List.nodup_flatMap]
  refine ⟨⟨fun i _ => sampleRows_nodup i _, ?_⟩, sampleRows_nodup n _, ?_⟩
  · refine (List.nodup_range (n := n)).imp ?_
    intro i j hij k hi hj
    exact hij (sampleAsset_inj ((hasset hi).symm.trans (hasset hj)))
  · intro a ha b hb hab
    obtain ⟨i, hi, hai⟩ := List.mem_flatMap.mp ha
    have heq := sampleAsset_inj ((hasset hai).symm.trans (hab ▸ hasset hb))
    have hlt := List.mem_range.mp hi
    omega

theorem sampleKeys_nodup (n : ℕ) : ((List.range n).map sampleAsset).Nodup :=
  List.Nodup.map (fun _ _ h => sampleAsset_inj h) List.nodup_range

def blockedIndex (n : ℕ) : Index where
  files := ⟨(List.range (n + 1)).map fun i =>
    (sampleAsset i, ⟨0, some (sampleAsset i), .present, 0⟩), by
      rw [List.map_map]
      exact sampleKeys_nodup (n + 1)⟩
  assets := ⟨(List.range (n + 1)).map fun i => (sampleAsset i, -(i : ℤ)), by
    rw [List.map_map]
    exact sampleKeys_nodup (n + 1)⟩
  stages := ⟨blockedRows n, blockedRows_nodup n⟩

theorem blockedIndex_file {n i : ℕ} (hi : i ≤ n) :
    (blockedIndex n).hasPresentFile [0] (sampleAsset i) = true := by
  rw [Index.hasPresentFile, List.any_eq_true]
  refine ⟨⟨0, some (sampleAsset i), .present, 0⟩, ?_, by simp⟩
  simp only [blockedIndex, Dict.values, List.map_map, List.mem_map, List.mem_range]
  exact ⟨i, by omega, rfl⟩

theorem blockedIndex_asset {n i : ℕ} (hi : i ≤ n) :
    (blockedIndex n).assets.get? (sampleAsset i) = some (-(i : ℤ)) := by
  rw [Dict.get?_eq_some]
  simp only [blockedIndex, List.mem_map, List.mem_range]
  exact ⟨i, by omega, rfl⟩

/-- What the query takes of an asset's rows. -/
def sampleCandidates (i : ℕ) (state : Stage → StageState) : List Index.StageEntry :=
  (Stage.all.filter fun s => state s = .queued).map fun s =>
    ((sampleAsset i, .known s), sampleRow .queued)

theorem filter_sampleRows {n i : ℕ} (hi : i ≤ n) (state : Stage → StageState) :
    (sampleRows i state).filter (fun e => e.2.state = .queued &&
      ((blockedIndex n).assets.get? e.1.1).isSome &&
      (blockedIndex n).hasPresentFile [0] e.1.1) = sampleCandidates i state := by
  rw [sampleRows, sampleCandidates, List.filter_map]
  have hp : ((fun e : Index.StageEntry => e.2.state = .queued &&
      ((blockedIndex n).assets.get? e.1.1).isSome && (blockedIndex n).hasPresentFile [0] e.1.1) ∘
      fun s => ((sampleAsset i, .known s), sampleRow (state s))) =
      fun s => decide (state s = .queued) := by
    funext s
    simp [sampleRow, blockedIndex_file hi, blockedIndex_asset hi]
  rw [hp]
  apply List.map_congr_left
  intro s hs
  have hq : state s = .queued := by simpa using (List.mem_filter.mp hs).2
  rw [hq]

def blockedCandidates (n : ℕ) : List Index.StageEntry :=
  (List.range n).flatMap fun i => sampleCandidates i blockedState

theorem blockedIndex_queued (n : ℕ) : (blockedIndex n).queuedStages [0] =
    blockedCandidates n ++ sampleCandidates n fun _ => .queued := by
  rw [Index.queuedStages]
  have hitems : (blockedIndex n).stages.items = blockedRows n := rfl
  rw [hitems, blockedRows, List.filter_append, List.filter_flatMap, filter_sampleRows le_rfl,
    blockedCandidates]
  congr 1
  apply List.flatMap_congr
  intro i hi
  exact filter_sampleRows (List.mem_range.mp hi).le _

theorem rank_candidate {n i : ℕ} (hi : i ≤ n) {state : Stage → StageState} {e : Index.StageEntry}
    (he : e ∈ sampleCandidates i state) :
    (blockedIndex n).rank e = ⟨-(i : ℤ), some 0, sampleAsset i⟩ := by
  obtain ⟨s, -, rfl⟩ := List.mem_map.mp he
  simp [Index.rank, blockedIndex_asset hi, sampleRow]

theorem strLt_irrefl (s : PyStr) : Json.strLt s s = false := by
  induction s with
  | nil => rfl
  | cons c s ih => simp [Json.strLt, ih]

/-- The candidates stand in the order of the query. -/
theorem blockedIndex_sorted (n : ℕ) :
    sortedBy Index.Rank.before (blockedIndex n).rank ((blockedIndex n).queuedStages [0]) =
      blockedCandidates n ++ sampleCandidates n fun _ => .queued := by
  have hsame : ∀ {i a b state}, i ≤ n → a ∈ sampleCandidates i state →
      b ∈ sampleCandidates i state →
      NotAfter Index.Rank.before (blockedIndex n).rank a b := by
    intro i a b state hi ha hb
    rw [NotAfter, rank_candidate hi ha, rank_candidate hi hb]
    simp [Index.Rank.before, Index.timeBefore, strLt_irrefl]
  have hbefore : ∀ {i j a b state state'}, i < j → j ≤ n → a ∈ sampleCandidates i state →
      b ∈ sampleCandidates j state' →
      NotAfter Index.Rank.before (blockedIndex n).rank a b := by
    intro i j a b state state' hij hj ha hb
    rw [NotAfter, rank_candidate (by omega) ha, rank_candidate hj hb]
    have hlt : ¬ -(i : ℤ) < -(j : ℤ) := by omega
    have hne : ¬ -(j : ℤ) = -(i : ℤ) := by omega
    simp only [Index.Rank.before, hlt, decide_false, Bool.false_or, Bool.and_eq_false_iff]
    exact .inl (by simpa using hne)
  rw [blockedIndex_queued]
  apply sortedBy_of_chain
  apply List.Pairwise.isChain
  rw [List.pairwise_append, blockedCandidates, List.pairwise_flatMap]
  refine ⟨⟨?_, ?_⟩, ?_, ?_⟩
  · intro i hi
    exact List.pairwise_of_forall_mem_list fun a ha b hb =>
      hsame (List.mem_range.mp hi).le ha hb
  · refine (List.pairwise_lt_range (n := n)).imp_of_mem ?_
    intro i j _ hj hij a ha b hb
    exact hbefore hij (List.mem_range.mp hj).le ha hb
  · exact List.pairwise_of_forall_mem_list fun a ha b hb => hsame le_rfl ha hb
  · intro a ha b hb
    obtain ⟨i, hi, ha⟩ := List.mem_flatMap.mp ha
    exact hbefore (List.mem_range.mp hi) le_rfl ha hb

theorem blockedCandidates_length (n : ℕ) : (blockedCandidates n).length = n * 5 := by
  have hfive : ∀ i, (sampleCandidates i blockedState).length = 5 := by
    intro i
    rw [sampleCandidates, List.length_map]
    decide
  simp [blockedCandidates, List.length_flatMap, hfive]

/-- Nothing that waits for a stage that failed can run. -/
theorem blocked_not_runnable {n : ℕ} {e : Index.StageEntry} (he : e ∈ blockedCandidates n) :
    (blockedIndex n).runnable [] [] e = false := by
  obtain ⟨i, hi, he⟩ := List.mem_flatMap.mp he
  obtain ⟨s, hs, rfl⟩ := List.mem_map.mp he
  have hstate : ∀ d, (blockedIndex n).stages.get? (sampleAsset i, .known d) =
      some (sampleRow (blockedState d)) := by
    intro d
    rw [Dict.get?_eq_some]
    refine List.mem_append_left _ (List.mem_flatMap.mpr ⟨i, hi, ?_⟩)
    exact List.mem_map.mpr ⟨d, mem_all d, rfl⟩
  cases s <;> simp [Index.runnable, Stage.spec, hstate, sampleRow, blockedState] at hs ⊢

/-- With enough assets in front the window holds nothing that can run. -/
theorem blockedIndex_nextStage {n : ℕ} (hn : n * 5 = 500) :
    (blockedIndex n).nextStage [0] [] [] = none := by
  have hwindow : (blockedIndex n).stageWindow [0] = blockedCandidates n := by
    rw [Index.stageWindow, blockedIndex_sorted]
    exact List.take_left' ((blockedCandidates_length n).trans hn)
  rw [Index.nextStage, List.find?_eq_none, hwindow]
  intro e he
  rw [blocked_not_runnable (mem_sortedBy.mp he)]
  simp

theorem blockedIndex_runnable (n : ℕ) : (StagesLook.mk [0] (blockedIndex n) [] []).Runnable
    ((sampleAsset n, .known .metadata), sampleRow .queued) := by
  constructor
  · rw [blockedIndex_queued]
    apply List.mem_append_right
    exact List.mem_map.mpr ⟨.metadata, by decide, rfl⟩
  · simp [Index.runnable, Stage.spec]

theorem stageLoop_none {turn : StageTurn} {turns : List StageTurn} {report : RunReport}
    (hmax : ¬ maxStages ≤ report.completed.length + report.failed.length)
    (hd : ¬ deadline ≤ turn.now) (hp : turn.paused = false)
    (hnone : turn.index.nextStage turn.roots [] [] = none) :
    stageLoop deadline maxStages (turn :: turns) [] [] report =
      some ({ report with stopped := .idle }, some ⟨turn.roots, turn.index, [], []⟩) := by
  rw [stageLoop, if_neg hmax, if_neg hd, hp, hnone]
  rfl

theorem hashPending_none {turn : HashTurn} {turns : List HashTurn} {report : RunReport}
    (hd : ¬ deadline ≤ turn.now) (hp : turn.paused = false)
    (hnone : turn.index.pendingFiles turn.roots = []) :
    hashPending deadline (turn :: turns) [] [] report =
      some (report, some ⟨turn.roots, turn.index, [], []⟩) := by
  have hfind : (turn.index.fileWindow turn.roots).find? (fun f => f.1 ∉ []) = none := by
    rw [Index.fileWindow, hnone]
    rfl
  rw [hashPending, if_neg hd, hp, hfind]
  rfl

theorem blockedIndex_pending (n : ℕ) : (blockedIndex n).pendingFiles [0] = [] := by
  rw [Index.pendingFiles, List.filter_eq_nil_iff]
  intro f hf
  obtain ⟨i, -, rfl⟩ := List.mem_map.mp hf
  simp

theorem blockedIndex_run {n : ℕ} (hn : n * 5 = 500) :
    run 60 100 false [⟨0, false, [0], blockedIndex n, .hashed⟩]
      [⟨0, false, [0], blockedIndex n, .completed⟩] =
    some ⟨.empty, some ⟨[0], blockedIndex n, [], []⟩, some ⟨[0], blockedIndex n, [], []⟩⟩ := by
  have hd : ¬ (60 : Seconds) ≤ 0 := by norm_num
  rw [run, hashPending_none hd rfl (blockedIndex_pending n)]
  have hloop : stageLoop 60 100 [⟨0, false, [0], blockedIndex n, .completed⟩] [] [] .empty =
      some ({ RunReport.empty with stopped := .idle }, some ⟨[0], blockedIndex n, [], []⟩) :=
    stageLoop_none (by decide) hd rfl (blockedIndex_nextStage hn)
  exact congrArg (Option.map fun r => RunEnd.mk r.1 (some ⟨[0], blockedIndex n, [], []⟩) r.2) hloop

/-- A hundred assets whose metadata failed hide the one behind them: the run is idle, and a
stage that could run is queued. -/
theorem idle_hides_runnable : ∃ e l s,
    run 60 100 false [⟨0, false, [0], blockedIndex 100, .hashed⟩]
      [⟨0, false, [0], blockedIndex 100, .completed⟩] = some e ∧
    e.report.stopped = .idle ∧ e.stages = some l ∧ l.Runnable s :=
  ⟨_, _, _, blockedIndex_run (by norm_num), rfl, rfl, blockedIndex_runnable 100⟩

/-- One asset that has no verified file is skipped, and nothing else is left. -/
theorem idle_means_done_iff_sample : ∃ e : RunEnd, e.report.stopped = .idle ∧
    ∃ f l, e.files = some f ∧ e.stages = some l ∧
      ((∀ s, ¬ l.Runnable s) ↔ ∀ s, l.Runnable s → s ∈ l.index.stageWindow l.roots) ∧
      ((∀ x, ¬ f.Untried f.index f.roots x) ↔
        ∀ x, f.Untried f.index f.roots x → x ∈ f.index.fileWindow f.roots) ∧
      ((∀ x, ¬ f.Untried l.index l.roots x) ↔
        ∀ x, f.Untried l.index l.roots x → ∃ y ∈ f.index.fileWindow f.roots, y.1 = x.1) := by
  have hrun : (run 60 100 false [⟨0, false, [0], blockedIndex 0, .hashed⟩]
      [⟨0, false, [0], blockedIndex 0, .noVerifiedFile⟩,
        ⟨1, false, [0], blockedIndex 0, .completed⟩]).any (fun e => e.report.stopped = .idle) =
      true := by
    decide +kernel
  obtain ⟨e, he, hidle⟩ := (Option.any_eq_true _ _).mp hrun
  have hidle' : e.report.stopped = .idle := by simpa using hidle
  exact ⟨e, hidle', idle_means_done_iff he hidle'⟩

end QronosAgent.Media

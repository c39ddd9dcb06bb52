import QronosAgent.Media.Loosened
import QronosAgent.Media.Moves

/-! A completed stage against what it was computed from. -/
namespace QronosAgent.Media
open Lib

variable {ρ : Type}

/-- A stage that has been completed no later than `t` started what needs it. -/
def DoneBefore (rows : StageTable) (times : AssetId × Stage → Times) (a : AssetId) (d : Stage)
    (t : ℕ) : Prop :=
  (rowOf rows a d).map StageRow.state = some .completed ∧ (times (a, d)).completed < t

/-- What is promised of the index: every completed stage is as new as what it depends on, and no
stage was started from a checkpoint that is older than its dependencies. -/
structure MediaSys.Fresh (s : MediaSys ρ) : Prop where
  completed : ∀ a st row, rowOf s.db.stages a st = some row → row.state = .completed →
    row.version = st.spec.version ∧ row.inputFp = (s.times (a, st)).input ∧
    ∀ d ∈ st.spec.depends, DoneBefore s.db.stages s.times a d (s.times (a, st)).started
  resumed : ∀ r ∈ s.resumes, ∀ t ∈ r.completedAt, t < r.savedAt

def DependsHold (s : MediaSys ρ) : MediaOp ρ → Prop
  | .mark _ => ∀ job, s.pc = .leased job → s.db.state job.asset job.stage = some .queued →
    ∀ d ∈ job.stage.spec.depends, s.db.state job.asset d = some .completed
  | .skip _ _ => ∀ job, s.pc = .skipping job → s.db.state job.asset job.stage = some .queued →
    ∀ d ∈ job.stage.spec.depends, s.db.state job.asset d = some .completed
  | _ => True

structure TableInv (rows : StageTable) (times : AssetId × Stage → Times) (clock : ℕ) : Prop where
  current : Current rows
  past : ∀ k, (times k).started < clock ∧ (times k).completed < clock ∧ (times k).saved < clock
  ready : ∀ a st row, rowOf rows a st = some row → row.state = .completed ∨ row.state = .running →
    row.inputFp = (times (a, st)).input ∧
    ∀ d ∈ st.spec.depends, DoneBefore rows times a d (times (a, st)).started
  checkpoint : ∀ a st row, rowOf rows a st = some row → row.checkpoint ≠ none →
    ∀ d ∈ st.spec.depends, DoneBefore rows times a d (times (a, st)).saved

def Job.Saved (job : Job) (times : AssetId × Stage → Times) : Prop :=
  job.checkpoint.isSome → ∀ d ∈ job.stage.spec.depends,
    (times (job.asset, d)).completed < job.savedAt

def PcInv (times : AssetId × Stage → Times) : Pc ρ → Prop
  | .fetched job => job.Saved times
  | .chosen job => job.Saved times
  | .skipping job => MediaSys.canSkip job.stage = true ∧
    (times (job.asset, job.stage)).input = none ∧
    ∀ d ∈ job.stage.spec.depends,
      (times (job.asset, d)).completed < (times (job.asset, job.stage)).started
  | .working job => job.Saved times
  | .leased job => job.Saved times
  | _ => True

structure FreshInv (s : MediaSys ρ) : Prop where
  table : TableInv s.db.stages s.times s.clock
  pc : PcInv s.times s.pc
  resumed : ∀ r ∈ s.resumes, ∀ t ∈ r.completedAt, t < r.savedAt

namespace TableInv
variable {rows rows' : StageTable} {times : AssetId × Stage → Times} {clock clock' : ℕ}

theorem later (h : TableInv rows times clock) (hc : clock ≤ clock') :
    TableInv rows times clock' where
  current := h.current
  past k := by
    obtain ⟨h1, h2, h3⟩ := h.past k
    omega
  ready := h.ready
  checkpoint := h.checkpoint

theorem doneBefore_loosen (hl : Loosened rows rows') {a : AssetId} {d st : Stage}
    (hd : d ∈ st.spec.depends) {t : ℕ} (hdone : DoneBefore rows times a d t) {row' : StageRow}
    (hrow : rowOf rows' a st = some row') (hopen : ¬ row'.Open) : DoneBefore rows' times a d t := by
  obtain ⟨row, hrd, hstate⟩ := Option.map_eq_some_iff.mp hdone.1
  refine ⟨?_, hdone.2⟩
  by_cases hsame : rowOf rows' a d = some row
  · rw [hsame, Option.map_some, hstate]
  · exact absurd (hl.depends a d st hd row hrd hstate hsame row' hrow) hopen

theorem loosen (h : TableInv rows times clock) (hl : Loosened rows rows') :
    TableInv rows' times clock where
  current := hl.current h.current
  past := h.past
  ready a st row hrow hstate := by
    obtain ⟨hin, hdone⟩ := h.ready a st row (hl.kept a st row hrow hstate) hstate
    refine ⟨hin, fun d hd => doneBefore_loosen hl hd (hdone d hd) hrow ?_⟩
    intro hopen
    rcases hstate with hs | hs
    · exact hopen.completed hs
    · exact hopen.running hs
  checkpoint a st row hrow hck := by
    obtain ⟨old, hold, hc⟩ := hl.checkpoint a st row hrow hck
    exact fun d hd => doneBefore_loosen hl hd (h.checkpoint a st old hold hc d hd) hrow
      fun hopen => hck hopen.checkpoint

end TableInv

theorem depends_irrefl : ∀ st d : Stage, d ∈ st.spec.depends → d ≠ st := by
  decide

structure RowUpdate (rows : StageTable) (times : AssetId × Stage → Times) (a : AssetId)
    (st : Stage) (row row' : StageRow) (t' : Times) : Prop where
  version : row'.version = row.version
  inputFp : row'.inputFp = row.inputFp
  ready : row'.state = .completed ∨ row'.state = .running →
    row'.inputFp = t'.input ∧ ∀ d ∈ st.spec.depends, DoneBefore rows times a d t'.started
  checkpoint : row'.checkpoint ≠ none → ∀ d ∈ st.spec.depends, DoneBefore rows times a d t'.saved
  completed : row.state = .completed →
    row'.state = .completed ∧ t'.completed = (times (a, st)).completed

namespace TableInv
variable {rows : StageTable} {times : AssetId × Stage → Times} {clock : ℕ}

theorem update (h : TableInv rows times clock) {a : AssetId} {st : Stage}
    {f : StageRow → StageRow} {g : Times → Times}
    (hpast : (g (times (a, st))).started ≤ clock ∧ (g (times (a, st))).completed ≤ clock ∧
      (g (times (a, st))).saved ≤ clock)
    (hf : ∀ row, rowOf rows a st = some row →
      RowUpdate rows times a st row (f row) (g (times (a, st)))) :
    TableInv (rows.modify (a, .known st) f)
      (fun k => if k = (a, st) then g (times k) else times k) (clock + 1) := by
  let times' : AssetId × Stage → Times := fun k => if k = (a, st) then g (times k) else times k
  have htimes : ∀ a' u, times' (a', u) =
      if a' = a ∧ u = st then g (times (a, st)) else times (a', u) := by
    intro a' u
    by_cases hk : a' = a ∧ u = st
    · simp [times', hk]
    · simp [times', hk]
  -- what was done before is, wherever it is needed
  have hdone : ∀ a' d t, DoneBefore rows times a' d t →
      DoneBefore (rows.modify (a, .known st) f) times' a' d t := by
    intro a' d t hd
    rw [DoneBefore, rowOf_modify, htimes]
    by_cases hk : a' = a ∧ d = st
    · obtain ⟨rfl, rfl⟩ := hk
      obtain ⟨row, hrow, hstate⟩ := Option.map_eq_some_iff.mp hd.1
      obtain ⟨hc, ht⟩ := (hf row hrow).completed hstate
      simp only [and_self, if_true, hrow, Option.map_some, hc, ht, true_and]
      exact hd.2
    · rw [if_neg hk, if_neg hk]
      exact hd
  constructor
  · intro a' u row' hrow'
    rw [rowOf_modify] at hrow'
    split at hrow'
    · rename_i hk
      obtain ⟨row, hrow, rfl⟩ := Option.map_eq_some_iff.mp hrow'
      rw [hk.2, (hf row hrow).version, (hf row hrow).inputFp]
      exact h.current a st row hrow
    · exact h.current a' u row' hrow'
  · rintro ⟨a', u⟩
    change (times' (a', u)).started < _ ∧ (times' (a', u)).completed < _ ∧
      (times' (a', u)).saved < _
    rw [htimes]
    split
    · omega
    · have hp := h.past (a', u)
      omega
  · intro a' u row' hrow' hstate
    change _ = (times' (a', u)).input ∧ ∀ d ∈ u.spec.depends,
      DoneBefore _ times' a' d (times' (a', u)).started
    rw [rowOf_modify] at hrow'
    rw [htimes]
    split at hrow'
    · rename_i hk
      obtain ⟨row, hrow, rfl⟩ := Option.map_eq_some_iff.mp hrow'
      rw [if_pos hk, hk.1, hk.2]
      obtain ⟨hin, hd⟩ := (hf row hrow).ready hstate
      exact ⟨hin, fun d hdd => hdone a d _ (hd d hdd)⟩
    · rename_i hk
      rw [if_neg hk]
      obtain ⟨hin, hd⟩ := h.ready a' u row' hrow' hstate
      exact ⟨hin, fun d hdd => hdone a' d _ (hd d hdd)⟩
  · intro a' u row' hrow' hck
    change ∀ d ∈ u.spec.depends, DoneBefore _ times' a' d (times' (a', u)).saved
    rw [rowOf_modify] at hrow'
    rw [htimes]
    split at hrow'
    · rename_i hk
      obtain ⟨row, hrow, rfl⟩ := Option.map_eq_some_iff.mp hrow'
      rw [if_pos hk, hk.1, hk.2]
      exact fun d hdd => hdone a d _ ((hf row hrow).checkpoint hck d hdd)
    · rename_i hk
      rw [if_neg hk]
      exact fun d hdd => hdone a' d _ (h.checkpoint a' u row' hrow' hck d hdd)

end TableInv

section Transactions
variable {rows : StageTable} {times : AssetId × Stage → Times} {clock : ℕ} {a : AssetId}
  {st : Stage}

theorem doneBefore_now (h : TableInv rows times clock) {d : Stage}
    (hd : (rowOf rows a d).map StageRow.state = some .completed) :
    DoneBefore rows times a d clock :=
  ⟨hd, (h.past (a, d)).2.1⟩

theorem DoneBefore.now (h : TableInv rows times clock) {d : Stage} {t : ℕ}
    (hd : DoneBefore rows times a d t) : DoneBefore rows times a d clock :=
  doneBefore_now h hd.1

theorem modify_self {f : StageRow → StageRow}
    (hf : ∀ row, rowOf rows a st = some row → f row = row) :
    Loosened rows (rows.modify (a, .known st) f) :=
  Loosened.modify fun row hrow => .inl (hf row hrow)

theorem mark_inv (h : TableInv rows times clock) (now : Seconds)
    (hdone : ∀ d ∈ st.spec.depends, (rowOf rows a d).map StageRow.state = some .completed)
    (hq : (rowOf rows a st).map StageRow.state = some .queued) :
    TableInv (rows.modify (a, .known st) fun row => row.marked now)
      (fun k => if k = (a, st) then
        { times k with started := clock, input := (rowOf rows a st).bind StageRow.inputFp }
      else times k) (clock + 1) := by
  have hp := h.past (a, st)
  refine h.update (g := fun t => { t with
    started := clock, input := (rowOf rows a st).bind StageRow.inputFp }) ?_ ?_
  · exact ⟨le_rfl, hp.2.1.le, hp.2.2.le⟩
  · intro row hrow
    have hstate : row.state = .queued := by simpa [hrow] using hq
    constructor
    · simp [StageRow.marked, hstate]
    · simp [StageRow.marked, hstate]
    · intro _
      exact ⟨by simp [StageRow.marked, hstate, hrow], fun d hd => doneBefore_now h (hdone d hd)⟩
    · intro hck
      exact h.checkpoint a st row hrow (by simpa [StageRow.marked, hstate] using hck)
    · intro hc
      rw [hstate] at hc
      contradiction

theorem save_inv (h : TableInv rows times clock) (checkpoint : PyStr)
    (hr : (rowOf rows a st).map StageRow.state = some .running) :
    TableInv (rows.modify (a, .known st) fun row => row.saved checkpoint)
      (fun k => if k = (a, st) then { times k with saved := clock } else times k) (clock + 1) := by
  have hp := h.past (a, st)
  refine h.update (g := fun t => { t with saved := clock }) ?_ ?_
  · exact ⟨hp.1.le, hp.2.1.le, le_rfl⟩
  · intro row hrow
    have hstate : row.state = .running := by simpa [hrow] using hr
    obtain ⟨hin, hdone⟩ := h.ready a st row hrow (.inr hstate)
    constructor
    · simp [StageRow.saved, hstate]
    · simp [StageRow.saved, hstate]
    · intro _
      exact ⟨by simpa [StageRow.saved, hstate] using hin, hdone⟩
    · intro _ d hd
      exact (hdone d hd).now h
    · intro hc
      rw [hstate] at hc
      contradiction

theorem skip_inv (h : TableInv rows times clock) (reason : PyStr) (now : Seconds)
    (hskip : MediaSys.canSkip st = true) (hin : (times (a, st)).input = none)
    (hdone : ∀ d ∈ st.spec.depends, DoneBefore rows times a d (times (a, st)).started)
    (hq : (rowOf rows a st).map StageRow.state = some .queued) :
    TableInv (rows.modify (a, .known st) fun row => row.skipped reason now)
      (fun k => if k = (a, st) then { times k with completed := clock } else times k)
      (clock + 1) := by
  have hp := h.past (a, st)
  refine h.update (g := fun t => { t with completed := clock }) ?_ ?_
  · exact ⟨hp.1.le, le_rfl, hp.2.2.le⟩
  · intro row hrow
    have hstate : row.state = .queued := by simpa [hrow] using hq
    have hfp : row.inputFp = none := by
      apply (h.current a st row hrow).2
      rintro rfl
      contradiction
    constructor
    · simp [StageRow.skipped, hstate]
    · simp [StageRow.skipped, hstate]
    · intro _
      exact ⟨by simp [StageRow.skipped, hstate, hfp, hin], hdone⟩
    · intro hck
      simp [StageRow.skipped, hstate] at hck
    · intro hc
      rw [hstate] at hc
      contradiction

theorem commit_inv (h : TableInv rows times clock) (now : Seconds)
    (hr : (rowOf rows a st).map StageRow.state = some .running) :
    TableInv (rows.modify (a, .known st) fun row => row.completed now)
      (fun k => if k = (a, st) then { times k with completed := clock } else times k)
      (clock + 1) := by
  have hp := h.past (a, st)
  refine h.update (g := fun t => { t with completed := clock }) ?_ ?_
  · exact ⟨hp.1.le, le_rfl, hp.2.2.le⟩
  · intro row hrow
    have hstate : row.state = .running := by simpa [hrow] using hr
    constructor
    · rfl
    · rfl
    · exact fun _ => h.ready a st row hrow (.inr hstate)
    · intro hck
      exact absurd rfl hck
    · intro hc
      rw [hstate] at hc
      contradiction

theorem decide_inv (h : TableInv rows times clock) :
    TableInv rows (fun k => if k = (a, st) then
        { times k with started := clock, input := (rowOf rows a st).bind StageRow.inputFp }
      else times k) (clock + 1) := by
  have hp := h.past (a, st)
  have hup : TableInv (rows.modify (a, .known st) id) (fun k => if k = (a, st) then
        { times k with started := clock, input := (rowOf rows a st).bind StageRow.inputFp }
      else times k) (clock + 1) := by
    refine h.update (g := fun t => { t with
      started := clock, input := (rowOf rows a st).bind StageRow.inputFp }) ?_ ?_
    · exact ⟨le_rfl, hp.2.1.le, hp.2.2.le⟩
    · intro row hrow
      constructor
      · rfl
      · rfl
      · intro hstate
        exact ⟨by simp [hrow], fun d hd => ((h.ready a st row hrow hstate).2 d hd).now h⟩
      · exact h.checkpoint a st row hrow
      · exact fun hc => ⟨hc, rfl⟩
  apply hup.loosen
  apply Loosened.of_eq
  intro a' s
  rw [rowOf_modify]
  split
  · rename_i hk
    rw [hk.1, hk.2, Option.map_id]
    rfl
  · rfl

theorem requeueSemantic_running {row : StageRow} (hrow : rowOf rows a st = some row)
    (hr : row.state = .running) (now : Seconds) :
    rowOf (requeueSemantic rows a now) a st = some row := by
  rw [requeueSemantic, rowOf_modify]
  split
  · rename_i hk
    rw [← hk.2, hrow, Option.map_some, if_pos hr]
  · exact hrow

end Transactions

theorem PcInv.mapJob {times : AssetId × Stage → Times} {pc : Pc ρ} {f : Job → Job}
    (h : PcInv times pc) (hf : ∀ job, (f job).asset = job.asset ∧ (f job).stage = job.stage ∧
      (f job).checkpoint = job.checkpoint ∧ (f job).savedAt = job.savedAt) :
    PcInv times (pc.mapJob f) := by
  have hsaved : ∀ job : Job, job.Saved times → (f job).Saved times := by
    intro job hs
    obtain ⟨h1, h2, h3, h4⟩ := hf job
    rwa [Job.Saved, h1, h2, h3, h4]
  cases pc with
  | fetched job => exact hsaved job h
  | chosen job => exact hsaved job h
  | skipping job =>
    obtain ⟨h1, h2, -, -⟩ := hf job
    rw [Pc.mapJob, PcInv, h1, h2]
    exact h
  | working job => exact hsaved job h
  | leased job => exact hsaved job h
  | _ => trivial

namespace FreshInv
variable {s : MediaSys ρ}

/-- A step that only loosens the table and goes where nothing is claimed. -/
theorem loosen (hi : FreshInv s) {t : MediaSys ρ} (hl : Loosened s.db.stages t.db.stages)
    (htimes : t.times = s.times) (hres : t.resumes = s.resumes) (hpc : PcInv t.times t.pc) :
    FreshInv { t with clock := s.clock + 1 } where
  table := by
    rw [htimes]
    exact (hi.table.loosen hl).later (Nat.le_succ _)
  pc := hpc
  resumed := by
    rw [hres]
    exact hi.resumed

theorem other (hi : FreshInv s) {op : MediaOp ρ} {t : MediaSys ρ} (h : OtherMove s op t) :
    FreshInv { t with clock := s.clock + 1 } := by
  cases h with
  | scanned => exact hi.loosen (ensure_loosened _ _ _ _) rfl rfl hi.pc
  | reindex => exact hi.loosen (reindex_loosened _ _ _ _ _) rfl rfl hi.pc
  | control =>
    refine hi.loosen (control_loosened _ _ _ _ _) rfl rfl (hi.pc.mapJob ?_)
    intro job
    split <;> exact ⟨rfl, rfl, rfl, rfl⟩
  | removeRoot => exact hi.loosen (remove_loosened _ _) rfl rfl hi.pc
  | crash => exact hi.loosen (Loosened.refl _) rfl rfl trivial
  | recover hpc => exact hi.loosen (recover_loosened _) rfl rfl trivial
  | hashed assets hpc => exact hi.loosen (ensure_loosened _ _ _ _) rfl rfl hi.pc
  | backfill hpc => exact hi.loosen (backfill_loosened _ _) rfl rfl hi.pc

theorem fetch (hi : FreshInv s) (a : AssetId) (st : Stage) :
    Job.Saved ⟨a, st, (s.db.row a st).bind StageRow.checkpoint, false, (s.times (a, st)).saved, 0,
      0⟩ s.times := by
  intro hck d hd
  obtain ⟨ck, hck⟩ := Option.isSome_iff_exists.mp hck
  obtain ⟨row, hrow, hrowck⟩ := Option.bind_eq_some_iff.mp hck
  exact (hi.table.checkpoint a st row hrow (by simp [hrowck]) d hd).2

theorem mark (hi : FreshInv s) {job : Job} {now : Seconds} (hpc : s.pc = .leased job)
    (hok : DependsHold s (.mark now)) :
    FreshInv { s.mark job now with clock := s.clock + 1 } := by
  have hsaved : job.Saved s.times := by
    have h := hi.pc
    rwa [hpc] at h
  constructor
  · by_cases hq : s.db.state job.asset job.stage = some .queued
    · have h := mark_inv hi.table now (hok job hpc hq) hq
      simp only [MediaSys.mark, hq, if_true]
      exact h
    · have hl : Loosened s.db.stages
          (s.db.stages.modify (job.asset, .known job.stage) fun row => row.marked now) := by
        apply modify_self
        intro row hrow
        have hne : row.state ≠ .queued := by
          intro hstate
          apply hq
          rw [state_eq_rowOf, hrow, Option.map_some, hstate]
        simp [StageRow.marked, hne]
      have h := (hi.table.loosen hl).later (Nat.le_succ _)
      simp only [MediaSys.mark, hq, if_false]
      exact h
  · trivial
  · intro r hr
    simp only [MediaSys.mark] at hr
    split at hr
    · rename_i hck
      rcases List.mem_cons.mp hr with rfl | hr
      · intro t ht
        obtain ⟨d, hd, rfl⟩ := List.mem_map.mp ht
        exact hsaved hck d hd
      · apply hi.resumed r
        by_cases hq : s.db.state job.asset job.stage = some .queued <;> simpa [hq] using hr
    · apply hi.resumed r
      by_cases hq : s.db.state job.asset job.stage = some .queued <;> simpa [hq] using hr

theorem save (hi : FreshInv s) {job : Job} (hpc : s.pc = .running job) (checkpoint : PyStr)
    (write : Option (Results ρ → Results ρ)) :
    FreshInv { s.save job checkpoint write with clock := s.clock + 1 } := by
  rw [MediaSys.save]
  split
  · exact hi.loosen (Loosened.refl _) rfl rfl trivial
  · split
    · rename_i hr
      constructor
      · exact save_inv hi.table checkpoint hr
      · change PcInv _ s.pc
        rw [hpc]
        trivial
      · exact hi.resumed
    · rename_i hr
      have hl : Loosened s.db.stages
          (s.db.stages.modify (job.asset, .known job.stage) fun row => row.saved checkpoint) := by
        apply modify_self
        intro row hrow
        have hne : row.state ≠ .running := by
          intro hstate
          apply hr
          rw [state_eq_rowOf, hrow, Option.map_some, hstate]
        simp [StageRow.saved, hne]
      refine hi.loosen hl rfl rfl ?_
      change PcInv _ s.pc
      rw [hpc]
      trivial

theorem skip (hi : FreshInv s) {job : Job} {reason : PyStr} {now : Seconds}
    (hpc : s.pc = .skipping job) (hok : DependsHold s (.skip reason now)) :
    FreshInv { s.skip job reason now with clock := s.clock + 1 } := by
  have hskip := hi.pc
  rw [hpc] at hskip
  obtain ⟨hcan, hin, hbefore⟩ := hskip
  have hcleanup : ∀ db : MediaDb ρ, Loosened db.stages
      (db.cleanup job.asset now job.stage).stages := by
    intro db
    cases job.stage with
    | asr => exact requeueSemantic_loosened _ _ _
    | _ => exact Loosened.refl _
  constructor
  · by_cases hq : s.db.state job.asset job.stage = some .queued
    · have h := skip_inv hi.table reason now hcan hin
        (fun d hd => ⟨hok job hpc hq d hd, hbefore d hd⟩) hq
      have h' := h.loosen (hcleanup (s.db.updateRow job.asset job.stage
        fun row => row.skipped reason now))
      simp only [MediaSys.skip, hq, if_true]
      exact h'
    · have hl : Loosened s.db.stages
          (s.db.stages.modify (job.asset, .known job.stage) fun row => row.skipped reason now) := by
        apply modify_self
        intro row hrow
        have hne : row.state ≠ .queued := by
          intro hstate
          apply hq
          rw [state_eq_rowOf, hrow, Option.map_some, hstate]
        simp [StageRow.skipped, hne]
      have h := (hi.table.loosen (hl.trans (hcleanup (s.db.updateRow job.asset job.stage
        fun row => row.skipped reason now)))).later (Nat.le_succ s.clock)
      simp only [MediaSys.skip, hq, if_false]
      exact h
  · trivial
  · intro r hr
    apply hi.resumed r
    simp only [MediaSys.skip] at hr
    split at hr <;> exact hr

theorem commit (hi : FreshInv s) {job : Job} (p : Produced ρ) (now : Seconds) :
    FreshInv { s.commit job p now with clock := s.clock + 1 } := by
  rw [MediaSys.commit]
  split
  · rename_i hr
    have hl : Loosened s.db.stages (s.db.commit job.asset now p).stages := by
      rw [MediaDb.commit]
      split
      · exact requeueSemantic_loosened _ _ _
      · exact Loosened.refl _
    have hrun : (rowOf (s.db.commit job.asset now p).stages job.asset job.stage).map
        StageRow.state = some .running := by
      obtain ⟨row, hrow, hstate⟩ := Option.map_eq_some_iff.mp hr
      rw [MediaDb.commit]
      split
      · rw [requeueSemantic_running hrow hstate, Option.map_some, hstate]
      · exact hr
    constructor
    · exact commit_inv (hi.table.loosen hl) now hrun
    · trivial
    · exact hi.resumed
  · exact hi.loosen (Loosened.refl _) rfl rfl trivial

theorem runner (hi : FreshInv s) {op : MediaOp ρ} {t : MediaSys ρ} (h : RunnerMove s op t)
    (hok : DependsHold s op) : FreshInv { t with clock := s.clock + 1 } := by
  have hpcinv := hi.pc
  cases h with
  | fetch hpc hq => exact hi.loosen (Loosened.refl _) rfl rfl (hi.fetch _ _)
  | depends hpc hd =>
    rw [hpc] at hpcinv
    exact hi.loosen (Loosened.refl _) rfl rfl hpcinv
  | dependsNot hpc => exact hi.loosen (Loosened.refl _) rfl rfl trivial
  | leaveChosen hpc => exact hi.loosen (Loosened.refl _) rfl rfl trivial
  | @decideSkip job hpc hcan =>
    constructor
    · exact decide_inv hi.table
    · refine ⟨hcan, ?_, ?_⟩
      · have hne : job.stage ≠ .subtitles := by
          intro hs
          rw [hs] at hcan
          contradiction
        simp only [MediaSys.setTimes, MediaSys.goto, if_true]
        cases hrow : s.db.row job.asset job.stage with
        | none => rfl
        | some row => exact (hi.table.current _ _ row hrow).2 hne
      · intro d hd
        have hkey : (job.asset, d) ≠ (job.asset, job.stage) := by
          simpa using depends_irrefl _ _ hd
        simp only [MediaSys.setTimes, MediaSys.goto, if_true, if_neg hkey]
        exact (hi.table.past _).2.1
    · exact hi.resumed
  | decideWork hpc =>
    rw [hpc] at hpcinv
    exact hi.loosen (Loosened.refl _) rfl rfl hpcinv
  | skip hpc => exact hi.skip hpc hok
  | unavailable hpc => exact hi.loosen (unavailable_loosened _ _ _ _) rfl rfl trivial
  | leaveWorking hpc => exact hi.loosen (Loosened.refl _) rfl rfl trivial
  | reserve hpc =>
    rw [hpc] at hpcinv
    exact hi.loosen (Loosened.refl _) rfl rfl hpcinv
  | mark hpc => exact hi.mark hpc hok
  | save write hpc => exact hi.save hpc _ write
  | ownWrite f hpc hop =>
    refine hi.loosen (Loosened.refl _) rfl rfl ?_
    change PcInv s.times s.pc
    rw [hpc]
    trivial
  | produce hpc hp => exact hi.loosen (Loosened.refl _) rfl rfl trivial
  | childCancelled hpc => exact hi.loosen (Loosened.refl _) rfl rfl trivial
  | settle hpc => exact hi.loosen (settled_loosened _ _ _ _ _ _) rfl rfl trivial
  | identityChanged hpc => exact hi.loosen (identityChanged_loosened _ _ _) rfl rfl trivial
  | tripped hpc => exact hi.loosen (Loosened.refl _) rfl rfl trivial
  | commit hpc => exact hi.commit _ _
  | lookAgain hpc =>
    refine hi.loosen (Loosened.refl _) rfl rfl ?_
    change PcInv s.times (if _ then _ else _)
    split <;> trivial
  | requeue hpc => exact hi.loosen (settled_loosened _ _ _ _ _ _) rfl rfl trivial
  | release hpc => exact hi.loosen (Loosened.refl _) rfl rfl trivial
  | releaseFailing hpc => exact hi.loosen (Loosened.refl _) rfl rfl trivial
  | raisedHeld hpc hh => exact hi.loosen (Loosened.refl _) rfl rfl trivial
  | raised hpc hh => exact hi.loosen (Loosened.refl _) rfl rfl trivial

theorem start (h : (mediaMachine ρ).start s) : FreshInv s := by
  obtain ⟨hdb, hpc, hclock, htimes, -, hres, -⟩ := h
  have hrow : ∀ a st, rowOf s.db.stages a st = none := by
    intro a st
    rw [hdb]
    rfl
  constructor
  · constructor
    · intro a st row h
      rw [hrow] at h
      contradiction
    · intro k
      rw [htimes, hclock]
      exact ⟨Nat.one_pos, Nat.one_pos, Nat.one_pos⟩
    · intro a st row h
      rw [hrow] at h
      contradiction
    · intro a st row h
      rw [hrow] at h
      contradiction
  · rw [hpc]
    trivial
  · rw [hres]
    intro r hr
    contradiction

theorem of_reach (h : (mediaMachine ρ).Reach DependsHold s) : FreshInv s := by
  apply h.invariant
  · exact fun _ h0 => start h0
  · intro s op s' hi hok hs
    obtain ⟨t, ht, rfl⟩ := step_cases hs
    rcases ht with ht | ht
    · exact hi.runner ht hok
    · exact hi.other ht

theorem fresh (hi : FreshInv s) : s.Fresh where
  completed a st row hrow hstate := by
    obtain ⟨hin, hdone⟩ := hi.table.ready a st row hrow (.inl hstate)
    exact ⟨(hi.table.current a st row hrow).1, hin, hdone⟩
  resumed := hi.resumed

end FreshInv

/-- In a run in which what is marked RUNNING or skipped still has its dependencies, a completed
stage is never older than what it was computed from. Queueing again is exact. -/
theorem completed_never_stale {s : MediaSys ρ} (h : (mediaMachine ρ).Reach DependsHold s) :
    s.Fresh ∧ ∀ (rows : StageTable) (asset : AssetId) (now : Seconds),
      (∀ inputs, QueuesExactly
        (fun k => ∃ t st row, rows.get? (asset, .known t) = some row ∧ row.stale t inputs = true ∧
          Needs st t ∧ k = (asset, .known st))
        rows (ensureStages rows asset inputs now).2) ∧
      ∀ stage note, QueuesExactly (fun k => ∃ st, Needs st stage ∧ k = (asset, .known st))
        rows (requeue rows asset now stage note).2 :=
  ⟨(FreshInv.of_reach h).fresh, fun _ _ _ =>
    ⟨fun _ => ensureStages_exactly, fun stage note => requeue_exactly stage note⟩⟩

/-- A check for `DependsHold`. -/
def dependsCheck (s : MediaSys ℕ) : MediaOp ℕ → Bool
  | .mark _ => s.pc.job?.all fun job => job.stage.spec.depends.all fun d =>
    s.db.state job.asset d = some .completed
  | .skip _ _ => s.pc.job?.all fun job => job.stage.spec.depends.all fun d =>
    s.db.state job.asset d = some .completed
  | _ => true

theorem dependsHold_of_check (s : MediaSys ℕ) (op : MediaOp ℕ) (h : dependsCheck s op = true) :
    DependsHold s op := by
  cases op with
  | mark now =>
    intro job hpc _
    simpa [dependsCheck, hpc, Pc.job?] using h
  | skip reason now =>
    intro job hpc _
    simpa [dependsCheck, hpc, Pc.job?] using h
  | _ => trivial

/-- Three stages are completed, the last one because there is nothing to do. -/
theorem completed_never_stale_sample : ∃ s : MediaSys ℕ, s.Fresh ∧
    s.db.state oneAsset .semantic = some .completed := by
  have hrun : ((mediaMachine ℕ).execChecked dependsCheck (mediaStart ℕ)
      ([.recover, .hashed oneAsset (py "f") 0] ++ stageOps (.metadata [1]) ++ stageOps (.subtitles [] []) ++
        [.fetch oneAsset .semantic, .checkDepends, .decide true, .skip (py "no_dialogue") 0])).any
      (fun s => s.db.state oneAsset .semantic = some .completed) = true := by
    decide +kernel
  obtain ⟨s, hs, h⟩ := (Option.any_eq_true _ _).mp hrun
  have hreach : (mediaMachine ℕ).Reach DependsHold s :=
    Machine.Reach.execChecked dependsHold_of_check (.start ⟨rfl, rfl, rfl, rfl, rfl, rfl, rfl⟩) hs
  exact ⟨s, (completed_never_stale hreach).1, by simpa using h⟩

/-- A reindex between the look at the dependencies and the mark: the stage is completed on top
of a dependency that waits to be run again. -/
theorem reindexed_dependency_missed : ∃ s : MediaSys ℕ, (mediaMachine ℕ).Reachable s ∧
    ¬ s.Fresh := by
  have hrun : ((mediaMachine ℕ).exec (mediaStart ℕ)
      ([.recover, .hashed oneAsset (py "f") 0] ++ stageOps (.metadata [1]) ++
        [.fetch oneAsset .subtitles, .checkDepends, .reindex oneAsset .metadata (py "f") 0] ++
        workOps (.subtitles [] []))).any
      (fun s => s.db.state oneAsset .subtitles = some .completed &&
        s.db.state oneAsset .metadata = some .queued) = true := by
    decide +kernel
  obtain ⟨s, hs, h⟩ := (Option.any_eq_true _ _).mp hrun
  simp only [Bool.and_eq_true, decide_eq_true_eq] at h
  refine ⟨s, Machine.reachable_exec ⟨rfl, rfl, rfl, rfl, rfl, rfl, rfl⟩ hs, fun hfresh => ?_⟩
  obtain ⟨row, hrow, hstate⟩ := Option.map_eq_some_iff.mp h.1
  have hdone := (hfresh.completed _ _ row hrow hstate).2.2 .metadata (by decide)
  have hstates : some StageState.queued = some .completed := h.2.symm.trans hdone.1
  simp at hstates

end QronosAgent.Media

import QronosAgent.Media.Loosened
import QronosAgent.Media.Moves

/-! The transactions of a run against the cancellation of its stage, and the lease it holds. -/
namespace QronosAgent.Media
open Lib

variable {ρ : Type}

/-- A transaction changes result rows only when it sees its stage RUNNING, or completes it as
skipped; after the stage was cancelled or paused it changes nothing. -/
structure Effect.Fenced (e : Effect ρ) : Prop where
  results : e.before.assets ≠ e.after.assets →
    e.before.state e.job.asset e.job.stage = some .running ∨
    e.skip = true ∧ e.before.state e.job.asset e.job.stage = some .queued ∧
      e.after.state e.job.asset e.job.stage = some .completed
  revoked : e.job.revoked = true → e.before.assets = e.after.assets ∧
    e.before.row e.job.asset e.job.stage = e.after.row e.job.asset e.job.stage

structure MediaSys.Sealed (s : MediaSys ρ) : Prop where
  fenced : ∀ e ∈ s.effects, e.Fenced
  /-- reserved at most once, and released as often, when the run of a stage is over -/
  leases : ∀ l ∈ s.leases, l.1 ≤ 1 ∧ l.2 = l.1

/-- The condition on a step: a stage that was cancelled or paused since it was chosen is not
queued again by the time it is marked or skipped, the cleanup of a skipped stage finds it
queued, and the transactions that `run_keyframes` makes on its own find theirs RUNNING; where
they would change nothing it does not matter. -/
def StillOurs (s : MediaSys ρ) : MediaOp ρ → Prop
  | .mark _ => ∀ job, s.pc = .leased job → job.revoked = true →
    s.db.state job.asset job.stage ≠ some .queued
  | .unavailable _ => ∀ job, s.pc = .working job → job.revoked = true →
    s.db.state job.asset job.stage ≠ some .queued
  | .skip _ now => ∀ job, s.pc = .skipping job →
    (job.revoked = true → s.db.state job.asset job.stage ≠ some .queued) ∧
    (s.db.state job.asset job.stage = some .queued ∨
      (s.db.cleanup job.asset now job.stage).assets = s.db.assets)
  | .keyframesDelete n => ∀ job, s.pc = .running job →
    s.db.state job.asset job.stage = some .running ∨
    (s.db.updateResults job.asset fun r => r.deleteKeyframes n).assets = s.db.assets
  | .keyframesInsert rows => ∀ job, s.pc = .running job →
    s.db.state job.asset job.stage = some .running ∨
    (s.db.updateResults job.asset fun r => r.insertKeyframes rows).assets = s.db.assets
  | _ => True

def Pc.RunsNow : Pc ρ → AssetId → Stage → Prop
  | .running job, a, st => job.asset = a ∧ job.stage = st
  | .produced job _, a, st => job.asset = a ∧ job.stage = st
  | .interrupting job, a, st => job.asset = a ∧ job.stage = st
  | .requeueing job, a, st => job.asset = a ∧ job.stage = st
  | .failing _, _, _ => True
  | .stopped, _, _ => True
  | _, _, _ => False

/-- Once it was cancelled or paused, the stage at work is not RUNNING any more. -/
def NotRevived (db : MediaDb ρ) : Pc ρ → Prop
  | .running job => job.revoked = true → db.state job.asset job.stage ≠ some .running
  | .produced job _ => job.revoked = true → db.state job.asset job.stage ≠ some .running
  | .interrupting job => job.revoked = true → db.state job.asset job.stage ≠ some .running
  | .requeueing job => job.revoked = true → db.state job.asset job.stage ≠ some .running
  | _ => True

def Job.LeaseOk (job : Job) (held : Bool) : Prop :=
  job.reserved = (if held then 1 else 0) ∧ job.released = 0

structure FencedInv (s : MediaSys ρ) : Prop where
  running : ∀ a st, s.db.state a st = some .running → s.pc.RunsNow a st
  revoked : NotRevived s.db s.pc
  lease : ∀ job, s.pc.job? = some job → job.LeaseOk s.pc.held
  isSealed : s.Sealed

variable {db db' : MediaDb ρ} {a : AssetId} {st : Stage} {state : StageState}
  {f : StageRow → StageRow}

theorem running_of_loosened (hl : Loosened db.stages db'.stages)
    (h : db'.state a st = some .running) :
    db.state a st = some .running := by
  obtain ⟨row, hrow, hstate⟩ := Option.map_eq_some_iff.mp h
  have hold := hl.kept a st row hrow (.inr hstate)
  exact Option.map_eq_some_iff.mpr ⟨row, hold, hstate⟩

theorem NotRevived.loosen {pc : Pc ρ} (h : NotRevived db pc) (hl : Loosened db.stages db'.stages) :
    NotRevived db' pc := by
  cases pc with
  | running job => exact fun hr hs => h hr (running_of_loosened hl hs)
  | produced job p => exact fun hr hs => h hr (running_of_loosened hl hs)
  | interrupting job => exact fun hr hs => h hr (running_of_loosened hl hs)
  | requeueing job => exact fun hr hs => h hr (running_of_loosened hl hs)
  | _ => trivial

/-- A row that is not in the state an update looks for stays. -/
theorem row_updateRow_of_ne (hf : ∀ row : StageRow, row.state ≠ state → f row = row)
    (h : db.state a st ≠ some state) : (db.updateRow a st f).row a st = db.row a st := by
  have hrow := rowOf_modify db.stages a st f a st
  rw [if_pos ⟨rfl, rfl⟩] at hrow
  refine hrow.trans ?_
  change (db.row a st).map f = db.row a st
  cases hr : db.row a st with
  | none => rfl
  | some row =>
    rw [Option.map_some, hf row]
    intro hstate
    apply h
    rw [MediaDb.state, hr, Option.map_some, hstate]

theorem fenced_updateRow {s : MediaSys ρ} {job : Job} {skip : Bool}
    (hf : ∀ row : StageRow, row.state ≠ state → f row = row)
    (h : job.revoked = true → s.db.state job.asset job.stage ≠ some state) :
    Effect.Fenced ⟨job, skip, s.db, s.db.updateRow job.asset job.stage f⟩ where
  results hne := absurd rfl hne
  revoked hr := ⟨rfl, (row_updateRow_of_ne hf (h hr)).symm⟩

namespace MediaSys.Sealed
variable {s : MediaSys ρ}

theorem write (h : s.Sealed) {job : Job} {skip : Bool} {db : MediaDb ρ}
    (he : Effect.Fenced ⟨job, skip, s.db, db⟩) : (s.write job skip db).Sealed where
  fenced e hmem := by
    rcases List.mem_cons.mp hmem with rfl | hmem
    · exact he
    · exact h.fenced e hmem
  leases := h.leases

theorem finish (h : s.Sealed) {job : Job} (hl : job.reserved ≤ 1 ∧ job.released = job.reserved) :
    (s.finish job).Sealed where
  fenced := h.fenced
  leases l hmem := by
    rcases List.mem_cons.mp hmem with rfl | hmem
    · exact hl
    · exact h.leases l hmem

theorem goto (h : s.Sealed) (pc : Pc ρ) : (s.goto pc).Sealed := ⟨h.fenced, h.leases⟩

theorem tick (h : s.Sealed) (n : ℕ) : MediaSys.Sealed { s with clock := n } :=
  ⟨h.fenced, h.leases⟩

end MediaSys.Sealed

theorem state_controlled {rows : StageTable} {a : AssetId} {st : Stage} {c : JobControl}
    (now : Seconds) (h : (jobTransition rows a st c now).1 = true) :
    (rowOf (jobTransition rows a st c now).2 a st).map StageRow.state = some c.target := by
  obtain ⟨row, hrow, hallowed⟩ := (Option.any_eq_true _ _).mp h
  rw [jobTransition, rowOf_modify, if_pos ⟨rfl, rfl⟩,
    show rowOf rows a st = some row from hrow, Option.map_some, Option.map_some]
  simp only [decide_eq_true_eq] at hallowed
  simp [StageRow.controlled, hallowed]

theorem target_ne_running (c : JobControl) : c.target ≠ .running := by
  cases c <;> simp [JobControl.target]

theorem RunsNow_mapJob {pc : Pc ρ} {f : Job → Job}
    (hf : ∀ job, (f job).asset = job.asset ∧ (f job).stage = job.stage) {a : AssetId} {st : Stage}
    (h : pc.RunsNow a st) : (pc.mapJob f).RunsNow a st := by
  cases pc <;> simp_all [Pc.RunsNow, Pc.mapJob]

theorem NotRevived_mapJob {db db' : MediaDb ρ} {pc : Pc ρ} {f : Job → Job} (h : NotRevived db pc)
    (hl : Loosened db.stages db'.stages)
    (hf : ∀ job, f job = job ∨ (f job).asset = job.asset ∧ (f job).stage = job.stage ∧
      db'.state job.asset job.stage ≠ some .running) : NotRevived db' (pc.mapJob f) := by
  have hjob : ∀ job : Job, (job.revoked = true → db.state job.asset job.stage ≠ some .running) →
      (f job).revoked = true → db'.state (f job).asset (f job).stage ≠ some .running := by
    intro job hold hr
    rcases hf job with heq | ⟨ha, hs, hne⟩
    · rw [heq] at hr ⊢
      exact fun hs => hold hr (running_of_loosened hl hs)
    · rw [ha, hs]
      exact hne
  cases pc with
  | running job => exact hjob job h
  | produced job p => exact hjob job h
  | interrupting job => exact hjob job h
  | requeueing job => exact hjob job h
  | _ => trivial

theorem job?_mapJob (pc : Pc ρ) (f : Job → Job) : (pc.mapJob f).job? = pc.job?.map f := by
  cases pc <;> rfl

theorem held_mapJob (pc : Pc ρ) (f : Job → Job) : (pc.mapJob f).held = pc.held := by
  cases pc <;> rfl

namespace FencedInv
variable {s : MediaSys ρ}

theorem control (hi : FencedInv s) (asset : AssetId) (stage : Stage) (c : JobControl)
    (now : Seconds) : FencedInv { s.controlled asset stage c now with clock := s.clock + 1 } := by
  have hl := control_loosened s.db.stages asset stage c now
  constructor
  · intro a st hr
    refine RunsNow_mapJob ?_ (hi.running a st (running_of_loosened hl hr))
    intro job
    split <;> exact ⟨rfl, rfl⟩
  · refine NotRevived_mapJob hi.revoked hl ?_
    intro job
    split
    · rename_i hc
      obtain ⟨hchange, -, rfl, rfl⟩ := hc
      refine .inr ⟨rfl, rfl, ?_⟩
      have hstate := state_controlled now hchange
      rw [state_eq_rowOf]
      refine fun hr => target_ne_running c ?_
      exact Option.some.inj (hstate.symm.trans hr)
    · exact .inl rfl
  · intro job hj
    simp only [MediaSys.controlled, job?_mapJob, Option.map_eq_some_iff] at hj
    simp only [MediaSys.controlled, held_mapJob]
    obtain ⟨old, hold, rfl⟩ := hj
    have hlease := hi.lease old hold
    split <;> exact hlease
  · exact ⟨hi.isSealed.fenced, hi.isSealed.leases⟩

variable {op : MediaOp ρ} {t : MediaSys ρ} {job : Job} {now : Seconds} {db : MediaDb ρ}
  {f : StageRow → StageRow}

/-- Other processes, and the steps between two stages. -/
theorem other (hi : FencedInv s) (h : OtherMove s op t) :
    FencedInv { t with clock := s.clock + 1 } := by
  have hloosen : ∀ db, Loosened s.db.stages db.stages →
      FencedInv { s.changed db with clock := s.clock + 1 } := fun db hl =>
    ⟨fun a st hr => hi.running a st (running_of_loosened hl hr), hi.revoked.loosen hl, hi.lease,
      ⟨hi.isSealed.fenced, hi.isSealed.leases⟩⟩
  cases h with
  | scanned => exact hloosen _ (ensure_loosened _ _ _ _)
  | reindex => exact hloosen _ (reindex_loosened _ _ _ _ _)
  | removeRoot => exact hloosen _ (remove_loosened _ _)
  | hashed assets hpc => exact hloosen _ (ensure_loosened _ _ _ _)
  | backfill hpc => exact hloosen _ (backfill_loosened _ _)
  | crash =>
    exact ⟨fun _ _ _ => trivial, trivial, fun _ hj => (nomatch hj),
      ⟨hi.isSealed.fenced, hi.isSealed.leases⟩⟩
  | recover hpc =>
    refine ⟨?_, trivial, fun _ hj => (nomatch hj), ⟨hi.isSealed.fenced, hi.isSealed.leases⟩⟩
    intro a st hr
    obtain ⟨row, hrow, hstate⟩ := Option.map_eq_some_iff.mp hr
    have hrow' := rowOf_recover s.db a st
    rw [show rowOf s.db.recover.stages a st = some row from hrow] at hrow'
    obtain ⟨old, -, rfl⟩ := Option.map_eq_some_iff.mp hrow'.symm
    split at hstate
    · simp at hstate
    · rename_i hne
      exact absurd hstate hne
  | control => exact hi.control _ _ _ _

/-- A step of the runner that leaves no other row RUNNING than before. -/
theorem move (hi : FencedInv s) (hl : Loosened s.db.stages t.db.stages)
    (hpc : ∀ a st, t.db.state a st = some .running → s.pc.RunsNow a st → t.pc.RunsNow a st)
    (hrev : NotRevived t.db t.pc) (hlease : ∀ job, t.pc.job? = some job → job.LeaseOk t.pc.held)
    (hsealed : t.Sealed) : FencedInv { t with clock := s.clock + 1 } where
  running a st hr := hpc a st hr (hi.running a st (running_of_loosened hl hr))
  revoked := hrev
  lease := hlease
  isSealed := hsealed.tick _

/-- A step of the runner in which only the runner moves. -/
theorem goto (hi : FencedInv s) {pc : Pc ρ}
    (hpc : ∀ a st, s.db.state a st = some .running → s.pc.RunsNow a st → pc.RunsNow a st)
    (hrev : NotRevived s.db pc) (hlease : ∀ job, pc.job? = some job → job.LeaseOk pc.held) :
    FencedInv { s.goto pc with clock := s.clock + 1 } :=
  hi.move (Loosened.refl _) hpc hrev hlease (hi.isSealed.goto pc)

/-- Nothing is RUNNING while the work at hand has not been started. -/
theorem not_running (hi : FencedInv s) (h : ∀ a st, ¬ s.pc.RunsNow a st) (a : AssetId)
    (st : Stage) : s.db.state a st ≠ some .running := fun hr => h a st (hi.running a st hr)

theorem mark (hi : FencedInv s) (hpc : s.pc = .leased job) (hok : StillOurs s (.mark now)) :
    FencedInv { s.mark job now with clock := s.clock + 1 } := by
  have hnone := hi.not_running (by simp [hpc, Pc.RunsNow])
  have hdb : (s.mark job now).db = s.db.updateRow job.asset job.stage fun row => row.marked now := by
    simp only [MediaSys.mark]
    split <;> rfl
  have hmarked : ∀ row : StageRow, row.state ≠ .queued → row.marked now = row := by
    intro row h
    simp [StageRow.marked, h]
  constructor
  · intro a st hr
    -- the only row that can have become RUNNING is the one at hand
    by_contra hother
    apply hnone a st
    change (s.mark job now).db.state a st = _ at hr
    rw [hdb, state_eq_rowOf, MediaDb.updateRow, rowOf_modify] at hr
    split at hr
    · rename_i hk
      exact absurd ⟨hk.1.symm, hk.2.symm⟩ hother
    · exact hr
  · intro hrev hr
    change (s.mark job now).db.state job.asset job.stage = _ at hr
    rw [hdb, MediaDb.state, row_updateRow_of_ne hmarked (hok job hpc hrev)] at hr
    exact hnone job.asset job.stage hr
  · intro job' hj
    cases hj
    have hlease := hi.lease job (by rw [hpc]; rfl)
    rw [hpc] at hlease
    exact hlease
  · have he : Effect.Fenced ⟨job, false, s.db, s.db.updateRow job.asset job.stage _⟩ :=
      fenced_updateRow hmarked (hok job hpc)
    have hw := hi.isSealed.write he
    constructor
    · intro e he
      apply hw.fenced e
      simp only [MediaSys.mark] at he
      split at he <;> exact he
    · intro l hmem
      apply hw.leases l
      simp only [MediaSys.mark] at hmem
      split at hmem <;> exact hmem

/-- What the invariant says of a run at work. -/
theorem running_facts (hi : FencedInv s) (hpc : s.pc = .running job) :
    (job.revoked = true → s.db.state job.asset job.stage ≠ some .running) ∧ job.LeaseOk true := by
  have hrev := hi.revoked
  have hlease := hi.lease job (by rw [hpc]; rfl)
  rw [hpc] at hrev hlease
  exact ⟨hrev, hlease⟩

theorem bodyWrite (hi : FencedInv s) (hpc : s.pc = .running job)
    (hstate : ∀ a st, db.state a st = s.db.state a st) (he : Effect.Fenced ⟨job, false, s.db, db⟩)
    (hdb : t.db = db) (htpc : t.pc = s.pc)
    (heff : t.effects = ⟨job, false, s.db, db⟩ :: s.effects) (hleases : t.leases = s.leases) :
    FencedInv { t with clock := s.clock + 1 } := by
  obtain ⟨hrev, hlease⟩ := hi.running_facts hpc
  constructor
  · intro a st hr
    change t.db.state a st = _ at hr
    rw [hdb, hstate] at hr
    change t.pc.RunsNow a st
    rw [htpc]
    exact hi.running a st hr
  · change NotRevived t.db t.pc
    rw [hdb, htpc, hpc]
    intro h
    rw [hstate]
    exact hrev h
  · change ∀ job', t.pc.job? = some job' → job'.LeaseOk t.pc.held
    rw [htpc]
    exact hi.lease
  · have hw := hi.isSealed.write he
    exact ⟨heff ▸ hw.fenced, hleases ▸ hw.leases⟩

theorem state_updateRow {a : AssetId} {st : Stage}
    (hf : ∀ row : StageRow, (f row).state = row.state) (a' : AssetId) (st' : Stage) :
    (db.updateRow a st f).state a' st' = db.state a' st' := by
  rw [state_eq_rowOf, MediaDb.updateRow, rowOf_modify]
  split
  · rename_i hk
    rw [hk.1, hk.2, Option.map_map, state_eq_rowOf]
    congr 1
    funext row
    exact hf row
  · rfl

theorem save (hi : FencedInv s) (hpc : s.pc = .running job) (checkpoint : PyStr)
    (write : Option (Results ρ → Results ρ)) :
    FencedInv { s.save job checkpoint write with clock := s.clock + 1 } := by
  obtain ⟨hrev, hlease⟩ := hi.running_facts hpc
  rw [MediaSys.save]
  by_cases hstop : write.isSome ∧ s.db.state job.asset job.stage ≠ some .running
  · rw [if_pos hstop]
    refine hi.goto ?_ hrev ?_
    · intro a st _ hr
      rwa [hpc] at hr
    · intro job' hj
      cases hj
      exact hlease
  · rw [if_neg hstop]
    let written := s.db.updateResults job.asset (write.getD id)
    let db := written.updateRow job.asset job.stage fun row => row.saved checkpoint
    have hstate : ∀ a st, db.state a st = s.db.state a st := by
      have hsaved : ∀ row : StageRow, (row.saved checkpoint).state = row.state := by
        intro row
        rw [StageRow.saved]
        split <;> rfl
      exact fun a st => (state_updateRow hsaved a st : db.state a st = written.state a st)
    have he : Effect.Fenced ⟨job, false, s.db, db⟩ := by
      constructor
      · intro hne
        cases write with
        | none => exact absurd (Dict.modify_id _ _).symm hne
        | some f =>
          left
          by_contra hr
          exact hstop ⟨rfl, hr⟩
      · intro hr
        have hne := hrev hr
        have hnone : write = none := by
          cases write with
          | none => rfl
          | some f => exact absurd ⟨rfl, hne⟩ hstop
        constructor
        · subst hnone
          exact (Dict.modify_id _ _).symm
        · have hsaved : ∀ row : StageRow, row.state ≠ .running → row.saved checkpoint = row := by
            intro row h
            simp [StageRow.saved, h]
          have hrow : db.row job.asset job.stage = written.row job.asset job.stage :=
            row_updateRow_of_ne hsaved hne
          exact hrow.symm
    by_cases hr : s.db.state job.asset job.stage = some .running
    · rw [if_pos hr]
      exact hi.bodyWrite hpc hstate he rfl rfl rfl rfl
    · rw [if_neg hr]
      exact hi.bodyWrite hpc hstate he rfl rfl rfl rfl

theorem ownWrite (hi : FencedInv s) (hpc : s.pc = .running job) {f : Results ρ → Results ρ}
    (hok : s.db.state job.asset job.stage = some .running ∨
      (s.db.updateResults job.asset f).assets = s.db.assets) :
    FencedInv { s.ownWrite job f with clock := s.clock + 1 } := by
  obtain ⟨hrev, -⟩ := hi.running_facts hpc
  have he : Effect.Fenced ⟨job, false, s.db, s.db.updateResults job.asset f⟩ := by
    constructor
    · intro hne
      rcases hok with hr | hsame
      · exact .inl hr
      · exact absurd hsame.symm hne
    · intro hr
      rcases hok with hrun | hsame
      · exact absurd hrun (hrev hr)
      · exact ⟨hsame.symm, rfl⟩
  have hstate : ∀ a st, (s.db.updateResults job.asset f).state a st = s.db.state a st :=
    fun _ _ => rfl
  exact hi.bodyWrite hpc hstate he rfl rfl rfl rfl

theorem toLeaving (hi : FencedInv s)
    (hruns : ∀ a st, s.pc.RunsNow a st → job.asset = a ∧ job.stage = st)
    (hrev : job.revoked = true → s.db.state job.asset job.stage ≠ some .running)
    (hlease : job.LeaseOk true) (hf : ∀ row : StageRow, row.state ≠ .running → f row = row)
    (hleft : ∀ row : StageRow, (f row).state ≠ .running)
    (hl : Loosened s.db.stages (s.db.stages.modify (job.asset, .known job.stage) f)) :
    FencedInv { s.rowTo job f (.leaving job) with clock := s.clock + 1 } := by
  refine hi.move hl ?_ trivial ?_ ((hi.isSealed.write (fenced_updateRow hf hrev)).goto _)
  · intro a st hr hruns'
    obtain ⟨rfl, rfl⟩ := hruns a st hruns'
    change (s.db.updateRow job.asset job.stage f).state job.asset job.stage = _ at hr
    rw [state_eq_rowOf, MediaDb.updateRow, rowOf_modify, if_pos ⟨rfl, rfl⟩, Option.map_map] at hr
    obtain ⟨row, -, hstate⟩ := Option.map_eq_some_iff.mp hr
    exact absurd hstate (hleft row)
  · intro job' hj
    cases hj
    exact hlease

theorem settled_ne_running (row : StageRow) (error note : Option PyStr) (now : Seconds) :
    (row.settled error note now).state ≠ .running := by
  rw [StageRow.settled]
  split
  · cases error <;> simp
  · assumption

theorem identityChanged_ne_running (row : StageRow) : row.identityChanged.state ≠ .running := by
  rw [StageRow.identityChanged]
  split
  · simp
  · assumption

theorem done (hl : job.reserved ≤ 1 ∧ job.released = job.reserved)
    (hnone : ∀ a st, t.db.state a st ≠ some .running) (ht : t.Sealed) :
    FencedInv { t.finish job with clock := s.clock + 1 } where
  running a st hr := absurd hr (hnone a st)
  revoked := trivial
  lease _ hj := (nomatch hj)
  isSealed := (ht.finish hl).tick _

theorem cleanup_facts (db : MediaDb ρ) (a : AssetId) (now : Seconds) (st : Stage) :
    (db.cleanup a now st).row a st = db.row a st ∧
      Loosened db.stages (db.cleanup a now st).stages := by
  cases st with
  | asr =>
    refine ⟨?_, requeueSemantic_loosened _ _ _⟩
    have h := rowOf_modify db.stages a .semantic (fun row =>
      if row.state = .running then row
      else { row with
        state := .queued
        checkpoint := none
        error := none
        note := some (py "invalidated:dialogue")
        queuedAt := some now }) a .asr
    rw [if_neg (by simp)] at h
    exact h
  | _ => exact ⟨rfl, Loosened.refl _⟩

theorem cleanup_assets (db : MediaDb ρ) (a : AssetId) (now : Seconds) (st st' : Stage)
    (f : StageRow → StageRow) : ((db.updateRow a st' f).cleanup a now st).assets =
      (db.cleanup a now st).assets := by
  cases st <;> rfl

theorem skip (hi : FencedInv s) {reason : PyStr} (hpc : s.pc = .skipping job)
    (hok : StillOurs s (.skip reason now)) :
    FencedInv { s.skip job reason now with clock := s.clock + 1 } := by
  obtain ⟨hrev, hclean⟩ := hok job hpc
  have hnone := hi.not_running (by simp [hpc, Pc.RunsNow])
  have hlease := hi.lease job (by rw [hpc]; rfl)
  rw [hpc] at hlease
  have hskipped : ∀ row : StageRow, row.state ≠ .queued → row.skipped reason now = row := by
    intro row h
    simp [StageRow.skipped, h]
  let mid := s.db.updateRow job.asset job.stage fun row => row.skipped reason now
  let db := mid.cleanup job.asset now job.stage
  obtain ⟨hrow, hloose⟩ := cleanup_facts mid job.asset now job.stage
  have he : Effect.Fenced ⟨job, true, s.db, db⟩ := by
    constructor
    · intro hne
      rcases hclean with hq | hsame
      · refine .inr ⟨rfl, hq, ?_⟩
        obtain ⟨row, hr, hstate⟩ := Option.map_eq_some_iff.mp hq
        rw [MediaDb.state, hrow]
        have hmid := rowOf_modify s.db.stages job.asset job.stage
          (fun row => row.skipped reason now) job.asset job.stage
        rw [if_pos ⟨rfl, rfl⟩] at hmid
        change (rowOf mid.stages job.asset job.stage).map StageRow.state = _
        rw [show rowOf mid.stages job.asset job.stage = _ from hmid,
          show rowOf s.db.stages job.asset job.stage = some row from hr]
        simp [StageRow.skipped, hstate]
      · exact absurd (hsame.symm.trans (cleanup_assets s.db job.asset now job.stage job.stage
          fun row => row.skipped reason now).symm) hne
    · intro hr
      have hq := hrev hr
      constructor
      · rcases hclean with hq' | hsame
        · exact absurd hq' hq
        · exact hsame.symm.trans (cleanup_assets s.db job.asset now job.stage job.stage
            fun row => row.skipped reason now).symm
      · exact (hrow.trans (row_updateRow_of_ne hskipped hq)).symm
  have hquiet : ∀ a st, db.state a st ≠ some .running := by
    intro a st hr
    have hmid := running_of_loosened hloose hr
    rw [state_eq_rowOf] at hmid
    change (rowOf (s.db.stages.modify _ _) a st).map _ = _ at hmid
    rw [rowOf_modify] at hmid
    split at hmid
    · rename_i hk
      obtain ⟨row', hrow', hstate⟩ := Option.map_eq_some_iff.mp hmid
      obtain ⟨row, hr₀, rfl⟩ := Option.map_eq_some_iff.mp hrow'
      rw [StageRow.skipped] at hstate
      split at hstate
      · simp at hstate
      · exact hnone job.asset job.stage (Option.map_eq_some_iff.mpr ⟨row, hr₀, hstate⟩)
    · exact hnone a st hmid
  have hw := hi.isSealed.write he
  rw [MediaSys.skip]
  split
  · exact done (by simp [hlease.1, hlease.2, Pc.held]) hquiet ⟨hw.fenced, hw.leases⟩
  · exact done (by simp [hlease.1, hlease.2, Pc.held]) hquiet hw

theorem commit (hi : FencedInv s) {p : Produced ρ} (hpc : s.pc = .produced job p) :
    FencedInv { s.commit job p now with clock := s.clock + 1 } := by
  have hrev := hi.revoked
  have hlease := hi.lease job (by rw [hpc]; rfl)
  rw [hpc] at hrev hlease
  rw [MediaSys.commit]
  split
  · rename_i hr
    have hl : Loosened s.db.stages (s.db.commit job.asset now p).stages := by
      rw [MediaDb.commit]
      split
      · exact requeueSemantic_loosened _ _ _
      · exact Loosened.refl _
    constructor
    · intro a st hrun
      -- the row at hand is COMPLETED, and no other one was RUNNING
      change (rowOf ((s.db.commit job.asset now p).stages.modify _ _) a st).map _ = _ at hrun
      rw [rowOf_modify] at hrun
      split at hrun
      · obtain ⟨row', hrow', hstate⟩ := Option.map_eq_some_iff.mp hrun
        obtain ⟨row, -, rfl⟩ := Option.map_eq_some_iff.mp hrow'
        simp [StageRow.completed] at hstate
      · rename_i hk
        have hruns := hi.running a st (running_of_loosened hl hrun)
        rw [hpc] at hruns
        exact absurd ⟨hruns.1.symm, hruns.2.symm⟩ hk
    · trivial
    · intro job' hj
      cases hj
      exact hlease
    · have he : Effect.Fenced ⟨job, false, s.db,
          (s.db.commit job.asset now p).updateRow job.asset job.stage fun row => row.completed now⟩ :=
        ⟨fun _ => .inl hr, fun h => absurd hr (hrev h)⟩
      have hw := hi.isSealed.write he
      exact ⟨hw.fenced, hw.leases⟩
  · refine hi.goto ?_ hrev ?_
    · intro a st _ hruns
      rwa [hpc] at hruns
    · intro job' hj
      cases hj
      exact hlease

theorem runner (hi : FencedInv s) (h : RunnerMove s op t) (hok : StillOurs s op) :
    FencedInv { t with clock := s.clock + 1 } := by
  have hrev := hi.revoked
  have hlease := hi.lease
  have hnone := hi.not_running
  cases h with
  | fetch hpc hq =>
    rw [hpc] at hnone
    refine hi.goto ?_ trivial ?_
    · intro a st hr
      exact absurd hr (hnone (by simp [Pc.RunsNow]) a st)
    · intro job hj
      cases hj
      exact ⟨rfl, rfl⟩
  | depends hpc hd =>
    rw [hpc] at hlease hnone
    refine hi.goto ?_ trivial hlease
    intro a st hr
    exact absurd hr (hnone (by simp [Pc.RunsNow]) a st)
  | dependsNot hpc =>
    rw [hpc] at hnone
    refine hi.goto ?_ trivial fun _ hj => by cases hj
    intro a st hr
    exact absurd hr (hnone (by simp [Pc.RunsNow]) a st)
  | leaveChosen hpc =>
    rw [hpc] at hnone hlease
    obtain ⟨h1, h2⟩ := hlease _ rfl
    exact done (by simp [h1, h2, Pc.held]) (hnone (by simp [Pc.RunsNow])) hi.isSealed
  | decideSkip hpc hcan =>
    rw [hpc] at hnone hlease
    exact ⟨fun a st hr => absurd hr (hnone (by simp [Pc.RunsNow]) a st), trivial, hlease,
      ⟨hi.isSealed.fenced, hi.isSealed.leases⟩⟩
  | decideWork hpc =>
    rw [hpc] at hlease hnone
    refine hi.goto ?_ trivial hlease
    intro a st hr
    exact absurd hr (hnone (by simp [Pc.RunsNow]) a st)
  | skip hpc => exact hi.skip hpc hok
  | @unavailable job reason hpc =>
    rw [hpc] at hnone hlease
    obtain ⟨h1, h2⟩ := hlease _ rfl
    have hkept : ∀ row : StageRow, row.state ≠ .queued → row.unavailable reason = row := by
      intro row h
      simp [StageRow.unavailable, h]
    have he : Effect.Fenced ⟨job, false, s.db,
        s.db.updateRow job.asset job.stage fun row => row.unavailable reason⟩ :=
      fenced_updateRow hkept (hok job hpc)
    have hw := hi.isSealed.write he
    refine done (by simp [h1, h2, Pc.held]) ?_ hw
    intro a st hr
    exact hnone (by simp [Pc.RunsNow]) a st
      (running_of_loosened (unavailable_loosened _ _ _ _) hr)
  | leaveWorking hpc =>
    rw [hpc] at hnone hlease
    obtain ⟨h1, h2⟩ := hlease _ rfl
    exact done (by simp [h1, h2, Pc.held]) (hnone (by simp [Pc.RunsNow])) hi.isSealed
  | reserve hpc =>
    rw [hpc] at hlease hnone
    obtain ⟨h1, h2⟩ := hlease _ rfl
    refine hi.goto ?_ trivial ?_
    · intro a st hr
      exact absurd hr (hnone (by simp [Pc.RunsNow]) a st)
    · intro job' hj
      cases hj
      exact ⟨by simp [h1, Pc.held], h2⟩
  | mark hpc => exact hi.mark hpc hok
  | save write hpc => exact hi.save hpc _ write
  | ownWrite f hpc hop =>
    apply hi.ownWrite hpc
    rcases hop with ⟨n, rfl, rfl⟩ | ⟨rows, rfl, rfl⟩
    · exact hok _ hpc
    · exact hok _ hpc
  | produce hpc hp =>
    rw [hpc] at hrev hlease
    exact hi.goto (fun a st _ hr => by rwa [hpc] at hr) hrev hlease
  | childCancelled hpc =>
    rw [hpc] at hrev hlease
    exact hi.goto (fun a st _ hr => by rwa [hpc] at hr) hrev hlease
  | settle hpc =>
    rw [hpc] at hrev hlease
    exact hi.toLeaving (fun a st hr => by rwa [hpc] at hr) hrev (hlease _ rfl)
      (fun row h => by simp [StageRow.settled, h]) (fun row => settled_ne_running row _ _ _)
      (settled_loosened _ _ _ _ _ _)
  | identityChanged hpc =>
    rw [hpc] at hrev hlease
    exact hi.toLeaving (fun a st hr => by rwa [hpc] at hr) hrev (hlease _ rfl)
      (fun row h => by simp [StageRow.identityChanged, h]) identityChanged_ne_running
      (identityChanged_loosened _ _ _)
  | tripped hpc =>
    rw [hpc] at hrev hlease
    exact hi.goto (fun a st _ hr => by rwa [hpc] at hr) hrev hlease
  | commit hpc => exact hi.commit hpc
  | lookAgain hpc =>
    rw [hpc] at hrev hlease
    split
    · exact hi.goto (fun a st _ hr => by rwa [hpc] at hr) hrev hlease
    · rename_i hnot
      refine hi.goto ?_ trivial hlease
      intro a st hr hruns
      rw [hpc] at hruns
      exact absurd (hruns.1 ▸ hruns.2 ▸ hr) hnot
  | requeue hpc =>
    rw [hpc] at hrev hlease
    exact hi.toLeaving (fun a st hr => by rwa [hpc] at hr) hrev (hlease _ rfl)
      (fun row h => by simp [StageRow.settled, h]) (fun row => settled_ne_running row _ _ _)
      (settled_loosened _ _ _ _ _ _)
  | release hpc =>
    rw [hpc] at hnone hlease
    obtain ⟨h1, h2⟩ := hlease _ rfl
    exact done (by simp [h1, h2, Pc.held]) (hnone (by simp [Pc.RunsNow])) hi.isSealed
  | releaseFailing hpc =>
    rw [hpc] at hlease
    obtain ⟨h1, h2⟩ := hlease _ rfl
    exact ⟨fun _ _ _ => trivial, trivial, fun _ hj => (by cases hj),
      ((hi.isSealed.finish (by simp [h1, h2, Pc.held])).goto _).tick _⟩
  | raisedHeld hpc hh =>
    rw [hh] at hlease
    refine hi.goto (fun _ _ _ _ => trivial) trivial ?_
    intro job' hj
    cases hj
    exact hlease _ hpc
  | raised hpc hh =>
    rw [hh] at hlease
    obtain ⟨h1, h2⟩ := hlease _ hpc
    exact ⟨fun _ _ _ => trivial, trivial, fun _ hj => (by cases hj),
      ((hi.isSealed.finish (by simp [h1, h2])).goto _).tick _⟩

theorem start (h : (mediaMachine ρ).start s) : FencedInv s := by
  obtain ⟨-, hpc, -, -, heff, -, hleases⟩ := h
  refine ⟨fun a st _ => ?_, ?_, ?_, ?_, ?_⟩
  · rw [hpc]
    trivial
  · rw [hpc]
    trivial
  · rw [hpc]
    exact fun _ hj => (nomatch hj)
  · rw [heff]
    exact fun _ he => (nomatch he)
  · rw [hleases]
    exact fun _ hl => (nomatch hl)

theorem of_reach (h : (mediaMachine ρ).Reach StillOurs s) : FencedInv s := by
  apply h.invariant
  · exact fun _ h0 => start h0
  · intro s op s' hi hok hs
    obtain ⟨t, ht, rfl⟩ := step_cases hs
    rcases ht with ht | ht
    · exact hi.runner ht hok
    · exact hi.other ht

end FencedInv
/-- In a run in which the stage at work is still the one that was chosen where the code does not
look, no transaction outlives a cancellation, and every lease is released once. -/
theorem stage_results_fenced {s : MediaSys ρ} (h : (mediaMachine ρ).Reach StillOurs s) : s.Sealed :=
  (FencedInv.of_reach h).isSealed

/-- A check for `StillOurs`. -/
def oursCheck (s : MediaSys ℕ) : MediaOp ℕ → Bool
  | .mark _ => s.pc.job?.all fun job => !job.revoked
  | .unavailable _ => s.pc.job?.all fun job => !job.revoked
  | .skip _ _ => s.pc.job?.all fun job =>
    !job.revoked && s.db.state job.asset job.stage = some .queued
  | .keyframesDelete _ => s.pc.job?.all fun job => s.db.state job.asset job.stage = some .running
  | .keyframesInsert _ => s.pc.job?.all fun job => s.db.state job.asset job.stage = some .running
  | _ => true

theorem stillOurs_of_check (s : MediaSys ℕ) (op : MediaOp ℕ) (h : oursCheck s op = true) :
    StillOurs s op := by
  cases op with
  | mark now =>
    intro job hpc hr
    simp [oursCheck, hpc, Pc.job?, hr] at h
  | unavailable reason =>
    intro job hpc hr
    simp [oursCheck, hpc, Pc.job?, hr] at h
  | skip reason now =>
    intro job hpc
    simp only [oursCheck, hpc, Pc.job?, Option.all_some, Bool.and_eq_true, Bool.not_eq_true',
      decide_eq_true_eq] at h
    exact ⟨fun hr => by simp [h.1] at hr, .inl h.2⟩
  | keyframesDelete n =>
    intro job hpc
    exact .inl (by simpa [oursCheck, hpc, Pc.job?] using h)
  | keyframesInsert rows =>
    intro job hpc
    exact .inl (by simpa [oursCheck, hpc, Pc.job?] using h)
  | _ => trivial

def keyframesOps : List (MediaOp ℕ) :=
  [.recover, .hashed oneAsset (py "f") 0] ++ stageOps (.metadata [1]) ++ stageOps (.scenes [2]) ++
    [.fetch oneAsset .keyframes, .checkDepends, .decide false, .reserve, .mark 0]

def keyframeCount (db : MediaDb ℕ) : Option ℕ :=
  (db.assets.get? oneAsset).map fun r => r.keyframes.length

/-- A keyframe is written, then the stage is cancelled and the run leaves. -/
theorem stage_results_fenced_sample : ∃ s : MediaSys ℕ, s.Sealed ∧ keyframeCount s.db = some 1 ∧
    s.leases.length = 3 ∧ s.db.state oneAsset .keyframes = some .cancelled := by
  have hrun : ((mediaMachine ℕ).execChecked oursCheck (mediaStart ℕ) (keyframesOps ++
      [.keyframesInsert [(0, 7)], .control oneAsset .keyframes .cancel 0, .childCancelled,
        .lookAgain, .release])).any (fun s => keyframeCount s.db = some 1 &&
      s.leases.length = 3 && s.db.state oneAsset .keyframes = some .cancelled) = true := by
    decide +kernel
  obtain ⟨s, hs, h⟩ := (Option.any_eq_true _ _).mp hrun
  have hreach : (mediaMachine ℕ).Reach StillOurs s :=
    Machine.Reach.execChecked stillOurs_of_check (.start ⟨rfl, rfl, rfl, rfl, rfl, rfl, rfl⟩) hs
  simp only [Bool.and_eq_true, decide_eq_true_eq] at h
  exact ⟨s, stage_results_fenced hreach, h.1.1, h.1.2, h.2⟩

/-- Keyframes are written after `cancel_job` has returned. -/
theorem cancelled_keyframes_written : ∃ s : MediaSys ℕ, (mediaMachine ℕ).Reachable s ∧
    ¬ s.Sealed := by
  have hrun : ((mediaMachine ℕ).exec (mediaStart ℕ) (keyframesOps ++
      [.control oneAsset .keyframes .cancel 0, .keyframesInsert [(0, 7)]])).any
      (fun s => s.effects.any fun e => e.job.revoked &&
        keyframeCount e.before ≠ keyframeCount e.after) = true := by
    decide +kernel
  obtain ⟨s, hs, h⟩ := (Option.any_eq_true _ _).mp hrun
  obtain ⟨e, he, h⟩ := List.any_eq_true.mp h
  simp only [Bool.and_eq_true, decide_eq_true_eq] at h
  refine ⟨s, Machine.reachable_exec ⟨rfl, rfl, rfl, rfl, rfl, rfl, rfl⟩ hs, fun hsealed => ?_⟩
  apply h.2
  rw [keyframeCount, keyframeCount, ((hsealed.fenced e he).revoked h.1).1]

end QronosAgent.Media

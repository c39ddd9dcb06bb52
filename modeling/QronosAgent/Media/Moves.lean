import QronosAgent.Media.Runner

/-! What one step of the media index can be, each with its guard. -/
namespace QronosAgent.Media
open Lib

variable {ρ : Type}

inductive RunnerMove (s : MediaSys ρ) : MediaOp ρ → MediaSys ρ → Prop
  | fetch {a st} (hpc : s.pc = .idle) (hq : s.db.state a st = some .queued) :
      RunnerMove s (.fetch a st) (s.goto (.fetched ⟨a, st, (s.db.row a st).bind StageRow.checkpoint,
        false, (s.times (a, st)).saved, 0, 0⟩))
  | depends {job} (hpc : s.pc = .fetched job)
      (hd : ∀ d ∈ job.stage.spec.depends, s.db.state job.asset d = some .completed) :
      RunnerMove s .checkDepends (s.goto (.chosen job))
  | dependsNot {job} (hpc : s.pc = .fetched job) : RunnerMove s .checkDepends (s.goto .idle)
  | leaveChosen {job} (hpc : s.pc = .chosen job) : RunnerMove s .leave (s.finish job)
  | decideSkip {job} (hpc : s.pc = .chosen job) (hs : MediaSys.canSkip job.stage = true) :
      RunnerMove s (.decide true) ((s.setTimes job.asset job.stage fun t =>
        { t with
          started := s.clock
          input := (s.db.row job.asset job.stage).bind StageRow.inputFp }).goto (.skipping job))
  | decideWork {job} (hpc : s.pc = .chosen job) :
      RunnerMove s (.decide false) (s.goto (.working job))
  | skip {job reason now} (hpc : s.pc = .skipping job) :
      RunnerMove s (.skip reason now) (s.skip job reason now)
  | unavailable {job reason} (hpc : s.pc = .working job) :
      RunnerMove s (.unavailable reason) ((s.write job false (s.db.updateRow job.asset job.stage
        fun row => row.unavailable reason)).finish job)
  | leaveWorking {job} (hpc : s.pc = .working job) : RunnerMove s .leave (s.finish job)
  | reserve {job} (hpc : s.pc = .working job) :
      RunnerMove s .reserve (s.goto (.leased { job with reserved := job.reserved + 1 }))
  | mark {job now} (hpc : s.pc = .leased job) : RunnerMove s (.mark now) (s.mark job now)
  | save {job checkpoint op} (write : Option (Results ρ → Results ρ)) (hpc : s.pc = .running job) :
      RunnerMove s op (s.save job checkpoint write)
  | ownWrite {job op} (f : Results ρ → Results ρ) (hpc : s.pc = .running job)
      (hop : (∃ n, op = .keyframesDelete n ∧ f = fun r => r.deleteKeyframes n) ∨
        ∃ rows, op = .keyframesInsert rows ∧ f = fun r => r.insertKeyframes rows) :
      RunnerMove s op (s.ownWrite job f)
  | produce {job p} (hpc : s.pc = .running job) (hp : p.stage = job.stage) :
      RunnerMove s (.produce p) (s.goto (.produced job p))
  | childCancelled {job} (hpc : s.pc = .running job) :
      RunnerMove s .childCancelled (s.goto (.interrupting job))
  | settle {job error note now} (hpc : s.pc = .running job) :
      RunnerMove s (.settle error note now)
        (s.rowTo job (fun row => row.settled error note now) (.leaving job))
  | identityChanged {job p} (hpc : s.pc = .produced job p) :
      RunnerMove s .identityChanged (s.rowTo job StageRow.identityChanged (.leaving job))
  | tripped {job p} (hpc : s.pc = .produced job p) :
      RunnerMove s .tripped (s.goto (.interrupting job))
  | commit {job p now} (hpc : s.pc = .produced job p) :
      RunnerMove s (.commit now) (s.commit job p now)
  | lookAgain {job} (hpc : s.pc = .interrupting job) :
      RunnerMove s .lookAgain (s.goto (if s.db.state job.asset job.stage = some .running then
        .requeueing job else .leaving job))
  | requeue {job note now} (hpc : s.pc = .requeueing job) :
      RunnerMove s (.requeue note now)
        (s.rowTo job (fun row => row.settled none (some note) now) (.leaving job))
  | release {job} (hpc : s.pc = .leaving job) :
      RunnerMove s .release (s.finish { job with released := job.released + 1 })
  | releaseFailing {job} (hpc : s.pc = .failing job) :
      RunnerMove s .release ((s.finish { job with released := job.released + 1 }).goto .stopped)
  | raisedHeld {job} (hpc : s.pc.job? = some job) (hh : s.pc.held = true) :
      RunnerMove s .raised (s.goto (.failing job))
  | raised {job} (hpc : s.pc.job? = some job) (hh : s.pc.held = false) :
      RunnerMove s .raised ((s.finish job).goto .stopped)

theorem runnerMove {s s' : MediaSys ρ} {op : MediaOp ρ} (h : s.runnerStep s.pc op = some s') :
    RunnerMove s op s' := by
  generalize hpc : s.pc = pc at h
  unfold MediaSys.runnerStep at h
  split at h
  · split at h
    · cases h
      exact .fetch hpc ‹_›
    · contradiction
  · cases h
    split
    · rename_i hd
      exact .depends hpc (by simpa using hd)
    · exact .dependsNot hpc
  · cases h
    exact .leaveChosen hpc
  · split at h
    · rename_i hskip
      subst hskip
      split at h
      · cases h
        exact .decideSkip hpc ‹_›
      · contradiction
    · rename_i hskip
      rw [Bool.not_eq_true] at hskip
      subst hskip
      cases h
      exact .decideWork hpc
  · cases h
    exact .skip hpc
  · cases h
    exact .unavailable hpc
  · cases h
    exact .leaveWorking hpc
  · cases h
    exact .reserve hpc
  · cases h
    exact .mark hpc
  · cases h
    exact .save _ hpc
  · split at h
    · cases h
      exact .save _ hpc
    · contradiction
  · split at h
    · cases h
      exact .save _ hpc
    · contradiction
  · split at h
    · cases h
      exact .ownWrite _ hpc (.inl ⟨_, rfl, rfl⟩)
    · contradiction
  · split at h
    · cases h
      exact .ownWrite _ hpc (.inr ⟨_, rfl, rfl⟩)
    · contradiction
  · split at h
    · cases h
      exact .produce hpc ‹_›
    · contradiction
  · cases h
    exact .childCancelled hpc
  · cases h
    exact .settle hpc
  · cases h
    exact .identityChanged hpc
  · cases h
    exact .tripped hpc
  · cases h
    exact .commit hpc
  · cases h
    exact .lookAgain hpc
  · cases h
    exact .requeue hpc
  · cases h
    exact .release hpc
  · cases h
    exact .releaseFailing hpc
  · split at h
    · contradiction
    · rename_i job hjob
      cases h
      split
      · rename_i hh
        exact .raisedHeld (hpc ▸ hjob) (hpc ▸ hh)
      · rename_i hh
        exact .raised (hpc ▸ hjob) (by simpa [hpc] using hh)
  · contradiction

inductive OtherMove (s : MediaSys ρ) : MediaOp ρ → MediaSys ρ → Prop
  | scanned {asset fp now} : OtherMove s (.scanned asset fp now) (s.changed (s.db.ensure asset fp now))
  | reindex {asset stage fp now} :
      OtherMove s (.reindex asset stage fp now) (s.changed (s.db.reindex asset stage fp now))
  | control {asset stage c now} :
      OtherMove s (.control asset stage c now) (s.controlled asset stage c now)
  | removeRoot {assets} : OtherMove s (.removeRoot assets) (s.changed (s.db.remove assets))
  | crash : OtherMove s .crash (s.goto .stopped)
  | recover (hpc : s.pc = .stopped) : OtherMove s .recover ((s.changed s.db.recover).goto .idle)
  | hashed {asset fp now} (assets : Dict AssetId (Results ρ)) (hpc : s.pc = .idle) :
      OtherMove s (.hashed asset fp now)
        (s.changed (({ s.db with assets := assets } : MediaDb ρ).ensure asset fp now))
  | backfill {now} (hpc : s.pc = .idle) : OtherMove s (.backfill now) (s.changed (s.db.backfill now))

theorem step_cases {s s' : MediaSys ρ} {op : MediaOp ρ} (h : s.step op = some s') :
    ∃ t, (RunnerMove s op t ∨ OtherMove s op t) ∧ s' = { t with clock := s.clock + 1 } := by
  obtain ⟨t, ht, rfl⟩ := Option.map_eq_some_iff.mp h
  refine ⟨t, ?_, rfl⟩
  unfold MediaSys.otherStep at ht
  split at ht
  · split at ht
    · cases ht
      exact .inr .scanned
    · contradiction
  · split at ht
    · cases ht
      exact .inr .reindex
    · contradiction
  · cases ht
    exact .inr .control
  · cases ht
    exact .inr .removeRoot
  · cases ht
    exact .inr .crash
  · split at ht
    · cases ht
      exact .inr (.recover ‹_›)
    · contradiction
  · split at ht
    · cases ht
      exact .inr (.hashed _ ‹_›)
    · contradiction
  · split at ht
    · cases ht
      exact .inr (.backfill ‹_›)
    · contradiction
  · exact .inl (runnerMove ht)

def oneAsset : AssetId := py "a"

def mediaStart (ρ : Type) : MediaSys ρ :=
  ⟨⟨Dict.empty, Dict.empty⟩, .stopped, 1, fun _ => ⟨0, 0, 0, none⟩, [], [], []⟩

/-- A stage from its mark to its last transaction. -/
def workOps (p : Produced ℕ) : List (MediaOp ℕ) :=
  [.decide false, .reserve, .mark 0, .save (py "c"), .produce p, .commit 0, .release]

def stageOps (p : Produced ℕ) : List (MediaOp ℕ) :=
  [.fetch oneAsset p.stage, .checkDepends] ++ workOps p

end QronosAgent.Media

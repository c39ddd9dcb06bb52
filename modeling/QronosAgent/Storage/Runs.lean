import QronosAgent.Storage.Registry

/-! Runs of the registry and the janitor over a file system that anyone may change: no file of
the user is deleted. -/
namespace QronosAgent.Storage
open Lib

variable {P : Type}

structure Planned (P : Type) where
  plan : CleanupPlan P
  usage : ComponentUsage P

structure StorageSys (lib : PathLib P) where
  disk : Disk lib
  plans : List (Planned P)

inductive StorageOp (lib : PathLib P) where
  | change (fs : FileSystem lib)
  | register (a : ArtifactOwnershipRegistry.Registration P) (saves : Bool)
  | transferToUser (id : PyStr) (finalPath : P) (at_ : Seconds) (sizeBytes : Option ℤ)
      (saves : Bool)
  | forget (id : PyStr) (saves : Bool)
  | pruneMissing (saves : Bool)
  | restart
  | plan (budget : ComponentBudget P) (usage : ComponentUsage P) (now : Seconds)
      (includeOrphans : Option Bool)
  | execute (plan candidate : ℕ) (dryRun : Bool) (turn : Turn lib)

namespace StorageSys
variable [DecidableEq P] {lib : PathLib P}

def withRegistry (s : StorageSys lib) (registry : ArtifactOwnershipRegistry P) : StorageSys lib :=
  { s with disk := { s.disk with registry := registry } }

def planned (s : StorageSys lib) (usage : ComponentUsage P) :
    Except PathError (CleanupPlan P) → StorageSys lib
  | .error _ => s
  | .ok plan => { s with plans := s.plans ++ [⟨plan, usage⟩] }

def step (s : StorageSys lib) : StorageOp lib → Option (StorageSys lib)
  | .change fs => some { s with disk := { s.disk with fs := fs } }
  | .register a saves =>
    some (s.withRegistry (s.disk.registry.register s.disk.fs a saves).2)
  | .transferToUser id finalPath at_ sizeBytes saves =>
    some (s.withRegistry
      (s.disk.registry.transferToUser s.disk.fs id finalPath at_ sizeBytes saves).2)
  | .forget id saves => some (s.withRegistry (s.disk.registry.forget id saves).2)
  | .pruneMissing saves =>
    some (s.withRegistry (s.disk.registry.pruneMissingQronosRecords s.disk.fs saves).2)
  | .restart => some (s.withRegistry (.load s.disk.registry.store))
  | .plan budget usage now includeOrphans =>
    some (s.planned usage
      (plan s.disk.fs s.disk.registry budget usage now includeOrphans))
  | .execute n i dryRun turn =>
    s.plans[n]?.bind fun p => p.plan.candidates[i]?.map fun candidate =>
      { s with disk := (executeOne p.plan.root dryRun s.disk candidate turn).2 }

end StorageSys

def storageMachine [DecidableEq P] (lib : PathLib P) :
    Machine (StorageSys lib) (StorageOp lib) where
  start s := s.disk.registry = .empty ∧ s.disk.deletions = [] ∧ s.plans = []
  step := StorageSys.step

/-- A deletion that took nothing but a file that was measured for its plan and still is as
measured. -/
structure Deletion.Safe {lib : PathLib P} (plans : List (Planned P)) (d : Deletion lib) :
    Prop where
  notUser : ∀ record ∈ d.registry.records.values, record.owner = .user →
    record.path ≠ d.candidate.path ∧
    ∀ q, d.fs.resolve record.path = .ok q → d.fs.resolve d.candidate.path ≠ .ok q
  noLink : d.fs.reparse d.candidate.path = false
  within : ∃ root path, d.fs.normalise d.root = .ok root ∧
    d.fs.resolve d.candidate.path = .ok path ∧ lib.isRelativeTo path root = true
  measured : ∃ size m, d.fs.stat d.candidate.path = .ok (some (.file size m)) ∧
    ∃ p ∈ plans, p.plan.root = d.root ∧ d.candidate ∈ p.plan.candidates ∧
      ∃ entry ∈ p.usage.entries, entry.path = d.candidate.path ∧ entry.sizeBytes = size ∧
        entry.modifiedAt = m

variable [DecidableEq P] {lib : PathLib P}

/-- What the registry and the janitor promise of a state, whatever follows it under `ok`. -/
structure UserKept (ok : StorageSys lib → StorageOp lib → Prop) (s : StorageSys lib) : Prop where
  deletions : ∀ d ∈ s.disk.deletions, d.Safe s.plans
  unique : ∀ id id' record record', s.disk.registry.records.get? id = some record →
    s.disk.registry.records.get? id' = some record' → record.path = record'.path → id = id'
  kept : ∀ ops s', (storageMachine lib).allOk ok s ops →
    (storageMachine lib).exec s ops = some s' → s.disk.registry.Keeps s'.disk.registry

/-- When a deletion is turned to: the name means what it says, the paths of the user's records
lead where they led, and a file that still has its measured size has its measured time. -/
structure Unchanged (registry : ArtifactOwnershipRegistry P) (fs : FileSystem lib)
    (usage : ComponentUsage P) (candidate : CleanupCandidate P) : Prop where
  literal : lib.expanduser candidate.path = .ok candidate.path
  paths : ∀ record ∈ registry.records.values, record.owner = .user →
    ∀ q, fs.resolve record.path = .ok q → q = record.path
  time : ∀ size m, fs.stat candidate.path = .ok (some (.file size m)) →
    (∃ entry ∈ usage.entries, entry.path = candidate.path ∧ entry.sizeBytes = size) →
    ∃ entry ∈ usage.entries, entry.path = candidate.path ∧ entry.sizeBytes = size ∧
      entry.modifiedAt = m

/-- The condition on a step: a restart finds the user's records saved, and what is deleted is
unchanged but for what the janitor compares. -/
def Settled (s : StorageSys lib) : StorageOp lib → Prop
  | .restart => ∀ record ∈ s.disk.registry.records.values, record.owner = .user →
    record ∈ s.disk.registry.store
  | .execute n i dryRun turn => dryRun = false → ∀ p candidate, s.plans[n]? = some p →
    p.plan.candidates[i]? = some candidate →
    Unchanged s.disk.registry turn.fs p.usage candidate
  | _ => True

theorem executeOne_cases (root : P) (dryRun : Bool) (d : Disk lib) (candidate : CleanupCandidate P)
    (turn : Turn lib) :
    (executeOne root dryRun d candidate turn).2 = { d with fs := turn.fs } ∨
    ∃ size, checkCandidate turn.fs d.registry root candidate = .ok (.inr size) ∧
      dryRun = false ∧
      (executeOne root dryRun d candidate turn).2 =
        ⟨turn.fs.unlink candidate.path,
          (forgetIfRegistered (turn.fs.unlink candidate.path) d.registry candidate.path
            turn.saves).2,
          ⟨root, candidate, turn.fs, d.registry⟩ :: d.deletions⟩ := by
  rw [executeOne]
  split
  · exact .inl rfl
  · exact .inl rfl
  · rename_i size hcheck
    cases dryRun with
    | true => exact .inl rfl
    | false =>
      cases hu : turn.unlinks with
      | false => exact .inl rfl
      | true => exact .inr ⟨size, hcheck, rfl, rfl⟩

/-- A candidate that passes is not the user's, when the user's paths lead where they led. -/
theorem notUser_of_screened {fs : FileSystem lib} {registry : ArtifactOwnershipRegistry P}
    {path root : P} (hs : Screened fs registry path root) (hv : Valid registry.records)
    (hliteral : lib.expanduser path = .ok path)
    (hpaths : ∀ record ∈ registry.records.values, record.owner = .user →
      ∀ q, fs.resolve record.path = .ok q → q = record.path) :
    ∀ record ∈ registry.records.values, record.owner = .user → record.path ≠ path ∧
      ∀ q, fs.resolve record.path = .ok q → fs.resolve path ≠ .ok q := by
  obtain ⟨target, hn, hno⟩ := hs.owner
  have hresolve : fs.resolve path = .ok target := by
    rwa [FileSystem.normalise, hliteral] at hn
  intro record hrecord hu
  obtain ⟨id, hid⟩ := Dict.mem_values.mp hrecord
  -- a record of the user with the resolved path is the one that the screen finds
  have hne : record.path ≠ target := by
    intro hp
    cases hfind : registry.find target with
    | none => exact ArtifactOwnershipRegistry.find_eq_none hfind hid hp
    | some found =>
      obtain rfl := ArtifactOwnershipRegistry.find_eq hv hfind hid hp
      exact hno found hfind hu
  constructor
  · intro hp
    apply hne
    rw [← hp] at hresolve
    exact (hpaths record hrecord hu target hresolve).symm
  · intro q hq hq'
    apply hne
    cases hresolve.symm.trans hq'
    exact (hpaths record hrecord hu target hq).symm

structure StorageInv (s : StorageSys lib) : Prop where
  sound : s.disk.registry.Sound
  plans : ∀ p ∈ s.plans, ∀ c ∈ p.plan.candidates, Measured p.usage c
  deletions : ∀ d ∈ s.disk.deletions, d.Safe s.plans

namespace StorageInv
variable {s : StorageSys lib}

theorem start (h : (storageMachine lib).start s) : StorageInv s where
  sound := by
    rw [h.1]
    exact ⟨Valid.empty, Dict.empty, Valid.empty, rfl⟩
  plans p hp := by
    rw [h.2.2] at hp
    contradiction
  deletions d hd := by
    rw [h.2.1] at hd
    contradiction

omit [DecidableEq P] in
theorem withRegistry (hi : StorageInv s) {registry : ArtifactOwnershipRegistry P}
    (h : registry.Sound) : StorageInv (s.withRegistry registry) :=
  ⟨h, hi.plans, hi.deletions⟩

theorem planned (hi : StorageInv s) {fs : FileSystem lib} {registry : ArtifactOwnershipRegistry P}
    {budget : ComponentBudget P} {usage : ComponentUsage P} {now : Seconds}
    {orphans : Option Bool} :
    StorageInv (s.planned usage (plan fs registry budget usage now orphans)) := by
  cases hp : plan fs registry budget usage now orphans with
  | error e => exact hi
  | ok p =>
    constructor
    · exact hi.sound
    · intro q hq
      rcases List.mem_append.mp hq with hq | hq
      · exact hi.plans q hq
      · rw [List.mem_singleton.mp hq]
        exact plan_measured hp
    · intro d hd
      have hsafe := hi.deletions d hd
      obtain ⟨size, m, hstat, q, hq, hrest⟩ := hsafe.measured
      exact { hsafe with measured := ⟨size, m, hstat, q, List.mem_append_left _ hq, hrest⟩ }

/-- One candidate of a plan, deleted while nothing has changed behind the janitor's checks. -/
theorem executeOne (hi : StorageInv s) {p : Planned P} (hp : p ∈ s.plans)
    {candidate : CleanupCandidate P} (hc : candidate ∈ p.plan.candidates) (dryRun : Bool)
    (turn : Turn lib)
    (hok : dryRun = false → Unchanged s.disk.registry turn.fs p.usage candidate) :
    StorageInv { s with disk := (executeOne p.plan.root dryRun s.disk candidate turn).2 } ∧
      s.disk.registry.Keeps (Storage.executeOne p.plan.root dryRun s.disk candidate turn).2.registry := by
  rcases executeOne_cases p.plan.root dryRun s.disk candidate turn with h | ⟨size, hcheck, hdry, h⟩
  · rw [h]
    exact ⟨⟨hi.sound, hi.plans, hi.deletions⟩, ArtifactOwnershipRegistry.Keeps.refl _⟩
  · obtain ⟨hscreen, m, hstat⟩ := checkCandidate_passed hcheck
    have hsame := hok hdry
    have hforget := @ArtifactOwnershipRegistry.forgetIfRegistered_sound _ _ _
      (turn.fs.unlink candidate.path) _ hi.sound candidate.path turn.saves
    rw [h]
    refine ⟨⟨hforget.1, hi.plans, ?_⟩, hforget.2⟩
    intro d hd
    rcases List.mem_cons.mp hd with rfl | hd
    · constructor
      · exact notUser_of_screened hscreen hi.sound.records hsame.literal hsame.paths
      · exact hscreen.reparse
      · obtain ⟨root, path, hroot, hpath, hrel⟩ := hscreen.within
        rw [FileSystem.normalise, hsame.literal] at hpath
        exact ⟨root, path, hroot, hpath, hrel⟩
      · exact ⟨candidate.sizeBytes, m, hstat, p, hp, rfl, hc,
          hsame.time _ m hstat (hi.plans p hp candidate hc)⟩
    · exact hi.deletions d hd

theorem step (hi : StorageInv s) {op : StorageOp lib} (hok : Settled s op) {s' : StorageSys lib}
    (h : s.step op = some s') : StorageInv s' ∧ s.disk.registry.Keeps s'.disk.registry := by
  cases op with
  | change fs =>
    cases h
    exact ⟨⟨hi.sound, hi.plans, hi.deletions⟩, ArtifactOwnershipRegistry.Keeps.refl _⟩
  | register a saves =>
    cases h
    have hr := @ArtifactOwnershipRegistry.register_sound _ _ _ s.disk.fs _ hi.sound a saves
    exact ⟨hi.withRegistry hr.1, hr.2⟩
  | transferToUser id finalPath at_ sizeBytes saves =>
    cases h
    have hr := @ArtifactOwnershipRegistry.transferToUser_sound _ _ _ s.disk.fs _ hi.sound
      id finalPath at_ sizeBytes saves
    exact ⟨hi.withRegistry hr.1, hr.2⟩
  | forget id saves =>
    cases h
    have hr := ArtifactOwnershipRegistry.forget_sound hi.sound id saves
    exact ⟨hi.withRegistry hr.1, hr.2⟩
  | pruneMissing saves =>
    cases h
    have hr := @ArtifactOwnershipRegistry.prune_sound _ _ s.disk.fs _ hi.sound saves
    exact ⟨hi.withRegistry hr.1, hr.2⟩
  | restart =>
    cases h
    have hr := ArtifactOwnershipRegistry.load_sound hi.sound hok
    exact ⟨hi.withRegistry hr.1, hr.2⟩
  | plan budget usage now orphans =>
    cases h
    refine ⟨hi.planned, ?_⟩
    cases hp : Storage.plan s.disk.fs s.disk.registry budget usage now orphans <;>
      exact ArtifactOwnershipRegistry.Keeps.refl _
  | execute n i dryRun turn =>
    obtain ⟨p, hp, h⟩ := Option.bind_eq_some_iff.mp h
    obtain ⟨candidate, hc, rfl⟩ := Option.map_eq_some_iff.mp h
    exact hi.executeOne (List.mem_of_getElem? hp) (List.mem_of_getElem? hc) dryRun turn
      fun hdry => hok hdry p candidate hp hc

theorem of_reach (h : (storageMachine lib).Reach Settled s) : StorageInv s :=
  h.invariant (fun _ h0 => start h0) fun _ _ _ hi hok hs => (hi.step hok hs).1

theorem keeps (hi : StorageInv s) {ops : List (StorageOp lib)} {s' : StorageSys lib}
    (hok : (storageMachine lib).allOk Settled s ops)
    (h : (storageMachine lib).exec s ops = some s') :
    s.disk.registry.Keeps s'.disk.registry := by
  induction ops generalizing s with
  | nil =>
    cases h
    exact ArtifactOwnershipRegistry.Keeps.refl _
  | cons op ops ih =>
    obtain ⟨t, ht, h⟩ := Option.bind_eq_some_iff.mp h
    obtain ⟨hit, hkeeps⟩ := hi.step hok.1 ht
    exact hkeeps.trans (ih hit (hok.2 t ht) h)

end StorageInv

/-- In a run of settled steps no file of the user is deleted, the user's records stay as they
are, and what is deleted is what was measured. -/
theorem user_files_kept {s : StorageSys lib} (h : (storageMachine lib).Reach Settled s) :
    UserKept Settled s where
  deletions := (StorageInv.of_reach h).deletions
  unique := (StorageInv.of_reach h).sound.records.unique
  kept _ _ hok he := (StorageInv.of_reach h).keeps hok he

/-! Runs over paths that are numbers, none of them a link. -/

def numbered : PathLib ℕ := ⟨fun _ => [], fun _ _ => true, .ok⟩

def numberedFiles (node : ℕ → Option Node) : FileSystem numbered where
  resolve := .ok
  reparse _ := false
  readable _ := true
  node := node
  resolve_resolve _ _ _ := rfl
  resolve_absolute _ _ _ := rfl

def sampleStart : StorageSys numbered := ⟨⟨numberedFiles fun _ => none, .empty, []⟩, []⟩

def sampleBudget : ComponentBudget ℕ where
  component := .logsAndTemp
  root := 0
  softCapBytes := 1
  hardCapBytes := 2
  maxAgeSeconds := none
  disposable := true
  soft_pos := by decide
  soft_lt_hard := by decide
  age_pos := by simp

/-- Two files are registered, the second becomes the user's, and a plan is made. It is executed
when every file was last changed at `m`. -/
def sampleOps (m : Seconds) : List (StorageOp numbered) :=
  [.change (numberedFiles fun _ => some (.file 5 0)),
    .register ⟨1, .logsAndTemp, 5, 0, py "a"⟩ true,
    .register ⟨2, .logsAndTemp, 5, 0, py "b"⟩ true,
    .transferToUser (py "b") 2 0 none true,
    .plan sampleBudget ⟨10, [⟨1, 5, 0⟩, ⟨2, 5, 0⟩]⟩ 7 none,
    .execute 0 0 false ⟨numberedFiles fun _ => some (.file 5 m), true, true⟩,
    .restart]

def timeCheck (usage : ComponentUsage ℕ) (path : ℕ) : Except PathError (Option Node) → Bool
  | .ok (some (.file size m)) => usage.entries.any fun entry =>
    entry.path = path && entry.sizeBytes = size && entry.modifiedAt = m
  | _ => true

/-- A check for `Settled`. -/
def settledCheck (s : StorageSys numbered) : StorageOp numbered → Bool
  | .restart => s.disk.registry.records.values.all fun record =>
    record.owner = .qronos || record ∈ s.disk.registry.store
  | .execute n i _ turn => s.plans[n]?.all fun p => p.plan.candidates[i]?.all fun candidate =>
    s.disk.registry.records.values.all (fun record =>
      (turn.fs.resolve record.path).toOption.all (· = record.path)) &&
    timeCheck p.usage candidate.path (turn.fs.stat candidate.path)
  | _ => true

theorem settled_of_check (s : StorageSys numbered) (op : StorageOp numbered)
    (h : settledCheck s op = true) : Settled s op := by
  cases op with
  | restart =>
    intro record hrecord hu
    have hr := List.all_eq_true.mp h record hrecord
    simpa [hu] using hr
  | execute n i dryRun turn =>
    intro _ p candidate hp hc
    simp only [settledCheck, hp, hc, Option.all_some, Bool.and_eq_true, List.all_eq_true] at h
    constructor
    · rfl
    · intro record hrecord _ q hq
      have hr := h.1 record hrecord
      simpa [hq, Except.toOption] using hr
    · intro size m hstat _
      have ht := h.2
      rw [hstat] at ht
      simpa [timeCheck, and_assoc] using ht
  | _ => trivial

/-- The user's file is there to the end, the other one is deleted. -/
theorem user_files_kept_sample : ∃ s : StorageSys numbered, UserKept Settled s ∧
    s.disk.deletions ≠ [] ∧
    ∃ record ∈ s.disk.registry.records.values, record.owner = .user := by
  have hrun : ((storageMachine numbered).execChecked settledCheck sampleStart (sampleOps 0)).any
      (fun s => !s.disk.deletions.isEmpty &&
        s.disk.registry.records.values.any fun record => record.owner = .user) = true := by
    decide +kernel
  obtain ⟨s, hs, h⟩ := (Option.any_eq_true _ _).mp hrun
  have hreach : (storageMachine numbered).Reach Settled s :=
    Machine.Reach.execChecked settled_of_check (.start ⟨rfl, rfl, rfl⟩) hs
  simp only [Bool.and_eq_true, List.any_eq_true, decide_eq_true_eq, Bool.not_eq_true',
    List.isEmpty_eq_false_iff] at h
  exact ⟨s, user_files_kept hreach, h.1, h.2⟩

/-- What was found is a file last changed at `t`. -/
def changedAt (t : Seconds) : Except PathError (Option Node) → Bool
  | .ok (some (.file _ m)) => m = t
  | _ => false

/-- A file that is rewritten at its old length after the plan was made is deleted. -/
theorem rewritten_file_deleted : ∃ s, (storageMachine numbered).Reachable s ∧
    ¬ UserKept (fun _ _ => True) s := by
  have hrun : ((storageMachine numbered).exec sampleStart (sampleOps 9)).any (fun s =>
      s.plans.all (fun p => p.usage.entries.all fun entry => entry.modifiedAt = 0) &&
      s.disk.deletions.any fun d => changedAt 9 (d.fs.stat d.candidate.path)) = true := by
    decide +kernel
  obtain ⟨s, hs, h⟩ := (Option.any_eq_true _ _).mp hrun
  simp only [Bool.and_eq_true, List.any_eq_true, List.all_eq_true, decide_eq_true_eq] at h
  obtain ⟨hentries, d, hd, hnine⟩ := h
  refine ⟨s, Machine.reachable_exec ⟨rfl, rfl, rfl⟩ hs, fun hkept => ?_⟩
  obtain ⟨size, m, hstat, p, hp, -, -, entry, hentry, -, -, hm⟩ := (hkept.deletions d hd).measured
  have hzero := hentries p hp entry hentry
  rw [hstat] at hnine
  have hm9 : m = 9 := by simpa [changedAt] using hnine
  rw [← hm, hzero] at hm9
  norm_num at hm9

end QronosAgent.Storage

import QronosAgent.Storage.Runs

/-! What a deletion pass tells of itself, and when it tells it. -/
namespace QronosAgent.Storage
open Lib ArtifactOwnershipRegistry

variable {P : Type}

structure CleanupOutcome (P : Type) where
  deleted : List P
  rejected : List (SkippedItem P)
  failed : List P
  reclaimedBytes : ℤ

/-- What one round of the loop appends. -/
def CleanupOutcome.add (o : CleanupOutcome P) (candidate : CleanupCandidate P) :
    Verdict → CleanupOutcome P
  | .deleted size =>
    { o with deleted := candidate.path :: o.deleted, reclaimedBytes := size + o.reclaimedBytes }
  | .rejected reason => { o with rejected := ⟨candidate.path, reason⟩ :: o.rejected }
  | .failed => { o with failed := candidate.path :: o.failed }

def outcome : List (CleanupCandidate P × Verdict) → CleanupOutcome P
  | [] => ⟨[], [], [], 0⟩
  | (candidate, verdict) :: rest => (outcome rest).add candidate verdict

theorem outcome_perm (verdicts : List (CleanupCandidate P × Verdict)) :
    ((outcome verdicts).deleted ++ ((outcome verdicts).rejected.map SkippedItem.path ++
      (outcome verdicts).failed)).Perm (verdicts.map fun v => v.1.path) := by
  induction verdicts with
  | nil => simp [outcome]
  | cons v verdicts ih =>
    obtain ⟨candidate, verdict⟩ := v
    have hcons := ih.cons candidate.path
    cases verdict with
    | deleted size => exact hcons
    | rejected reason => exact List.perm_middle.trans hcons
    | failed =>
      refine ((List.perm_middle.append_left _).trans ?_).trans hcons
      exact List.perm_middle

variable [DecidableEq P] {lib : PathLib P}

def passes (fs : FileSystem lib) (registry : ArtifactOwnershipRegistry P) (root : P)
    (candidate : CleanupCandidate P) : Bool :=
  match checkCandidate fs registry root candidate with
  | .ok (.inr _) => true
  | _ => false

structure Reported (root : P) (dryRun : Bool) (work : List (CleanupCandidate P × Turn lib))
    (d d' : Disk lib) (o : CleanupOutcome P) : Prop where
  once : (o.deleted ++ (o.rejected.map SkippedItem.path ++ o.failed)).Perm
    (work.map fun w => w.1.path)
  unlinked : dryRun = false → ∃ gone : List (Deletion lib), d'.deletions = gone ++ d.deletions ∧
    o.deleted = gone.reverse.map (·.candidate.path) ∧
    o.reclaimedBytes = (gone.reverse.map (·.candidate.sizeBytes)).sum ∧
    ∀ x ∈ gone, measured x.fs x.candidate.path = .ok x.candidate.sizeBytes
  previewed : dryRun = true → d'.deletions = d.deletions ∧ d'.registry = d.registry ∧
    o.deleted = (work.filter fun w => passes w.2.fs d.registry root w.1).map (·.1.path) ∧
    o.reclaimedBytes =
      ((work.filter fun w => passes w.2.fs d.registry root w.1).map (·.1.sizeBytes)).sum

/-- The screen meets no `RuntimeError`, and where the file is deleted and its path registered, the
record can be forgotten and the store saved. -/
def Clean (root : P) (dryRun : Bool) (d : Disk lib) (candidate : CleanupCandidate P)
    (turn : Turn lib) : Prop :=
  screen turn.fs d.registry candidate.path root true ≠ .error .runtime ∧
  (dryRun = false → turn.unlinks = true → passes turn.fs d.registry root candidate = true →
    ∀ record, d.registry.forPath turn.fs candidate.path = .ok (some record) →
      ∀ kept, d.registry.records.get? record.artifactId = some kept →
        kept.owner ≠ .user ∧ turn.saves = true)

def AllClean (root : P) (dryRun : Bool) : List (CleanupCandidate P × Turn lib) → Disk lib → Prop
  | [], _ => True
  | (candidate, turn) :: rest, d =>
    Clean root dryRun d candidate turn ∧
      AllClean root dryRun rest (executeOne root dryRun d candidate turn).2

variable {root : P} {dryRun : Bool} {d d' : Disk lib} {candidate : CleanupCandidate P}
  {turn : Turn lib} {fs : FileSystem lib} {registry : ArtifactOwnershipRegistry P}

theorem screen_error {path : P} {orphans : Bool} {e : PathError}
    (h : screen fs registry path root orphans = .error e) : e = .runtime := by
  unfold screen at h
  cases e with
  | runtime => rfl
  | os =>
    split at h
    · cases h
    · rename_i hne
      exact absurd h hne

theorem measured_of_check {size : ℤ}
    (h : checkCandidate fs registry root candidate = .ok (.inr size)) :
    size = candidate.sizeBytes ∧ measured fs candidate.path = .ok candidate.sizeBytes := by
  unfold checkCandidate at h
  split at h
  · cases h
  · cases h
  · split at h
    · cases h
    · rename_i n hmeasured
      split_ifs at h with hne
      · simp at h
      · obtain rfl := Sum.inr.inj (Except.ok.inj h)
        have hsame : n = candidate.sizeBytes := not_not.mp hne
        exact ⟨hsame, hsame ▸ hmeasured⟩

theorem forPath_of_passes (h : passes fs registry root candidate = true) :
    ∃ found, registry.forPath fs candidate.path = .ok found := by
  unfold passes at h
  split at h
  · rename_i size hcheck
    obtain ⟨hscreened, -⟩ := checkCandidate_passed hcheck
    obtain ⟨⟨target, htarget, -⟩, -⟩ := hscreened
    exact ⟨registry.find target, by rw [forPath, htarget]; rfl⟩
  · cases h

theorem forgetIfRegistered_ok (fs : FileSystem lib) (path : P) (saves : Bool)
    {found : Option (ArtifactRecord P)} (hfound : registry.forPath fs path = .ok found) :
    (forgetIfRegistered fs registry path saves).1 = .ok () ↔ ∀ record, found = some record →
      ∀ kept, registry.records.get? record.artifactId = some kept →
        kept.owner ≠ .user ∧ saves = true := by
  unfold forgetIfRegistered
  rw [hfound]
  cases found with
  | none => simp
  | some record =>
    simp only [forget, Option.some.injEq, forall_eq']
    cases hkept : registry.records.get? record.artifactId with
    | none => simp
    | some kept =>
      by_cases howner : kept.owner = .user <;> cases saves <;> simp [howner, saved]

/-- What one round does: nothing but to look, or a deletion that passed the checks. -/
inductive Round (root : P) (dryRun : Bool) (d : Disk lib) (candidate : CleanupCandidate P)
    (turn : Turn lib) : Disk lib → Verdict → Prop
  | rejected (reason : SkipReason) (hfails : passes turn.fs d.registry root candidate = false) :
      Round root dryRun d candidate turn { d with fs := turn.fs } (.rejected reason)
  | failed (hpasses : passes turn.fs d.registry root candidate = true) (hreal : dryRun = false) :
      Round root dryRun d candidate turn { d with fs := turn.fs } .failed
  | previewed (hpasses : passes turn.fs d.registry root candidate = true) (hdry : dryRun = true) :
      Round root dryRun d candidate turn { d with fs := turn.fs } (.deleted candidate.sizeBytes)
  | deleted (hreal : dryRun = false)
      (hsize : measured turn.fs candidate.path = .ok candidate.sizeBytes)
      (fs : FileSystem lib) (registry : ArtifactOwnershipRegistry P) :
      Round root dryRun d candidate turn
        ⟨fs, registry, ⟨root, candidate, turn.fs, d.registry⟩ :: d.deletions⟩
        (.deleted candidate.sizeBytes)

theorem executeOne_ok_iff :
    (∃ verdict, (executeOne root dryRun d candidate turn).1 = .ok verdict) ↔
      Clean root dryRun d candidate turn := by
  unfold executeOne Clean
  cases hcheck : checkCandidate turn.fs d.registry root candidate with
  | error e =>
    have hscreen : screen turn.fs d.registry candidate.path root true = .error e := by
      unfold checkCandidate at hcheck
      split at hcheck
      · rename_i e' h
        cases hcheck
        exact h
      · cases hcheck
      · split at hcheck
        · cases hcheck
        · split_ifs at hcheck
    simp [hscreen, screen_error hscreen]
  | ok result =>
    have hscreen : screen turn.fs d.registry candidate.path root true ≠ .error .runtime := by
      intro h
      simp [checkCandidate, h] at hcheck
    rw [and_iff_right hscreen]
    cases result with
    | inl reason => simp [passes, hcheck]
    | inr size =>
      have hpasses : passes turn.fs d.registry root candidate = true := by
        simp [passes, hcheck]
      obtain ⟨found, hfound⟩ := forPath_of_passes hpasses
      have hforget := forgetIfRegistered_ok (turn.fs.unlink candidate.path) candidate.path
        turn.saves hfound
      simp only [hpasses, hfound, Except.ok.injEq]
      cases dryRun with
      | true => simp
      | false =>
        cases hunlinks : turn.unlinks with
        | false => simp
        | true =>
          simp only [Bool.false_eq_true, ↓reduceIte, Bool.not_true]
          cases hr : (forgetIfRegistered (turn.fs.unlink candidate.path) d.registry
              candidate.path turn.saves).1 with
          | ok u => simpa [hr, Except.map] using hforget.mp (by rw [hr])
          | error e =>
            have hne := mt hforget.mpr (by rw [hr]; simp)
            simpa [hr, Except.map] using hne

theorem round_of_executeOne {verdict : Verdict}
    (h : (executeOne root dryRun d candidate turn).1 = .ok verdict) :
    Round root dryRun d candidate turn (executeOne root dryRun d candidate turn).2 verdict := by
  unfold executeOne at h ⊢
  cases hcheck : checkCandidate turn.fs d.registry root candidate with
  | error e => simp [hcheck] at h
  | ok result =>
    cases result with
    | inl reason =>
      simp only [hcheck, Except.ok.injEq] at h ⊢
      exact h ▸ .rejected reason (by simp [passes, hcheck])
    | inr size =>
      have hpasses : passes turn.fs d.registry root candidate = true := by
        simp [passes, hcheck]
      obtain ⟨rfl, hsize⟩ := measured_of_check hcheck
      simp only [hcheck] at h ⊢
      cases hdry : dryRun with
      | true =>
        simp only [hdry, ↓reduceIte, Except.ok.injEq] at h ⊢
        exact h ▸ .previewed hpasses rfl
      | false =>
        cases hunlinks : turn.unlinks with
        | false =>
          simp only [hdry, hunlinks, Bool.false_eq_true, ↓reduceIte, Bool.not_false,
            Except.ok.injEq] at h ⊢
          exact h ▸ .failed hpasses rfl
        | true =>
          simp only [hdry, hunlinks, Bool.false_eq_true, ↓reduceIte, Bool.not_true] at h ⊢
          obtain ⟨u, -, rfl⟩ := map_eq_ok.mp h
          exact .deleted rfl hsize _ _

theorem Reported.cons {work : List (CleanupCandidate P × Turn lib)} {d'' : Disk lib}
    {verdicts : List (CleanupCandidate P × Verdict)} {verdict : Verdict}
    (hround : Round root dryRun d candidate turn d' verdict)
    (hperm : verdicts.map (fun v => v.1.path) = work.map fun w => w.1.path)
    (h : Reported root dryRun work d' d'' (outcome verdicts)) :
    Reported root dryRun ((candidate, turn) :: work) d d''
      (outcome ((candidate, verdict) :: verdicts)) := by
  have honce := outcome_perm ((candidate, verdict) :: verdicts)
  rw [List.map_cons, hperm] at honce
  cases hround with
  | rejected reason hfails =>
    refine ⟨honce, fun hreal => h.unlinked hreal, fun hdry => ?_⟩
    simpa [List.filter_cons, hfails, outcome, CleanupOutcome.add] using h.previewed hdry
  | failed hpasses hreal =>
    refine ⟨honce, fun hreal => h.unlinked hreal, fun hdry => ?_⟩
    rw [hreal] at hdry
    cases hdry
  | previewed hpasses hdry =>
    refine ⟨honce, fun hreal => ?_, fun _ => ?_⟩
    · rw [hdry] at hreal
      cases hreal
    · obtain ⟨hdeletions, hregistry, hdeleted, hbytes⟩ := h.previewed hdry
      simp only at hdeleted hbytes
      simp [hpasses, outcome, CleanupOutcome.add, hdeletions, hregistry,
        hdeleted, hbytes]
  | deleted hreal hsize fs registry =>
    refine ⟨honce, fun _ => ?_, fun hdry => ?_⟩
    · obtain ⟨gone, hdeletions, hdeleted, hbytes, hmeasured⟩ := h.unlinked hreal
      refine ⟨gone ++ [⟨root, candidate, turn.fs, d.registry⟩], by simp [hdeletions], ?_, ?_, ?_⟩
      · simp [outcome, CleanupOutcome.add, hdeleted]
      · simp [outcome, CleanupOutcome.add, hbytes]
      · intro x hx
        rcases List.mem_append.mp hx with hx | hx
        · exact hmeasured x hx
        · cases List.mem_singleton.mp hx
          exact hsize
    · rw [hreal] at hdry
      cases hdry

theorem reported_of_execute {work : List (CleanupCandidate P × Turn lib)}
    {verdicts : List Verdict} (h : execute root dryRun work d = (.ok verdicts, d')) :
    verdicts.length = work.length ∧
      Reported root dryRun work d d' (outcome ((work.map Prod.fst).zip verdicts)) := by
  induction work generalizing d verdicts with
  | nil =>
    cases h
    refine ⟨rfl, by simp [outcome], fun _ => ⟨[], ?_⟩, fun _ => ?_⟩ <;> simp [outcome]
  | cons w work ih =>
    obtain ⟨candidate, turn⟩ := w
    unfold execute at h
    split at h
    · cases h
    · rename_i verdict d₁ hone
      have hverdict : (executeOne root dryRun d candidate turn).1 = .ok verdict := by rw [hone]
      have hround := round_of_executeOne hverdict
      rw [hone] at hround
      obtain ⟨hr, rfl⟩ := Prod.mk.inj h
      obtain ⟨rest, hrest, rfl⟩ := map_eq_ok.mp hr
      obtain ⟨hlen, hreported⟩ := ih (Prod.ext hrest rfl)
      refine ⟨by simp [hlen], hreported.cons hround ?_⟩
      have hfst : ((work.map Prod.fst).zip rest).map Prod.fst = work.map Prod.fst :=
        List.map_fst_zip (by simp [hlen])
      have hpaths := congrArg (List.map CleanupCandidate.path) hfst
      rwa [List.map_map, List.map_map] at hpaths

theorem execute_ok_iff {work : List (CleanupCandidate P × Turn lib)} :
    (∃ verdicts d', execute root dryRun work d = (.ok verdicts, d')) ↔
      AllClean root dryRun work d := by
  induction work generalizing d with
  | nil => simp [execute, AllClean]
  | cons w work ih =>
    obtain ⟨candidate, turn⟩ := w
    unfold execute AllClean
    rw [← executeOne_ok_iff, ← ih]
    rcases executeOne root dryRun d candidate turn with ⟨r, d₁⟩
    cases r with
    | error e => simp
    | ok verdict =>
      simp only [Except.ok.injEq, exists_eq', true_and, Prod.mk.injEq]
      constructor
      · rintro ⟨verdicts, d', hr, -⟩
        obtain ⟨rest, hrest, -⟩ := map_eq_ok.mp hr
        exact ⟨rest, _, Prod.ext hrest rfl⟩
      · rintro ⟨rest, d', hrest⟩
        exact ⟨verdict :: rest, d', by rw [hrest]; rfl, by rw [hrest]⟩

/-- A pass reports itself, and truly, exactly where all its turns are clean. -/
theorem pass_reports (root : P) (dryRun : Bool) (work : List (CleanupCandidate P × Turn lib))
    (d : Disk lib) :
    (∃ verdicts d', execute root dryRun work d = (.ok verdicts, d') ∧
      verdicts.length = work.length ∧
      Reported root dryRun work d d' (outcome ((work.map Prod.fst).zip verdicts))) ↔
    AllClean root dryRun work d := by
  rw [← execute_ok_iff]
  constructor
  · rintro ⟨verdicts, d', h, -⟩
    exact ⟨verdicts, d', h⟩
  · rintro ⟨verdicts, d', h⟩
    exact ⟨verdicts, d', h, reported_of_execute h⟩

/-- A registered file that can be unlinked, while the store cannot be saved. -/
def unsavedWork : List (CleanupCandidate ℕ × Turn numbered) :=
  [(⟨1, 5, 0, .overSizeCap⟩, ⟨numberedFiles fun _ => some (.file 5 0), true, false⟩)]

def registeredDisk : Disk numbered where
  fs := numberedFiles fun _ => some (.file 5 0)
  registry := (ArtifactOwnershipRegistry.empty.register (numberedFiles fun _ => some (.file 5 0))
    ⟨1, .logsAndTemp, 5, 0, py "a"⟩ true).2
  deletions := []

/-- Its file is deleted, and no outcome tells so. -/
theorem deletion_unreported :
    (¬ ∃ verdicts d', execute 0 false unsavedWork registeredDisk = (.ok verdicts, d')) ∧
      (execute 0 false unsavedWork registeredDisk).2.deletions.length = 1 := by
  have hrun : (execute 0 false unsavedWork registeredDisk).1.isOk = false ∧
      (execute 0 false unsavedWork registeredDisk).2.deletions.length = 1 := by
    decide +kernel
  refine ⟨?_, hrun.2⟩
  rintro ⟨verdicts, d', h⟩
  have hraised := hrun.1
  rw [h] at hraised
  cases hraised

end QronosAgent.Storage

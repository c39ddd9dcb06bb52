import QronosAgent.Lib.Greedy
import QronosAgent.Storage.Runs

/-! Whether a cleanup plan leaves the component settled: it does, unless what it leaves is exactly the
soft cap, or a file past its age limit does not pass the screen. -/
namespace QronosAgent.Storage
open Lib Lib.Greedy

section
variable {P : Type} [DecidableEq P] {lib : PathLib P}
variable (fs : FileSystem lib) (registry : ArtifactOwnershipRegistry P) (budget : ComponentBudget P)
variable (usage : ComponentUsage P) (now : Seconds) (orphans : Option Bool)

def passing (entry : FileEntry P) : Bool :=
  match screen fs registry entry.path budget.root (orphans.getD budget.disposable) with
  | .ok none => true
  | _ => false

/-- The entries that pass the screen, oldest first. -/
def allowed : List (FileEntry P) :=
  (usage.entriesOldestFirst lib).filter (passing fs registry budget orphans)

/-- Those past the age limit, and the others. -/
abbrev old (as : List (FileEntry P)) := as.filter (expired budget.maxAgeSeconds now)

abbrev young (as : List (FileEntry P)) := as.filter fun e => !expired budget.maxAgeSeconds now e

abbrev outdated := old budget now (allowed fs registry budget usage orphans)

abbrev others := young budget now (allowed fs registry budget usage orphans)

def ComponentUsage.after (p : CleanupPlan P) : ComponentUsage P where
  totalBytes := usage.totalBytes - (p.candidates.map CleanupCandidate.sizeBytes).sum
  entries := usage.entries.filter fun e => e.path ∉ p.candidates.map CleanupCandidate.path

structure SettlingPlan (p : CleanupPlan P) : Prop where
  oldestFirst : (p.candidates.map CleanupCandidate.path).Sublist
    ((allowed fs registry budget usage orphans).map FileEntry.path)
  once : (p.candidates.map CleanupCandidate.path).Nodup
  expired : ∀ e ∈ outdated fs registry budget usage now orphans,
    e.path ∈ p.candidates.map CleanupCandidate.path
  /-- Without the newest file that was selected for its size, the target is missed. -/
  minimal : budget.softCapBytes ≤ usage.totalBytes →
    ((usage.after p).totalBytes ≤ p.targetBytes ∧
      ∀ c, (p.candidates.filter fun c => c.reason = .overSizeCap).getLast? = some c →
        p.targetBytes < (usage.after p).totalBytes + c.sizeBytes) ∨
    ∀ e ∈ allowed fs registry budget usage orphans, e.path ∈ p.candidates.map CleanupCandidate.path
  settles : (usage.after p).totalBytes ≤ p.targetBytes →
    classifyUsage budget (usage.after p) = .normal ∧
      ∀ (fs' : FileSystem lib) registry' orphans', ∃ p',
        plan fs' registry' budget (usage.after p) now orphans' = .ok p' ∧ p'.trigger = .none

def sizes (entries : List (FileEntry P)) : ℤ := (entries.map FileEntry.sizeBytes).sum

/-- The target is out of reach; or every file past its age limit passes the screen, and taking these
away and then the oldest of the others never leaves exactly the soft cap. -/
def Settleable : Prop :=
  min budget.softCapBytes usage.totalBytes <
      usage.totalBytes - sizes (allowed fs registry budget usage orphans) ∨
    (∀ e ∈ usage.entries, Storage.expired budget.maxAgeSeconds now e = true →
        passing fs registry budget orphans e = true) ∧
      ∀ oldest, oldest <+: others fs registry budget usage now orphans →
        usage.totalBytes - sizes (outdated fs registry budget usage now orphans) - sizes oldest ≠
          budget.softCapBytes

end

section
variable {P : Type} [DecidableEq P] {lib : PathLib P}
variable {fs : FileSystem lib} {registry : ArtifactOwnershipRegistry P} {budget : ComponentBudget P}
variable {usage : ComponentUsage P} {now : Seconds} {orphans : Option Bool} {p : CleanupPlan P}
variable {as : List (FileEntry P)} {target left : ℤ}

theorem screenAll_allowed {r : List (SkippedItem P) × List (FileEntry P)}
    (h : screenAll fs registry budget.root (orphans.getD budget.disposable) as = .ok r) :
    r.2 = as.filter (passing fs registry budget orphans) := by
  induction as generalizing r with
  | nil =>
    cases h
    rfl
  | cons entry as ih =>
    rw [screenAll] at h
    split at h
    · contradiction
    · rename_i reason hreason
      obtain ⟨r', hr', rfl⟩ := map_eq_ok.mp h
      cases reason with
      | some reason => simp [passing, hreason, ih hr']
      | none => simp [passing, hreason, ih hr']

theorem selectExpired_items (maxAge : Option Seconds) (now : Seconds)
    (hpaths : (as.map FileEntry.path).Nodup) :
    (selectExpired maxAge now as).items = (as.filter (expired maxAge now)).map
      fun e => (e.path, e.candidate now .expired) := by
  have hnodup := hpaths.sublist ((List.filter_sublist (p := expired maxAge now)).map _)
  unfold selectExpired
  rw [← List.foldl_filter]
  exact Dict.items_foldl_set FileEntry.path _ (d := Dict.empty) (by simpa [Dict.keys, Dict.empty])

/-- The size rule takes the files that are not selected yet, from the oldest on. -/
theorem selectOldest_eq {paths : List P} {maxAge : Option Seconds}
    (hpaths : ∀ e ∈ as, e.path ∈ paths ↔ expired maxAge now e = true)
    (d : Dict P (CleanupCandidate P)) :
    selectOldest now target paths as left d =
      (taken FileEntry.sizeBytes target left (as.filter fun e => !expired maxAge now e)).foldl
        (fun d e => d.set e.path (e.candidate now .overSizeCap)) d := by
  induction as generalizing left d with
  | nil => rfl
  | cons e as ih =>
    have ih := fun left d => @ih left (fun e he => hpaths e (List.mem_cons_of_mem _ he)) d
    have he := hpaths e List.mem_cons_self
    unfold selectOldest
    split
    · rename_i h
      rw [taken_of_le h]
      rfl
    · rename_i h
      split
      · rename_i hmem
        rw [ih, List.filter_cons_of_neg (by simpa using he.mp hmem)]
      · rename_i hmem
        rw [ih, List.filter_cons_of_pos (by simpa using mt he.mpr hmem), taken, if_neg h]
        rfl

theorem filterMap_eq {α β : Type*} {l : List α} {f : α → Option β} {q : α → Bool} {g : α → β}
    (h : ∀ a ∈ l, f a = if q a then some (g a) else none) : l.filterMap f = (l.filter q).map g := by
  induction l with
  | nil => rfl
  | cons a l ih =>
    have ih := ih fun b hb => h b (List.mem_cons_of_mem _ hb)
    rw [List.filterMap_cons, h a List.mem_cons_self]
    cases hq : q a with
    | true => simp [ih, hq]
    | false => simp [ih, hq]

/-! What is selected from the entries that pass. -/

def chosen (maxAge : Option Seconds) (now : Seconds) (e : FileEntry P) : CleanupCandidate P :=
  e.candidate now (if expired maxAge now e then .expired else .overSizeCap)

section
variable (budget usage now) (as)

/-- The oldest of the others. -/
abbrev bySize := taken FileEntry.sizeBytes (min budget.softCapBytes usage.totalBytes)
  (usage.totalBytes - sizes (old budget now as)) (young budget now as)

abbrev selection := old budget now as ++ bySize budget usage now as

/-- The entries that a plan takes, oldest first. -/
abbrev picked := as.filter fun e => e.path ∈ (selection budget usage now as).map FileEntry.path

end

omit [DecidableEq P] in
theorem classifyUsage_normal : classifyUsage budget usage = .normal ↔
    usage.totalBytes < budget.softCapBytes := by
  have := budget.soft_lt_hard
  unfold classifyUsage
  split_ifs
  · simp only [false_iff]
    omega
  · simp only [false_iff]
    omega
  · simp only [true_iff]
    omega

omit [DecidableEq P] in
theorem resolveTrigger_none : resolveTrigger budget usage now = .none ↔
    usage.totalBytes < budget.softCapBytes ∧
      ∀ e ∈ usage.entries, expired budget.maxAgeSeconds now e = false := by
  simp only [resolveTrigger, ne_eq, classifyUsage_normal]
  cases hage : usage.entries.any (expired budget.maxAgeSeconds now) with
  | true =>
    have hnone : ¬∀ e ∈ usage.entries, expired budget.maxAgeSeconds now e = false := by
      intro h
      rw [List.any_eq_false.mpr fun e he => by simp [h e he]] at hage
      contradiction
    simp only [hnone, and_false]
    split_ifs <;> simp
  | false =>
    have := List.any_eq_false.mp hage
    split_ifs <;> simp_all

omit [DecidableEq P] in
theorem path_mem_filter (hpaths : (as.map FileEntry.path).Nodup) {q : FileEntry P → Bool}
    {e : FileEntry P} (he : e ∈ as) :
    e.path ∈ (as.filter q).map FileEntry.path ↔ q e = true := by
  constructor
  · intro h
    obtain ⟨e', he', hp⟩ := List.mem_map.mp h
    obtain ⟨he', hq⟩ := List.mem_filter.mp he'
    rwa [← List.inj_on_of_nodup_map hpaths he' he hp]
  · intro h
    exact List.mem_map_of_mem (List.mem_filter.mpr ⟨he, h⟩)

omit [DecidableEq P] in
theorem selection_perm (budget : ComponentBudget P) (usage : ComponentUsage P) (now : Seconds)
    (as : List (FileEntry P)) : ∃ rest, bySize budget usage now as ++ rest = young budget now as ∧
    (selection budget usage now as ++ rest).Perm as := by
  obtain ⟨rest, hrest⟩ := taken_prefix FileEntry.sizeBytes
    (min budget.softCapBytes usage.totalBytes)
    (usage.totalBytes - sizes (old budget now as))
    (young budget now as)
  refine ⟨rest, hrest, ?_⟩
  rw [selection, List.append_assoc, hrest]
  exact List.filter_append_perm _ as

theorem selected_items (budget : ComponentBudget P) (usage : ComponentUsage P) (now : Seconds)
    (hpaths : (as.map FileEntry.path).Nodup)
    (hsize : ∀ e ∈ as, 0 ≤ e.sizeBytes) :
    (selected budget usage now as).items = (selection budget usage now as).map
      fun e => (e.path, chosen budget.maxAgeSeconds now e) := by
  have hexp := selectExpired_items budget.maxAgeSeconds now hpaths
  obtain ⟨rest, hrest, hperm⟩ := selection_perm budget usage now as
  have hnodup := ((hperm.map FileEntry.path).nodup_iff.mpr hpaths)
  have hkeys : (selectExpired budget.maxAgeSeconds now as).keys =
      (old budget now as).map FileEntry.path := by
    rw [Dict.keys, hexp, List.map_map]
    rfl
  have hsum : ((selectExpired budget.maxAgeSeconds now as).values.map
      CleanupCandidate.sizeBytes).sum = sizes (old budget now as) := by
    rw [Dict.values, hexp, List.map_map, List.map_map]
    rfl
  have hexpired : (old budget now as).map
      (fun e => (e.path, e.candidate now .expired)) =
      (old budget now as).map
        fun e => (e.path, chosen budget.maxAgeSeconds now e) := by
    apply List.map_congr_left
    intro e he
    rw [chosen, if_pos (List.mem_filter.mp he).2]
  unfold selected
  simp only [hkeys, hsum]
  split
  · rw [selectOldest_eq fun e he => path_mem_filter hpaths he,
      Dict.items_foldl_set FileEntry.path _ ?_, hexp, hexpired, selection, List.map_append]
    · congr 1
      apply List.map_congr_left
      intro e he
      have := (List.mem_filter.mp (hrest ▸ List.mem_append_left rest he)).2
      rw [chosen, if_neg (by simpa using this)]
    · rw [hkeys, ← List.map_append]
      rw [List.map_append] at hnodup
      exact hnodup.of_append_left
  · rename_i hnormal
    have hsoft := classifyUsage_normal.mp (not_not.mp hnormal)
    have hnonneg : 0 ≤ sizes (old budget now as) :=
      sum_size_nonneg hsize List.filter_sublist
    have hnone : bySize budget usage now as = [] := by
      rw [bySize, min_eq_right hsoft.le]
      exact taken_of_le (by omega)
    rw [hexp, hexpired, selection, hnone, List.append_nil]

theorem picked_eq (budget : ComponentBudget P) (usage : ComponentUsage P) (now : Seconds)
    (hpaths : (as.map FileEntry.path).Nodup) :
    (picked budget usage now as).Perm (selection budget usage now as) ∧
    (picked budget usage now as).filter (fun e => !expired budget.maxAgeSeconds now e) =
      bySize budget usage now as := by
  obtain ⟨rest, hrest, hperm⟩ := selection_perm budget usage now as
  have hnodup := (hperm.map FileEntry.path).nodup_iff.mpr hpaths
  rw [List.map_append] at hnodup
  -- only the selected ones have the path of a selected one
  have hfilter : ∀ l ⊆ selection budget usage now as,
      (l ++ rest).filter (fun e => e.path ∈ (selection budget usage now as).map FileEntry.path) =
        l := by
    intro l hl
    rw [List.filter_append, List.filter_eq_self.mpr, List.filter_eq_nil_iff.mpr, List.append_nil]
    · intro e he
      have := (List.nodup_append.mp hnodup).2.2
      simp only [decide_eq_true_eq]
      intro hmem
      exact this _ hmem _ (List.mem_map_of_mem he) rfl
    · intro e he
      exact decide_eq_true (List.mem_map_of_mem (hl he))
  constructor
  · have := hperm.filter fun e => e.path ∈ (selection budget usage now as).map FileEntry.path
    rw [hfilter _ (List.Subset.refl _)] at this
    exact this.symm
  · have := hfilter _ (List.subset_append_right (old budget now as) (bySize budget usage now as))
    rw [hrest] at this
    rw [picked, List.filter_comm]
    exact this

theorem allowed_nodup (fs : FileSystem lib) (registry : ArtifactOwnershipRegistry P)
    (budget : ComponentBudget P) (orphans : Option Bool)
    (hpaths : (usage.entries.map FileEntry.path).Nodup) :
    ((allowed fs registry budget usage orphans).map FileEntry.path).Nodup :=
  (((sortedBy_perm _).map FileEntry.path).nodup_iff.mpr hpaths).sublist
    (List.filter_sublist.map _)

theorem mem_allowed {e : FileEntry P} : e ∈ allowed fs registry budget usage orphans ↔
    e ∈ usage.entries ∧ passing fs registry budget orphans e = true := by
  rw [allowed, List.mem_filter, ComponentUsage.entriesOldestFirst, mem_sortedBy]

theorem plan_candidates (hdisposable : budget.disposable = true)
    (hpaths : (usage.entries.map FileEntry.path).Nodup) (hsize : ∀ e ∈ usage.entries, 0 ≤ e.sizeBytes)
    (h : plan fs registry budget usage now orphans = .ok p) :
    p.targetBytes = min budget.softCapBytes usage.totalBytes ∧
    p.candidates = (picked budget usage now (allowed fs registry budget usage orphans)).map
      (chosen budget.maxAgeSeconds now) := by
  have hnodup := allowed_nodup fs registry budget orphans hpaths
  have hsize' : ∀ e ∈ allowed fs registry budget usage orphans, 0 ≤ e.sizeBytes :=
    fun e he => hsize e (mem_allowed.mp he).1
  unfold plan at h
  rw [hdisposable] at h
  simp only [Bool.not_true, Bool.false_eq_true, if_false] at h
  split at h
  · rename_i htrigger
    cases h
    obtain ⟨hsoft, hexp⟩ := resolveTrigger_none.mp htrigger
    have hnone : old budget now (allowed fs registry budget usage orphans) = [] := by
      rw [List.filter_eq_nil_iff]
      intro e he
      rw [hexp e (mem_allowed.mp he).1]
      exact Bool.false_ne_true
    refine ⟨rfl, ?_⟩
    have hsmall : bySize budget usage now (allowed fs registry budget usage orphans) = [] := by
      apply taken_of_le
      rw [hnone]
      simp [sizes, hsoft.le]
    rw [picked, selection, hnone, hsmall]
    simp
  · obtain ⟨r, hr, rfl⟩ := map_eq_ok.mp h
    have hr2 : r.2 = allowed fs registry budget usage orphans :=
      screenAll_allowed (by rwa [hdisposable])
    refine ⟨rfl, ?_⟩
    simp only [hr2]
    apply filterMap_eq
    intro e he
    have hitems := selected_items budget usage now hnodup hsize'
    split
    · rename_i hmem
      obtain ⟨e', he', hp⟩ := List.mem_map.mp (of_decide_eq_true hmem)
      obtain ⟨rest, -, hperm⟩ := selection_perm budget usage now
        (allowed fs registry budget usage orphans)
      obtain rfl := List.inj_on_of_nodup_map hnodup
        (hperm.subset (List.mem_append_left rest he')) he hp
      rw [Dict.get?_eq_some, hitems]
      exact List.mem_map_of_mem he'
    · rename_i hmem
      rw [Dict.get?_eq_none, Dict.keys, hitems, List.map_map]
      simpa using hmem

omit [DecidableEq P] in
theorem sizes_filter (q : FileEntry P → Bool) (as : List (FileEntry P)) :
    sizes (as.filter q) + sizes (as.filter fun e => !q e) = sizes as := by
  rw [sizes, sizes, ← List.sum_append, ← List.map_append]
  exact ((List.filter_append_perm q as).map _).sum_eq

/-- What is left after the deletion. -/
theorem after_totalBytes (hpaths : (as.map FileEntry.path).Nodup)
    (h : p.candidates = (picked budget usage now as).map (chosen budget.maxAgeSeconds now)) :
    (usage.after p).totalBytes =
      usage.totalBytes - sizes (old budget now as) -
        ((bySize budget usage now as).map
          FileEntry.sizeBytes).sum := by
  have hsum := ((picked_eq budget usage now hpaths).1.map
    FileEntry.sizeBytes).sum_eq
  have hmap : p.candidates.map CleanupCandidate.sizeBytes =
      (picked budget usage now as).map FileEntry.sizeBytes := by
    rw [h, List.map_map]
    rfl
  rw [ComponentUsage.after, hmap, hsum, selection, List.map_append, List.sum_append]
  simp only [sizes]
  omega

/-- Without the newest file that was selected for its size, the target is missed. -/
theorem last_needed (hpaths : (as.map FileEntry.path).Nodup) {c : CleanupCandidate P}
    (h : p.candidates = (picked budget usage now as).map (chosen budget.maxAgeSeconds now))
    (hc : (p.candidates.filter fun c => c.reason = .overSizeCap).getLast? = some c) :
    min budget.softCapBytes usage.totalBytes < (usage.after p).totalBytes + c.sizeBytes := by
  have hbySize : p.candidates.filter (fun c => c.reason = .overSizeCap) =
      ((picked budget usage now as).filter fun e => !expired budget.maxAgeSeconds now e).map
        (chosen budget.maxAgeSeconds now) := by
    rw [h, List.filter_map]
    congr 1
    apply List.filter_congr
    intro e _
    cases hexp : expired budget.maxAgeSeconds now e <;>
      simp [chosen, FileEntry.candidate, hexp]
  rw [hbySize, (picked_eq budget usage now hpaths).2, List.getLast?_map, Option.map_eq_some_iff] at hc
  obtain ⟨e, he, rfl⟩ := hc
  obtain ⟨init, hinit⟩ := List.getLast?_eq_some_iff.mp he
  have := taken_needed hinit
  rw [after_totalBytes hpaths h, hinit, List.map_append, List.sum_append]
  change _ < _ + e.sizeBytes
  simp only [List.map_cons, List.map_nil, List.sum_cons, List.sum_nil]
  omega

theorem after_reaches_iff (hpaths : (as.map FileEntry.path).Nodup)
    (hsize : ∀ e ∈ as, 0 ≤ e.sizeBytes)
    (h : p.candidates = (picked budget usage now as).map (chosen budget.maxAgeSeconds now)) :
    (usage.after p).totalBytes ≤ min budget.softCapBytes usage.totalBytes ↔
      usage.totalBytes - sizes as ≤ min budget.softCapBytes usage.totalBytes := by
  have hsplit := sizes_filter (expired budget.maxAgeSeconds now) as
  rw [after_totalBytes hpaths h, taken_reaches_iff fun e he => hsize e (List.mem_filter.mp he).1,
    ← hsplit, ← sub_sub]
  rfl

theorem after_normal_iff (hpaths : (as.map FileEntry.path).Nodup)
    (hsize : ∀ e ∈ as, 0 ≤ e.sizeBytes)
    (h : p.candidates = (picked budget usage now as).map (chosen budget.maxAgeSeconds now))
    (hreach : (usage.after p).totalBytes ≤ min budget.softCapBytes usage.totalBytes) :
    (usage.after p).totalBytes < budget.softCapBytes ↔
      ∀ oldest, oldest <+: young budget now as →
        usage.totalBytes - sizes (old budget now as) - sizes oldest ≠
          budget.softCapBytes := by
  have hothers : ∀ e ∈ young budget now as,
      0 ≤ e.sizeBytes := fun e he => hsize e (List.mem_filter.mp he).1
  rw [le_min_iff] at hreach
  rcases le_or_gt budget.softCapBytes usage.totalBytes with hsoft | hsoft
  · rw [after_totalBytes hpaths h, bySize, min_eq_left hsoft] at hreach ⊢
    rw [lt_iff_le_and_ne, and_iff_right hreach.1, ne_eq, taken_exact hothers]
    simp only [not_exists, not_and]
    rfl
  · have hnonneg : 0 ≤ sizes (old budget now as) :=
      sum_size_nonneg hsize List.filter_sublist
    constructor
    · intro _ oldest hpre
      have : 0 ≤ sizes oldest := sum_size_nonneg hothers hpre.sublist
      omega
    · intro _
      omega

theorem after_fresh_iff (hpaths : (usage.entries.map FileEntry.path).Nodup)
    (h : p.candidates = (picked budget usage now (allowed fs registry budget usage orphans)).map
      (chosen budget.maxAgeSeconds now)) :
    (∀ e ∈ (usage.after p).entries, expired budget.maxAgeSeconds now e = false) ↔
      ∀ e ∈ usage.entries, expired budget.maxAgeSeconds now e = true →
        passing fs registry budget orphans e = true := by
  have hcandidates : p.candidates.map CleanupCandidate.path =
      (picked budget usage now (allowed fs registry budget usage orphans)).map FileEntry.path := by
    rw [h, List.map_map]
    rfl
  have hmem : ∀ e, e ∈ (usage.after p).entries ↔ e ∈ usage.entries ∧
      e.path ∉ (picked budget usage now (allowed fs registry budget usage orphans)).map
        FileEntry.path := by
    intro e
    rw [ComponentUsage.after, List.mem_filter, hcandidates, decide_eq_true_eq]
  constructor
  · intro hfresh e he hexp
    by_contra hpass
    have hkept : e ∈ (usage.after p).entries := by
      rw [hmem]
      refine ⟨he, fun hpicked => hpass ?_⟩
      obtain ⟨e', he', hp⟩ := List.mem_map.mp hpicked
      have hallowed := mem_allowed.mp (List.mem_filter.mp he').1
      rw [← List.inj_on_of_nodup_map hpaths hallowed.1 he hp]
      exact hallowed.2
    rw [hfresh e hkept] at hexp
    contradiction
  · intro hpass e he
    obtain ⟨he, hnot⟩ := (hmem e).mp he
    by_contra hexp
    rw [Bool.not_eq_false] at hexp
    have hallowed : e ∈ allowed fs registry budget usage orphans :=
      mem_allowed.mpr ⟨he, hpass e he hexp⟩
    apply hnot
    apply List.mem_map_of_mem
    apply List.mem_filter.mpr
    refine ⟨hallowed, decide_eq_true (List.mem_map_of_mem (List.mem_append_left _ ?_))⟩
    exact List.mem_filter.mpr ⟨hallowed, hexp⟩

theorem plan_trigger (h : plan fs registry budget usage now orphans = .ok p) :
    p.trigger = resolveTrigger budget usage now := by
  unfold plan at h
  simp only at h
  split at h
  · cases h
    rfl
  · split at h
    · cases h
      rfl
    · obtain ⟨r, -, rfl⟩ := map_eq_ok.mp h
      rfl

theorem plan_none (hdisposable : budget.disposable = true)
    (h : resolveTrigger budget usage now = .none) :
    ∃ p, plan fs registry budget usage now orphans = .ok p ∧ p.trigger = .none := by
  refine ⟨⟨budget.component, budget.root, .none, [], [], usage.totalBytes,
    min budget.softCapBytes usage.totalBytes⟩, ?_, rfl⟩
  unfold plan
  simp [hdisposable, h]

/-- The plan is minimal and complete, and settles the component exactly if that can be done. -/
theorem plan_settles_iff (hdisposable : budget.disposable = true)
    (hsize : ∀ e ∈ usage.entries, 0 ≤ e.sizeBytes)
    (hpaths : (usage.entries.map FileEntry.path).Nodup)
    (h : plan fs registry budget usage now orphans = .ok p) :
    SettlingPlan fs registry budget usage now orphans p ↔
      Settleable fs registry budget usage now orphans := by
  have hnodup := allowed_nodup fs registry budget orphans hpaths
  have hsize' : ∀ e ∈ allowed fs registry budget usage orphans, 0 ≤ e.sizeBytes :=
    fun e he => hsize e (mem_allowed.mp he).1
  obtain ⟨htarget, hc⟩ := plan_candidates hdisposable hpaths hsize h
  have hcandidates : p.candidates.map CleanupCandidate.path =
      (picked budget usage now (allowed fs registry budget usage orphans)).map FileEntry.path := by
    rw [hc, List.map_map]
    rfl
  have hselected : ∀ e ∈ selection budget usage now (allowed fs registry budget usage orphans),
      e.path ∈ p.candidates.map CleanupCandidate.path := by
    intro e he
    rw [hcandidates]
    exact List.mem_map_of_mem ((picked_eq budget usage now hnodup).1.mem_iff.mpr he)
  have hreaches := after_reaches_iff hnodup hsize' hc
  constructor
  · intro hplan
    by_cases hreach : (usage.after p).totalBytes ≤ min budget.softCapBytes usage.totalBytes
    · right
      obtain ⟨hnormal, hagain⟩ := hplan.settles (htarget ▸ hreach)
      obtain ⟨p', hp', htrigger⟩ := hagain fs registry orphans
      rw [plan_trigger hp', resolveTrigger_none] at htrigger
      constructor
      · exact (after_fresh_iff hpaths hc).mp htrigger.2
      · exact (after_normal_iff hnodup hsize' hc hreach).mp htrigger.1
    · left
      rw [hreaches] at hreach
      exact not_le.mp hreach
  · intro hsettles
    constructor
    · rw [hcandidates]
      exact List.filter_sublist.map _
    · rw [hcandidates]
      exact hnodup.sublist (List.filter_sublist.map _)
    · intro e he
      exact hselected e (List.mem_append_left _ he)
    · intro _
      rcases taken_reaches FileEntry.sizeBytes (min budget.softCapBytes usage.totalBytes)
        (usage.totalBytes - sizes (outdated fs registry budget usage now orphans))
        (others fs registry budget usage now orphans) with hreach | hall
      · left
        rw [htarget]
        constructor
        · rw [after_totalBytes hnodup hc]
          exact hreach
        · intro c
          exact last_needed hnodup hc
      · right
        intro e he
        apply hselected
        cases hexp : Storage.expired budget.maxAgeSeconds now e with
        | true => exact List.mem_append_left _ (List.mem_filter.mpr ⟨he, hexp⟩)
        | false =>
          apply List.mem_append_right
          unfold others outdated at hall
          rw [bySize, hall]
          exact List.mem_filter.mpr ⟨he, by simp [hexp]⟩
    · intro hreach
      rw [htarget] at hreach
      rcases hsettles with hout | ⟨hpass, hexact⟩
      · exact absurd (hreaches.mp hreach) (not_le.mpr hout)
      · have hnormal := (after_normal_iff hnodup hsize' hc hreach).mpr hexact
        refine ⟨classifyUsage_normal.mpr hnormal, fun fs' registry' orphans' => ?_⟩
        apply plan_none hdisposable
        rw [resolveTrigger_none]
        exact ⟨hnormal, (after_fresh_iff hpaths hc).mpr hpass⟩

end

/-! Two files, each of which is old enough to go: what is left is the soft cap itself. -/

def sampleUsage (old new : ℤ) : ComponentUsage ℕ := ⟨old + new, [⟨1, old, 0⟩, ⟨2, new, 1⟩]⟩

def samplePlan (old new : ℤ) : CleanupPlan ℕ where
  component := .logsAndTemp
  root := 0
  trigger := .size
  candidates := [⟨1, old, 7, .overSizeCap⟩]
  skipped := []
  usageBeforeBytes := old + new
  targetBytes := 1

theorem sample_plan : plan (numberedFiles fun _ => some (.file 5 0)) .empty sampleBudget
    (sampleUsage 2 1) 7 none = .ok (samplePlan 2 1) := by
  with_unfolding_all rfl

theorem plan_settles_iff_smaller :
    SettlingPlan (numberedFiles fun _ => some (.file 5 0)) .empty sampleBudget (sampleUsage 2 0) 7
      none (samplePlan 2 0) ↔
    Settleable (numberedFiles fun _ => some (.file 5 0)) .empty sampleBudget (sampleUsage 2 0) 7
      none := by
  apply plan_settles_iff
  · rfl
  · simp [sampleUsage]
  · simp [sampleUsage]
  · with_unfolding_all rfl

theorem not_settled_at_soft_cap :
    plan (numberedFiles fun _ => some (.file 5 0)) .empty sampleBudget (sampleUsage 2 1) 7 none =
      .ok (samplePlan 2 1) ∧
    ¬SettlingPlan (numberedFiles fun _ => some (.file 5 0)) .empty sampleBudget (sampleUsage 2 1) 7
      none (samplePlan 2 1) := by
  refine ⟨sample_plan, fun h => ?_⟩
  have hsoft : classifyUsage sampleBudget ((sampleUsage 2 1).after (samplePlan 2 1)) = .soft := rfl
  have := (h.settles (by decide)).1
  rw [hsoft] at this
  contradiction

end QronosAgent.Storage

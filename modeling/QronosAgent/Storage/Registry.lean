import QronosAgent.Lib.Machine
import QronosAgent.Storage.Janitor

/-! What the registry's operations do to its records. -/
namespace QronosAgent.Storage
open Lib

variable {P : Type}

structure Valid (records : Dict PyStr (ArtifactRecord P)) : Prop where
  keyed : ∀ id record, records.get? id = some record → record.artifactId = id
  unique : ∀ id id' record record', records.get? id = some record →
    records.get? id' = some record' → record.path = record'.path → id = id'

namespace Valid
variable {records records' : Dict PyStr (ArtifactRecord P)}

theorem empty : Valid (Dict.empty : Dict PyStr (ArtifactRecord P)) where
  keyed id record h := by simp at h
  unique id id' record record' h := by simp at h

theorem sub (hv : Valid records)
    (h : ∀ id record, records'.get? id = some record → records.get? id = some record) :
    Valid records' where
  keyed id record hr := hv.keyed id record (h id record hr)
  unique id id' record record' hr hr' :=
    hv.unique id id' record record' (h id record hr) (h id' record' hr')

theorem erase (hv : Valid records) (id : PyStr) : Valid (records.erase id) := by
  apply hv.sub
  intro id' record h
  rw [Dict.get?_erase] at h
  split at h
  · contradiction
  · exact h

theorem set (hv : Valid records) {id : PyStr} {record : ArtifactRecord P}
    (hid : record.artifactId = id)
    (hpath : ∀ id' record', records.get? id' = some record' → record'.path = record.path →
      id' = id) : Valid (records.set id record) where
  keyed id' record' h := by
    rw [Dict.get?_set] at h
    split at h
    · rename_i hk
      rw [← Option.some.inj h, hid, hk]
    · exact hv.keyed id' record' h
  unique a b ra rb ha hb hab := by
    rw [Dict.get?_set] at ha hb
    split at ha <;> split at hb
    · simp_all
    · rename_i hak _
      cases ha
      rw [hak, hpath b rb hb hab.symm]
    · rename_i _ hbk
      cases hb
      rw [hbk, hpath a ra ha hab]
    · exact hv.unique a b ra rb ha hb hab

theorem items_eq (hv : Valid records) :
    records.items = records.values.map fun record => (record.artifactId, record) := by
  rw [Dict.values, List.map_map]
  conv_lhs => rw [← List.map_id records.items]
  apply List.map_congr_left
  intro kv hkv
  have h := hv.keyed kv.1 kv.2 (Dict.get?_eq_some.mpr hkv)
  simp [h]

end Valid

namespace ArtifactOwnershipRegistry

theorem load_records {records : Dict PyStr (ArtifactRecord P)} (hv : Valid records) :
    (load records.values).records = records := by
  have hkeys : records.values.map ArtifactRecord.artifactId = records.keys := by
    rw [Dict.keys, hv.items_eq, List.map_map]
    rfl
  have hnodup : ((Dict.empty : Dict PyStr (ArtifactRecord P)).keys ++
      records.values.map ArtifactRecord.artifactId).Nodup := by
    rw [hkeys]
    exact records.nodup
  have hitems := Dict.items_foldl_set ArtifactRecord.artifactId id hnodup
  have heq : (load records.values).records.items = records.items := by
    rw [hv.items_eq]
    exact hitems
  cases hl : (load records.values).records
  cases records
  simp_all

/-- The table in memory and the one saved last are both in order. -/
structure Sound (r : ArtifactOwnershipRegistry P) : Prop where
  records : Valid r.records
  store : ∃ saved, Valid saved ∧ r.store = saved.values

theorem Sound.persist {r : ArtifactOwnershipRegistry P} {records : Dict PyStr (ArtifactRecord P)}
    (hr : r.Sound) (hv : Valid records) (saves : Bool) : (r.persist records saves).Sound := by
  constructor
  · exact hv
  · cases saves with
    | false => exact hr.store
    | true => exact ⟨records, hv, rfl⟩

/-- Every record of the user is still there, as it was. -/
def Keeps (r r' : ArtifactOwnershipRegistry P) : Prop :=
  ∀ id record, r.records.get? id = some record → record.owner = .user →
    r'.records.get? id = some record

theorem Keeps.refl (r : ArtifactOwnershipRegistry P) : r.Keeps r := fun _ _ h _ => h

theorem Keeps.trans {r r' r'' : ArtifactOwnershipRegistry P} (h : r.Keeps r') (h' : r'.Keeps r'') :
    r.Keeps r'' := fun id record hr hu => h' id record (h id record hr hu) hu

section Operations
variable [DecidableEq P] {lib : PathLib P} {fs : FileSystem lib} {r : ArtifactOwnershipRegistry P}

variable {target : P} {id : PyStr} {record : ArtifactRecord P}

theorem find_eq_none (h : r.find target = none) (hr : r.records.get? id = some record) :
    record.path ≠ target := by
  rw [find, List.find?_eq_none] at h
  have hne := h record (Dict.mem_values.mpr ⟨id, hr⟩)
  simpa using hne

theorem find_eq (hv : Valid r.records) {found : ArtifactRecord P} (h : r.find target = some found)
    (hr : r.records.get? id = some record) (hp : record.path = target) :
    found = record := by
  have hmem := List.mem_of_find?_eq_some h
  have hpath := List.find?_some h
  obtain ⟨id', hid'⟩ := Dict.mem_values.mp hmem
  have hfound : found.path = target := by simpa using hpath
  have hids := hv.unique id' id found record hid' hr (hfound.trans hp.symm)
  rw [hids, hr] at hid'
  exact (Option.some.inj hid').symm

theorem forPath_eq_ok {p : P} {found : Option (ArtifactRecord P)}
    (h : r.forPath fs p = .ok found) : ∃ target, fs.normalise p = .ok target ∧
      r.find target = found := by
  rw [forPath] at h
  cases hn : fs.normalise p with
  | error e =>
    rw [hn] at h
    contradiction
  | ok target =>
    rw [hn] at h
    exact ⟨target, rfl, Except.ok.inj h⟩

theorem register_cases (a : Registration P) (saves : Bool) :
    (r.register fs a saves).2 = r ∨ ∃ target, r.find target = none ∧
      a.artifactId ∉ r.records.keys ∧
      (r.register fs a saves).2 = r.persist (r.records.set a.artifactId (a.record target)) saves := by
  rw [register]
  split
  · exact .inl rfl
  · split
    · exact .inl rfl
    · rename_i target hn
      split
      · exact .inl rfl
      · exact .inl rfl
      · rename_i hf
        obtain ⟨target', hn', hfind⟩ := forPath_eq_ok hf
        obtain rfl := Except.ok.inj (hn'.symm.trans (fs.normalise_normalise hn))
        split
        · exact .inl rfl
        · rename_i hk
          exact .inr ⟨target', hfind, hk, rfl⟩

theorem transferToUser_cases (id : PyStr) (finalPath : P) (at_ : Seconds) (sizeBytes : Option ℤ)
    (saves : Bool) :
    (r.transferToUser fs id finalPath at_ sizeBytes saves).2 = r ∨
    ∃ record destination size, r.records.get? id = some record ∧ record.owner ≠ .user ∧
      (∀ clash, r.find destination = some clash → clash.artifactId = id) ∧
      (r.transferToUser fs id finalPath at_ sizeBytes saves).2 =
        r.persist (r.records.set id (record.transferred destination size at_)) saves := by
  rw [transferToUser]
  split
  · exact .inl rfl
  · rename_i record hrecord
    split
    · exact .inl rfl
    · rename_i howner
      split
      · exact .inl rfl
      · rename_i destination hn
        split
        · exact .inl rfl
        · exact .inl rfl
        · split
          · exact .inl rfl
          · rename_i clash hclash
            obtain ⟨target, hn', hfind⟩ := forPath_eq_ok hclash
            obtain rfl := Except.ok.inj (hn'.symm.trans (fs.normalise_normalise hn))
            split
            · exact .inl rfl
            · rename_i hno
              split
              · exact .inl rfl
              · rename_i size hsize
                refine .inr ⟨record, target, size, hrecord, howner, ?_, rfl⟩
                intro c hc
                rw [← hfind, hc] at hno
                simpa using hno

omit [DecidableEq P] in
theorem forget_cases (id : PyStr) (saves : Bool) :
    (r.forget id saves).2 = r ∨ ∃ record, r.records.get? id = some record ∧
      record.owner ≠ .user ∧ (r.forget id saves).2 = r.persist (r.records.erase id) saves := by
  rw [forget]
  split
  · exact .inl rfl
  · rename_i record hrecord
    split
    · exact .inl rfl
    · rename_i howner
      exact .inr ⟨record, hrecord, howner, rfl⟩

omit [DecidableEq P] in
theorem pruneLoop_sub (rs : List (ArtifactRecord P)) (records : Dict PyStr (ArtifactRecord P))
    (h : (pruneLoop fs rs records).2.get? id = some record) : records.get? id = some record := by
  induction rs generalizing records with
  | nil => exact h
  | cons q rs ih =>
    rw [pruneLoop] at h
    split at h
    · exact ih records h
    · split at h
      · exact h
      · exact ih records h
      · have herased := ih _ h
        rw [Dict.get?_erase] at herased
        split at herased
        · contradiction
        · exact herased

omit [DecidableEq P] in
theorem pruneLoop_kept (rs : List (ArtifactRecord P)) (records : Dict PyStr (ArtifactRecord P))
    (h : ∀ q ∈ rs, q.owner = .qronos → q.artifactId ≠ id) :
    (pruneLoop fs rs records).2.get? id = records.get? id := by
  induction rs generalizing records with
  | nil => rfl
  | cons q rs ih =>
    have ih' := fun records => ih records fun q hq => h q (List.mem_cons_of_mem _ hq)
    rw [pruneLoop]
    split
    · exact ih' records
    · rename_i howner
      split
      · rfl
      · exact ih' records
      · have hne := h q List.mem_cons_self (by simpa using howner)
        exact (ih' _).trans (Dict.get?_erase_ne hne.symm)

omit [DecidableEq P] in
theorem prune_cases (saves : Bool) :
    let records := (pruneLoop fs r.records.values r.records).2
    (r.pruneMissingQronosRecords fs saves).2 = { r with records := records } ∨
      (r.pruneMissingQronosRecords fs saves).2 = r.persist records saves := by
  intro records
  rw [pruneMissingQronosRecords]
  split
  · rename_i heq
    exact .inl (by simp [records, heq])
  · rename_i heq
    split
    · exact .inl (by simp [records, heq])
    · exact .inr (by simp [records, heq])

/-! Every operation keeps the tables in order, and the records of the user. -/

theorem register_sound (hr : r.Sound) (a : Registration P) (saves : Bool) :
    (r.register fs a saves).2.Sound ∧ r.Keeps (r.register fs a saves).2 := by
  rcases @register_cases _ _ _ fs r a saves with h | ⟨target, hfind, hnew, h⟩
  · rw [h]
    exact ⟨hr, Keeps.refl r⟩
  · rw [h]
    constructor
    · apply hr.persist
      refine hr.records.set rfl ?_
      intro id' record' hr' hp
      exact absurd hp (find_eq_none hfind hr')
    · intro id record hrec _
      have hne : id ≠ a.artifactId := by
        rintro rfl
        exact hnew (Dict.isSome_get?.mp (by simp [hrec]))
      exact (Dict.get?_set_ne hne).trans hrec

theorem transferToUser_sound (hr : r.Sound) (id : PyStr) (finalPath : P) (at_ : Seconds)
    (sizeBytes : Option ℤ) (saves : Bool) :
    (r.transferToUser fs id finalPath at_ sizeBytes saves).2.Sound ∧
      r.Keeps (r.transferToUser fs id finalPath at_ sizeBytes saves).2 := by
  rcases @transferToUser_cases _ _ _ fs r id finalPath at_ sizeBytes saves with
    h | ⟨record, destination, size, hrec, howner, hclash, h⟩
  · rw [h]
    exact ⟨hr, Keeps.refl r⟩
  · rw [h]
    constructor
    · apply hr.persist
      refine hr.records.set (hr.records.keyed id record hrec :) ?_
      intro id' record' hr' hp
      cases hfind : r.find destination with
      | none => exact absurd hp (find_eq_none hfind hr')
      | some clash =>
        obtain rfl := find_eq hr.records hfind hr' hp
        rw [← hclash clash hfind, hr.records.keyed id' clash hr']
    · intro id' record' hr' hu
      have hne : id' ≠ id := by
        rintro rfl
        rw [hrec] at hr'
        exact howner (Option.some.inj hr' ▸ hu)
      exact (Dict.get?_set_ne hne).trans hr'

omit [DecidableEq P] in
theorem forget_sound (hr : r.Sound) (id : PyStr) (saves : Bool) :
    (r.forget id saves).2.Sound ∧ r.Keeps (r.forget id saves).2 := by
  rcases forget_cases (r := r) id saves with h | ⟨record, hrec, howner, h⟩
  · rw [h]
    exact ⟨hr, Keeps.refl r⟩
  · rw [h]
    constructor
    · apply hr.persist
      exact hr.records.erase id
    · intro id' record' hr' hu
      have hne : id' ≠ id := by
        rintro rfl
        rw [hrec] at hr'
        exact howner (Option.some.inj hr' ▸ hu)
      exact (Dict.get?_erase_ne hne).trans hr'

omit [DecidableEq P] in
theorem prune_sound (hr : r.Sound) (saves : Bool) :
    (r.pruneMissingQronosRecords fs saves).2.Sound ∧
      r.Keeps (r.pruneMissingQronosRecords fs saves).2 := by
  have hvalid : Valid (pruneLoop fs r.records.values r.records).2 := by
    apply hr.records.sub
    intro id record h
    exact pruneLoop_sub _ _ h
  have hkeeps : ∀ id record, r.records.get? id = some record → record.owner = .user →
      (pruneLoop fs r.records.values r.records).2.get? id = some record := by
    intro id record hrec hu
    rw [pruneLoop_kept, hrec]
    intro q hq howner hid
    obtain ⟨id', hid'⟩ := Dict.mem_values.mp hq
    have hkey := hr.records.keyed id' q hid'
    rw [← hkey, hid, hrec] at hid'
    rw [← Option.some.inj hid', hu] at howner
    contradiction
  rcases @prune_cases _ _ fs r saves with h | h
  · rw [h]
    exact ⟨⟨hvalid, hr.store⟩, hkeeps⟩
  · rw [h]
    exact ⟨hr.persist hvalid saves, hkeeps⟩

theorem forgetIfRegistered_sound (hr : r.Sound) (path : P) (saves : Bool) :
    (forgetIfRegistered fs r path saves).2.Sound ∧
      r.Keeps (forgetIfRegistered fs r path saves).2 := by
  rw [forgetIfRegistered]
  split
  · exact ⟨hr, Keeps.refl r⟩
  · exact ⟨hr, Keeps.refl r⟩
  · exact forget_sound hr _ saves

omit [DecidableEq P] in
theorem load_sound (hr : r.Sound)
    (h : ∀ record ∈ r.records.values, record.owner = .user → record ∈ r.store) :
    (load r.store).Sound ∧ r.Keeps (load r.store) := by
  obtain ⟨saved, hv, hstore⟩ := hr.store
  have hload : (load r.store).records = saved := hstore ▸ load_records hv
  constructor
  · exact ⟨hload.symm ▸ hv, saved, hv, hstore⟩
  · intro id record hrec hu
    have hmem := h record (Dict.mem_values.mpr ⟨id, hrec⟩) hu
    rw [hstore, Dict.mem_values] at hmem
    obtain ⟨id', hid'⟩ := hmem
    rw [hload, ← hr.records.keyed id record hrec, hv.keyed id' record hid']
    exact hid'

end Operations
end ArtifactOwnershipRegistry

/-! What a plan holds, and what a candidate has passed when it is deleted. -/

variable {P : Type} [DecidableEq P] {lib : PathLib P} {fs : FileSystem lib}
  {registry : ArtifactOwnershipRegistry P}

structure Screened (fs : FileSystem lib) (registry : ArtifactOwnershipRegistry P) (path root : P) :
    Prop where
  owner : ∃ target, fs.normalise path = .ok target ∧
    ∀ record, registry.find target = some record → record.owner ≠ .user
  reparse : fs.reparse path = false
  within : ∃ resolvedRoot resolvedPath, fs.normalise root = .ok resolvedRoot ∧
    fs.normalise path = .ok resolvedPath ∧ lib.isRelativeTo resolvedPath resolvedRoot = true
  isFile : fs.isFile path = .ok true

variable {path root : P} {orphans : Bool} {usage : ComponentUsage P}

theorem not_user_owned (h : registry.isUserOwned fs path = .ok false) :
    ∃ target, fs.normalise path = .ok target ∧
      ∀ record, registry.find target = some record → record.owner ≠ .user := by
  rw [ArtifactOwnershipRegistry.isUserOwned, map_eq_ok] at h
  obtain ⟨found, hfound, hno⟩ := h
  obtain ⟨target, hn, hfind⟩ := ArtifactOwnershipRegistry.forPath_eq_ok hfound
  refine ⟨target, hn, ?_⟩
  intro record hrecord
  rw [← hfind, hrecord] at hno
  simpa using hno

theorem screenBody_passed (h : screenBody fs registry path root orphans = .ok none) :
    Screened fs registry path root := by
  rw [screenBody] at h
  split at h
  · contradiction
  · obtain ⟨owned, howned, h⟩ := bind_eq_ok.mp h
    split at h
    · contradiction
    · rename_i hno
      rw [Bool.not_eq_true] at hno
      cases hno
      split at h
      · contradiction
      · rename_i hreparse
        obtain ⟨resolvedRoot, hroot, h⟩ := bind_eq_ok.mp h
        obtain ⟨resolvedPath, hpath, h⟩ := bind_eq_ok.mp h
        split at h
        · contradiction
        · rename_i hrel
          obtain ⟨present, -, h⟩ := bind_eq_ok.mp h
          split at h
          · contradiction
          · obtain ⟨regular, hregular, h⟩ := bind_eq_ok.mp h
            split at h
            · contradiction
            · rename_i hfile
              have hregular' : regular = true := by simpa using hfile
              exact ⟨not_user_owned howned, by simpa using hreparse,
                ⟨resolvedRoot, resolvedPath, hroot, hpath, by simpa using hrel⟩,
                hregular' ▸ hregular⟩

theorem screen_passed (h : screen fs registry path root orphans = .ok none) :
    Screened fs registry path root := by
  rw [screen] at h
  split at h
  · contradiction
  · exact screenBody_passed h

theorem checkCandidate_passed {candidate : CleanupCandidate P} {size : ℤ}
    (h : checkCandidate fs registry root candidate = .ok (.inr size)) :
    Screened fs registry candidate.path root ∧
      ∃ m, fs.stat candidate.path = .ok (some (.file candidate.sizeBytes m)) := by
  rw [checkCandidate] at h
  split at h
  · contradiction
  · simp at h
  · rename_i hscreen
    refine ⟨screen_passed hscreen, ?_⟩
    split at h
    · simp at h
    · rename_i now hnow
      split at h
      · simp at h
      · rename_i hsize
        rw [not_not] at hsize
        rw [ArtifactOwnershipRegistry.measured] at hnow
        split at hnow
        · contradiction
        · rename_i size' m hstat
          cases hnow
          exact ⟨m, hsize ▸ hstat⟩
        · contradiction

/-! A plan's candidates are entries of the usage it was made from. -/

def Measured (usage : ComponentUsage P) (candidate : CleanupCandidate P) : Prop :=
  ∃ entry ∈ usage.entries, entry.path = candidate.path ∧ entry.sizeBytes = candidate.sizeBytes

theorem screenAll_sub (entries : List (FileEntry P))
    {r : List (SkippedItem P) × List (FileEntry P)}
    (h : screenAll fs registry root orphans entries = .ok r) : ∀ e ∈ r.2, e ∈ entries := by
  induction entries generalizing r with
  | nil =>
    cases h
    simp
  | cons entry entries ih =>
    rw [screenAll] at h
    split at h
    · contradiction
    · rename_i reason _
      obtain ⟨r', hr', heq⟩ := map_eq_ok.mp h
      have hsub := ih hr'
      intro e he
      cases reason with
      | some reason =>
        rw [← heq] at he
        exact List.mem_cons_of_mem _ (hsub e he)
      | none =>
        rw [← heq] at he
        rcases List.mem_cons.mp he with rfl | he
        · exact List.mem_cons_self
        · exact List.mem_cons_of_mem _ (hsub e he)

def From (files : List (FileEntry P)) (selected : Dict P (CleanupCandidate P)) : Prop :=
  ∀ p c, selected.get? p = some c →
    ∃ e ∈ files, e.path = c.path ∧ e.sizeBytes = c.sizeBytes

theorem From.set {files : List (FileEntry P)} {selected : Dict P (CleanupCandidate P)}
    (h : From files selected) {entry : FileEntry P} (he : entry ∈ files) (now : Seconds)
    (reason : DeleteReason) :
    From files (selected.set entry.path (entry.candidate now reason)) := by
  intro p c hc
  rw [Dict.get?_set] at hc
  split at hc
  · cases hc
    exact ⟨entry, he, rfl, rfl⟩
  · exact h p c hc

theorem selectExpired_from (maxAge : Option Seconds) (now : Seconds)
    (allowed : List (FileEntry P)) : From allowed (selectExpired maxAge now allowed) := by
  have hgen : ∀ entries : List (FileEntry P), (∀ e ∈ entries, e ∈ allowed) →
      ∀ d, From allowed d → From allowed (entries.foldl (fun selected entry =>
        if expired maxAge now entry then selected.set entry.path (entry.candidate now .expired)
        else selected) d) := by
    intro entries hsub
    induction entries with
    | nil => exact fun d h => h
    | cons entry entries ih =>
      intro d h
      rw [List.foldl_cons]
      apply ih fun e he => hsub e (List.mem_cons_of_mem _ he)
      split
      · exact h.set (hsub entry List.mem_cons_self) now .expired
      · exact h
  apply hgen allowed fun _ he => he
  intro p c hc
  simp at hc

theorem selectOldest_from {allowed : List (FileEntry P)} (now : Seconds) (target : ℤ)
    (expiredPaths : List P) (entries : List (FileEntry P)) (hsub : ∀ e ∈ entries, e ∈ allowed)
    (projected : ℤ) (d : Dict P (CleanupCandidate P)) (h : From allowed d) :
    From allowed (selectOldest now target expiredPaths entries projected d) := by
  induction entries generalizing projected d with
  | nil => exact h
  | cons entry entries ih =>
    have ih' := ih fun e he => hsub e (List.mem_cons_of_mem _ he)
    rw [selectOldest]
    split
    · exact h
    · split
      · exact ih' _ _ h
      · exact ih' _ _ (h.set (hsub entry List.mem_cons_self) now .overSizeCap)

theorem selected_from (budget : ComponentBudget P) (usage : ComponentUsage P) (now : Seconds)
    (allowed : List (FileEntry P)) : From allowed (selected budget usage now allowed) := by
  rw [selected]
  split
  · apply selectOldest_from
    · exact fun _ he => he
    · exact selectExpired_from _ _ _
  · exact selectExpired_from _ _ _

omit [DecidableEq P] in
theorem mem_entriesOldestFirst {e : FileEntry P} :
    e ∈ usage.entriesOldestFirst lib ↔ e ∈ usage.entries := by
  exact mem_sortedBy

theorem plan_measured {budget : ComponentBudget P} {now : Seconds} {orphans : Option Bool}
    {p : CleanupPlan P} (h : plan fs registry budget usage now orphans = .ok p) :
    ∀ c ∈ p.candidates, Measured usage c := by
  rw [plan] at h
  split at h
  · cases h
    simp
  · split at h
    · cases h
      simp
    · obtain ⟨r, hr, rfl⟩ := map_eq_ok.mp h
      intro c hc
      obtain ⟨e, -, hec⟩ := List.mem_filterMap.mp hc
      obtain ⟨f, hf, hpath, hsize⟩ := selected_from budget usage now r.2 e.path c hec
      have hentries := screenAll_sub _ hr f hf
      exact ⟨f, mem_entriesOldestFirst.mp hentries, hpath, hsize⟩

end QronosAgent.Storage

import QronosAgent.Media.Catalog

/-! What `remove_root` forgets. A link of a file row to an asset is a hash under the row's root,
in every state; so the assets that are still linked are found again by their links. -/
namespace QronosAgent.Media
open Lib

variable {ρ : Type}

namespace Catalog

/-- Every row is one that was there, with its root, and with its asset or none. -/
def Narrowed (files files' : Dict FilePath CatalogFile) : Prop :=
  ∀ path row', files'.get? path = some row' → ∃ row, files.get? path = some row ∧
    row'.rootId = row.rootId ∧ (row'.assetId = none ∨ row'.assetId = row.assetId)

theorem Narrowed.refl (files : Dict FilePath CatalogFile) : Narrowed files files :=
  fun _ row h => ⟨row, h, rfl, .inr rfl⟩

theorem Narrowed.trans {a b c : Dict FilePath CatalogFile} (hab : Narrowed a b)
    (hbc : Narrowed b c) : Narrowed a c := by
  intro path row' h
  obtain ⟨row, hb, hroot, hasset⟩ := hbc path row' h
  obtain ⟨old, ha, hroot', hasset'⟩ := hab path row hb
  refine ⟨old, ha, hroot.trans hroot', ?_⟩
  rcases hasset with hnone | heq
  · exact .inl hnone
  · rw [heq]
    exact hasset'

theorem narrowed_modify (files : Dict FilePath CatalogFile) (path : FilePath)
    {f : CatalogFile → CatalogFile} (hroot : ∀ row, (f row).rootId = row.rootId)
    (hasset : ∀ row, (f row).assetId = none ∨ (f row).assetId = row.assetId) :
    Narrowed files (files.modify path f) := by
  intro p row' h
  rw [Dict.get?_modify] at h
  split at h
  · rename_i hp
    obtain ⟨row, hrow, rfl⟩ := Option.map_eq_some_iff.mp h
    exact ⟨row, hp ▸ hrow, hroot row, hasset row⟩
  · exact ⟨row', h, rfl, .inr rfl⟩

theorem narrowed_foldl {α : Type} (path : α → FilePath) {f : α → CatalogFile → CatalogFile}
    (hroot : ∀ a row, (f a row).rootId = row.rootId)
    (hasset : ∀ a row, (f a row).assetId = none ∨ (f a row).assetId = row.assetId)
    (as : List α) (files : Dict FilePath CatalogFile) :
    Narrowed files (as.foldl (fun files a => files.modify (path a) (f a)) files) := by
  induction as generalizing files with
  | nil => exact .refl files
  | cons a as ih => exact (narrowed_modify files (path a) (hroot a) (hasset a)).trans (ih _)

/-- The foreign keys hold, and every link is a hash under the root of its row. -/
structure Sound (db : Catalog ρ) : Prop where
  linked : ∀ root asset, db.Linked root asset → asset ∈ db.assets ∧ db.HashedUnder root asset
  rooted : ∀ path row, db.files.get? path = some row → db.Recorded row.rootId
  derived : ∀ d ∈ db.derived, d.asset ∈ db.assets

theorem Sound.empty : (empty : Catalog ρ).Sound := by
  constructor
  · rintro root asset ⟨path, row, h, -⟩
    simp [Catalog.empty] at h
  · intro path row h
    simp [Catalog.empty] at h
  · intro d h
    simp [Catalog.empty] at h

variable {db db' : Catalog ρ} {root : RootId} {now : Seconds} {asset : AssetId}
  {orphans : List AssetId}

theorem Sound.narrow (h : db.Sound) {files : Dict FilePath CatalogFile}
    (hfiles : Narrowed db.files files) : Sound { db with files := files } where
  linked root asset := by
    rintro ⟨path, row', hrow', hroot, hasset⟩
    obtain ⟨row, hrow, hr, ha⟩ := hfiles path row' hrow'
    rcases ha with hnone | heq
    · rw [hnone] at hasset
      contradiction
    · exact h.linked root asset ⟨path, row, hrow, hr ▸ hroot, heq ▸ hasset⟩
  rooted path row' hrow' := by
    obtain ⟨row, hrow, hr, -⟩ := hfiles path row' hrow'
    exact hr ▸ h.rooted path row hrow
  derived := h.derived

theorem Sound.recordRoot (h : db.Sound) (row : RootRow) :
    (db.recordRoot row).Sound := by
  have hset (root : RootId) (n : RootId) :
      Sound { db with roots := db.roots.set root row, nextRoot := n } := by
    refine ⟨h.linked, ?_, h.derived⟩
    intro path file hfile
    unfold Recorded
    rw [Dict.get?_set]
    split
    · rfl
    · exact h.rooted path file hfile
  unfold Catalog.recordRoot
  split <;> exact hset _ _

theorem Sound.scanEntry (h : db.Sound) {entry : FilePath × FileState}
    (hscan : scanEntry root now db entry = some db') :
    db'.Sound := by
  unfold Catalog.scanEntry at hscan
  split at hscan
  · split at hscan
    · rename_i hnone hroot
      cases hscan
      constructor
      · rintro root' asset ⟨path, row, hrow, hr, ha⟩
        simp only at hrow
        rw [Dict.get?_set] at hrow
        split at hrow
        · rw [← Option.some.inj hrow] at ha
          simp [pendingRow] at ha
        · exact h.linked root' asset ⟨path, row, hrow, hr, ha⟩
      · intro path row hrow
        simp only at hrow
        rw [Dict.get?_set] at hrow
        split at hrow
        · cases hrow
          exact hroot
        · exact h.rooted path row hrow
      · exact h.derived
    · contradiction
  · split at hscan
    · exact Option.some.inj hscan ▸ h
    · split at hscan
      · cases hscan
        exact h.narrow (narrowed_modify _ _ (fun _ => rfl) fun _ => .inr rfl)
      · cases hscan
        exact h.narrow (narrowed_modify _ _ (fun _ => rfl) fun _ => .inl rfl)

theorem Sound.scanBatch (h : db.Sound) {entries : List (FilePath × FileState)}
    (hscan : db.scanBatch root now entries = some db') :
    db'.Sound := by
  unfold Catalog.scanBatch at hscan
  induction entries generalizing db with
  | nil => exact Option.some.inj hscan ▸ h
  | cons entry entries ih =>
    rw [List.foldlM_cons] at hscan
    obtain ⟨mid, hmid, hscan⟩ := Option.bind_eq_some_iff.mp hscan
    exact ih (h.scanEntry hmid) hscan

theorem Sound.hashCommit (h : db.Sound) (path : FilePath) (root : RootId) (stat : FileState)
    (asset : AssetId) : (db.hashCommit path root stat asset).Sound where
  linked root' asset' := by
    rintro ⟨p, row', hrow', hr, ha⟩
    simp only [Catalog.hashCommit] at hrow'
    rw [Dict.get?_modify] at hrow'
    have hold (hlinked : db.Linked root' asset') : asset' ∈ (db.hashCommit path root stat asset).assets ∧
        (db.hashCommit path root stat asset).HashedUnder root' asset' := by
      obtain ⟨hmem, r, hr, hrec⟩ := h.linked root' asset' hlinked
      refine ⟨?_, r, List.mem_append_right _ hr, hrec⟩
      simp only [Catalog.hashCommit]
      split
      · exact hmem
      · exact List.mem_cons_of_mem _ hmem
    split at hrow'
    · rename_i hp
      obtain ⟨row, hrow, rfl⟩ := Option.map_eq_some_iff.mp hrow'
      obtain rfl : asset = asset' := Option.some.inj ha
      refine ⟨?_, ⟨asset, path, row.rootId⟩, ?_, rfl, hr⟩
      · simp only [Catalog.hashCommit]
        split
        · assumption
        · exact List.mem_cons_self
      · simp [Catalog.hashCommit, hashRecords, hrow]
    · exact hold ⟨p, row', hrow', hr, ha⟩
  rooted p row' hrow' := by
    simp only [Catalog.hashCommit] at hrow'
    rw [Dict.get?_modify] at hrow'
    split at hrow'
    · obtain ⟨row, hrow, rfl⟩ := Option.map_eq_some_iff.mp hrow'
      exact h.rooted _ row hrow
    · exact h.rooted p row' hrow'
  derived d hd := by
    simp only [Catalog.hashCommit]
    split
    · exact h.derived d hd
    · exact List.mem_cons_of_mem _ (h.derived d hd)

theorem Sound.stageCommit (h : db.Sound) {rows : List (DerivedTable × ρ)}
    (hcommit : db.stageCommit asset rows = some db') :
    db'.Sound := by
  unfold Catalog.stageCommit at hcommit
  split at hcommit
  · rename_i hasset
    cases hcommit
    refine ⟨h.linked, h.rooted, ?_⟩
    intro d hd
    rcases List.mem_append.mp hd with hd | hd
    · exact h.derived d (List.mem_of_mem_filter hd)
    · obtain ⟨r, hr, rfl⟩ := List.mem_map.mp hd
      rcases hasset with hmem | hnil
      · exact hmem
      · simp [hnil] at hr
  · contradiction

theorem mem_orphaned :
    asset ∈ db.orphaned root ↔
      db.Linked root asset ∧ ∀ other, other ≠ root → ¬ db.Linked other asset := by
  have hcandidate : asset ∈ ((db.files.items.filter fun f => f.2.rootId = root).filterMap
      fun f => f.2.assetId) ↔ db.Linked root asset := by
    simp only [List.mem_filterMap, List.mem_filter, decide_eq_true_eq, Prod.exists, Linked,
      Dict.get?_eq_some]
    constructor
    · rintro ⟨path, row, ⟨hmem, hroot⟩, hasset⟩
      exact ⟨path, row, hmem, hroot, hasset⟩
    · rintro ⟨path, row, hmem, hroot, hasset⟩
      exact ⟨path, row, ⟨hmem, hroot⟩, hasset⟩
  unfold orphaned
  rw [List.mem_filter, List.mem_dedup, hcandidate]
  apply and_congr_right
  intro _
  rw [Option.isNone_iff_eq_none, List.find?_eq_none]
  constructor
  · rintro hnone other hother ⟨path, row, hrow, hroot, hasset⟩
    apply hnone (path, row) (Dict.get?_eq_some.mp hrow)
    simp [hasset, hroot, hother]
  · intro hnot f hf
    simp only [decide_eq_true_eq, not_and, not_not]
    intro hasset
    by_contra hne
    exact hnot f.2.rootId hne ⟨f.1, f.2, Dict.get?_eq_some.mpr hf, rfl, hasset⟩

/-- The transaction of `remove_root`, when it does not fail. -/
theorem removeRoot_some (h : db.removeRoot root orphans = some db') :
    db' = { db with
      files := db.files.filter fun _ row => row.rootId ≠ root
      assets := db.assets.filter fun asset => asset ∉ orphans
      derived := db.derived.filter fun d => d.asset ∉ orphans
      roots := db.roots.erase root } ∧
    ∀ other asset, other ≠ root → db.Linked other asset → asset ∈ db.assets →
      asset ∉ orphans := by
  unfold removeRoot at h
  simp only at h
  split at h
  · contradiction
  · rename_i hany
    refine ⟨(Option.some.inj h).symm, ?_⟩
    rintro other asset hother ⟨path, row, hrow, hroot, hasset⟩ hmem horphan
    apply hany
    rw [List.any_eq_true]
    refine ⟨(path, row), Dict.mem_filter.mpr ⟨Dict.get?_eq_some.mp hrow, ?_⟩, ?_⟩
    · simpa [hroot] using hother
    · simp [hasset, hmem, horphan]

theorem Sound.removeRoot (h : db.Sound) (hremove : db.removeRoot root orphans = some db') :
    db'.Sound := by
  obtain ⟨rfl, hkept⟩ := removeRoot_some hremove
  have hfile (path : FilePath) (row : CatalogFile)
      (hrow : (db.files.filter fun _ row => row.rootId ≠ root).get? path = some row) :
      db.files.get? path = some row ∧ row.rootId ≠ root := by
    rw [Dict.get?_filter, Option.filter_eq_some_iff] at hrow
    simpa using hrow
  constructor
  · rintro other asset ⟨path, row, hrow, hroot, hasset⟩
    obtain ⟨hold, hne⟩ := hfile path row hrow
    have hlinked : db.Linked other asset := ⟨path, row, hold, hroot, hasset⟩
    obtain ⟨hmem, hhashed⟩ := h.linked other asset hlinked
    refine ⟨?_, hhashed⟩
    simpa [hmem] using hkept other asset (hroot ▸ hne) hlinked hmem
  · intro path row hrow
    obtain ⟨hold, hne⟩ := hfile path row hrow
    unfold Recorded
    rw [Dict.get?_erase_ne hne]
    exact h.rooted path row hold
  · intro d hd
    obtain ⟨hd, hnot⟩ := List.mem_filter.mp hd
    exact List.mem_filter.mpr ⟨h.derived d hd, hnot⟩

end Catalog

structure Removal.Forgets (m : Removal ρ) : Prop where
  hashed : ∀ asset ∈ m.after.assets, ∃ root, m.after.Recorded root ∧ m.after.HashedUnder root asset
  derived : ∀ d ∈ m.after.derived, d.asset ∈ m.after.assets
  last : (∀ root, ¬ m.after.Recorded root) →
    m.after.assets = [] ∧ m.after.derived = [] ∧ m.after.files.items = []
  kept : ∀ root asset, root ≠ m.root → m.before.Linked root asset → asset ∈ m.after.assets

namespace Catalog

def Findable (db : Catalog ρ) (root : RootId) (asset : AssetId) : Prop :=
  (∃ other, db.Linked other asset) ∨
    ∃ other, other ≠ root ∧ db.Recorded other ∧ db.HashedUnder other asset

/-- What must not happen between the reads of `remove_root` and its transaction: another root
goes, or an asset comes that only the root provides. -/
structure Steady (read now : Catalog ρ) (root : RootId) : Prop where
  roots : ∀ other, other ≠ root → read.Recorded other → now.Recorded other
  assets : ∀ asset ∈ now.assets, asset ∉ read.assets →
    ∃ other, other ≠ root ∧ now.Recorded other ∧ now.HashedUnder other asset

theorem forgets_removeRoot {read db db' : Catalog ρ} {root : RootId} (hread : read.Sound)
    (hdb : db.Sound) (hhistory : ∀ r ∈ read.hashed, r ∈ db.hashed)
    (hfindable : ∀ asset ∈ read.assets, read.Findable root asset) (hsteady : read.Steady db root)
    (hremove : db.removeRoot root (read.orphaned root) = some db') :
    (⟨root, read, db, db'⟩ : Removal ρ).Forgets := by
  have hsound := hdb.removeRoot hremove
  obtain ⟨hdb', hkept⟩ := removeRoot_some hremove
  have hrecorded (other : RootId) (hne : other ≠ root) (h : db.Recorded other) :
      db'.Recorded other := by
    rw [hdb']
    unfold Recorded
    rw [Dict.get?_erase_ne hne]
    exact h
  have hunder (other : RootId) (asset : AssetId) (h : read.HashedUnder other asset) :
      db'.HashedUnder other asset := by
    obtain ⟨r, hr, hrec⟩ := h
    rw [hdb']
    exact ⟨r, hhistory r hr, hrec⟩
  have hhashed : ∀ asset ∈ db'.assets, ∃ other, db'.Recorded other ∧
      db'.HashedUnder other asset := by
    intro asset hasset
    obtain ⟨hmem, hnot⟩ : asset ∈ db.assets ∧ asset ∉ read.orphaned root := by
      rw [hdb'] at hasset
      simpa using hasset
    by_cases hold : asset ∈ read.assets
    · -- the link that makes it findable is not one of this root only
      have hother : ∃ other, other ≠ root ∧ read.Recorded other ∧ read.HashedUnder other asset := by
        rcases hfindable asset hold with ⟨other, hlinked⟩ | helsewhere
        · by_cases hne : other = root
          · subst hne
            have hmore : ∃ more, more ≠ other ∧ read.Linked more asset := by
              by_contra hnone
              apply hnot
              refine mem_orphaned.mpr ⟨hlinked, ?_⟩
              intro more hmore hlinked'
              exact hnone ⟨more, hmore, hlinked'⟩
            obtain ⟨more, hmore, hlinked'⟩ := hmore
            obtain ⟨path, row, hrow, rfl, -⟩ := id hlinked'
            exact ⟨_, hmore, hread.rooted path row hrow, (hread.linked _ _ hlinked').2⟩
          · obtain ⟨path, row, hrow, rfl, -⟩ := id hlinked
            exact ⟨_, hne, hread.rooted path row hrow, (hread.linked _ _ hlinked).2⟩
        · exact helsewhere
      obtain ⟨other, hne, hrec, hhash⟩ := hother
      exact ⟨other, hrecorded other hne (hsteady.roots other hne hrec), hunder other asset hhash⟩
    · obtain ⟨other, hne, hrec, r, hr, hhash⟩ := hsteady.assets asset hmem hold
      refine ⟨other, hrecorded other hne hrec, r, ?_, hhash⟩
      rw [hdb']
      exact hr
  constructor
  · exact hhashed
  · exact hsound.derived
  · intro hnone
    have hassets : db'.assets = [] := by
      rw [List.eq_nil_iff_forall_not_mem]
      intro asset hasset
      obtain ⟨other, hrec, -⟩ := hhashed asset hasset
      exact hnone other hrec
    refine ⟨hassets, ?_, ?_⟩
    · rw [List.eq_nil_iff_forall_not_mem]
      intro d hd
      have hmem := hsound.derived d hd
      rw [hassets] at hmem
      simp at hmem
    · rw [List.eq_nil_iff_forall_not_mem]
      intro f hf
      exact hnone _ (hsound.rooted f.1 f.2 (Dict.get?_eq_some.mpr hf))
  · intro other asset hne hlinked
    have hmem := (hdb.linked other asset hlinked).1
    simp only [hdb', List.mem_filter, decide_eq_true_eq]
    exact ⟨hmem, hkept other asset hne hlinked hmem⟩

end Catalog

namespace CatalogSys

/-- The condition on each step: `remove_root` reads an index in which every asset can be found,
and nothing upsets that before its transaction. -/
def Traceable (s : CatalogSys ρ) : CatalogMove ρ → Prop
  | .removeRead _ root => ∀ asset ∈ s.db.assets, s.db.Findable root asset
  | .removeCommit call => ∀ r, s.removing call = some r → r.2.Steady s.db r.1
  | _ => True

structure Inv (s : CatalogSys ρ) : Prop where
  sound : s.db.Sound
  reads : ∀ call r, s.removing call = some r → r.2.Sound ∧ (∀ h ∈ r.2.hashed, h ∈ s.db.hashed) ∧
    ∀ asset ∈ r.2.assets, r.2.Findable r.1 asset
  removals : ∀ m ∈ s.removals, m.Forgets

theorem Inv.start : (start : CatalogSys ρ).Inv := by
  constructor
  · exact Catalog.Sound.empty
  · simp [CatalogSys.start]
  · simp [CatalogSys.start]

variable {s : CatalogSys ρ} {db db' : Catalog ρ} {root : RootId} {now : Seconds}

theorem Inv.commit (h : s.Inv) (hsound : db.Sound) (hhashed : ∀ r ∈ s.db.hashed, r ∈ db.hashed)
    (hashing : ℕ → Option (FilePath × RootId × FileState)) :
    Inv { s with db := db, hashing := hashing } where
  sound := hsound
  reads call r hr := by
    obtain ⟨hread, hhistory, hfindable⟩ := h.reads call r hr
    exact ⟨hread, fun x hx => hhashed x (hhistory x hx), hfindable⟩
  removals := h.removals

theorem scanEntry_hashed {entry : FilePath × FileState}
    (h : Catalog.scanEntry root now db entry = some db') :
    db'.hashed = db.hashed := by
  unfold Catalog.scanEntry at h
  split at h
  · split at h
    · rw [← Option.some.inj h]
    · contradiction
  · split at h
    · rw [Option.some.inj h]
    · split at h <;> rw [← Option.some.inj h]

theorem scanBatch_hashed {entries : List (FilePath × FileState)}
    (h : db.scanBatch root now entries = some db') :
    db'.hashed = db.hashed := by
  unfold Catalog.scanBatch at h
  induction entries generalizing db with
  | nil => rw [Option.some.inj h]
  | cons entry entries ih =>
    rw [List.foldlM_cons] at h
    obtain ⟨mid, hmid, h⟩ := Option.bind_eq_some_iff.mp h
    rw [ih h, scanEntry_hashed hmid]

theorem stageCommit_hashed {asset : AssetId} {rows : List (DerivedTable × ρ)}
    (h : db.stageCommit asset rows = some db') :
    db'.hashed = db.hashed := by
  unfold Catalog.stageCommit at h
  split at h
  · rw [← Option.some.inj h]
  · contradiction

theorem recordRoot_hashed (db : Catalog ρ) (row : RootRow) :
    (db.recordRoot row).hashed = db.hashed := by
  unfold Catalog.recordRoot
  split <;> rfl

/-- A transaction that may fail. -/
theorem Inv.attempt (h : s.Inv) {db : Option (Catalog ρ)}
    (hdb : ∀ db', db = some db' → db'.Sound ∧ db'.hashed = s.db.hashed) : (s.attempt db).Inv := by
  unfold CatalogSys.attempt
  cases hcase : db with
  | none => exact h
  | some db' =>
    obtain ⟨hsound, hhashed⟩ := hdb db' hcase
    apply h.commit hsound
    intro r hr
    rw [hhashed]
    exact hr

/-- A call of `remove_root` ends without a change to the index. -/
theorem Inv.removed (h : s.Inv) (call : ℕ) :
    Inv { s with removing := Function.update s.removing call none } where
  sound := h.sound
  reads other r hr := by
    simp only [Function.update_apply] at hr
    split at hr
    · contradiction
    · exact h.reads other r hr
  removals := h.removals

theorem Inv.removeRead (h : s.Inv) (hfind : ∀ asset ∈ s.db.assets, s.db.Findable root asset)
    (call : ℕ) :
    Inv { s with removing := Function.update s.removing call (some (root, s.db)) } where
  sound := h.sound
  reads other r hr := by
    simp only [Function.update_apply] at hr
    split at hr
    · cases hr
      exact ⟨h.sound, fun x hx => hx, hfind⟩
    · exact h.reads other r hr
  removals := h.removals

/-- The transaction of a removal that was not upset. -/
theorem Inv.removeCommit (h : s.Inv) {call : ℕ} {r : RootId × Catalog ρ}
    (hr : s.removing call = some r) (hsteady : r.2.Steady s.db r.1)
    (hremove : s.db.removeRoot r.1 (r.2.orphaned r.1) = some db) :
    Inv { s with
      removing := Function.update s.removing call none
      db := db
      removals := ⟨r.1, r.2, s.db, db⟩ :: s.removals } := by
  obtain ⟨hread, hhistory, hfindable⟩ := h.reads call r hr
  have hhashed : db.hashed = s.db.hashed := by rw [(Catalog.removeRoot_some hremove).1]
  constructor
  · exact h.sound.removeRoot hremove
  · intro other r' hr'
    obtain ⟨hread', hhistory', hfindable'⟩ := (h.removed call).reads other r' hr'
    exact ⟨hread', fun x hx => hhashed ▸ hhistory' x hx, hfindable'⟩
  · intro m hm
    rcases List.mem_cons.mp hm with rfl | hm
    · exact Catalog.forgets_removeRoot hread h.sound hhistory hfindable hsteady hremove
    · exact h.removals m hm

theorem Inv.step {s' : CatalogSys ρ} {move : CatalogMove ρ} (h : s.Inv) (hok : s.Traceable move)
    (hs : s.step move = some s') : s'.Inv := by
  cases move with
  | recordRoot row =>
    cases hs
    apply h.commit (h.sound.recordRoot row)
    intro r hr
    rw [recordRoot_hashed]
    exact hr
  | scanBatch root now entries =>
    cases hs
    apply h.attempt
    intro db hdb
    exact ⟨h.sound.scanBatch hdb, scanBatch_hashed hdb⟩
  | scanMissing root seen now =>
    cases hs
    have hnarrow := Catalog.narrowed_foldl (fun f : FilePath × CatalogFile => f.1)
      (f := fun _ row => { row with status := .missing, seenAt := now })
      (fun _ _ => rfl) (fun _ _ => .inr rfl)
      (s.db.files.items.filter fun f =>
        f.2.rootId = root ∧ f.2.status ≠ .missing ∧ f.1 ∉ seen) s.db.files
    exact h.commit (h.sound.narrow hnarrow) (fun r hr => hr) s.hashing
  | markOutOfScope paths =>
    cases hs
    have hnarrow := Catalog.narrowed_foldl (fun path : FilePath => path)
      (f := fun _ row => { row with status := .missing, error := some outOfScope })
      (fun _ _ => rfl) (fun _ _ => .inr rfl) paths s.db.files
    exact h.commit (h.sound.narrow hnarrow) (fun r hr => hr) s.hashing
  | markChanged paths =>
    cases hs
    have hsound : (s.db.markChanged paths).Sound := by
      unfold Catalog.markChanged
      apply h.sound.narrow
      apply Catalog.narrowed_foldl (fun p : FilePath × Option FileState => p.1)
      · intro p row
        cases p.2 with
        | none => rfl
        | some stat => rfl
      · intro p row
        cases p.2 with
        | none => exact .inl rfl
        | some stat => exact .inl rfl
    exact h.commit hsound (fun r hr => hr) s.hashing
  | hashRead runner path =>
    simp only [CatalogSys.step] at hs
    split at hs
    · split at hs
      · cases hs
        exact h.commit h.sound (fun r hr => hr) _
      · contradiction
    · contradiction
  | hashFailed runner error =>
    obtain ⟨read, -, rfl⟩ := Option.map_eq_some_iff.mp hs
    have hnarrow := Catalog.narrowed_modify s.db.files read.1
      (f := fun row => { row with status := .failed, error := some error })
      (fun _ => rfl) (fun _ => .inr rfl)
    exact h.commit (h.sound.narrow hnarrow) (fun r hr => hr) _
  | hashStopped runner =>
    cases hs
    exact h.commit h.sound (fun r hr => hr) _
  | hashCommit runner asset =>
    obtain ⟨read, -, rfl⟩ := Option.map_eq_some_iff.mp hs
    exact h.commit (h.sound.hashCommit read.1 read.2.1 read.2.2 asset)
      (fun r hr => List.mem_append_right _ hr) _
  | stageCommit asset rows =>
    cases hs
    apply h.attempt
    intro db hdb
    exact ⟨h.sound.stageCommit hdb, stageCommit_hashed hdb⟩
  | removeRead call root =>
    simp only [CatalogSys.step] at hs
    split at hs
    · cases hs
      exact h.removeRead hok call
    · contradiction
  | removeCommit call =>
    obtain ⟨read, hread, rfl⟩ := Option.map_eq_some_iff.mp hs
    simp only
    split
    · rename_i db hdb
      exact h.removeCommit hread (hok read hread) hdb
    · exact h.removed call
  | removeRefused call =>
    obtain ⟨read, -, rfl⟩ := Option.map_eq_some_iff.mp hs
    exact h.removed call

theorem Inv.reach (h : (catalogMachine ρ).Reach Traceable s) : s.Inv := by
  apply h.invariant
  · rintro s rfl
    exact .start
  · intro s move s' hinv hok hs
    exact hinv.step hok hs

end CatalogSys

namespace CatalogSys

end CatalogSys

end QronosAgent.Media

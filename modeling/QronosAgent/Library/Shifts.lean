import QronosAgent.Library.Judged

/-! Renames and moves: the file is moved, the record follows, or the file goes back. -/
namespace QronosAgent.Library
open Lib

section
variable {F : Type} [DecidableEq F] {sys : System} {given : Given} {refusal : Call → Option OsError}
variable {s t u : State F} {id : PyStr} {a : Artifact F} {path target copy : Place F}
variable {bytes : List UInt8} {op : Operation F}

def RolledBack (sys : System) (u : State F) (target path copy : Place F) (r : Ending LibraryError Unit × State F) :
    Shift → Prop
  | .moved _ => r = (.raised .putBack, u.renamed sys target path)
  | .stayed clean => ∃ t, r = (.raised .remains, t) ∧
    if clean then t = u else ∃ bs, t = u.write sys copy bs
  | .doubled => ∃ t, r = (.raised .remains, t) ∧ u.at? sys path = none ∧
    (t = u.linked sys target path ∨ ∃ bs, t = (u.linked sys target path).write sys copy bs)

def wayBack (sys : System) (given : Given) (a : Artifact F) (original movedTo : Place F)
    (crossVolume : Bool) : OnLibrary F Unit := do
  Fated.rescue (if crossVolume then do
      let _ ← moveFile sys given .back a movedTo original
      pure ()
    else renameNoReplace sys .back .artifact movedTo original) fun _ => Fated.raise .remains
  Fated.raise .putBack

theorem rolledBack_of {α : Type} {m : OnLibrary F α} {n : OnLibrary F Unit} {shift : Shift}
    (hm : Shifted sys u target path copy (m.run (Fated.refusing refusal) u) shift)
    (hn : ∀ fates v, n.run fates v = (m >>= fun _ => pure ()).run fates v) :
    RolledBack sys u target path copy ((do
      Fated.rescue n fun _ => Fated.raise .remains
      Fated.raise .putBack : OnLibrary F Unit).run (Fated.refusing refusal) u) shift := by
  rw [Fated.run_bind, Fated.run_rescue, hn]
  cases shift with
  | moved cross =>
    obtain ⟨x, hm⟩ := hm
    rw [Fated.run_then hm]
    rfl
  | stayed clean =>
    obtain ⟨e, t, -, hm, ht⟩ := hm
    rw [Fated.run_abort hm]
    exact ⟨t, rfl, ht⟩
  | doubled =>
    obtain ⟨e, t, -, hm, hfree, ht⟩ := hm
    rw [Fated.run_abort hm]
    exact ⟨t, rfl, hfree, ht⟩

theorem run_wayBack {cross : Bool} {back : Shift}
    (hcross : cross = true → Shifted sys u target path copy
      ((moveFile sys given .back a target path).run (Fated.refusing refusal) u) back)
    (hplain : cross = false → Shifted sys u target path copy
      ((renameNoReplace sys .back .artifact target path).run (Fated.refusing refusal) u) back) :
    RolledBack sys u target path copy
      ((wayBack sys given a path target cross).run (Fated.refusing refusal) u) back := by
  unfold wayBack
  cases cross with
  | true => exact rolledBack_of (hcross rfl) fun _ _ => rfl
  | false =>
    apply rolledBack_of (hplain rfl)
    intro fates v
    rw [if_neg Bool.false_ne_true, Fated.run_bind]
    rcases (renameNoReplace sys .back .artifact target path).run fates v with ⟨ending, w⟩
    cases ending <;> rfl

theorem run_relocateOrRollBack {cross : Bool} {r : Ending LibraryError Unit × State F}
    (hr : (relocateOrRollBack sys given id a path target cross).run (Fated.refusing refusal) u = r)
    (hbytes : u.bytes? sys target = some bytes) (hrecord : u.records.get? id = some a) :
    match relocateEnd refusal bytes with
    | .whole => r = (.returned (), housekeeping refusal
        (u.withRecord id (a.atFile target (identityOf sys given bytes))))
    | .unwritten => r = (wayBack sys given a path target cross).run (Fated.refusing refusal) u
    | .written => r = (wayBack sys given a path target cross).run (Fated.refusing refusal)
        (housekeeping refusal
          (u.withRecord id (a.atFile target (identityOf sys given bytes)))) := by
  have hrun := run_relocate given refusal hbytes hrecord
  unfold relocateOrRollBack at hr
  rw [Fated.run_rescue, Fated.run_bind] at hr
  cases hend : relocateEnd refusal bytes with
  | whole =>
    rw [hend] at hrun
    obtain ⟨x, -, hrun⟩ := hrun
    rw [hrun] at hr
    exact hr.symm
  | unwritten =>
    rw [hend] at hrun
    obtain ⟨e, -, hrun⟩ := hrun
    rw [hrun] at hr
    exact hr.symm
  | written =>
    rw [hend] at hrun
    obtain ⟨e, -, hrun⟩ := hrun
    rw [hrun] at hr
    exact hr.symm

structure AtTarget (sys : System) (s u : State F) (path target : Place F) (bytes : List UInt8) :
    Prop where
  disk : u.disk = (s.renamed sys path target).disk
  bin : u.recycleBin = s.recycleBin
  admitted : Admitted sys s path target
  bytes : s.bytes? sys path = some bytes

theorem at?_congr {p : Place F} (h : t.disk = u.disk) : t.at? sys p = u.at? sys p := by
  unfold State.at?
  rw [h]

theorem bytes?_disk {p : Place F} (h : t.disk = u.disk) : t.bytes? sys p = u.bytes? sys p :=
  State.bytes?_congr (at?_congr h)

namespace AtTarget

theorem target_bytes (h : AtTarget sys s u path target bytes) :
    u.bytes? sys target = some bytes := by
  rw [bytes?_disk h.disk]
  apply State.bytes?_of_at?
  rw [at?_renamed_target, State.at?_of_bytes? h.bytes]

theorem keep (h : AtTarget sys s u path target bytes) {q : Place F} {bs : List UInt8}
    (hq : q.key sys ≠ path.key sys) (hbs : s.bytes? sys q = some bs) :
    u.bytes? sys q = some bs := by
  rw [bytes?_disk h.disk]
  exact keep_renamed h.admitted hq hbs

theorem path_free (h : AtTarget sys s u path target bytes) (hne : target.key sys ≠ path.key sys) :
    u.at? sys path = none := by
  rw [at?_congr h.disk]
  unfold State.renamed
  rw [State.at?_put_ne hne.symm, State.at?_put_self]

/-- A name that was free, and is not the new one. -/
theorem free (h : AtTarget sys s u path target bytes) (hcopy : s.at? sys copy = none)
    (hne : copy.key sys ≠ target.key sys) : u.at? sys copy = none := by
  rw [at?_congr h.disk]
  have hpath : copy.key sys ≠ path.key sys := by
    apply (State.key_ne _ hcopy).symm
    rw [State.at?_of_bytes? h.bytes]
    exact fun hn => by cases hn
  unfold State.renamed
  rw [State.at?_put_ne hne, State.at?_put_ne hpath, hcopy]

theorem back (h : AtTarget sys s u path target bytes) :
    (u.renamed sys target path).disk = s.disk := by
  have hrenamed : (u.renamed sys target path).disk =
      ((s.renamed sys path target).renamed sys target path).disk := by
    unfold State.renamed State.put State.at?
    simp only
    rw [h.disk]
    rfl
  rw [hrenamed, renamed_back h.admitted]

end AtTarget

/-- The file could not be put back: it is at the new place, and perhaps at the old one too. -/
structure Remaining (sys : System) (s u t : State F) (path target : Place F)
    (bytes : List UInt8) : Prop where
  records : t.records = u.records
  bin : t.recycleBin = s.recycleBin
  target_bytes : t.bytes? sys target = some bytes
  keep : ∀ q bs, q.key sys ≠ path.key sys → s.bytes? sys q = some bs → t.bytes? sys q = some bs

theorem remaining_self (h : AtTarget sys s u path target bytes) :
    Remaining sys s u u path target bytes :=
  ⟨rfl, h.bin, h.target_bytes, fun _ _ => h.keep⟩

/-- The file has both names. -/
theorem remaining_linked (h : AtTarget sys s u path target bytes)
    (hfree : u.at? sys path = none) :
    Remaining sys s u (u.linked sys target path) path target bytes ∧
      (u.linked sys target path).bytes? sys path = some bytes := by
  have hbytes := h.target_bytes
  rw [linked_eq_write hbytes]
  refine ⟨⟨rfl, h.bin, keep_write hfree hbytes, fun q bs hq hbs => ?_⟩, State.bytes?_write_self⟩
  unfold State.write
  rw [State.bytes?_put_ne hq]
  exact h.keep hq hbs

theorem Remaining.write (h : Remaining sys s u t path target bytes) (hfree : t.at? sys copy = none)
    (bs : List UInt8) : Remaining sys s u (t.write sys copy bs) path target bytes :=
  ⟨h.records, h.bin, keep_write hfree h.target_bytes,
    fun q bs hq hbs => keep_write hfree (h.keep q bs hq hbs)⟩

variable (target) in
theorem linked_free (hfree : t.at? sys copy = none) (hne : copy.key sys ≠ path.key sys) :
    (t.linked sys target path).at? sys copy = none := by
  unfold State.linked
  rw [State.at?_put_ne hne, hfree]

/-- The file could not be put back, and the record was not changed. -/
theorem remains_unwritten (hrecord : s.records.get? id = some a) (hpath : a.pathOrUrl = .file path)
    (h : AtTarget sys s u path target bytes) (hu : u.records = s.records)
    (hr : Remaining sys s u t path target bytes) (hop : target ∈ op.newPlace sys path)
    (hthere : t.bytes? sys path = some bytes) :
    Truthful sys s t id op (.raised .remains) := by
  apply truthful_of (p := path) hrecord hpath h.bytes hr.keep hr.bin _ hthere (.inl hthere)
    (fun _ hn => by cases hn)
  · intro e he
    cases he
    exact .inr ⟨rfl, target, hop, hr.target_bytes⟩
  · rw [← hpath]
    exact recorded_same hrecord (hr.records.trans hu)

/-- Its record names where it is not any more. -/
theorem not_remains_unwritten (hrecord : s.records.get? id = some a)
    (hpath : a.pathOrUrl = .file path) (h : AtTarget sys s u path target bytes)
    (hu : u.records = s.records) (hr : Remaining sys s u t path target bytes)
    (hop : target ∈ op.newPlace sys path) (hgone : t.at? sys path = none)
    {ending : Ending LibraryError (Option PyStr)} : ¬ Truthful sys s t id op ending := by
  intro htruth
  obtain ⟨p, hp, hbytes⟩ := htruth.named path bytes (fileOf_eq hrecord hpath h.bytes)
    (.inr ⟨target, hop, hr.target_bytes⟩)
  rw [hr.records.trans hu, hrecord, Option.map_some, hpath] at hp
  cases hp
  rw [State.bytes?_of_none hgone] at hbytes
  cases hbytes

theorem remains_written (hrecord : s.records.get? id = some a) (hpath : a.pathOrUrl = .file path)
    (h : AtTarget sys s u path target bytes) (hrecorded : Recorded s u id (.file target))
    (hr : Remaining sys s u t path target bytes) (hop : target ∈ op.newPlace sys path) :
    Truthful sys s t id op (.raised .remains) := by
  have hmoved : Moved sys t op path bytes := ⟨target, hop, hr.target_bytes⟩
  apply truthful_of (p := target) hrecord hpath h.bytes hr.keep hr.bin _ hr.target_bytes
    (.inr hmoved) (fun _ hn => by cases hn)
  · intro e he
    cases he
    exact .inr ⟨rfl, hmoved⟩
  · intro b
    rw [hr.records]
    exact hrecorded b

def Operation.isShift : Operation F → Bool
  | .rename _ | .move _ => true
  | _ => false

theorem shift_done (hrecord : s.records.get? id = some a) (hpath : a.pathOrUrl = .file path)
    (h : AtTarget sys s u path target bytes) (hrecorded : Recorded s u id (.file target))
    (hop : target ∈ op.newPlace sys path) (hshift : op.isShift = true) (new : Option PyStr) :
    Truthful sys s u id op (.returned new) := by
  have hmoved : Moved sys u op path bytes := ⟨target, hop, h.target_bytes⟩
  apply truthful_of (p := target) hrecord hpath h.bytes (fun _ _ => h.keep) h.bin hrecorded
    h.target_bytes (.inr hmoved) _ (fun _ hn => by cases hn)
  intro new' _
  have hnames : u.Names sys id target bytes := ⟨by rw [hrecorded, if_pos rfl], h.target_bytes⟩
  cases op with
  | rename | move => exact ⟨target, hop, hnames⟩
  | _ => cases hshift

theorem moved_iff {r : Ending LibraryError Unit × State F} {cross : Bool}
    (hrecord : s.records.get? id = some a) (hpath : a.pathOrUrl = .file path)
    (hop : target ∈ op.newPlace sys path) (hshift : op.isShift = true)
    (hmoved : AtTarget sys s (s.renamed sys path target) path target bytes)
    (hcopy : s.at? sys copy = none) (hcopyTarget : copy.key sys ≠ target.key sys)
    (hr : (relocateOrRollBack sys given id a path target cross).run (Fated.refusing refusal)
      (s.renamed sys path target) = r)
    (back : State F → Shift) (hback : ∀ u, AtTarget sys s u path target bytes →
      RolledBack sys u target path copy
        ((wayBack sys given a path target cross).run (Fated.refusing refusal) u) (back u)) :
    Truthful sys s r.2 id op (r.1.map fun _ => none) ↔
      ShiftFine s (s.renamed sys path target) (housekeeping refusal
        ((s.renamed sys path target).withRecord id
          (a.atFile target (identityOf sys given bytes))))
        (target.key sys = path.key sys) back (relocateEnd refusal bytes) (.moved cross) := by
  generalize hm : s.renamed sys path target = m at hmoved hr
  have hmrecords : m.records = s.records := by
    rw [← hm]
    rfl
  have hend := run_relocateOrRollBack hr hmoved.target_bytes (hmrecords ▸ hrecord)
  have hchanged : AtTarget sys s (housekeeping refusal
      (m.withRecord id (a.atFile target (identityOf sys given bytes)))) path target bytes :=
    ⟨disk_housekeeping.trans hmoved.disk, recycleBin_housekeeping.trans hmoved.bin, hmoved.admitted,
      hmoved.bytes⟩
  have hrecorded : Recorded s (housekeeping refusal
      (m.withRecord id (a.atFile target (identityOf sys given bytes)))) id (.file target) :=
    recorded_housekeeping hmrecords
  generalize housekeeping refusal (m.withRecord id (a.atFile target (identityOf sys given bytes))) =
    changed at hend hchanged hrecorded
  have hcopyPath : copy.key sys ≠ path.key sys := by
    apply (State.key_ne _ hcopy).symm
    rw [State.at?_of_bytes? hmoved.bytes]
    exact fun hn => by cases hn
  unfold ShiftFine
  cases hreached : relocateEnd refusal bytes with
  | whole =>
    rw [hreached] at hend
    subst hend
    exact iff_of_true (shift_done hrecord hpath hchanged hrecorded hop hshift none) trivial
  | unwritten =>
    rw [hreached] at hend
    subst hend
    have hrolled := hback m hmoved
    have hfree := hmoved.free hcopy hcopyTarget
    simp only
    cases hshift' : back m with
    | moved _ =>
      rw [hshift'] at hrolled
      rw [hrolled]
      refine iff_of_true ?_ trivial
      have hsame : m.renamed sys target path = s :=
        State.ext hmoved.back hmoved.bin hmrecords
      simp only [Ending.map]
      rw [hsame]
      exact truthful_refl
    | stayed clean =>
      rw [hshift'] at hrolled
      obtain ⟨t, hrun, ht⟩ := hrolled
      rw [hrun]
      simp only [Ending.map]
      have hremaining : Remaining sys s m t path target bytes := by
        cases clean with
        | true =>
          cases ht
          exact remaining_self hmoved
        | false =>
          obtain ⟨bs, rfl⟩ := ht
          exact (remaining_self hmoved).write hfree bs
      by_cases hkey : target.key sys = path.key sys
      · refine iff_of_true (remains_unwritten hrecord hpath hmoved hmrecords hremaining hop ?_) hkey
        rw [← bytes?_key hkey]
        exact hremaining.target_bytes
      · refine iff_of_false
          (not_remains_unwritten hrecord hpath hmoved hmrecords hremaining hop ?_) hkey
        cases clean with
        | true =>
          cases ht
          exact hmoved.path_free hkey
        | false =>
          obtain ⟨bs, rfl⟩ := ht
          unfold State.write
          rw [State.at?_put_ne hcopyPath.symm]
          exact hmoved.path_free hkey
    | doubled =>
      rw [hshift'] at hrolled
      obtain ⟨t, hrun, hpathFree, ht⟩ := hrolled
      rw [hrun]
      simp only [Ending.map]
      refine iff_of_true ?_ trivial
      obtain ⟨hlinked, hthere⟩ := remaining_linked hmoved hpathFree
      rcases ht with rfl | ⟨bs, rfl⟩
      · exact remains_unwritten hrecord hpath hmoved hmrecords hlinked hop hthere
      · have hlinkedFree := linked_free target hfree hcopyPath
        exact remains_unwritten hrecord hpath hmoved hmrecords (hlinked.write hlinkedFree bs) hop
          (keep_write hlinkedFree hthere)
  | written =>
    rw [hreached] at hend
    subst hend
    have hrolled := hback changed hchanged
    have hfree := hchanged.free hcopy hcopyTarget
    simp only
    cases hshift' : back changed with
    | moved _ =>
      rw [hshift'] at hrolled
      rw [hrolled]
      simp only [Ending.map]
      constructor
      · intro htruth
        rcases htruth.failed _ rfl with heq | ⟨_, _, -, ⟨hn, -⟩ | ⟨hn, -⟩⟩
        · have hrecords : (changed.renamed sys target path).records = s.records := by rw [heq]
          exact hrecords
        · cases hn
        · cases hn
      · intro hsame
        have hback' : changed.renamed sys target path = s :=
          State.ext hchanged.back hchanged.bin hsame
        rw [hback']
        exact truthful_refl
    | stayed clean =>
      rw [hshift'] at hrolled
      obtain ⟨t, hrun, ht⟩ := hrolled
      rw [hrun]
      simp only [Ending.map]
      refine iff_of_true ?_ trivial
      cases clean with
      | true =>
        cases ht
        exact remains_written hrecord hpath hchanged hrecorded (remaining_self hchanged) hop
      | false =>
        obtain ⟨bs, rfl⟩ := ht
        exact remains_written hrecord hpath hchanged hrecorded
          ((remaining_self hchanged).write hfree bs) hop
    | doubled =>
      rw [hshift'] at hrolled
      obtain ⟨t, hrun, hpathFree, ht⟩ := hrolled
      rw [hrun]
      simp only [Ending.map]
      refine iff_of_true ?_ trivial
      obtain ⟨hlinked, hthere⟩ := remaining_linked hchanged hpathFree
      rcases ht with rfl | ⟨bs, rfl⟩
      · exact remains_written hrecord hpath hchanged hrecorded hlinked hop
      · exact remains_written hrecord hpath hchanged hrecorded
          (hlinked.write (linked_free target hfree hcopyPath) bs) hop

end
end QronosAgent.Library

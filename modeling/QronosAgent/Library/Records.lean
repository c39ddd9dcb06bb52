import QronosAgent.Library.Moves

/-! What the changes of the registry leave, by how far they get. -/
namespace QronosAgent.Library
open Lib

section
variable {F : Type} [DecidableEq F] {sys : System} {given : Given} {refusal : Call → Option OsError}
variable {s : State F} {p : Place F} {bytes : List UInt8} {id : PyStr} {a : Artifact F}

namespace State

@[simp] theorem disk_recomputed : s.recomputed.disk = s.disk := rfl

@[simp] theorem recycleBin_recomputed : s.recomputed.recycleBin = s.recycleBin := rfl

theorem get?_recomputed (b : PyStr) : s.recomputed.records.get? b =
    (s.records.get? b).map fun a => a.grouped (s.groupOf a) := by
  have hnodup : s.records.keys.Nodup := s.records.nodup
  refine (Dict.get?_foldl_modify (f := fun _ (a : Artifact F) => a.grouped (s.groupOf a))
    hnodup).trans ?_
  split
  · rfl
  · rename_i hb
    rw [Dict.get?_eq_none.mpr hb]
    rfl

theorem where_recomputed (b : PyStr) :
    (s.recomputed.records.get? b).map Artifact.pathOrUrl =
      (s.records.get? b).map Artifact.pathOrUrl := by
  rw [s.get?_recomputed b, Option.map_map]
  rfl

theorem recordAt_of (h : s.records.get? id = some a) :
    s.recordAt id a.pathOrUrl = some a := by
  unfold recordAt
  rw [h]
  simp

end State

theorem disk_housekeeping : (housekeeping refusal s).disk = s.disk := by
  unfold housekeeping
  split <;> rfl

theorem recycleBin_housekeeping : (housekeeping refusal s).recycleBin = s.recycleBin := by
  unfold housekeeping
  split <;> rfl

theorem where_housekeeping (b : PyStr) :
    ((housekeeping refusal s).records.get? b).map Artifact.pathOrUrl =
      (s.records.get? b).map Artifact.pathOrUrl := by
  unfold housekeeping
  split
  · exact State.where_recomputed b
  · rfl

/-- How a change of the registry ends that gets this far: `t` is what is committed. -/
def Commits (s t : State F) {α : Type}
    (r : Ending LibraryError α × State F) (Q : α → Prop) : Reached → Prop
  | .unwritten => ∃ e, e.isPlain = true ∧ r = (.raised e, s)
  | .written => ∃ e, e.isPlain = true ∧ r = (.raised e, t)
  | .whole => ∃ a, Q a ∧ r = (.returned a, t)

theorem run_transaction {t : Transaction} {f : State F → State F} :
    (transaction t f).run (Fated.refusing refusal) s =
      if works refusal (.transaction t) then (.returned (), f s) else (.raised .database, s) := by
  unfold transaction works
  rw [Fated.run_effect]
  cases refusal (.transaction t) <;> rfl

variable (given refusal) in
theorem run_fileIdentity (stat hash : Call) (hbytes : s.bytes? sys p = some bytes) :
    if identifies refusal stat hash bytes then
      (fileIdentity sys given stat hash p).run (Fated.refusing refusal) s =
        (.returned (identityOf sys given bytes), s)
    else ∃ e : LibraryError, e.isPlain = true ∧
      (fileIdentity sys given stat hash p).run (Fated.refusing refusal) s =
        (.raised e, s) := by
  unfold fileIdentity identifies identityOf
  rw [Fated.run_bind, run_reads hbytes]
  rcases hstat : refusal stat with _ | e
  swap
  · rw [if_neg (by simp [works, hstat])]
    exact ⟨_, rfl, rfl⟩
  simp only
  by_cases hshort : bytes.length ≤ hashInlineMaxBytes
  · rw [if_pos hshort, Fated.run_bind, run_reads hbytes]
    rcases hhash : refusal hash with _ | e
    · rw [if_pos (by simp [works, hstat, hhash]), if_pos hshort]
      rfl
    · rw [if_neg (by simp [works, hstat, hhash, Nat.not_lt.mpr hshort])]
      exact ⟨_, rfl, rfl⟩
  · rw [if_neg hshort, if_pos (by simp [works, hstat, Nat.not_le.mp hshort]), if_neg hshort]
    rfl

variable (refusal) in
theorem run_housekeeping (hrecord : (s.records.get? id).isSome = true) :
    if housekept refusal then
      ∃ a, (do
        recomputeDuplicates
        get .get id : OnLibrary F (Artifact F)).run (Fated.refusing refusal) s =
          (.returned a, housekeeping refusal s)
    else ∃ e : LibraryError, e.isPlain = true ∧ (do
      recomputeDuplicates
      get .get id : OnLibrary F (Artifact F)).run (Fated.refusing refusal) s =
        (.raised e, housekeeping refusal s) := by
  unfold recomputeDuplicates get housekept housekeeping
  rw [Fated.run_bind, run_transaction]
  by_cases hrecompute : works refusal (.transaction .recompute) = true
  swap
  · simp only [hrecompute, Bool.false_and, Bool.false_eq_true, if_false]
    exact ⟨_, rfl, rfl⟩
  rw [if_pos hrecompute]
  simp only [hrecompute, Bool.true_and, if_true]
  rw [Fated.run_bind, run_transaction]
  by_cases hget : works refusal (.transaction .get) = true
  swap
  · simp only [hget, Bool.false_eq_true, if_false]
    exact ⟨_, rfl, rfl⟩
  simp only [hget, if_true, Fated.run_bind, Fated.run_look, Fated.run_demand]
  obtain ⟨a, ha⟩ := Option.isSome_iff_exists.mp hrecord
  rw [s.get?_recomputed id, ha]
  exact ⟨_, rfl⟩

variable (given refusal) in
theorem run_relocate (hbytes : s.bytes? sys p = some bytes) (hrecord : s.records.get? id = some a) :
    Commits s (housekeeping refusal (s.withRecord id (a.atFile p (identityOf sys given bytes))))
      ((relocate sys given id p a.pathOrUrl).run (Fated.refusing refusal) s) (fun _ => True)
      (relocateEnd refusal bytes) := by
  unfold relocate relocateEnd
  rw [Fated.run_bind, run_reads hbytes]
  rcases hstat : refusal .registeredStat with _ | e
  swap
  · have hworks : works refusal .registeredStat = false := by simp [works, hstat]
    simp only [hworks, Bool.false_and, Bool.not_false, if_true]
    exact ⟨_, rfl, rfl⟩
  have hworks : works refusal .registeredStat = true := by simp [works, hstat]
  simp only [hworks, Bool.true_and]
  rw [Fated.run_bind]
  have hidentity := run_fileIdentity given refusal .registeredIdentity .registeredHash hbytes
  by_cases hidentifies :
      identifies refusal .registeredIdentity .registeredHash bytes = true
  swap
  · rw [if_neg hidentifies] at hidentity
    obtain ⟨e, hplain, hidentity⟩ := hidentity
    rw [hidentity]
    rw [Bool.not_eq_true] at hidentifies
    simp only [hidentifies, Bool.false_and, Bool.not_false, if_true]
    exact ⟨_, hplain, rfl⟩
  rw [if_pos hidentifies] at hidentity
  rw [hidentity]
  simp only [hidentifies, Bool.true_and]
  rw [Fated.run_bind, Fated.run_look]
  simp only
  rw [State.recordAt_of hrecord, Fated.run_bind, run_transaction]
  by_cases hrelocate : works refusal (.transaction .relocate) = true
  swap
  · simp only [hrelocate, Bool.false_eq_true, if_false, Bool.not_false, if_true]
    exact ⟨_, rfl, rfl⟩
  simp only [hrelocate, if_true, Bool.not_true, Bool.false_eq_true, if_false]
  rw [Fated.run_bind, Fated.run_require]
  simp only [Option.isSome_some, if_true]
  have hwritten : ((s.withRecord id (a.atFile p (identityOf sys given bytes))).records.get?
      id).isSome = true := by
    unfold State.withRecord
    rw [Dict.get?_set_self]
    rfl
  have hkept := run_housekeeping refusal hwritten
  by_cases hhouse : housekept refusal = true
  · rw [if_pos hhouse] at hkept ⊢
    obtain ⟨x, hkept⟩ := hkept
    exact ⟨x, trivial, hkept⟩
  · rw [if_neg hhouse] at hkept ⊢
    exact hkept

/-- The record that `register_file` writes. -/
theorem get?_registered (newId : PyStr) (identity : Identity) :
    ∃ a', ((s.registered newId p identity).2.records.get? (s.registered newId p identity).1) =
      some a' ∧ a'.pathOrUrl = .file p := by
  unfold State.registered
  split <;> exact ⟨_, Dict.get?_set_self, rfl⟩

variable (given refusal) in
theorem run_registerFile (hbytes : s.bytes? sys p = some bytes) :
    Commits s (housekeeping refusal
        (s.registered given.newId p (identityOf sys given bytes)).2)
      ((registerFile sys given p).run (Fated.refusing refusal) s)
      (· = (s.registered given.newId p (identityOf sys given bytes)).1)
      (registerEnd given refusal s p bytes) := by
  unfold registerFile registerEnd
  have hat := State.at?_of_bytes? hbytes
  have hlink : (isLinkOrReparsePoint sys .registeredLstat p).run (Fated.refusing refusal) s =
      (.returned (!works refusal .registeredLstat), s) := by
    rw [run_refusing_isLink, hat]
    simp [Kind.isLink]
  have hisFile : (isFile sys .registeredIsFile p).run (Fated.refusing refusal) s =
      (.returned (works refusal .registeredIsFile), s) := by
    rw [run_refusing_isFile, hat]
    simp [Kind.isFile]
  rw [Fated.run_bind, hlink]
  simp only
  rw [Fated.run_bind, Fated.run_require]
  by_cases hlstat : works refusal .registeredLstat = true
  swap
  · simp only [hlstat, Bool.false_and, Bool.not_false, if_true]
    exact ⟨_, rfl, rfl⟩
  simp only [hlstat, Bool.not_true, if_true, Bool.true_and]
  rw [Fated.run_bind, hisFile]
  simp only
  rw [Fated.run_bind, Fated.run_require]
  by_cases hfile : works refusal .registeredIsFile = true
  swap
  · simp only [hfile, Bool.false_and, Bool.not_false, if_true, Bool.false_eq_true, if_false]
    exact ⟨_, rfl, rfl⟩
  simp only [hfile, if_true, Bool.true_and]
  rw [Fated.run_bind, run_reads hbytes]
  rcases hstat : refusal .registeredStat with _ | e
  swap
  · have hworks : works refusal .registeredStat = false := by simp [works, hstat]
    simp only [hworks, Bool.false_and, Bool.not_false, if_true]
    exact ⟨_, rfl, rfl⟩
  have hworks : works refusal .registeredStat = true := by simp [works, hstat]
  simp only [hworks, Bool.true_and]
  rw [Fated.run_bind]
  have hidentity := run_fileIdentity given refusal .registeredIdentity .registeredHash hbytes
  by_cases hidentifies :
      identifies refusal .registeredIdentity .registeredHash bytes = true
  swap
  · rw [if_neg hidentifies] at hidentity
    obtain ⟨e, hplain, hidentity⟩ := hidentity
    rw [hidentity]
    rw [Bool.not_eq_true] at hidentifies
    simp only [hidentifies, Bool.false_and, Bool.not_false, if_true]
    exact ⟨_, hplain, rfl⟩
  rw [if_pos hidentifies] at hidentity
  rw [hidentity]
  simp only [hidentifies, Bool.true_and]
  rw [Fated.run_bind, Fated.run_look]
  simp only
  rw [Fated.run_bind, Fated.run_require]
  by_cases hfresh : ((s.recordOf p).isSome || (s.records.get? given.newId).isNone) = true
  swap
  · rw [Bool.not_eq_true] at hfresh
    simp only [hfresh, Bool.false_and, Bool.not_false, if_true, Bool.false_eq_true, if_false]
    exact ⟨_, rfl, rfl⟩
  simp only [hfresh, if_true, Bool.true_and]
  rw [Fated.run_bind, Fated.run_look]
  simp only
  rw [Fated.run_bind, run_transaction]
  by_cases hregister : works refusal (.transaction .register) = true
  swap
  · simp only [hregister, Bool.false_eq_true, if_false, Bool.not_false, if_true]
    exact ⟨_, rfl, rfl⟩
  simp only [hregister, if_true, Bool.not_true, Bool.false_eq_true, if_false]
  obtain ⟨a', ha', -⟩ := get?_registered (s := s) (p := p) given.newId (identityOf sys given bytes)
  generalize s.registered given.newId p (identityOf sys given bytes) = registered at ha'
  have hwritten : (registered.2.records.get? registered.1).isSome = true := by
    rw [ha']
    rfl
  have hkept := run_housekeeping refusal hwritten
  -- the record is read again, and its id returned
  have hassoc : ∀ {α : Type} (f : Artifact F → OnLibrary F α),
      (do
        recomputeDuplicates
        let a ← get .get registered.1
        f a : OnLibrary F α).run (Fated.refusing refusal) registered.2 =
      ((do
        recomputeDuplicates
        get .get registered.1 : OnLibrary F (Artifact F)) >>= f).run
          (Fated.refusing refusal) registered.2 := by
    intro α f
    simp only [Fated.run_bind]
    rcases (recomputeDuplicates (F := F)).run (Fated.refusing refusal) registered.2 with ⟨ending, t⟩
    cases ending <;> rfl
  rw [hassoc]
  by_cases hhouse : housekept refusal = true
  · rw [if_pos hhouse] at hkept ⊢
    obtain ⟨x, hkept⟩ := hkept
    rw [Fated.run_then hkept]
    exact ⟨_, rfl, rfl⟩
  · rw [if_neg hhouse] at hkept ⊢
    obtain ⟨e, hplain, hkept⟩ := hkept
    rw [Fated.run_abort hkept]
    exact ⟨e, hplain, rfl⟩

variable (refusal) in
theorem run_remove (hrecord : s.records.get? id = some a) :
    Commits s (housekeeping refusal { s with records := s.records.erase id })
      ((remove id a.pathOrUrl).run (Fated.refusing refusal) s) (fun _ => True)
      (removeEnd refusal) := by
  unfold remove removeEnd recomputeDuplicates
  rw [Fated.run_bind, Fated.run_look]
  simp only
  rw [State.recordAt_of hrecord, Fated.run_bind, run_transaction]
  by_cases hremove : works refusal (.transaction .remove) = true
  swap
  · simp only [hremove, Bool.false_eq_true, if_false, Bool.not_false, if_true]
    exact ⟨_, rfl, rfl⟩
  simp only [hremove, if_true, Bool.not_true, Bool.false_eq_true, if_false, Option.isSome_some]
  rw [Fated.run_bind, Fated.run_require]
  simp only [if_true]
  rw [run_transaction]
  by_cases hrecompute : works refusal (.transaction .recompute) = true
  · rw [if_pos hrecompute, if_pos hrecompute]
    refine ⟨(), trivial, ?_⟩
    unfold housekeeping
    rw [if_pos hrecompute]
  · rw [if_neg hrecompute, if_neg hrecompute]
    refine ⟨.database, rfl, ?_⟩
    unfold housekeeping
    rw [if_neg hrecompute]

end
end QronosAgent.Library

import QronosAgent.Library.Copies

/-! When a Library operation loses nothing and leaves a true record. -/
namespace QronosAgent.Library
open Lib

section
variable {F : Type} [DecidableEq F] {sys : System} {given : Given} {refusal : Call → Option OsError}
variable {s : State F} {a : Artifact F} {item : Item F} {path : Place F} {op : Operation F}

variable {p : Place F} {t : Transaction} {id : PyStr} {u : State F}
  {r : Ending LibraryError (Option PyStr) × State F}

theorem looks_reads {call : Call} :
    Fated.Looks (reads sys call p) (Fated.refusing refusal) := by
  unfold reads
  apply (Fated.looks_effect _ _ fun _ => rfl).bind
  intro _
  apply (Fated.looks_look _).bind
  intro _
  exact Fated.looks_demand _ _

theorem looks_hashMatches {stat hash : Call} {expected : PyStr} {size : Option ℕ} :
    Fated.Looks (hashMatches sys stat hash expected size p) (Fated.refusing refusal) := by
  unfold hashMatches
  apply looks_reads.bind
  intro bytes
  split
  · exact Fated.looks_pure _
  · apply looks_reads.bind
    intro _
    exact Fated.looks_pure _

theorem looks_identityMatches :
    Fated.Looks (identityMatches sys given a p) (Fated.refusing refusal) := by
  unfold identityMatches
  simp only
  split
  · apply looks_reads.bind
    intro _
    exact Fated.looks_pure _
  · exact looks_hashMatches

theorem looks_verifiedFile : Fated.Looks (verifiedFile sys given a path)
    (Fated.refusing refusal) := by
  have hlink : Fated.Looks (isLinkOrReparsePoint sys .pathLstat path) (Fated.refusing refusal) :=
    fun _ => .inl ⟨_, run_refusing_isLink⟩
  have hfile : Fated.Looks (isFile sys .pathIsFile path) (Fated.refusing refusal) :=
    fun _ => .inl ⟨_, run_refusing_isFile⟩
  unfold verifiedFile
  apply hlink.bind
  intro _
  apply (Fated.looks_require _ _).bind
  intro _
  apply hfile.bind
  intro _
  apply (Fated.looks_require _ _).bind
  intro _
  apply (Fated.looks_effect _ _ fun _ => rfl).bind
  intro _
  apply (Fated.looks_require _ _).bind
  intro _
  apply looks_identityMatches.bind
  intro _
  apply (Fated.looks_require _ _).bind
  intro _
  exact Fated.looks_require _ _

theorem looks_get :
    Fated.Looks (get t id : OnLibrary F (Artifact F)) (Fated.refusing refusal) := by
  unfold get transaction
  apply (Fated.looks_effect _ _ fun _ => rfl).bind
  intro _
  apply (Fated.looks_look _).bind
  intro _
  exact Fated.looks_demand _ _

def checked (sys : System) (given : Given) (a : Artifact F) : OnLibrary F Unit :=
  match a.pathOrUrl with
  | .file path => verifiedFile sys given a path
  | .url _ => pure ()

theorem currentTarget_eq : currentTarget sys given item = (do
    let artifact ← get .current item.id
    Fated.require (artifact.pathOrUrl = item.path ∧ artifact.identity = item.identity)
      (.refused .changed)
    checked sys given artifact
    pure artifact : OnLibrary F (Artifact F)) := by
  unfold currentTarget checked
  congr 1
  funext artifact
  congr 1
  funext _
  cases artifact.pathOrUrl <;> rfl

variable (sys given refusal item) in
theorem looks_currentTarget :
    Fated.Looks (currentTarget sys given item) (Fated.refusing refusal) := by
  rw [currentTarget_eq]
  apply looks_get.bind
  intro artifact
  apply (Fated.looks_require _ _).bind
  intro _
  have hchecked : Fated.Looks (checked sys given artifact) (Fated.refusing refusal) := by
    unfold checked
    split
    · exact looks_verifiedFile
    · exact Fated.looks_pure _
  apply hchecked.bind
  intro _
  exact Fated.looks_pure _

theorem get_returned (h : Fated.Returns (get t id) (Fated.refusing refusal) s a u) :
    s.records.get? id = some a := by
  unfold get transaction at h
  obtain ⟨_, _, heffect, h⟩ := Fated.returns_bind.mp h
  obtain ⟨-, rfl⟩ := Fated.returns_effect.mp heffect
  obtain ⟨found, _, hlook, h⟩ := Fated.returns_bind.mp h
  obtain ⟨rfl, rfl⟩ := Fated.returns_look.mp hlook
  exact (Fated.returns_demand.mp h).1

theorem verifiedFile_returned {x : Unit}
    (h : Fated.Returns (verifiedFile sys given a path) (Fated.refusing refusal) s x u) :
    ∃ bytes, s.bytes? sys path = some bytes := by
  unfold verifiedFile at h
  obtain ⟨_, _, hlink, h⟩ := Fated.returns_bind.mp h
  obtain ⟨-, rfl⟩ := Prod.ext_iff.mp (run_refusing_isLink.symm.trans hlink)
  obtain ⟨_, _, hrequire, h⟩ := Fated.returns_bind.mp h
  obtain ⟨-, rfl⟩ := Fated.returns_require.mp hrequire
  obtain ⟨file, _, hfile, h⟩ := Fated.returns_bind.mp h
  obtain ⟨hanswer, rfl⟩ := Prod.ext_iff.mp (run_refusing_isFile.symm.trans hfile)
  obtain ⟨_, _, hrequire', -⟩ := Fated.returns_bind.mp h
  obtain ⟨rfl, -⟩ := Fated.returns_require.mp hrequire'
  have hany := (Bool.and_eq_true _ _ ▸ Ending.returned.inj hanswer).2
  cases hat : s.at? sys path with
  | none =>
    simp only at hany
    rw [hat] at hany
    cases hany
  | some kind =>
    simp only at hany
    rw [hat] at hany
    cases kind with
    | file bytes => exact ⟨bytes, State.bytes?_of_at? hat⟩
    | folder => cases hany
    | link leads => cases hany

/-- What the checks found. -/
theorem currentTarget_returned
    (h : Fated.Returns (currentTarget sys given item) (Fated.refusing refusal) s a u) :
    s.records.get? item.id = some a ∧
      ∀ path, a.pathOrUrl = .file path → ∃ bytes, s.bytes? sys path = some bytes := by
  rw [currentTarget_eq] at h
  obtain ⟨artifact, v, hget, hrest⟩ := Fated.returns_bind.mp h
  obtain rfl := looks_get.same hget
  obtain ⟨_, _, hrequire, hend⟩ := Fated.returns_bind.mp hrest
  obtain ⟨-, rfl⟩ := Fated.returns_require.mp hrequire
  obtain ⟨_, _, hchecked, hpure⟩ := Fated.returns_bind.mp hend
  obtain ⟨rfl, -⟩ := Fated.returns_pure.mp hpure
  refine ⟨get_returned hget, fun path hpath => ?_⟩
  unfold checked at hchecked
  rw [hpath] at hchecked
  exact verifiedFile_returned hchecked

/-- A result that is put otherwise. -/
theorem map_run {α : Type} {m : OnLibrary F α} {f : α → Option PyStr}
    (hr : (m >>= fun x => pure (f x)).run (Fated.refusing refusal) s = r) :
    r = ((m.run (Fated.refusing refusal) s).1.map f, (m.run (Fated.refusing refusal) s).2) :=
  hr.symm.trans (Fated.run_map m f)

theorem file_iff {bytes : List UInt8} (hfresh : Fresh sys given s item.id op)
    (hrecord : s.records.get? item.id = some a) (hpath : a.pathOrUrl = .file path)
    (hbytes : s.bytes? sys path = some bytes)
    (hr : (operateFile sys given item.id a path op).run (Fated.refusing refusal) s = r) :
    Truthful sys s r.2 item.id op r.1 ↔ FileFine sys given refusal s item.id a path bytes op := by
  cases op with
  | rename newName =>
    obtain rfl := map_run hr
    unfold rename
    rcases looks_renameTarget sys given refusal path newName s with
      ⟨target, htarget⟩ | ⟨e, htarget⟩
    · rw [Fated.run_then htarget]
      apply (rename_iff hfresh hrecord hpath hbytes (newPlace_of_renameTarget htarget) rfl
        rfl).trans
      constructor
      · intro h target' htarget'
        obtain rfl := Ending.returned.inj (Prod.ext_iff.mp (htarget.symm.trans htarget')).1
        exact h
      · exact fun h => h target htarget
    · rw [Fated.run_abort htarget]
      apply iff_of_true truthful_refl
      intro target' htarget'
      have hne := (Prod.ext_iff.mp (htarget.symm.trans htarget')).1
      cases hne
  | move dest =>
    obtain rfl := map_run hr
    unfold move
    rcases looks_moveTarget sys refusal path dest s with
      ⟨target, htarget⟩ | ⟨e, htarget⟩
    · rw [Fated.run_then htarget]
      obtain ⟨hfolder, rfl⟩ := moveTarget_returned htarget
      have hkey : (⟨dest, path.name⟩ : Place F).key sys ≠ path.key sys :=
        fun heq => hfolder (Prod.ext_iff.mp heq).1.symm
      apply (move_iff hfresh hrecord hpath hbytes rfl rfl hkey rfl).trans
      constructor
      · intro h target' htarget'
        obtain rfl := Ending.returned.inj (Prod.ext_iff.mp (htarget.symm.trans htarget')).1
        exact h
      · exact fun h => h _ htarget
    · rw [Fated.run_abort htarget]
      apply iff_of_true truthful_refl
      intro target' htarget'
      have hne := (Prod.ext_iff.mp (htarget.symm.trans htarget')).1
      cases hne
  | copy dest =>
    obtain rfl := map_run hr
    exact copy_iff hfresh hrecord hpath hbytes rfl
  | delete =>
    obtain rfl := map_run hr
    exact delete_iff hrecord hpath hbytes rfl

theorem link_iff {text : PyStr} (hrecord : s.records.get? item.id = some a)
    (hurl : a.pathOrUrl = .url text)
    (hr : (operateLink item.id a op).run (Fated.refusing refusal) s = r) :
    Truthful sys s r.2 item.id op r.1 ↔ LinkFine refusal s item.id a op := by
  cases op with
  | rename newName =>
    unfold operateLink at hr
    rw [Fated.run_bind, Fated.run_ofExcept] at hr
    unfold LinkFine
    cases hname : validatedLinkName newName with
    | error e =>
      rw [hname] at hr
      subst hr
      apply iff_of_true truthful_refl
      intro name hn
      rw [hname] at hn
      cases hn
    | ok name =>
      rw [hname] at hr
      obtain rfl := map_run hr
      apply (renameLink_iff hrecord hurl rfl).trans
      constructor
      · intro h name' hn
        cases hname.symm.trans hn
        exact h
      · exact fun h => h name hname
  | delete =>
    obtain rfl := map_run hr
    exact removeLink_iff hrecord hurl rfl
  | move dest =>
    subst hr
    exact iff_of_true truthful_refl trivial
  | copy dest =>
    subst hr
    exact iff_of_true truthful_refl trivial

end

/-- An operation that was approved, carried out with any calls and transactions refused. -/
theorem truthful_iff {F : Type} [DecidableEq F] (sys : System) (given : Given)
    (refusal : Call → Option OsError) (s : State F) (item : Item F) (op : Operation F)
    (hfresh : Fresh sys given s item.id op) :
    Truthful sys s ((carryOut sys given item op).run (Fated.refusing refusal) s).2 item.id op
        ((carryOut sys given item op).run (Fated.refusing refusal) s).1 ↔
      Fine sys given refusal s item op := by
  unfold carryOut Fine
  rcases looks_currentTarget sys given refusal item s with ⟨a, htarget⟩ | ⟨e, htarget⟩
  · rw [Fated.run_then htarget]
    obtain ⟨hrecord, hthere⟩ := currentTarget_returned htarget
    have honly : ∀ {P : Artifact F → Prop}, (∀ b, Fated.Returns (currentTarget sys given item)
        (Fated.refusing refusal) s b s → P b) ↔ P a := by
      intro P
      constructor
      · exact fun h => h a htarget
      · intro h b hb
        obtain rfl := Ending.returned.inj (Prod.ext_iff.mp (htarget.symm.trans hb)).1
        exact h
    rw [honly]
    cases hwhere : a.pathOrUrl with
    | file path =>
      obtain ⟨bytes, hbytes⟩ := hthere path hwhere
      apply (file_iff hfresh hrecord hwhere hbytes rfl).trans
      constructor
      · intro h bytes' hbytes'
        cases hbytes.symm.trans hbytes'
        exact h
      · exact fun h => h bytes hbytes
    | url text => exact link_iff hrecord hwhere rfl
  · rw [Fated.run_abort htarget]
    apply iff_of_true truthful_refl
    intro b hb
    have hne := (Prod.ext_iff.mp (htarget.symm.trans hb)).1
    cases hne

/-! A file that is renamed while its duplicates cannot be counted. -/

def sampleSystem : System := ⟨true, id, fun _ => py "d", id, id⟩

def sampleGiven : Given :=
  ⟨fun _ => py "p", fun _ => 0, false, true, false, ⟨0, 1, 0, true, 0⟩, py "y", true⟩

def sampleRecord : Artifact ℕ := ⟨.file ⟨0, py "a"⟩, py "a", 1, py "d", none, true, none⟩

def sampleState : State ℕ where
  disk place := if place = (0, py "a") then some (.file [1]) else none
  recycleBin := []
  records := Dict.empty.set (py "x") sampleRecord

def sampleItem : Item ℕ := ⟨py "x", .file ⟨0, py "a"⟩, none⟩

def uncounted : Call → Option OsError
  | .transaction .recompute => some .other
  | _ => none

theorem sample_fresh :
    Fresh sampleSystem sampleGiven sampleState sampleItem.id (.rename (py "b")) where
  absent := by
    intro w folder
    apply if_neg
    intro heq
    have hname : py "p" = py "a" := (Prod.ext_iff.mp heq).2
    revert hname
    decide +kernel
  apart := by
    intro w path bytes hfile p hp
    have hpath : sampleState.fileOf sampleSystem sampleItem.id = some (⟨0, py "a"⟩, [1]) := by
      decide +kernel
    cases hpath.symm.trans hfile
    have hplace : (Operation.rename (py "b")).newPlace sampleSystem (⟨0, py "a"⟩ : Place ℕ) =
        some ⟨0, py "b"⟩ := by decide +kernel
    rcases hp with hp | ⟨dest, hn, -⟩
    · rw [hplace] at hp
      cases hp
      show py "b" ≠ py "p"
      decide +kernel
    · cases hn

theorem truthful_iff_sample :
    Truthful sampleSystem sampleState
        ((carryOut sampleSystem sampleGiven sampleItem (.rename (py "b"))).run
          (Fated.refusing uncounted) sampleState).2 sampleItem.id (.rename (py "b"))
        ((carryOut sampleSystem sampleGiven sampleItem (.rename (py "b"))).run
          (Fated.refusing uncounted) sampleState).1 ↔
      Fine sampleSystem sampleGiven uncounted sampleState sampleItem (.rename (py "b")) :=
  truthful_iff sampleSystem sampleGiven uncounted sampleState sampleItem (.rename (py "b"))
    sample_fresh

/-- The file was put back; its record names the new place, where no file is. -/
theorem record_names_no_file :
    ¬ Truthful sampleSystem sampleState
        ((carryOut sampleSystem sampleGiven sampleItem (.rename (py "b"))).run
          (Fated.refusing uncounted) sampleState).2 sampleItem.id (.rename (py "b"))
        ((carryOut sampleSystem sampleGiven sampleItem (.rename (py "b"))).run
          (Fated.refusing uncounted) sampleState).1 := by
  intro htruth
  obtain ⟨p, hp, hbytes⟩ := htruth.named ⟨0, py "a"⟩ [1] (by decide +kernel)
    (.inl (by decide +kernel))
  have hnew : (((carryOut sampleSystem sampleGiven sampleItem (.rename (py "b"))).run
      (Fated.refusing uncounted) sampleState).2.records.get? sampleItem.id).map
        Artifact.pathOrUrl = some (.file ⟨0, py "b"⟩) := by decide +kernel
  cases hnew.symm.trans hp
  revert hbytes
  decide +kernel

end QronosAgent.Library

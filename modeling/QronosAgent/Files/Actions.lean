import QronosAgent.Files.Changes

/-! What an action does to the disk, and what it tells of it. -/
namespace QronosAgent.Files
open Lib

namespace Disk

structure Makes (d : Disk) (target : Path) (m : Node) (e : Disk) : Prop where
  plain : d.Plain target
  free : d.get? target = none
  notLink : m.isLink = false
  left : d.With target (some m) e

structure Takes (d : Disk) (source target : Path) (n m : Node) (e : Disk) : Prop where
  file : d.FileHere source n
  plain : d.Plain target
  free : d.get? target = none
  same : m.kind = n.kind
  left : d.Moves source target m e

end Disk

structure Named (plat : Platform) (path : Path) : Prop where
  named : plat.path (plat.text path) = path
  stripped : (plat.text path).strip ≠ []
  expanded : plat.expanded (plat.text path).strip = .ok (some path)

def targetOf (plat : Platform) (d : Disk) (a : FileAction) : Option Path :=
  match a.operation with
  | .openFile => none
  | .copyFile | .moveFile => (located plat d a.source).bind fun source =>
      (located plat d a.destination).map (source.headD [] :: ·)
  | .renameFile => (located plat d a.source).map fun source => a.newName.strip :: source.tail
  | .createFolder => located plat d a.destination

inductive Effect (plat : Platform) (fails : Fails) (d e : Disk) (a : FileAction) :
    Performed → Prop where
  | opened {source : Path} (hop : a.operation = .openFile)
      (hsource : located plat d a.source = some source) (hsame : e = d) :
      Effect plat fails d e a ⟨py "Opened " ++ plat.text source, .nothingToUndo, []⟩
  | copied {source target : Path} {n m : Node} {sha256 : PyStr} (hop : a.operation = .copyFile)
      (hsource : located plat d a.source = some source) (htarget : targetOf plat d a = some target)
      (hfile : d.FileHere source n) (hmakes : d.Makes target m e) (hsame : m.kind = n.kind) :
      Effect plat fails d e a ⟨py "Copied " ++ plat.text source ++ py " to " ++ plat.text target,
        .deleteCreated, [(py "path", plat.text target), (py "identity", identityOf fails e target),
          (py "sha256", sha256)]⟩
  | moved {source target : Path} {n m : Node} {verb : PyStr}
      (hop : a.operation = .moveFile ∧ verb = py "Moved " ∨
        a.operation = .renameFile ∧ verb = py "Renamed ")
      (hsource : located plat d a.source = some source) (htarget : targetOf plat d a = some target)
      (htakes : d.Takes source target n m e) :
      Effect plat fails d e a ⟨verb ++ plat.text source ++ py " to " ++ plat.text target, .moveBack,
        [(py "from", plat.text target), (py "to", plat.text source),
          (py "identity", identityOf fails e target)]⟩
  | created {target : Path} {m : Node} (hop : a.operation = .createFolder)
      (hcall : fails .mkdir = none) (htarget : targetOf plat d a = some target)
      (hmakes : d.Makes target m e) (hfolder : m.isFolder = true) :
      Effect plat fails d e a ⟨py "Created folder " ++ plat.text target, .deleteCreated,
        [(py "path", plat.text target), (py "identity", identityOf fails e target)]⟩

/-- The condition on an action: a place that is taken is found to be, what changes the disk is not
cut off, no check fails after it, and what the entry is to hold can be told. -/
structure Goes (plat : Platform) (fails : Fails) (d : Disk) (a : FileAction) : Prop where
  free : ∀ target n, targetOf plat d a = some target → d.get? target = some n →
    a.operation ≠ .createFolder → n.isLink = false ∧ fails .targetExists = none
  copies : a.operation = .copyFile → fails .copyOpen = none →
    (fails .copyPart = none ∧ fails .copyRest = none ∧ fails .copyStat = none) ∧
      fails .targetIsFile = none ∧ fails .targetStat = none ∧ fails .sourceStat = none
  moves : a.operation = .moveFile → fails.MovesWhole ∧
    (fails .rename = none ∨ fails .copyOpen = none → fails .targetIsFile = none)
  renames : a.operation = .renameFile → fails .rename = none → fails .targetIsFile = none
  creates : a.operation = .createFolder → fails .mkdir = none → fails .targetIsDir = none ∧
    (fails .lstat = none → fails .identityIsDir = none)
  target : ∀ target, targetOf plat d a = some target → Named plat target
  source : a.operation = .moveFile ∨ a.operation = .renameFile →
    ∀ source, located plat d a.source = some source → Named plat source

section
variable {plat : Platform} {chance : Chance} {fails : Fails} {d e : Disk} {a : FileAction}
  {source target folder : Path} {n m : Node}

theorem Disk.FileHere.name_ne {name : PyStr} (h : d.FileHere source n)
    (hname : source.headD [] = name) : name ≠ py ".." := by
  subst hname
  cases source with
  | nil => decide
  | cons name folder => exact h.1.1

theorem Disk.FolderHere.isFolder (h : d.FolderHere folder) :
    (d.get? folder).any Node.isFolder = true := by
  obtain ⟨n, hn, hkind⟩ := h.2
  rw [hn, Option.any_some, hkind]

theorem plain_in (hfolder : d.FolderHere folder) {name : PyStr} (hname : name ≠ py "..")
    (hlink : ∀ n, d.get? (name :: folder) = some n → n.isLink = false) :
    d.Plain (name :: folder) := ⟨hname, hlink, hfolder.1⟩

theorem size_of_kind (h : m.kind = n.kind) : m.size = n.size := by
  unfold Node.size
  rw [h]

theorem isLink_of_kind (h : m.kind = n.kind) (hfile : n.isFile = true) : m.isLink = false := by
  have hlink := Node.isLink_of_isFile hfile
  rwa [Node.isLink, h, ← Node.isLink]

theorem isFile_of_kind (h : m.kind = n.kind) (hfile : n.isFile = true) : m.isFile = true := by
  rwa [Node.isFile, h, ← Node.isFile]

theorem Disk.Makes.stat (h : d.Makes target m e) : e.stat? target = some m := by
  have hplain : e.Plain target := h.plain.with h.left fun n hn => Option.some.inj hn ▸ h.notLink
  rw [hplain.stat, h.left.self]

/-- What a move leaves, as its checks find it. -/
theorem Disk.Takes.stat (h : d.Takes source target n m e) :
    e.stat? target = some m ∧ e.stat? source = none := by
  have hlink : m.isLink = false := isLink_of_kind h.same h.file.2.2
  have hne : source ≠ target := by
    rintro rfl
    have hfree := h.free
    rw [h.file.2.1] at hfree
    cases hfree
  constructor
  · rw [(h.left.plain hlink h.plain).stat, h.left target, if_pos rfl]
  · rw [(h.left.plain hlink h.file.1).stat, h.left source, if_neg hne, if_pos rfl]

theorem does_movedBack {detail message : PyStr} {Q : Performed → Disk → Prop}
    {R : Failure → Disk → Prop} (h : d.Takes source target n m e)
    (hcheck : fails .targetIsFile = none)
    (hQ : Q ⟨detail ++ plat.text source ++ py " to " ++ plat.text target, .moveBack,
      [(py "from", plat.text target), (py "to", plat.text source),
        (py "identity", identityOf fails e target)]⟩ e) :
    Does (movedBack plat chance detail message source target) fails e Q R := by
  obtain ⟨htarget, hsource⟩ := h.stat
  have hfile : e.isFileAt target = true :=
    isFileAt_iff.mpr ⟨m, htarget, isFile_of_kind h.same h.file.2.2⟩
  unfold movedBack
  apply does_bind
  apply does_asks
  apply does_bind
  apply does_asks
  apply does_bind
  unfold verify
  apply does_require
  · intro _
    apply does_bind
    apply does_fileIdentity
    exact hQ
  · intro hno
    rw [hsource, hcheck, hfile] at hno
    simp at hno

theorem does_openFile (hop : a.operation = .openFile) :
    Does (openFile plat a) fails d (fun done e => Effect plat fails d e a done) fun _ e => e = d := by
  unfold openFile
  apply does_bind
  refine does_existingFile ?_ fun _ => rfl
  intro source n hsource _
  apply does_bind
  refine does_effect ?_ fun _ _ => rfl
  intro _
  exact .opened hop hsource rfl

theorem does_copyFile (hop : a.operation = .copyFile) (hgoes : Goes plat fails d a) :
    Does (copyFile plat chance a) fails d (fun done e => Effect plat fails d e a done)
      fun _ e => e = d := by
  unfold copyFile
  apply does_bind
  refine does_existingFile ?_ fun _ => rfl
  intro source n hsource hfile
  apply does_bind
  refine does_existingDirectory ?_ fun _ => rfl
  intro folder hfolder hhere
  have htarget : targetOf plat d a = some (source.headD [] :: folder) := by
    rw [targetOf, hop, hsource, hfolder]
    rfl
  have hplain : d.Plain (source.headD [] :: folder) := by
    apply plain_in hhere (hfile.name_ne rfl)
    intro n' hn'
    exact (hgoes.free _ n' htarget hn' (by rw [hop]; decide)).1
  apply does_bind
  refine does_requireFree ?_ ?_ fun _ => rfl
  · intro hfree
    apply does_bind
    apply does_copy2 hfile hplain hfree hhere.isFolder
    · exact fun hopen => (hgoes.copies hop hopen).1
    · intro hopen m e hkind hwith
      obtain ⟨-, hisFile, hstat, hsourceStat⟩ := hgoes.copies hop hopen
      have hlink := isLink_of_kind hkind hfile.2.2
      have hmakes : d.Makes (source.headD [] :: folder) m e := ⟨hplain, hfree, hlink, hwith⟩
      have hne : source ≠ source.headD [] :: folder := by
        intro heq
        rw [← heq, hfile.2.1] at hfree
        cases hfree
      have hcopied := hmakes.stat
      have horiginal : e.stat? source = some n := by
        have hplain' : e.Plain source := hfile.1.with hwith fun x hx => Option.some.inj hx ▸ hlink
        rw [hplain'.stat, hwith.other hne, hfile.2.1]
      apply does_bind
      apply does_asks
      apply does_bind
      unfold verify
      apply does_require
      · intro _
        apply does_bind
        apply does_reads
        · intro copied _ hread
          cases hcopied.symm.trans hread
          apply does_bind
          apply does_reads
          · intro original _ hread'
            cases horiginal.symm.trans hread'
            apply does_bind
            apply does_require
            · intro _
              apply does_bind
              apply does_fileIdentity
              exact .copied hop hsource htarget hfile hmakes hkind
            · intro hno
              simp [size_of_kind hkind] at hno
          · rintro _ (hcall | hnone)
            · exact absurd hsourceStat hcall
            · rw [horiginal] at hnone
              cases hnone
        · rintro _ (hcall | hnone)
          · exact absurd hstat hcall
          · rw [hcopied] at hnone
            cases hnone
      · intro hno
        have hfound : e.isFileAt (source.headD [] :: folder) = true :=
          isFileAt_iff.mpr ⟨m, hcopied, isFile_of_kind hkind hfile.2.2⟩
        rw [hisFile, hfound] at hno
        exact absurd rfl hno
    · exact fun _ _ => rfl
  · intro n' hn'
    obtain ⟨-, hcall⟩ := hgoes.free _ n' htarget hn' (by rw [hop]; decide)
    exact ⟨hplain, hcall⟩

theorem does_moveFile (hop : a.operation = .moveFile) (hgoes : Goes plat fails d a) :
    Does (moveFile plat chance a) fails d (fun done e => Effect plat fails d e a done)
      fun _ e => e = d := by
  unfold moveFile
  apply does_bind
  refine does_existingFile ?_ fun _ => rfl
  intro source n hsource hfile
  apply does_bind
  refine does_existingDirectory ?_ fun _ => rfl
  intro folder hfolder hhere
  have htarget : targetOf plat d a = some (source.headD [] :: folder) := by
    rw [targetOf, hop, hsource, hfolder]
    rfl
  have hplain : d.Plain (source.headD [] :: folder) := by
    apply plain_in hhere (hfile.name_ne rfl)
    intro n' hn'
    exact (hgoes.free _ n' htarget hn' (by rw [hop]; decide)).1
  obtain ⟨hwhole, hcheck⟩ := hgoes.moves hop
  apply does_bind
  refine does_requireFree ?_ ?_ fun _ => rfl
  · intro hfree
    apply does_bind
    apply does_move hfile hplain hfree hhere.isFolder hwhole
    · intro m e hopen hkind hmoves
      have htakes : d.Takes source (source.headD [] :: folder) n m e :=
        ⟨hfile, hplain, hfree, hkind, hmoves⟩
      apply does_movedBack htakes
      · apply hcheck
        by_cases hrename : fails .rename = none
        · exact .inl hrename
        · exact .inr (hopen hrename)
      · exact .moved (.inl ⟨hop, rfl⟩) hsource htarget htakes
    · exact fun _ _ _ => rfl
  · intro n' hn'
    obtain ⟨-, hcall⟩ := hgoes.free _ n' htarget hn' (by rw [hop]; decide)
    exact ⟨hplain, hcall⟩

theorem does_renameFile (hop : a.operation = .renameFile) (hgoes : Goes plat fails d a) :
    Does (renameFile plat chance a) fails d (fun done e => Effect plat fails d e a done)
      fun _ e => e = d := by
  unfold renameFile
  apply does_bind
  refine does_existingFile ?_ fun _ => rfl
  intro source n hsource hfile
  have htarget : targetOf plat d a = some (a.newName.strip :: source.tail) := by
    rw [targetOf, hop, hsource]
    rfl
  have hplain : d.Plain (a.newName.strip :: source.tail) := by
    refine ⟨(a.basename hop).2.2.1, ?_, hfile.1.tail⟩
    intro n' hn'
    exact (hgoes.free _ n' htarget hn' (by rw [hop]; decide)).1
  apply does_bind
  refine does_requireFree ?_ ?_ fun _ => rfl
  · intro hfree
    apply does_bind
    apply does_rename hfile hplain hfree
    · intro hcall e hmoves
      have htakes : d.Takes source (a.newName.strip :: source.tail) n n e :=
        ⟨hfile, hplain, hfree, rfl, hmoves⟩
      apply does_movedBack htakes (hgoes.renames hop hcall)
      exact .moved (.inr ⟨hop, rfl⟩) hsource htarget htakes
    · exact fun _ _ => rfl
  · intro n' hn'
    obtain ⟨-, hcall⟩ := hgoes.free _ n' htarget hn' (by rw [hop]; decide)
    exact ⟨hplain, hcall⟩

theorem does_createFolder (hop : a.operation = .createFolder) (hgoes : Goes plat fails d a) :
    Does (createFolder plat chance a) fails d (fun done e => Effect plat fails d e a done)
      fun _ e => e = d := by
  unfold createFolder
  apply does_bind
  refine does_absolutePath ?_ fun _ => rfl
  intro target hlocated
  have htarget : targetOf plat d a = some target := by rw [targetOf, hop, hlocated]
  apply does_bind
  unfold requireFree
  apply does_bind
  apply does_asks
  refine does_require ?_ fun _ => rfl
  intro _
  apply does_bind
  apply does_asks
  apply does_bind
  refine does_require ?_ fun _ => rfl
  intro _
  apply does_bind
  refine does_mkdir hlocated ?_ fun _ => rfl
  intro hcall m e hfolder hplain hfree _ hwith
  have hmakes : d.Makes target m e := ⟨hplain, hfree, Node.isLink_of_isFolder hfolder, hwith⟩
  have hfound : e.isFolderAt target = true := isFolderAt_iff.mpr ⟨m, hmakes.stat, hfolder⟩
  apply does_bind
  apply does_asks
  apply does_bind
  unfold verify
  apply does_require
  · intro _
    apply does_bind
    apply does_fileIdentity
    exact .created hop hcall htarget hmakes hfolder
  · intro hno
    rw [(hgoes.creates hop hcall).1, hfound] at hno
    exact absurd rfl hno

/-- An action has its effect, or it raises and leaves the disk as it was. -/
theorem does_perform (hgoes : Goes plat fails d a) :
    Does (perform plat chance a) fails d (fun done e => Effect plat fails d e a done)
      fun _ e => e = d := by
  unfold perform
  split
  · rename_i hop
    exact does_openFile hop
  · rename_i hop
    exact does_copyFile hop hgoes
  · rename_i hop
    exact does_moveFile hop hgoes
  · rename_i hop
    exact does_renameFile hop hgoes
  · rename_i hop
    exact does_createFolder hop hgoes

end
end QronosAgent.Files

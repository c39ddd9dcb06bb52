import QronosAgent.Files.Rules

/-! What a copy, a move and a removal leave, where the calls that they consist of go together. -/
namespace QronosAgent.Files
open Lib

namespace Disk

/-- The other disk is this one with `o` at this place. -/
def With (d : Disk) (target : Path) (o : Option Node) (e : Disk) : Prop :=
  ∀ p, e.get? p = if p = target then o else d.get? p

/-- The other disk is this one with the object at the one place now at the other, as `m`. -/
def Moves (d : Disk) (source target : Path) (m : Node) (e : Disk) : Prop :=
  ∀ p, e.get? p = if p = target then some m else if p = source then none else d.get? p

variable {d e f : Disk} {source target path : Path} {n m : Node} {o : Option Node}

theorem with_set : With d target (some m) (d.set target m) := by
  intro p
  by_cases hp : p = target
  · simp [hp]
  · rw [if_neg hp, Dict.get?_set_ne hp]

theorem with_erase : With d target none (d.erase target) := by
  intro p
  by_cases hp : p = target
  · simp [hp]
  · rw [if_neg hp, Dict.get?_erase_ne hp]

theorem With.trans {o' : Option Node} (h : With d target o e) (h' : With e target o' f) :
    With d target o' f := by
  intro p
  rw [h' p]
  by_cases hp : p = target
  · rw [if_pos hp, if_pos hp]
  · rw [if_neg hp, if_neg hp, h p, if_neg hp]

theorem With.self (h : With d target o e) : e.get? target = o := by
  rw [h target, if_pos rfl]

theorem With.other (h : With d target o e) (hp : path ≠ target) : e.get? path = d.get? path := by
  rw [h path, if_neg hp]

theorem Plain.with (h : Plain d path) (hw : With d target o e)
    (ho : ∀ n, o = some n → n.isLink = false) : Plain e path := by
  apply h.congr
  intro p n hn hlink
  by_cases hp : p = target
  · subst hp
    rw [hw.self] at hn
    rw [ho n hn] at hlink
    cases hlink
  · rw [hw.other hp] at hn
    exact hn

theorem Moves.plain (h : Moves d source target m e) (hm : m.isLink = false) (hp : Plain d path) :
    Plain e path := by
  apply hp.congr
  intro p n hn hlink
  rw [h p] at hn
  split at hn
  · cases hn
    rw [hm] at hlink
    cases hlink
  · split at hn
    · cases hn
    · exact hn

theorem moves_of_with (h : With d target (some m) e) (h' : With e source none f)
    (hne : source ≠ target) : Moves d source target m f := by
  intro p
  rw [h' p]
  by_cases hs : p = source
  · subst hs
    rw [if_pos rfl, if_neg hne, if_pos rfl]
  · rw [if_neg hs, h p]
    by_cases ht : p = target
    · rw [if_pos ht, if_pos ht]
    · rw [if_neg ht, if_neg ht, if_neg hs]

theorem moved_moves (hn : d.get? source = some n) (hfile : n.isFile = true) :
    Moves d source target n (d.moved source target) := by
  have hfolder : n.isFolder = false := Node.isFolder_of_isFile hfile
  intro p
  simp only [moved, hn, hfolder, Bool.false_eq_true, if_false]
  by_cases ht : p = target
  · simp [ht]
  · rw [if_neg ht, Dict.get?_set_ne ht]
    by_cases hs : p = source
    · simp [hs]
    · rw [if_neg hs, Dict.get?_erase_ne hs]

end Disk

/-- A copy that has begun is not cut off. -/
def Fails.CopiesWhole (fails : Fails) : Prop :=
  fails .copyOpen = none →
    fails .copyPart = none ∧ fails .copyRest = none ∧ fails .copyStat = none

/-- A move to another volume that has begun is not cut off. -/
def Fails.MovesWhole (fails : Fails) : Prop :=
  fails .rename ≠ none → fails .copyOpen = none →
    (fails .copyPart = none ∧ fails .copyRest = none ∧ fails .copyStat = none) ∧
      fails .moveUnlink = none

section
variable {plat : Platform} {chance : Chance} {fails : Fails} {d : Disk}
  {Q : Unit → Disk → Prop} {R : Failure → Disk → Prop} {source target : Path} {n : Node}

theorem contentOf_eq {content : List UInt8} (h : Disk.contentOf n = some content) :
    n.kind = .file content := by
  unfold Disk.contentOf at h
  split at h
  · rename_i hkind
    rw [hkind, Option.some.inj h]
  · cases h

theorem does_rescue {α : Type} {m : OnDisk α} {handler : Failure → OnDisk α}
    {Q : α → Disk → Prop} (h : Does m fails d Q fun e f => Does (handler e) fails f Q R) :
    Does (Fated.rescue m handler) fails d Q R := Fated.ensures_rescue.mpr h

theorem write_with (content : List UInt8) :
    ∃ m : Node, m.kind = .file content ∧ d.With target (some m) (chance.write target content d) := by
  unfold Chance.write
  cases d.get? target with
  | none => exact ⟨_, chance.made_kind _, Disk.with_set⟩
  | some n => exact ⟨_, rfl, Disk.with_set⟩

theorem modify_with {m : Node} {f : Node → Node} (h : d.get? target = some m) :
    d.With target (some (f m)) (d.modify target f) := by
  intro p
  by_cases hp : p = target
  · rw [if_pos hp, hp, Dict.get?_modify_self, h, Option.map_some]
  · rw [if_neg hp, Dict.get?_modify_ne hp]

theorem contentOf_isSome (h : n.isFile = true) : (Disk.contentOf n).isSome = true := by
  unfold Node.isFile at h
  unfold Disk.contentOf
  cases hkind : n.kind with
  | file content => rfl
  | folder | link =>
    rw [hkind] at h
    cases h

theorem does_copy2 (hs : d.FileHere source n) (hplain : d.Plain target)
    (hfree : d.get? target = none) (hparent : (d.get? target.tail).any Node.isFolder = true)
    (hwhole : fails.CopiesWhole)
    (h : fails .copyOpen = none → ∀ m e, m.kind = n.kind → d.With target (some m) e → Q () e)
    (h' : ∀ e, fails .copyOpen ≠ none → R e d) : Does (copy2 chance source target) fails d Q R := by
  obtain ⟨hsource, hn, hfile⟩ := hs
  have hstat : d.stat? source = some n := hsource.stat.trans hn
  have hnone : d.stat? target = none := hplain.stat.trans hfree
  have hsame : d.sameFile source target = false := by rw [Disk.sameFile, hstat, hnone]
  have hwritable : d.writable target = some target := by
    simp [Disk.writable, hplain.resolve, Option.filter, hparent, hfree]
  obtain ⟨content, hcontent⟩ := Option.isSome_iff_exists.mp (contentOf_isSome hfile)
  have hkind := contentOf_eq hcontent
  unfold copy2
  apply does_bind
  apply does_asks
  rw [hsame, Bool.and_false]
  apply does_bind
  refine does_require (fun _ => ?_) fun hno => absurd rfl hno
  apply does_bind
  apply does_look
  rw [hstat]
  apply does_bind
  apply does_pure
  rw [hcontent]
  apply does_bind
  apply does_pure
  apply does_bind
  apply does_look
  rw [hwritable]
  apply does_bind
  apply does_pure
  apply does_bind
  refine does_effect ?_ fun e he => h' e (by rw [he]; simp)
  intro hopen
  obtain ⟨hpart, hrest, hcopystat⟩ := hwhole hopen
  set d₁ := chance.write target [] d
  obtain ⟨m₁, -, hwith₁⟩ : ∃ m : Node, m.kind = .file [] ∧ d.With target (some m) d₁ :=
    write_with []
  apply does_bind
  apply does_effect _ fun e he => by rw [hpart] at he; cases he
  intro _
  set d₂ := chance.write target (content.take chance.part) d₁
  obtain ⟨m₂, -, hwith₂⟩ : ∃ m : Node, m.kind = .file (content.take chance.part) ∧
      d₁.With target (some m) d₂ := write_with _
  apply does_bind
  apply does_effect _ fun e he => by rw [hrest] at he; cases he
  intro _
  set d₃ := chance.write target content d₂
  obtain ⟨m₃, hkind₃, hwith₃⟩ : ∃ m : Node, m.kind = .file content ∧ d₂.With target (some m) d₃ :=
    write_with content
  apply does_effect _ fun e he => by rw [hcopystat] at he; cases he
  intro _
  have hmodify := modify_with (f := fun m => { m with modified := n.modified }) hwith₃.self
  apply h hopen { m₃ with modified := n.modified } _ (hkind₃.trans hkind.symm)
  exact ((hwith₁.trans hwith₂).trans hwith₃).trans hmodify

theorem does_rename (hs : d.FileHere source n) (hplain : d.Plain target)
    (hfree : d.get? target = none)
    (h : fails .rename = none → ∀ e, d.Moves source target n e → Q () e)
    (h' : ∀ e, (fails .rename ≠ none ∨ (d.get? target.tail).any Node.isFolder = false) → R e d) :
    Does (rename plat chance source target) fails d Q R := by
  obtain ⟨hsource, hn, hfile⟩ := hs
  have hfolder : n.isFolder = false := Node.isFolder_of_isFile hfile
  have hplaces : d.renamable plat.renameReplaces source target =
      if (d.get? target.tail).any Node.isFolder = true then some (source, target) else none := by
    simp [Disk.renamable, hsource.place_self, hplain.place_self, hn, hfree, hfolder]
  unfold rename
  apply does_changes
  · intro places hfound hcall
    rw [hplaces] at hfound
    split at hfound
    · cases hfound
      exact h hcall _ (Disk.moved_moves hn hfile)
    · cases hfound
  · intro e hrefused
    apply h'
    rcases hrefused with hnone | hcall
    · right
      rw [hplaces] at hnone
      split at hnone
      · cases hnone
      · rename_i hparent
        simpa using hparent
    · exact .inl hcall

theorem does_unlink {call : DiskCall} (hs : d.FileHere target n)
    (h : fails call = none → ∀ e, d.With target none e → Q () e)
    (h' : ∀ e, fails call ≠ none → R e d) : Does (unlink chance call target) fails d Q R := by
  obtain ⟨hplain, hn, hfile⟩ := hs
  have hfolder : n.isFolder = false := Node.isFolder_of_isFile hfile
  have hplace : d.placeOf (fun n => !n.isFolder) target = some target := by
    simp [Disk.placeOf, hplain.place_self, hn, hfolder]
  unfold unlink
  apply does_changes
  · intro place hfound hcall
    cases hplace.symm.trans hfound
    exact h hcall _ Disk.with_erase
  · intro e hrefused
    apply h'
    rcases hrefused with hnone | hcall
    · rw [hplace] at hnone
      cases hnone
    · exact hcall

theorem does_move (hs : d.FileHere source n) (hplain : d.Plain target)
    (hfree : d.get? target = none) (hparent : (d.get? target.tail).any Node.isFolder = true)
    (hwhole : fails.MovesWhole)
    (h : ∀ m e, (fails .rename ≠ none → fails .copyOpen = none) → m.kind = n.kind →
      d.Moves source target m e → Q () e)
    (h' : ∀ e, fails .rename ≠ none → fails .copyOpen ≠ none → R e d) :
    Does (move plat chance source target) fails d Q R := by
  have hne : source ≠ target := by
    rintro rfl
    rw [hs.2.1] at hfree
    cases hfree
  have hnone : d.stat? target = none := hplain.stat.trans hfree
  have hnotDir : d.isFolderAt target = false := by rw [Disk.isFolderAt, hnone, Option.any_none]
  have hfile : d.isFolderAt source = false := by
    rw [Disk.isFolderAt, hs.1.stat, hs.2.1, Option.any_some, Node.isFolder_of_isFile hs.2.2]
  unfold move
  apply does_bind
  apply does_asks
  rw [hnotDir, Bool.and_false]
  simp only [Bool.false_eq_true, if_false, Bool.false_and]
  apply does_bind
  apply does_pure
  apply does_bind
  apply does_pure
  apply does_bind
  apply does_require _ fun hno => absurd rfl hno
  intro _
  apply does_rescue
  apply does_rename hs hplain hfree
  · intro hcall e hmoves
    exact h n e (fun hc => absurd hcall hc) rfl hmoves
  · intro e hrefused
    have hcall : fails .rename ≠ none := by
      rcases hrefused with hcall | hno
      · exact hcall
      · rw [hparent] at hno
        cases hno
    apply does_bind
    apply does_asks
    rw [hfile, Bool.and_false]
    simp only [Bool.false_eq_true, if_false]
    apply does_bind
    apply does_copy2 hs hplain hfree hparent
    · exact fun hopen => (hwhole hcall hopen).1
    · intro hopen m f hkind hwith
      have hunlink := (hwhole hcall hopen).2
      have hm : m.isLink = false := by
        have := Node.isLink_of_isFile hs.2.2
        rwa [Node.isLink, hkind, ← Node.isLink]
      have hthere : f.FileHere source n :=
        ⟨hs.1.with hwith (fun x hx => Option.some.inj hx ▸ hm), (hwith.other hne).trans hs.2.1,
          hs.2.2⟩
      apply does_unlink hthere
      · intro _ g hgone
        exact h m g (fun _ => hopen) hkind (Disk.moves_of_with hwith hgone hne)
      · intro e he
        exact absurd hunlink he
    · exact fun e hopen => h' e hcall hopen

/-- The place of a path that leads in a circle holds a link. -/
theorem makable_none {path : Path} (h : d.resolve path = none) : d.makable path = none := by
  cases path with
  | nil =>
    have hroot : d.resolve [] = some [] := by
      apply Disk.Plain.resolve
      trivial
    rw [hroot] at h
    cases h
  | cons name folder =>
    unfold Disk.makable
    rw [Disk.place]
    by_cases hname : name = py ".."
    · rw [if_pos hname, h]
      rfl
    · rw [if_neg hname]
      cases hfolder : d.resolve folder with
      | none => rfl
      | some base =>
        have hlink : ((d.get? (name :: base)).bind Node.leadsTo).isSome = true := by
          by_contra hno
          rw [Option.not_isSome_iff_eq_none] at hno
          have hstays : ∀ follow, Disk.resolveWith d follow folder = some base →
              Disk.resolveWith d follow (name :: folder) = some (name :: base) := by
            intro follow hbase
            rw [Disk.resolveWith, hbase, Option.bind_some, if_neg hname, hno]
          unfold Disk.resolve at h hfolder
          cases hk : d.items.length with
          | zero =>
            rw [hk] at h hfolder
            rw [Disk.resolveIn, hstays _ hfolder] at h
            cases h
          | succ k =>
            rw [hk] at h hfolder
            rw [Disk.resolveIn, hstays _ hfolder] at h
            cases h
        have hthere : d.get? (name :: base) ≠ none := by
          intro hget
          rw [hget] at hlink
          cases hlink
        simp [hthere]

theorem makable_located {value : PyStr} {place : Path} (h : located plat d value = some target)
    (hmake : d.makable target = some place) : place = target ∧ d.Plain target ∧
      d.get? target = none ∧ (d.get? target.tail).any Node.isFolder = true := by
  have hplain : d.Plain target := by
    unfold located at h
    split at h
    · cases h
    · split at h
      · rename_i asked _
        cases h
        cases hresolve : d.resolve asked with
        | none =>
          rw [hresolve, Option.getD_none, makable_none hresolve] at hmake
          cases hmake
        | some place => exact Disk.plain_of_resolve hresolve
      · cases h
  simp only [Disk.makable, hplain.place_self, Option.bind_eq_bind, Option.bind_some] at hmake
  split at hmake
  · rename_i hfree
    simp only [Bool.and_eq_true, Option.isNone_iff_eq_none] at hfree
    exact ⟨(Option.some.inj hmake).symm, hplain, hfree.1, hfree.2⟩
  · cases hmake

theorem does_mkdir {value : PyStr} (ht : located plat d value = some target)
    (h : fails .mkdir = none → ∀ m e, m.isFolder = true → d.Plain target → d.get? target = none →
      (d.get? target.tail).any Node.isFolder = true → d.With target (some m) e → Q () e)
    (h' : ∀ e, R e d) : Does (mkdir chance target) fails d Q R := by
  unfold mkdir
  apply does_changes
  · intro place hmake hcall
    obtain ⟨rfl, hplain, hfree, hparent⟩ := makable_located ht hmake
    apply h hcall (chance.made (.folder chance.folderSize)) _ _ hplain hfree hparent Disk.with_set
    simp [Node.isFolder, chance.made_kind]
  · exact fun e _ => h' e

end
end QronosAgent.Files

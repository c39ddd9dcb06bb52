import QronosAgent.Library.Placed

/-! A copy, a deletion, and what is done to a link. -/
namespace QronosAgent.Library
open Lib

section
variable {F : Type} [DecidableEq F] {sys : System} {given : Given} {refusal : Call → Option OsError}
variable {s t u : State F} {id : PyStr} {a : Artifact F} {path p : Place F}
variable {bytes : List UInt8} {op : Operation F} {dest : F} {e : LibraryError}

theorem where_registered (newId : PyStr) (identity : Identity)
    (hfresh : ((s.recordOf p).isSome || (s.records.get? newId).isNone) = true) :
    Recorded s (s.registered newId p identity).2 (s.registered newId p identity).1 (.file p) ∧
      ∀ x, s.records.get? (s.registered newId p identity).1 = some x → x.pathOrUrl = .file p := by
  unfold State.registered
  cases hfound : s.recordOf p with
  | some item =>
    have hmem := List.mem_of_find?_eq_some hfound
    have hwhere := List.find?_some hfound
    have hget : s.records.get? item.1 = some item.2 := Dict.get?_eq_some.mpr hmem
    constructor
    · intro b
      show ((s.records.set item.1 _).get? b).map Artifact.pathOrUrl = _
      rw [Dict.get?_set]
      split <;> rfl
    · intro x hx
      have heq : item.2 = x := Option.some.inj (hget.symm.trans hx)
      rw [← heq]
      exact of_decide_eq_true hwhere
  | none =>
    rw [hfound] at hfresh
    constructor
    · intro b
      show ((s.records.set newId _).get? b).map Artifact.pathOrUrl = _
      rw [Dict.get?_set]
      split <;> rfl
    · intro x hx
      change s.records.get? newId = some x at hx
      rw [hx] at hfresh
      cases hfresh

variable (refusal) in
/-- What is done about a copy that could not be registered. -/
theorem run_uncopy (hbytes : u.bytes? sys p = some bytes) (hplain : e.isPlain = true) :
    if uncopied refusal then
      (do
        let plain ← isPlainFile sys .createdIsFile .createdLstat p
        if plain then do
          Fated.effect .unlinkCopy .os fun s => s.put sys p none
          Fated.raise e
        else Fated.raise e : OnLibrary F PyStr).run (Fated.refusing refusal) u =
          (.raised e, u.put sys p none)
    else ∃ e' : LibraryError, e'.isPlain = true ∧
      (do
        let plain ← isPlainFile sys .createdIsFile .createdLstat p
        if plain then do
          Fated.effect .unlinkCopy .os fun s => s.put sys p none
          Fated.raise e
        else Fated.raise e : OnLibrary F PyStr).run (Fated.refusing refusal) u =
          (.raised e', u) := by
  have hat := State.at?_of_bytes? hbytes
  have hlook : (isPlainFile sys .createdIsFile .createdLstat p).run (Fated.refusing refusal) u =
      (.returned (works refusal .createdIsFile && works refusal .createdLstat), u) := by
    rw [run_isPlainFile, hat]
    simp [Kind.isFile, Kind.isLink]
  rw [Fated.run_then hlook]
  unfold uncopied
  by_cases hseen : (works refusal .createdIsFile && works refusal .createdLstat) = true
  · rw [hseen, if_pos rfl, Fated.run_bind, Fated.run_effect, Bool.true_and]
    unfold works
    rcases hunlink : refusal .unlinkCopy with _ | e'
    · rfl
    · exact ⟨.os e', rfl, rfl⟩
  · rw [Bool.not_eq_true] at hseen
    rw [hseen, Bool.false_and]
    exact ⟨e, hplain, rfl⟩

theorem copy_done {c : Place F} (hrecord : s.records.get? id = some a)
    (hpath : a.pathOrUrl = .file path) (hbytes : s.bytes? sys path = some bytes)
    (hfree : s.at? sys c = none) (hdest : c.folder = dest)
    (hregistered : ((s.recordOf c).isSome || (s.records.get? given.newId).isNone) = true) :
    Truthful sys s (housekeeping refusal ((s.write sys c bytes).registered given.newId c
        (identityOf sys given bytes)).2) id (.copy dest)
      (.returned (some ((s.write sys c bytes).registered given.newId c
        (identityOf sys given bytes)).1)) := by
  have hrecorded := where_registered (s := s.write sys c bytes) (p := c) given.newId
    (identityOf sys given bytes) hregistered
  have hdisk : ((s.write sys c bytes).registered given.newId c
      (identityOf sys given bytes)).2.disk = (s.write sys c bytes).disk := by
    unfold State.registered
    split <;> rfl
  have hbin : ((s.write sys c bytes).registered given.newId c
      (identityOf sys given bytes)).2.recycleBin = s.recycleBin := by
    unfold State.registered
    split <;> rfl
  generalize (s.write sys c bytes).registered given.newId c (identityOf sys given bytes) = new
    at hrecorded hdisk hbin
  obtain ⟨hrecorded, hstale⟩ := hrecorded
  generalize ht : housekeeping refusal new.2 = t
  have htdisk : t.disk = (s.write sys c bytes).disk := by
    rw [← ht, disk_housekeeping, hdisk]
  have hwhere : ∀ b, (t.records.get? b).map Artifact.pathOrUrl =
      if b = new.1 then some (.file c) else (s.records.get? b).map Artifact.pathOrUrl := by
    intro b
    rw [← ht, where_housekeeping]
    exact hrecorded b
  have hkeep : ∀ q bs, s.bytes? sys q = some bs → t.bytes? sys q = some bs := by
    intro q bs hq
    rw [bytes?_disk htdisk]
    exact keep_write hfree hq
  have hnames : t.Names sys new.1 c bytes := by
    refine ⟨by rw [hwhere, if_pos rfl], ?_⟩
    rw [bytes?_disk htdisk]
    exact State.bytes?_write_self
  have hfile := fileOf_eq hrecord hpath hbytes
  have hold : ∀ b x, s.records.get? b = some x →
      (t.records.get? b).map Artifact.pathOrUrl = some x.pathOrUrl := by
    intro b x hx
    rw [hwhere]
    by_cases hb : b = new.1
    · subst hb
      rw [if_pos rfl, hstale x hx]
    · rw [if_neg hb, hx]
      rfl
  constructor
  · exact fun q bs hq => .inl (hkeep q bs hq)
  · intro x hx
    rw [← ht, recycleBin_housekeeping, hbin]
    exact hx
  · intro n hn path' bytes' h
    rw [hfile] at h
    cases h
    cases hn
    exact ⟨new.1, c, rfl, hdest, hnames⟩
  · rintro _ ⟨⟩
  · intro path' bytes' h _
    rw [hfile] at h
    cases h
    refine ⟨path, ?_, hkeep path bytes hbytes⟩
    rw [hold id a hrecord, hpath]
  · exact fun b x _ hx => hold b x hx
  · intro b x hx
    by_cases hb : b = new.1
    · subst hb
      exact .inr ⟨c, bytes, hnames⟩
    · have hsame := hwhere b
      rw [if_neg hb, hx] at hsame
      exact .inl hsame.symm

theorem copy_iff {r : Ending LibraryError PyStr × State F}
    (hfresh : Fresh sys given s id (.copy dest)) (hrecord : s.records.get? id = some a)
    (hpath : a.pathOrUrl = .file path) (hbytes : s.bytes? sys path = some bytes)
    (hr : (copy sys given a path dest).run (Fated.refusing refusal) s = r) :
    Truthful sys s r.2 id (.copy dest) (r.1.map some) ↔
      CopyFine sys given refusal s a path dest bytes := by
  have hfile := fileOf_eq hrecord hpath hbytes
  have hfree := hfresh.free .there ⟨dest, path.name⟩
  -- the artifact's own name is that of no partial copy, for it is taken
  have hname : sys.fold path.name ≠ sys.fold (given.partialName .there) := by
    intro heq
    have hnone := hfresh.absent .there path.folder
    rw [← heq] at hnone
    exact at?_ne_none hbytes hnone
  have hne : ∀ c ∈ (⟨dest, path.name⟩ : Place F) :: copyNames dest path.name,
      (partialCopy given .there ⟨dest, path.name⟩).key sys ≠ c.key sys := by
    intro c hc heq
    have heq' : sys.fold (given.partialName .there) = sys.fold c.name := (Prod.ext_iff.mp heq).2
    rcases List.mem_cons.mp hc with rfl | hc
    · exact hname heq'.symm
    · exact hfresh.apart .there path bytes hfile c (.inr ⟨dest, rfl, hc⟩) heq'.symm
  have hfolder : ∀ c ∈ (⟨dest, path.name⟩ : Place F) :: copyNames dest path.name,
      c.folder = dest := by
    intro c hc
    rcases List.mem_cons.mp hc with rfl | hc
    · rfl
    · obtain ⟨i, -, rfl⟩ := List.mem_map.mp hc
      rfl
  have hrun := run_copyVerified refusal .there a hbytes hfree hne
  unfold copy at hr
  unfold CopyFine
  cases hend : copyEnd sys given refusal .there a s bytes ⟨dest, path.name⟩
      (copyNames dest path.name) with
  | failed named left =>
    rw [hend] at hrun
    obtain ⟨e, t, hplain, hrun, hleaves⟩ := hrun
    rw [Fated.run_abort hrun] at hr
    subst hr
    apply (truthful_iff_same hplain).trans
    obtain ⟨bs, ht⟩ := hleaves.eq
    cases left with
    | true =>
      apply iff_of_false _ (fun h => by cases h.2)
      intro heq
      have hat : t.at? sys (partialCopy given .there ⟨dest, path.name⟩) = some (.file bs) := by
        rw [ht]
        exact State.at?_put_self
      change t = s at heq
      rw [heq, hfree] at hat
      cases hat
    | false =>
      cases named with
      | none => exact iff_of_true ht ⟨rfl, rfl⟩
      | some c =>
        apply iff_of_false _ (fun h => by cases h.1)
        rw [ht]
        exact write_ne (hleaves.free c rfl).2
  | made c =>
    rw [hend] at hrun
    obtain ⟨hrun, hc, hnone⟩ := hrun
    rw [Fated.run_then hrun, Fated.run_rescue] at hr
    have hmade : (s.write sys c bytes).bytes? sys c = some bytes := State.bytes?_write_self
    have hregister := run_registerFile given refusal hmade
    have hclean : (s.write sys c bytes).put sys c none = s := by
      unfold State.write
      rw [State.put_put, State.put_same hnone]
    simp only
    cases hreached : registerEnd given refusal (s.write sys c bytes) c bytes with
    | whole =>
      rw [hreached] at hregister
      obtain ⟨n, hn, hregister⟩ := hregister
      rw [hregister] at hr
      subst hr
      subst hn
      apply iff_of_true _ trivial
      apply copy_done hrecord hpath hbytes hnone (hfolder c hc)
      unfold registerEnd at hreached
      split at hreached
      · cases hreached
      · rename_i hall
        rw [Bool.not_eq_true, Bool.not_eq_false'] at hall
        simp only [Bool.and_eq_true] at hall
        exact hall.1.2
    | unwritten =>
      rw [hreached] at hregister
      obtain ⟨e, hplain, hregister⟩ := hregister
      rw [hregister] at hr
      have huncopy := run_uncopy refusal hmade hplain
      by_cases hgone : uncopied refusal = true
      · rw [if_pos hgone] at huncopy
        cases huncopy.symm.trans hr
        apply iff_of_true _ hgone
        rw [hclean]
        exact truthful_refl
      · rw [if_neg hgone] at huncopy
        obtain ⟨e', hplain', huncopy⟩ := huncopy
        cases huncopy.symm.trans hr
        exact iff_of_false (not_truthful hplain' (write_ne hnone)) hgone
    | written =>
      rw [hreached] at hregister
      obtain ⟨e, hplain, hregister⟩ := hregister
      rw [hregister] at hr
      have hdisk : (housekeeping refusal ((s.write sys c bytes).registered given.newId c
          (identityOf sys given bytes)).2).disk = (s.write sys c bytes).disk := by
        rw [disk_housekeeping]
        unfold State.registered
        split <;> rfl
      have hbin : (housekeeping refusal ((s.write sys c bytes).registered given.newId c
          (identityOf sys given bytes)).2).recycleBin = s.recycleBin := by
        rw [recycleBin_housekeeping]
        unfold State.registered
        split <;> rfl
      generalize housekeeping refusal ((s.write sys c bytes).registered given.newId c
        (identityOf sys given bytes)).2 = u at hr hdisk hbin
      have hthere : u.bytes? sys c = some bytes := (bytes?_disk hdisk).trans hmade
      have huncopy := run_uncopy refusal hthere hplain
      by_cases hgone : uncopied refusal = true
      · rw [if_pos hgone] at huncopy
        cases huncopy.symm.trans hr
        apply (truthful_iff_same hplain).trans
        constructor
        · intro heq
          exact ⟨hgone, by rw [← heq, State.records_put]⟩
        · rintro ⟨-, hsame⟩
          have hback : (u.put sys c none).disk = s.disk := by
            rw [← hclean]
            unfold State.put
            simp only
            rw [hdisk]
          exact State.ext hback hbin hsame
      · rw [if_neg hgone] at huncopy
        obtain ⟨e', hplain', huncopy⟩ := huncopy
        cases huncopy.symm.trans hr
        apply iff_of_false _ fun h => hgone h.1
        apply not_truthful hplain'
        rintro rfl
        rw [State.bytes?_of_none hnone] at hthere
        cases hthere

variable {ending : Ending LibraryError (Option PyStr)} {r : Ending LibraryError Unit × State F}

theorem delete_done (hrecord : s.records.get? id = some a) (hpath : a.pathOrUrl = .file path)
    (hbytes : s.bytes? sys path = some bytes) (hdisk : t.disk = (s.put sys path none).disk)
    (hbin : t.recycleBin = (path, bytes) :: s.recycleBin)
    (hothers : ∀ b, b ≠ id → (t.records.get? b).map Artifact.pathOrUrl =
      (s.records.get? b).map Artifact.pathOrUrl)
    (hsame : ∀ x, t.records.get? id = some x → x.pathOrUrl = .file path)
    (hdone : ∀ new, ending = .returned new → t.records.get? id = none)
    (hfailed : ∀ e, ending = .raised e → e = .inRecycleBin) :
    Truthful sys s t id .delete ending := by
  have hfile := fileOf_eq hrecord hpath hbytes
  have hin : (path, bytes) ∈ t.recycleBin := by
    rw [hbin]
    exact List.mem_cons_self
  have hgone : t.bytes? sys path = none := by
    rw [bytes?_disk hdisk]
    exact State.bytes?_of_none State.at?_put_self
  constructor
  · intro q bs hq
    by_cases hkey : q.key sys = path.key sys
    · rw [bytes?_key hkey, hbytes] at hq
      cases hq
      exact .inr ⟨path, hfile, hkey.symm, .inr ⟨rfl, hin⟩⟩
    · left
      rw [bytes?_disk hdisk, State.bytes?_put_ne hkey, hq]
  · intro x hx
    rw [hbin]
    exact List.mem_cons_of_mem _ hx
  · intro new hnew path' bytes' h
    rw [hfile] at h
    cases h
    exact ⟨hdone new hnew, hgone, hin⟩
  · intro e he
    exact .inr ⟨path, bytes, hfile, .inr ⟨hfailed e he, hin⟩⟩
  · intro path' bytes' h hthere
    rw [hfile] at h
    cases h
    rcases hthere with hthere | ⟨p, hp, -⟩
    · rw [hgone] at hthere
      cases hthere
    · cases hp
  · intro b x hb hx
    rw [hothers b hb, hx]
    rfl
  · intro b x hx
    left
    by_cases hb : b = id
    · subst hb
      rw [hrecord, Option.map_some, hpath, hsame x hx]
    · rw [← hothers b hb, hx]
      rfl

variable (given refusal) in
theorem run_recycle (hbytes : s.bytes? sys path = some bytes) :
    (recycle sys given path).run (Fated.refusing refusal) s = match refusal .recycle with
      | none => (.returned (), if given.takes then s.binned sys path bytes else s)
      | some e => (.raised (.os e), s) := by
  unfold recycle
  rw [Fated.run_effect, hbytes]
  cases refusal .recycle <;> rfl

/-- What follows once the file is looked for in vain. -/
theorem run_unrecord (hrecord : u.records.get? id = some a) :
    (Fated.rescue (remove id a.pathOrUrl) fun _ => Fated.raise .inRecycleBin).run
        (Fated.refusing refusal) u =
      (if removeEnd refusal = .whole then .returned () else .raised .inRecycleBin,
        if removeEnd refusal = .unwritten then u
        else housekeeping refusal { u with records := u.records.erase id }) := by
  have hrun := run_remove refusal hrecord
  rw [Fated.run_rescue]
  cases hend : removeEnd refusal with
  | unwritten =>
    rw [hend] at hrun
    obtain ⟨e, -, hrun⟩ := hrun
    rw [hrun]
    rfl
  | written =>
    rw [hend] at hrun
    obtain ⟨e, -, hrun⟩ := hrun
    rw [hrun]
    rfl
  | whole =>
    rw [hend] at hrun
    obtain ⟨x, -, hrun⟩ := hrun
    rw [hrun]
    rfl

/-- The file is still there, and its record is not. -/
theorem not_erased (hrecord : s.records.get? id = some a) (hpath : a.pathOrUrl = .file path)
    (hbytes : s.bytes? sys path = some bytes) :
    ¬ Truthful sys s (housekeeping refusal { s with records := s.records.erase id }) id op
      ending := by
  intro htruth
  have hthere : (housekeeping refusal { s with records := s.records.erase id }).bytes? sys path =
      some bytes := by
    rw [bytes?_disk disk_housekeeping]
    exact hbytes
  obtain ⟨p, hp, -⟩ := htruth.named path bytes (fileOf_eq hrecord hpath hbytes) (.inl hthere)
  rw [where_housekeeping] at hp
  simp only [Dict.get?_erase_self, Option.map_none] at hp
  cases hp

theorem removeEnd_eq_unwritten :
    removeEnd refusal = .unwritten ↔ works refusal (.transaction .remove) = false := by
  unfold removeEnd
  by_cases hremove : works refusal (.transaction .remove) = true
  · rw [hremove]
    simp only [Bool.not_true, Bool.false_eq_true, if_false]
    split <;> simp
  · rw [Bool.not_eq_true] at hremove
    simp [hremove]

/-- A deletion that the Recycle Bin did not refuse, from what it left. -/
def afterRecycle (sys : System) (refusal : Call → Option OsError) (id : PyStr) (a : Artifact F)
    (path : Place F) (u : State F) : Ending LibraryError Unit × State F :=
  if (works refusal .recycledExists && (u.at? sys path).any Kind.leads ||
      (!works refusal .recycledLstat || (u.at? sys path).any Kind.isLink)) = true then
    (.raised .notTaken, u)
  else (Fated.rescue (remove id a.pathOrUrl) fun _ => Fated.raise .inRecycleBin).run
    (Fated.refusing refusal) u

variable (given id a) in
theorem run_delete (hrecycle : refusal .recycle = none) (hbytes : s.bytes? sys path = some bytes)
    (hu : (if given.takes then s.binned sys path bytes else s) = u) :
    (delete sys given id a path).run (Fated.refusing refusal) s =
      afterRecycle sys refusal id a path u := by
  have hrun := run_recycle given refusal hbytes
  rw [hrecycle, hu] at hrun
  unfold delete
  rw [Fated.run_then hrun, Fated.run_then run_isTaken, Fated.run_bind, Fated.run_require]
  unfold afterRecycle
  cases works refusal .recycledExists && (u.at? sys path).any Kind.leads ||
    (!works refusal .recycledLstat || (u.at? sys path).any Kind.isLink) <;> rfl

theorem erased (ht : housekeeping refusal { u with records := u.records.erase id } = t) :
    t.disk = u.disk ∧ t.recycleBin = u.recycleBin ∧ t.records.get? id = none ∧
      ∀ b, b ≠ id → (t.records.get? b).map Artifact.pathOrUrl =
        (u.records.get? b).map Artifact.pathOrUrl := by
  subst ht
  refine ⟨disk_housekeeping, recycleBin_housekeeping, ?_, fun b hb => ?_⟩
  · rw [← Option.map_eq_none_iff, where_housekeeping, Dict.get?_erase_self, Option.map_none]
  · rw [where_housekeeping, Dict.get?_erase_ne hb]

theorem taken_iff (hrecord : s.records.get? id = some a) (hpath : a.pathOrUrl = .file path)
    (hbytes : s.bytes? sys path = some bytes)
    (hr : afterRecycle sys refusal id a path (s.binned sys path bytes) = r) :
    Truthful sys s r.2 id .delete (r.1.map fun _ => none) ↔
      works refusal .recycledLstat = true := by
  have hgone : (s.binned sys path bytes).at? sys path = none := State.at?_put_self
  unfold afterRecycle at hr
  rw [hgone] at hr
  simp only [Option.any_none, Bool.and_false, Bool.or_false, Bool.false_or] at hr
  by_cases hlstat : works refusal .recycledLstat = true
  · rw [if_neg (by rw [hlstat]; exact Bool.false_ne_true)] at hr
    have hrecord' : (s.binned sys path bytes).records.get? id = some a := hrecord
    rw [run_unrecord hrecord'] at hr
    subst hr
    apply iff_of_true _ hlstat
    by_cases hend : removeEnd refusal = .unwritten
    · rw [if_pos hend, if_neg (by rw [hend]; rintro ⟨⟩)]
      have hdisk : (s.binned sys path bytes).disk = (s.put sys path none).disk := rfl
      have hbin : (s.binned sys path bytes).recycleBin = (path, bytes) :: s.recycleBin := rfl
      apply delete_done hrecord hpath hbytes hdisk hbin (fun _ _ => rfl)
      · intro x hx
        rw [← hpath, Option.some.inj (hrecord'.symm.trans hx)]
      · rintro _ ⟨⟩
      · exact fun _ hn => by
          cases hn
          rfl
    · rw [if_neg hend]
      obtain ⟨hdisk, hbin, hnone, hothers⟩ :=
        @erased _ _ refusal _ (s.binned sys path bytes) id rfl
      apply delete_done hrecord hpath hbytes hdisk hbin hothers
      · intro x hx
        rw [hnone] at hx
        cases hx
      · exact fun _ _ => hnone
      · intro e he
        split at he
        · cases he
        · cases he
          rfl
  · rw [if_pos (by rw [Bool.not_eq_true] at hlstat; rw [hlstat]; rfl)] at hr
    subst hr
    apply iff_of_false _ hlstat
    apply not_truthful rfl
    intro heq
    rw [show s.binned sys path bytes = s from heq] at hgone
    exact at?_ne_none hbytes hgone

/-- It did not, and reported no error. -/
theorem not_taken_iff (hrecord : s.records.get? id = some a) (hpath : a.pathOrUrl = .file path)
    (hbytes : s.bytes? sys path = some bytes)
    (hr : afterRecycle sys refusal id a path s = r) :
    Truthful sys s r.2 id .delete (r.1.map fun _ => none) ↔
      works refusal .recycledExists = true ∨ works refusal .recycledLstat = false ∨
        works refusal (.transaction .remove) = false := by
  unfold afterRecycle at hr
  rw [State.at?_of_bytes? hbytes] at hr
  simp only [Option.any_some, Kind.leads, Kind.isLink, Bool.and_true, Bool.or_false, Bool.or_eq_true,
    Bool.not_eq_true'] at hr
  by_cases hseen : works refusal .recycledExists = true ∨ works refusal .recycledLstat = false
  · rw [if_pos hseen] at hr
    subst hr
    exact iff_of_true truthful_refl (or_assoc.mp (.inl hseen))
  · rw [if_neg hseen, run_unrecord hrecord] at hr
    subst hr
    rw [← or_assoc, or_iff_right hseen, ← removeEnd_eq_unwritten]
    by_cases hend : removeEnd refusal = .unwritten
    · rw [if_pos hend, if_neg (by rw [hend]; rintro ⟨⟩)]
      exact iff_of_true truthful_refl hend
    · rw [if_neg hend]
      exact iff_of_false (not_erased hrecord hpath hbytes) hend

theorem delete_iff (hrecord : s.records.get? id = some a) (hpath : a.pathOrUrl = .file path)
    (hbytes : s.bytes? sys path = some bytes)
    (hr : (delete sys given id a path).run (Fated.refusing refusal) s = r) :
    Truthful sys s r.2 id .delete (r.1.map fun _ => none) ↔ DeleteFine given refusal := by
  unfold DeleteFine
  rcases hrecycle : refusal .recycle with _ | e
  · have hworks : works refusal .recycle = true := by
      unfold works
      rw [hrecycle]
      rfl
    rw [hworks]
    simp only [forall_const]
    have hrun := run_delete given id a hrecycle hbytes rfl
    rw [hrun] at hr
    by_cases htakes : given.takes = true
    · rw [if_pos htakes] at hr ⊢
      exact taken_iff hrecord hpath hbytes hr
    · rw [if_neg htakes] at hr ⊢
      exact not_taken_iff hrecord hpath hbytes hr
  · have hrun := run_recycle given refusal hbytes
    rw [hrecycle] at hrun
    unfold delete at hr
    rw [Fated.run_abort hrun] at hr
    subst hr
    apply iff_of_true truthful_refl
    intro hworks
    unfold works at hworks
    rw [hrecycle] at hworks
    cases hworks

variable {text : PyStr}

variable (sys) in
theorem fileOf_link (hrecord : s.records.get? id = some a) (hurl : a.pathOrUrl = .url text) :
    s.fileOf sys id = none := by
  unfold State.fileOf
  simp only [hrecord, Option.bind_eq_bind, Option.bind_some, hurl]

theorem link_done {new : Option PyStr} (hrecord : s.records.get? id = some a)
    (hurl : a.pathOrUrl = .url text) (hdisk : t.disk = s.disk) (hbin : t.recycleBin = s.recycleBin)
    (hothers : ∀ b, b ≠ id → (t.records.get? b).map Artifact.pathOrUrl =
      (s.records.get? b).map Artifact.pathOrUrl)
    (hsame : ∀ x, t.records.get? id = some x → x.pathOrUrl = a.pathOrUrl) :
    Truthful sys s t id op (.returned new) := by
  have hfile := fileOf_link sys hrecord hurl
  constructor
  · intro q bs hq
    rw [bytes?_disk hdisk]
    exact .inl hq
  · rw [hbin]
    exact fun _ h => h
  · intro _ _ path bytes h
    rw [hfile] at h
    cases h
  · rintro _ ⟨⟩
  · intro path bytes h
    rw [hfile] at h
    cases h
  · intro b x hb hx
    rw [hothers b hb, hx]
    rfl
  · intro b x hx
    left
    by_cases hb : b = id
    · subst hb
      rw [hrecord, Option.map_some, hsame x hx]
    · rw [← hothers b hb, hx]
      rfl

theorem not_truthful_link (hrecord : s.records.get? id = some a) (hurl : a.pathOrUrl = .url text)
    (hne : t ≠ s) : ¬ Truthful sys s t id op (.raised e) := by
  intro htruth
  rcases htruth.failed e rfl with heq | ⟨path, bytes, hfile, -⟩
  · exact hne heq
  · rw [fileOf_link sys hrecord hurl] at hfile
    cases hfile

theorem removeLink_iff (hrecord : s.records.get? id = some a) (hurl : a.pathOrUrl = .url text)
    (hr : (remove id a.pathOrUrl).run (Fated.refusing refusal) s = r) :
    Truthful sys s r.2 id op (r.1.map fun _ => none) ↔ removeEnd refusal ≠ .written := by
  have hrun := run_remove refusal hrecord
  generalize ht : housekeeping refusal { s with records := s.records.erase id } = t at hrun
  obtain ⟨hdisk, hbin, hnone, hothers⟩ := erased ht
  cases hend : removeEnd refusal with
  | unwritten =>
    rw [hend] at hrun
    obtain ⟨e, -, hrun⟩ := hrun
    cases hrun.symm.trans hr
    exact iff_of_true truthful_refl (by rintro ⟨⟩)
  | written =>
    rw [hend] at hrun
    obtain ⟨e, -, hrun⟩ := hrun
    cases hrun.symm.trans hr
    apply iff_of_false _ (fun h => h rfl)
    apply not_truthful_link hrecord hurl
    rintro rfl
    cases hrecord.symm.trans hnone
  | whole =>
    rw [hend] at hrun
    obtain ⟨x, -, hrun⟩ := hrun
    cases hrun.symm.trans hr
    apply iff_of_true _ (by rintro ⟨⟩)
    apply link_done hrecord hurl hdisk hbin hothers
    intro x hx
    rw [hnone] at hx
    cases hx

theorem renameLink_iff {name : PyStr} (hrecord : s.records.get? id = some a)
    (hurl : a.pathOrUrl = .url text)
    (hr : (renameLink id name a.pathOrUrl).run (Fated.refusing refusal) s = r) :
    Truthful sys s r.2 id op (r.1.map fun _ => none) ↔ (name.strip ≠ [] →
      renameLinkEnd refusal = .written →
        (s.withRecord id { a with name := name.strip }).records = s.records) := by
  unfold renameLink at hr
  rw [Fated.run_bind, Fated.run_require] at hr
  by_cases hempty : name.strip = []
  · rw [if_neg (not_not_intro hempty)] at hr
    subst hr
    exact iff_of_true truthful_refl fun hn => absurd hempty hn
  rw [if_pos hempty] at hr
  simp only at hr
  have hfound : (s.recordAt id a.pathOrUrl).filter (fun a => a.pathOrUrl.isUrl) = some a := by
    rw [State.recordAt_of hrecord, Option.filter_some, hurl]
    rfl
  rw [Fated.run_bind, Fated.run_look] at hr
  simp only [hfound] at hr
  rw [Fated.run_bind, run_transaction] at hr
  unfold renameLinkEnd
  by_cases hwrite : works refusal (.transaction .renameLink) = true
  swap
  · rw [if_neg hwrite] at hr
    subst hr
    apply iff_of_true truthful_refl
    intro _ hn
    rw [Bool.not_eq_true] at hwrite
    rw [hwrite] at hn
    cases hn
  rw [if_pos hwrite] at hr
  simp only [hwrite, Bool.not_true, Bool.false_eq_true, if_false]
  have hsome : ((s.recordAt id a.pathOrUrl).filter
      (fun a => a.pathOrUrl.isUrl)).isSome = true := by
    rw [hfound]
    rfl
  simp only at hr
  rw [Fated.run_bind, Fated.run_require, if_pos hsome] at hr
  unfold get at hr
  simp only at hr
  rw [Fated.run_bind, Fated.run_bind, run_transaction] at hr
  generalize hnew : ({ a with name := name.strip } : Artifact F) = new at hr ⊢
  have hwhere : new.pathOrUrl = a.pathOrUrl := by rw [← hnew]
  have hgot : (s.withRecord id new).records.get? id = some new := Dict.get?_set_self
  by_cases hget : works refusal (.transaction .get) = true
  · rw [if_pos hget] at hr ⊢
    simp only [Fated.run_bind, Fated.run_look, Fated.run_demand, hgot, Fated.run_pure] at hr
    subst hr
    apply iff_of_true _ (by rintro _ ⟨⟩)
    have hdisk : (s.withRecord id new).disk = s.disk := rfl
    have hbin : (s.withRecord id new).recycleBin = s.recycleBin := rfl
    apply link_done hrecord hurl hdisk hbin
    · intro b hb
      show ((s.records.set id new).get? b).map _ = _
      rw [Dict.get?_set_ne hb]
    · intro x hx
      rw [hgot] at hx
      cases hx
      exact hwhere
  · rw [if_neg hget] at hr ⊢
    subst hr
    constructor
    · intro htruth _ _
      by_contra hne
      apply not_truthful_link hrecord hurl _ htruth
      exact fun heq => hne (congrArg State.records heq)
    · intro hsame
      have heq : s.withRecord id new = s := State.ext rfl rfl (hsame hempty rfl)
      show Truthful sys s (s.withRecord id new) id op (.raised .database)
      rw [heq]
      exact truthful_refl

end
end QronosAgent.Library

import QronosAgent.Library.Shifts

/-! A rename and a move, from the artifact as it is after the checks. -/
namespace QronosAgent.Library
open Lib

section
variable {F : Type} [DecidableEq F] {sys : System} {given : Given} {refusal : Call → Option OsError}
variable {s t u : State F} {id : PyStr} {a : Artifact F} {path target copy : Place F}
variable {bytes : List UInt8} {op : Operation F} {dest : F} {newName : PyStr}

variable {p : Place F} {existing lstat : Call} {v : State F} {fates : Call → Fate OsError}
  {r : Ending LibraryError Unit × State F}

theorem looks_exists {call : Call} :
    Fated.Looks (exists? sys call p) (Fated.refusing refusal) :=
  fun _ => .inl ⟨_, run_refusing_exists⟩

theorem run_isTaken :
    (isTaken sys existing lstat p).run (Fated.refusing refusal) s =
      (.returned (works refusal existing && (s.at? sys p).any Kind.leads ||
        (!works refusal lstat || (s.at? sys p).any Kind.isLink)), s) := by
  unfold isTaken
  rw [Fated.run_then run_refusing_exists]
  cases works refusal existing && (s.at? sys p).any Kind.leads with
  | true => rfl
  | false => exact run_refusing_isLink

theorem run_isPlainFile {file : Call} :
    (isPlainFile sys file lstat p).run (Fated.refusing refusal) s =
      (.returned (works refusal file && (s.at? sys p).any Kind.isFile &&
        !(!works refusal lstat || (s.at? sys p).any Kind.isLink)), s) := by
  unfold isPlainFile
  rw [Fated.run_then run_refusing_isFile]
  cases works refusal file && (s.at? sys p).any Kind.isFile with
  | true =>
    rw [if_pos rfl, Fated.run_then run_refusing_isLink]
    rfl
  | false => rfl

theorem looks_isTaken :
    Fated.Looks (isTaken sys existing lstat p) (Fated.refusing refusal) :=
  fun _ => .inl ⟨_, run_isTaken⟩

variable (sys given refusal path newName) in
theorem looks_renameTarget :
    Fated.Looks (renameTarget sys given path newName) (Fated.refusing refusal) := by
  unfold renameTarget
  apply (Fated.looks_ofExcept _).bind
  intro name
  apply looks_isTaken.bind
  intro taken
  split
  · apply looks_exists.bind
    intro again
    apply (Fated.looks_require _ _).bind
    intro _
    apply (Fated.looks_effect _ _ fun _ => rfl).bind
    intro _
    apply (Fated.looks_require _ _).bind
    intro _
    exact Fated.looks_pure _
  · exact Fated.looks_pure _

variable (sys refusal path dest) in
theorem looks_moveTarget : Fated.Looks (moveTarget sys path dest) (Fated.refusing refusal) := by
  unfold moveTarget
  apply (Fated.looks_require _ _).bind
  intro _
  apply looks_isTaken.bind
  intro taken
  apply (Fated.looks_require _ _).bind
  intro _
  exact Fated.looks_pure _

theorem newPlace_of_renameTarget
    (h : Fated.Returns (renameTarget sys given path newName) fates s target v) :
    target ∈ (Operation.rename newName).newPlace sys path := by
  unfold renameTarget at h
  obtain ⟨name, _, hvalid, h⟩ := Fated.returns_bind.mp h
  obtain ⟨hname, rfl⟩ := Fated.returns_ofExcept.mp hvalid
  obtain ⟨taken, _, -, h⟩ := Fated.returns_bind.mp h
  have htarget : target = ⟨path.folder, name⟩ := by
    split at h
    · obtain ⟨_, _, -, h⟩ := Fated.returns_bind.mp h
      obtain ⟨_, _, -, h⟩ := Fated.returns_bind.mp h
      obtain ⟨_, _, -, h⟩ := Fated.returns_bind.mp h
      obtain ⟨_, _, -, h⟩ := Fated.returns_bind.mp h
      exact (Fated.returns_pure.mp h).1.symm
    · exact (Fated.returns_pure.mp h).1.symm
  simp only [Operation.newPlace, hname, htarget, Option.mem_def]

theorem moveTarget_returned (h : Fated.Returns (moveTarget sys path dest) fates s target v) :
    path.folder ≠ dest ∧ target = ⟨dest, path.name⟩ := by
  unfold moveTarget at h
  obtain ⟨_, _, hrequire, h⟩ := Fated.returns_bind.mp h
  obtain ⟨hne, -⟩ := Fated.returns_require.mp hrequire
  obtain ⟨_, _, -, h⟩ := Fated.returns_bind.mp h
  obtain ⟨_, _, -, h⟩ := Fated.returns_bind.mp h
  exact ⟨hne, (Fated.returns_pure.mp h).1.symm⟩

theorem at?_ne_none (hbytes : s.bytes? sys path = some bytes) : s.at? sys path ≠ none := by
  rw [State.at?_of_bytes? hbytes]
  exact fun hn => by cases hn

theorem Fresh.free (h : Fresh sys given s id op) (w : Way) (first : Place F) :
    s.at? sys (partialCopy given w first) = none :=
  h.absent w first.folder

theorem Fresh.key_ne (h : Fresh sys given s id op) (hfile : s.fileOf sys id = some (path, bytes))
    (hp : p ∈ op.newPlace sys path) (w : Way) (first : Place F) :
    (partialCopy given w first).key sys ≠ p.key sys := by
  intro heq
  exact h.apart w path bytes hfile p (.inl hp) (Prod.ext_iff.mp heq).2.symm

/-- The file is where the operation puts it. -/
theorem atTarget (hbytes : s.bytes? sys path = some bytes) (hadmitted : Admitted sys s path target) :
    AtTarget sys s (s.renamed sys path target) path target bytes :=
  ⟨rfl, rfl, hadmitted, hbytes⟩

theorem linked_ne (hfree : s.at? sys target = none) (hthere : s.at? sys path ≠ none) :
    s.linked sys path target ≠ s := by
  intro heq
  apply hthere
  have hat : (s.linked sys path target).at? sys target = s.at? sys path := at?_linked_target
  rw [← hat, heq, hfree]

/-- Only if nothing changed is an error that does not say where the file is truthful. -/
theorem truthful_iff_same {e : LibraryError} (hplain : e.isPlain = true) :
    Truthful sys s t id op (.raised e) ↔ t = s := by
  constructor
  · intro h
    by_contra hne
    exact not_truthful hplain hne h
  · rintro rfl
    exact truthful_refl

theorem rename_iff (hfresh : Fresh sys given s id op) (hrecord : s.records.get? id = some a)
    (hpath : a.pathOrUrl = .file path) (hbytes : s.bytes? sys path = some bytes)
    (hop : target ∈ op.newPlace sys path) (hshift : op.isShift = true) (hr : (do
      renameNoReplace sys .there .artifact path target
      relocateOrRollBack sys given id a path target false : OnLibrary F Unit).run
        (Fated.refusing refusal) s = r) :
    Truthful sys s r.2 id op (r.1.map fun _ => none) ↔
      RenameFine sys given refusal s id a path target bytes := by
  have hthere := at?_ne_none hbytes
  have hfile := fileOf_eq hrecord hpath hbytes
  have hrun := run_renameNoReplace sys refusal target .there .artifact hthere
  unfold RenameFine
  cases hend : renameEnd sys refusal .there .artifact (s.refuses sys sys.windows path target) with
  | moved =>
    rw [hend] at hrun
    rw [Fated.run_then hrun] at hr
    have hadmitted : Admitted sys s path target := by
      cases hok : s.refuses sys sys.windows path target with
      | error e =>
        rw [hok] at hend
        cases hend
      | ok u =>
        exact ((State.refuses_eq_ok hthere).mp hok).imp_right fun h => h.2.symm
    apply moved_iff hrecord hpath hop hshift (atTarget hbytes hadmitted)
      (hfresh.free .back path) (hfresh.key_ne hfile hop .back path) hr _
    intro u hu
    apply run_wayBack (fun hn => by cases hn)
    intro _
    have hback := at?_ne_none hu.target_bytes
    exact run_renameNoReplace_shifted hback fun hdoubled => free_of_doubled hback hdoubled
  | refused e =>
    rw [hend] at hrun
    rw [Fated.run_abort hrun] at hr
    subst hr
    exact iff_of_true truthful_refl rfl
  | doubled =>
    rw [hend] at hrun
    rw [Fated.run_abort hrun] at hr
    subst hr
    apply iff_of_false _ fun h => h
    exact not_truthful rfl (linked_ne (free_of_doubled hthere hend) hthere)

theorem write_ne_linked (hfree : s.at? sys copy = none) {bs : List UInt8} : (s.linked sys path target).write sys copy bs ≠ s := by
  intro heq
  have hat : ((s.linked sys path target).write sys copy bs).at? sys copy = some (.file bs) :=
    State.at?_put_self
  rw [heq, hfree] at hat
  cases hat

variable (refusal a) in
theorem free_of_moveEnd {cross : Bool} (hbytes : s.bytes? sys path = some bytes)
    (hkey : target.key sys ≠ path.key sys)
    (hfree : s.at? sys (partialCopy given .there target) = none)
    (hcopy : (partialCopy given .there target).key sys ≠ target.key sys)
    (hend : moveEnd sys given refusal .there a s bytes path target = .moved cross) :
    s.at? sys target = none := by
  have hthere := at?_ne_none hbytes
  unfold moveEnd at hend
  split at hend
  · rename_i hmoved
    cases hok : s.refuses sys sys.windows path target with
    | error e =>
      rw [hok] at hmoved
      cases hmoved
    | ok u => exact ((State.refuses_eq_ok hthere).mp hok).resolve_right fun h => hkey h.2.symm
  · cases hend
  · split at hend
    · cases hend
    · split at hend
      · cases hend
      · cases hend
      · rename_i c hmade
        have honly : ∀ d ∈ [target], (partialCopy given .there target).key sys ≠ d.key sys := by
          intro d hd
          cases List.mem_singleton.mp hd
          exact hcopy
        have hcopied := run_copyVerified refusal .there a hbytes hfree honly
        rw [hmade] at hcopied
        obtain ⟨-, hc, hnone⟩ := hcopied
        cases List.mem_singleton.mp hc
        exact hnone

theorem move_iff (hfresh : Fresh sys given s id op) (hrecord : s.records.get? id = some a)
    (hpath : a.pathOrUrl = .file path) (hbytes : s.bytes? sys path = some bytes)
    (hop : target ∈ op.newPlace sys path) (hshift : op.isShift = true)
    (hkey : target.key sys ≠ path.key sys) (hr : (do
      let crossVolume ← moveFile sys given .there a path target
      relocateOrRollBack sys given id a path target crossVolume : OnLibrary F Unit).run
        (Fated.refusing refusal) s = r) :
    Truthful sys s r.2 id op (r.1.map fun _ => none) ↔
      MoveFine sys given refusal s id a path target bytes := by
  have hthere := at?_ne_none hbytes
  have hfile := fileOf_eq hrecord hpath hbytes
  have hfree := hfresh.free .there target
  have hcopy := hfresh.key_ne hfile hop .there target
  obtain ⟨hrun, hcross⟩ := run_moveFile refusal .there a
    hbytes hkey.symm hfree hcopy
  have hfreeTarget : ∀ cross, moveEnd sys given refusal .there a s bytes path target =
      .moved cross → s.at? sys target = none :=
    fun cross => free_of_moveEnd refusal a hbytes hkey hfree hcopy
  unfold MoveFine
  cases hend : moveEnd sys given refusal .there a s bytes path target with
  | moved cross =>
    rw [Fated.run_then (hcross cross hend)] at hr
    have hmoved := atTarget hbytes (.inl (hfreeTarget cross hend) : Admitted sys s path target)
    have hfreeBack := hfresh.free .back path
    have hcopyBack := hfresh.key_ne hfile hop .back path
    have hiff := moved_iff hrecord hpath hop hshift hmoved hfreeBack hcopyBack hr
      (fun u => if cross = true then moveEnd sys given refusal .back a u bytes target path
        else (renameEnd sys refusal .back .artifact (u.refuses sys sys.windows target path)).shift)
      fun u hu => by
        have hback := at?_ne_none hu.target_bytes
        have hfreeHere := hu.free hfreeBack hcopyBack
        apply run_wayBack
        · intro hcross
          rw [if_pos hcross]
          have hcopyPath : (partialCopy given .back path).key sys ≠ path.key sys :=
            (State.key_ne hthere hfreeBack).symm
          exact (run_moveFile refusal .back a hu.target_bytes hkey hfreeHere hcopyPath).1
        · intro hplain
          rw [if_neg (by rw [hplain]; exact Bool.false_ne_true)]
          exact run_renameNoReplace_shifted hback fun hdoubled => free_of_doubled hback hdoubled
    rw [hiff]
    cases cross with
    | true => simp only [eq_false hkey]
    | false => simp only [eq_false hkey, Shift.moved.injEq]
  | stayed clean =>
    rw [hend] at hrun
    obtain ⟨e, t, hplain, hrun, ht⟩ := hrun
    rw [Fated.run_abort hrun] at hr
    subst hr
    apply (truthful_iff_same hplain).trans
    cases clean with
    | true => exact iff_of_true ht rfl
    | false =>
      obtain ⟨bs, rfl⟩ := ht
      exact iff_of_false (write_ne hfree) (fun h => by cases h)
  | doubled =>
    rw [hend] at hrun
    obtain ⟨e, t, hplain, hrun, hnone, ht⟩ := hrun
    rw [Fated.run_abort hrun] at hr
    subst hr
    apply iff_of_false _ fun h => h
    apply not_truthful hplain
    rcases ht with rfl | ⟨bs, rfl⟩
    · exact linked_ne hnone hthere
    · exact write_ne_linked hfree

end
end QronosAgent.Library

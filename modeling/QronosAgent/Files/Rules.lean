import QronosAgent.Files.Executor

/-! What the disk calls leave, one rule for each. -/
namespace QronosAgent.Files
open Lib

def Does {α : Type} (m : OnDisk α) (fails : Fails) (d : Disk) (Q : α → Disk → Prop)
    (R : Failure → Disk → Prop) : Prop :=
  Fated.Ensures m fails.fate d Q R fun _ => False

/-- `fileIdentity` as a function of the disk. -/
def identityOf (fails : Fails) (d : Disk) (path : Path) : PyStr :=
  if (fails .lstat).isSome then []
  else ((d.lstat? path).map (identityText
    (((fails .identityIsDir).isNone && d.isFolderAt path) &&
      !((fails .identityIsLink).isNone && d.isLinkAt path)))).getD []

/-- `absolutePath` as a function of the disk. -/
def located (plat : Platform) (d : Disk) (value : PyStr) : Option Path :=
  if value.strip = [] then none
  else match plat.expanded value.strip with
    | .ok (some path) => some ((d.resolve path).getD path)
    | _ => none

section
variable {α β : Type} {fails : Fails} {d : Disk} {Q : α → Disk → Prop} {R : Failure → Disk → Prop}
  {call : DiskCall}

theorem does_pure {a : α} (h : Q a d) : Does (pure a) fails d Q R := h

theorem does_bind {m : OnDisk α} {f : α → OnDisk β} {Q : β → Disk → Prop}
    (h : Does m fails d (fun a e => Does (f a) fails e Q R) R) : Does (m >>= f) fails d Q R :=
  Fated.ensures_bind.mpr h

theorem does_look {f : Disk → α} (h : Q (f d) d) : Does (Fated.look f) fails d Q R := h

theorem does_require {p : Prop} [Decidable p] {e : Failure} {Q : Unit → Disk → Prop}
    (h : p → Q () d) (h' : ¬ p → R e d) : Does (Fated.require p e) fails d Q R :=
  Fated.ensures_require.mpr ⟨h, h'⟩

theorem does_demand {e : Failure} {o : Option α} (h : ∀ a, o = some a → Q a d)
    (h' : o = none → R e d) : Does (Fated.demand e o) fails d Q R :=
  Fated.ensures_demand.mpr ⟨h, h'⟩

theorem does_effect {error : Failure → Failure} {f : Disk → Disk} {Q : Unit → Disk → Prop}
    (h : fails call = none → Q () (f d)) (h' : ∀ e, fails call = some e → R (error e) d) :
    Does (Fated.effect call error f) fails d Q R := by
  apply Fated.ensures_effect.mpr
  unfold Fails.fate
  cases hcall : fails call with
  | none =>
    refine ⟨fun _ => h hcall, fun _ hw => ?_, fun hs => ?_⟩
    · cases hw
    · cases hs
  | some e =>
    refine ⟨fun hg => ?_, fun why hw => ?_, fun hs => ?_⟩
    · cases hg
    · cases hw
      exact h' e hcall
    · cases hs

theorem does_asks {f : Disk → Bool} {Q : Bool → Disk → Prop}
    (h : Q ((fails call).isNone && f d) d) : Does (asks call f) fails d Q R := by
  unfold asks
  apply Fated.ensures_rescue.mpr
  apply Fated.ensures_bind.mpr
  apply does_effect
  · intro hcall
    rw [hcall] at h
    exact h
  · intro e hcall
    rw [hcall] at h
    exact h

theorem does_reads {refusal : Failure} {f : Disk → Option α}
    (h : ∀ a, fails call = none → f d = some a → Q a d)
    (h' : ∀ e, (fails call ≠ none ∨ f d = none) → R e d) :
    Does (reads call refusal f) fails d Q R := by
  unfold reads
  apply does_bind
  apply does_effect
  · intro hcall
    apply does_bind
    apply does_look
    exact does_demand (fun a hread => h a hcall hread) fun hread => h' _ (.inr hread)
  · intro e hcall
    apply h' _ (.inl _)
    rw [hcall]
    simp

theorem does_changes {refusal : Failure} {f : Disk → Option α} {change : α → Disk → Disk}
    {Q : Unit → Disk → Prop} (h : ∀ a, f d = some a → fails call = none → Q () (change a d))
    (h' : ∀ e, (f d = none ∨ fails call ≠ none) → R e d) :
    Does (changes call refusal f change) fails d Q R := by
  unfold changes
  apply does_bind
  apply does_look
  apply does_bind
  cases hf : f d with
  | none => exact h' _ (.inl hf)
  | some a =>
    apply does_effect
    · exact fun hcall => h a hf hcall
    · intro e hcall
      apply h' _ (.inr _)
      rw [hcall]
      simp

theorem does_attempt {m : OnDisk α} {r : Except Failure α} {e : Disk} (h : Does m fails d Q R)
    (hr : attempt m fails d = (r, e)) :
    (∃ a, r = .ok a ∧ Q a e) ∨ ∃ why, r = .error why ∧ R why e := by
  unfold Does Fated.Ensures at h
  unfold attempt Fated.run at hr
  rcases hm : m fails.fate d with ⟨ending, f⟩
  rw [hm] at h hr
  cases ending with
  | returned a =>
    cases hr
    exact .inl ⟨a, rfl, h⟩
  | raised why =>
    cases hr
    exact .inr ⟨why, rfl, h⟩
  | stopped => exact h.elim

theorem does_fileIdentity {chance : Chance} {path : Path} {Q : PyStr → Disk → Prop}
    (h : Q (identityOf fails d path) d) : Does (fileIdentity chance path) fails d Q R := by
  unfold fileIdentity
  apply Fated.ensures_rescue.mpr
  apply does_bind
  apply does_reads
  · intro n hcall hread
    apply does_bind
    apply does_asks
    apply does_bind
    apply does_asks
    rw [identityOf, hcall, hread] at h
    exact h
  · intro e hnone
    have hempty : identityOf fails d path = [] := by
      unfold identityOf
      rcases hnone with hcall | hread
      · rw [if_pos (Option.isSome_iff_ne_none.mpr hcall)]
      · rw [hread, Option.map_none, Option.getD_none, ite_self]
    rw [hempty] at h
    exact h

theorem does_absolutePath {plat : Platform} {value field : PyStr} {Q : Path → Disk → Prop}
    (h : ∀ path, located plat d value = some path → Q path d) (h' : ∀ e, R e d) :
    Does (absolutePath plat value field) fails d Q R := by
  unfold absolutePath
  unfold located at h
  simp only
  apply does_bind
  apply does_require _ fun _ => h' _
  intro hne
  rw [if_neg hne] at h
  apply does_bind
  cases hpath : plat.expanded value.strip with
  | error e => exact h' _
  | ok path =>
    rw [hpath] at h
    apply does_bind
    cases path with
    | none => exact h' _
    | some path => exact h _ rfl

end

section
variable {plat : Platform} {chance : Chance} {fails : Fails} {d : Disk} {R : Failure → Disk → Prop}
  {value : PyStr} {path target : Path} {n : Node}

/-- A path that leads to an object is where that object is. -/
theorem located_stat (h : located plat d value = some path) (hstat : d.stat? path = some n) :
    d.Plain path ∧ d.get? path = some n := by
  unfold located at h
  split at h
  · cases h
  · split at h
    · rename_i asked _
      cases h
      cases hresolve : d.resolve asked with
      | none =>
        rw [hresolve, Option.getD_none, Disk.stat?, hresolve] at hstat
        cases hstat
      | some place =>
        rw [hresolve, Option.getD_some] at hstat
        have hplain := Disk.plain_of_resolve hresolve
        rw [hplain.stat] at hstat
        exact ⟨hplain, hstat⟩
    · cases h

theorem isFileAt_iff : d.isFileAt path = true ↔ ∃ n, d.stat? path = some n ∧ n.isFile = true := by
  rw [Disk.isFileAt, Option.any_eq_true]

theorem isFolderAt_iff :
    d.isFolderAt path = true ↔ ∃ n, d.stat? path = some n ∧ n.isFolder = true := by
  rw [Disk.isFolderAt, Option.any_eq_true]

def Disk.FileHere (d : Disk) (path : Path) (n : Node) : Prop :=
  d.Plain path ∧ d.get? path = some n ∧ n.isFile = true

def Disk.FolderHere (d : Disk) (path : Path) : Prop :=
  d.Plain path ∧ ∃ n, d.get? path = some n ∧ n.isFolder = true

theorem does_existingFile {Q : Path → Disk → Prop}
    (h : ∀ path n, located plat d value = some path → d.FileHere path n → Q path d)
    (h' : ∀ e, R e d) : Does (existingFile plat value) fails d Q R := by
  unfold existingFile
  apply does_bind
  apply does_absolutePath _ h'
  intro path hpath
  apply does_bind
  apply does_asks
  apply does_bind
  apply does_require _ fun _ => h' _
  intro hfile
  simp only [Bool.and_eq_true] at hfile
  obtain ⟨n, hstat, hkind⟩ := isFileAt_iff.mp hfile.2
  obtain ⟨hplain, hget⟩ := located_stat hpath hstat
  exact h path n hpath ⟨hplain, hget, hkind⟩

theorem does_existingDirectory {Q : Path → Disk → Prop}
    (h : ∀ path, located plat d value = some path → d.FolderHere path → Q path d)
    (h' : ∀ e, R e d) : Does (existingDirectory plat value) fails d Q R := by
  unfold existingDirectory
  apply does_bind
  apply does_absolutePath _ h'
  intro path hpath
  apply does_bind
  apply does_asks
  apply does_bind
  apply does_require _ fun _ => h' _
  intro hfolder
  simp only [Bool.and_eq_true] at hfolder
  obtain ⟨n, hstat, hkind⟩ := isFolderAt_iff.mp hfolder.2
  obtain ⟨hplain, hget⟩ := located_stat hpath hstat
  exact h path hpath ⟨hplain, n, hget, hkind⟩

/-- A place that is taken is found to be, if the call works and it is no link. -/
theorem does_requireFree {Q : Unit → Disk → Prop} (h : d.get? target = none → Q () d)
    (hfree : ∀ n, d.get? target = some n → d.Plain target ∧ fails .targetExists = none)
    (h' : ∀ e, R e d) : Does (requireFree plat target) fails d Q R := by
  unfold requireFree
  apply does_bind
  apply does_asks
  apply does_require _ fun _ => h' _
  intro hfound
  apply h
  cases hget : d.get? target with
  | none => rfl
  | some n =>
    obtain ⟨hplain, hcall⟩ := hfree n hget
    rw [hcall, hplain.stat, hget] at hfound
    cases hfound

end
end QronosAgent.Files

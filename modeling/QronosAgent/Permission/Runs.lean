import QronosAgent.Permission.Control
import QronosAgent.Lib.Machine

/-! Changes of the permission file by any number of calls, each a read and a replacement without a
lock; what was set holds as long as no change works on a document that is not the file's. -/
namespace QronosAgent.Permission
open Lib
open Broker (ActionCategory)

structure Pending where
  change : Change
  document : Document
  /-- The read has neither failed nor found a text that is not JSON. -/
  found : Bool
  /-- Since the read, no change of another permission has been written. -/
  current : Bool

structure PermissionSys (F : Type) where
  file : Option (Json F)
  calls : ℕ → Option Pending
  last : PermissionId → Option Change

inductive PermissionMove where
  /-- `set_permission_policy`, `set_custom_rule` or `reset_permission`, up to the read -/
  | read (call : ℕ) (request : Request) (fate : ReadFate)
  | write (call : ℕ) (written : Bool)

namespace PermissionSys
variable {F : Type} (isOne : F → Bool) (upper : PyStr → PyStr)

def overtaken (p : PermissionId) (c : Pending) : Pending :=
  { c with current := c.current && decide (c.change.permission = p) }

def written (s : PermissionSys F) (call : ℕ) (c : Pending) : PermissionSys F where
  file := some (documentJson F (c.change.apply c.document))
  calls := Function.update (fun n => (s.calls n).map (overtaken c.change.permission)) call none
  last := Function.update s.last c.change.permission (some c.change)

def step (s : PermissionSys F) : PermissionMove → Option (PermissionSys F)
  | .read call request fate =>
    match request.check upper, readDocument isOne s.file fate with
    | some change, some document => some { s with
        calls := Function.update s.calls call
          (some ⟨change, document, s.file.isNone || fate = .reads, true⟩) }
    | _, _ => some { s with calls := Function.update s.calls call none }
  | .write call written =>
    (s.calls call).map fun c =>
      if written then s.written call c else { s with calls := Function.update s.calls call none }

end PermissionSys

/-- The runs start with any file, and no call in progress. -/
def permissionMachine {F : Type} (isOne : F → Bool) (upper : PyStr → PyStr) :
    Machine (PermissionSys F) PermissionMove where
  start s := (∀ call, s.calls call = none) ∧ ∀ p, s.last p = none
  step s move := s.step isOne upper move

def Undisturbed {F : Type} (s : PermissionSys F) : PermissionMove → Prop
  | .write call true => ∀ c, s.calls call = some c → c.found ∧ c.current
  | _ => True

def Change.Denies (c : ActionCategory) : Change → Prop
  | .setPolicy _ policy => policy = .deny
  | .setRule _ a rule _ => a = c ∧ rule.val = .deny
  | .reset _ => False

/-! What is written is what is read back. -/

section
variable {F : Type} {isOne : F → Bool}

/-- The entries of a list under keys that do not repeat are found again. -/
theorem lookup_filterMap {α K V : Type} [BEq K] [LawfulBEq K] {W : α → Type} {l : List α}
    {key : α → K} {f : (a : α) → Option (W a)} {value : (a : α) → W a → V}
    (hl : (l.map key).Nodup) {a : α} (ha : a ∈ l) :
    (l.filterMap fun b => (f b).map fun w => (key b, value b w)).lookup (key a) =
      (f a).map (value a) := by
  induction l with
  | nil => contradiction
  | cons b l ih =>
    rw [List.map_cons, List.nodup_cons] at hl
    rcases List.mem_cons.mp ha with rfl | ha
    · cases hf : f a with
      | none =>
        -- no later entry has this key
        rw [List.filterMap_cons, hf]
        simp only [Option.map_none]
        rw [List.lookup_eq_none_iff]
        intro p hp
        obtain ⟨b, hb, hp⟩ := List.mem_filterMap.mp hp
        obtain ⟨w, -, rfl⟩ := Option.map_eq_some_iff.mp hp
        rw [bne_iff_ne]
        intro heq
        exact hl.1 (heq ▸ List.mem_map_of_mem hb)
      | some w => simp [hf]
    · have hne : key a ≠ key b := fun heq => hl.1 (heq ▸ List.mem_map_of_mem ha)
      cases hf : f b with
      | none => simpa [hf] using ih hl.2 ha
      | some w =>
        rw [List.filterMap_cons, hf]
        simp only [Option.map_some, List.lookup_cons]
        rw [beq_false_of_ne hne]
        exact ih hl.2 ha

/-- A rule of a category that the permission does not have is never read. -/
theorem readRule_rulesJson {p : PermissionId} (s : PermissionState p) (c : ActionCategory) :
    readRule p (rulesJson F s) c = s.customRules c := by
  unfold readRule rulesJson
  by_cases hc : c ∈ p.categories
  · rw [lookup_filterMap p.nodup_categories hc]
    cases hs : s.customRules c with
    | none => rfl
    | some rule => simp [s.allowed c rule hs]
  · have hnone : s.customRules c = none := by
      by_contra hne
      obtain ⟨rule, hrule⟩ := Option.ne_none_iff_exists'.mp hne
      exact hc (s.allowed c rule hrule).1
    rw [hnone]
    split
    · rw [Option.filter_eq_none_iff]
      intro rule _ h
      exact hc (of_decide_eq_true h).1
    · rfl

theorem readState_stateJson {p : PermissionId} (s : PermissionState p) :
    readState p (stateJson F s) = some s := by
  have hrules : rulesMember [(py "customRules", .obj (rulesJson F s)),
      (py "policy", .str s.policy.text)] = rulesJson F s := rfl
  have hpolicy : ([(py "customRules", .obj (rulesJson F s)), (py "policy", .str s.policy.text)] :
      Broker.Members F).lookup (py "policy") = some (.str s.policy.text) := rfl
  unfold readState stateJson
  simp only [hpolicy, Policy.of?_text, Option.map_some, Option.some.injEq]
  ext c
  · rfl
  · simp only [hrules, readRule_rulesJson]

/-- What is written is what is read back. -/
theorem validatedDocument_documentJson (isOne : F → Bool) (d : Document) :
    validatedDocument isOne (documentJson F d) = d := by
  have hversion : (([(py "permissions", .obj (permissionsJson F d)), (py "schemaVersion", .int 1)] :
      Broker.Members F).lookup (py "schemaVersion")).any (equalsOne isOne) = true := rfl
  have hpermissions : ([(py "permissions", .obj (permissionsJson F d)),
      (py "schemaVersion", .int 1)] : Broker.Members F).lookup (py "permissions") =
        some (.obj (permissionsJson F d)) := rfl
  unfold validatedDocument documentJson
  simp only [hversion, if_true, hpermissions]
  funext p
  unfold permissionsJson
  rw [lookup_filterMap PermissionId.nodup_ids p.mem_all]
  cases d p with
  | none => rfl
  | some s => exact readState_stateJson s

theorem Change.apply_other {change : Change} {d : Document} {q : PermissionId}
    (hq : q ≠ change.permission) : change.apply d q = d q := by
  cases change with
  | setPolicy p policy => exact Function.update_of_ne hq _ _
  | setRule p c rule allowed => exact Function.update_of_ne hq _ _
  | reset p => exact Function.update_of_ne hq _ _

def Change.Holds (d : Document) : Change → Prop
  | .setPolicy p policy => ∃ st, d p = some st ∧ st.policy = policy
  | .setRule p c rule _ => ∃ st, d p = some st ∧ st.policy = .custom ∧ st.customRules c = some rule
  | .reset p => d p = none

theorem Change.apply_holds (change : Change) (d : Document) : change.Holds (change.apply d) := by
  cases change with
  | setPolicy p policy => exact ⟨withPolicy (d p) policy, Function.update_self .., rfl⟩
  | setRule p c rule allowed =>
    refine ⟨withRule (d p) c rule allowed, Function.update_self .., rfl, ?_⟩
    simp [withRule]
  | reset p => exact Function.update_self ..

theorem Change.Holds.congr {change : Change} {d e : Document} (h : change.Holds d)
    (he : e change.permission = d change.permission) : change.Holds e := by
  cases change with
  | setPolicy p policy =>
    obtain ⟨st, hst, hpolicy⟩ := h
    exact ⟨st, he.trans hst, hpolicy⟩
  | setRule p c rule allowed =>
    obtain ⟨st, hst, hrule⟩ := h
    exact ⟨st, he.trans hst, hrule⟩
  | reset p => exact he.trans h

theorem effectiveLevelName_eq {c : ActionCategory} {p : PermissionId} (hc : c ∈ p.categories)
    (hfree : c ∉ hardLocked) (default : PermissionLevel) (read : Option Document) :
    effectiveLevelName c default read =
      read.map fun d => (d p).elim default fun s => s.level c default := by
  unfold effectiveLevelName
  rw [if_neg hfree, permissionOf?_eq_some.mpr hc]

theorem Change.Holds.forbidden {change : Change} {d : Document} (h : change.Holds d)
    {c : ActionCategory} (hc : c ∈ change.permission.categories) (hdenies : change.Denies c) :
    effectiveLevelName c (builtInLevel c) (some d) = some .forbidden := by
  by_cases hlocked : c ∈ hardLocked
  · have hall : ∀ c ∈ hardLocked, builtInLevel c = .forbidden := by decide
    simp [effectiveLevelName, hlocked, hall c hlocked]
  · rw [effectiveLevelName_eq hc hlocked]
    cases change with
    | setPolicy p policy =>
      obtain ⟨st, hst, hpolicy⟩ := h
      have hst : d p = some st := hst
      have hdeny : policy = .deny := hdenies
      simp [Change.permission, hst, PermissionState.level, hpolicy, hdeny, Policy.level]
    | setRule p a rule allowed =>
      obtain ⟨st, hst, hpolicy, hrule⟩ := h
      obtain ⟨rfl, hdeny⟩ := hdenies
      simp [Change.permission, hst, PermissionState.level, hpolicy, hrule, hdeny, Policy.level]
    | reset p => contradiction

namespace PermissionSys
variable {s s' : PermissionSys F} {upper : PyStr → PyStr}

/-- A call that was not disturbed works on what the file holds of the other permissions, and what
was set last of each permission is in the file. -/
structure Inv (isOne : F → Bool) (s : PermissionSys F) : Prop where
  current : ∀ call c, s.calls call = some c → c.found → c.current →
    ∀ q, q ≠ c.change.permission → c.document q = fileDocument isOne s.file q
  last : ∀ p change, s.last p = some change →
    change.permission = p ∧ change.Holds (fileDocument isOne s.file)

theorem fileDocument_written (isOne : F → Bool) (s : PermissionSys F) (call : ℕ) (c : Pending) :
    fileDocument isOne (s.written call c).file = c.change.apply c.document :=
  validatedDocument_documentJson isOne _

/-- The file of a permission that a change has not written. -/
theorem written_other {call : ℕ} {c : Pending} (h : s.Inv isOne) (hc : s.calls call = some c)
    (hfound : c.found) (hcurrent : c.current) {q : PermissionId} (hq : q ≠ c.change.permission) :
    fileDocument isOne (s.written call c).file q = fileDocument isOne s.file q := by
  rw [fileDocument_written, Change.apply_other hq, h.current call c hc hfound hcurrent q hq]

theorem Inv.written (h : s.Inv isOne) {call : ℕ} {c : Pending} (hc : s.calls call = some c)
    (hfound : c.found) (hcurrent : c.current) : (s.written call c).Inv isOne where
  current other b hb hbfound hbcurrent q hq := by
    by_cases hother : other = call
    · subst hother
      simp [PermissionSys.written] at hb
    · simp only [PermissionSys.written, Function.update_of_ne hother, Option.map_eq_some_iff] at hb
      obtain ⟨a, ha, rfl⟩ := hb
      obtain ⟨hacurrent, hap⟩ := Bool.and_eq_true_iff.mp hbcurrent
      have hap : a.change.permission = c.change.permission := of_decide_eq_true hap
      rw [written_other h hc hfound hcurrent fun heq => hq (heq.trans hap.symm)]
      exact h.current other a ha hbfound hacurrent q hq
  last p change hlast := by
    by_cases hp : p = c.change.permission
    · subst hp
      simp only [PermissionSys.written, Function.update_self] at hlast
      cases hlast
      rw [fileDocument_written]
      exact ⟨rfl, Change.apply_holds _ _⟩
    · simp only [PermissionSys.written, Function.update_of_ne hp] at hlast
      obtain ⟨hpermission, hholds⟩ := h.last p change hlast
      refine ⟨hpermission, hholds.congr ?_⟩
      exact written_other h hc hfound hcurrent (hpermission ▸ hp)

theorem Inv.setCall (h : s.Inv isOne) {call : ℕ} {o : Option Pending}
    (ho : ∀ c, o = some c → c.found → ∀ q, c.document q = fileDocument isOne s.file q) :
    ({ s with calls := Function.update s.calls call o } : PermissionSys F).Inv isOne where
  current other c hc hfound hcurrent q hq := by
    by_cases hother : other = call
    · subst hother
      exact ho c (by simpa using hc) hfound q
    · exact h.current other c (by simpa [hother] using hc) hfound hcurrent q hq
  last := h.last

theorem readDocument_found {file : Option (Json F)} {fate : ReadFate} {d : Document}
    (hd : readDocument isOne file fate = some d) (hfound : file.isNone || fate = .reads) :
    d = fileDocument isOne file := by
  cases file with
  | none => exact (Option.some.inj hd).symm
  | some value =>
    have hfate : fate = .reads := by simpa using hfound
    subst hfate
    exact (Option.some.inj hd).symm

theorem Inv.step (h : s.Inv isOne) {move : PermissionMove} (hok : Undisturbed s move)
    (hs : s.step isOne upper move = some s') : s'.Inv isOne := by
  cases move with
  | read call request fate =>
    simp only [PermissionSys.step] at hs
    split at hs
    · rename_i change document _ hdocument
      cases hs
      apply h.setCall
      rintro c ⟨⟩ hfound q
      rw [readDocument_found hdocument hfound]
    · cases hs
      exact h.setCall (by simp)
  | write call written =>
    obtain ⟨c, hc, rfl⟩ := Option.map_eq_some_iff.mp hs
    cases written with
    | true => exact h.written hc (hok c hc).1 (hok c hc).2
    | false => exact h.setCall (by simp)

theorem Inv.reach (hr : (permissionMachine isOne upper).Reach Undisturbed s) : s.Inv isOne := by
  apply hr.invariant (I := fun s => s.Inv isOne)
  · rintro s ⟨hcalls, hlast⟩
    exact ⟨by simp [hcalls], by simp [hlast]⟩
  · exact fun _ _ _ h hok hs => h.step hok hs

end PermissionSys

def evaluated (isOne : F → Bool) (file : Option (Json F)) (fate : ReadFate) (c : ActionCategory) :
    Option PermissionLevel :=
  effectiveLevelName c (builtInLevel c) (readDocument isOne file fate)

theorem evaluated_reads (file : Option (Json F)) (c : ActionCategory) :
    evaluated isOne file .reads c =
      effectiveLevelName c (builtInLevel c) (some (fileDocument isOne file)) := by
  cases file <;> rfl

theorem effectiveLevelName_congr {c : ActionCategory} {d e : Document}
    (h : ∀ p, c ∈ p.categories → d p = e p) :
    effectiveLevelName c (builtInLevel c) (some d) =
      effectiveLevelName c (builtInLevel c) (some e) := by
  unfold effectiveLevelName
  split
  · rfl
  · cases hp : permissionOf? c with
    | none => rfl
    | some p => simp [h p (permissionOf?_eq_some.mp hp)]

theorem evaluated_unread {file : Option (Json F)} {fate : ReadFate} (hfate : fate ≠ .reads)
    (c : ActionCategory) :
    evaluated isOne file fate c = none ∨ evaluated isOne file fate c = some (builtInLevel c) := by
  have hread : readDocument isOne file fate = none ∨
      readDocument isOne file fate = some Document.empty := by
    cases file with
    | none => exact .inr rfl
    | some value => cases fate <;> simp_all [readDocument]
  unfold evaluated effectiveLevelName
  split
  · exact .inr rfl
  · cases permissionOf? c with
    | none => exact .inr rfl
    | some p =>
      rcases hread with hread | hread
      · exact .inl (by simp [hread])
      · exact .inr (by simp [hread, Document.empty])

/-- As long as no change works on a document that is not the file's: a category that was denied is
forbidden until its permission is changed, and a change of one permission leaves the categories of
the others as they are. An evaluation that cannot read the file falls back to the built-in level,
and the hard floor is always at its built-in level. -/
theorem refusal_holds {upper : PyStr → PyStr} {s : PermissionSys F}
    (hr : (permissionMachine isOne upper).Reach Undisturbed s) :
    (∀ p change c, s.last p = some change → c ∈ p.categories → change.Denies c →
      evaluated isOne s.file .reads c = some .forbidden) ∧
    (∀ move s' c, s.step isOne upper move = some s' → Undisturbed s move →
      (∀ call pending, move = .write call true → s.calls call = some pending →
        c ∉ pending.change.permission.categories) →
      evaluated isOne s'.file .reads c = evaluated isOne s.file .reads c) ∧
    (∀ c fate, fate ≠ .reads → evaluated isOne s.file fate c = none ∨
      evaluated isOne s.file fate c = some (builtInLevel c)) ∧
    ∀ c ∈ hardLocked, ∀ fate, evaluated isOne s.file fate c = some (builtInLevel c) := by
  have h := PermissionSys.Inv.reach hr
  refine ⟨?_, ?_, fun c _ hfate => evaluated_unread hfate c, fun c hc fate => ?_⟩
  · intro p change c hlast hc hdenies
    obtain ⟨rfl, hholds⟩ := h.last p change hlast
    rw [evaluated_reads]
    exact hholds.forbidden hc hdenies
  · intro move s' c hs hok hother
    rw [evaluated_reads, evaluated_reads]
    apply effectiveLevelName_congr
    intro p hp
    cases move with
    | read call request fate =>
      simp only [PermissionSys.step] at hs
      split at hs <;> cases hs <;> rfl
    | write call written =>
      obtain ⟨pending, hpending, rfl⟩ := Option.map_eq_some_iff.mp hs
      cases written with
      | false => rfl
      | true =>
        have hne : p ≠ pending.change.permission := by
          rintro rfl
          exact hother call pending rfl hpending hp
        exact PermissionSys.written_other h hpending (hok pending hpending).1
          (hok pending hpending).2 hne
  · unfold evaluated effectiveLevelName
    rw [if_pos hc]

def sampleIsOne : Unit → Bool := fun _ => false

def samplePermissions : PermissionSys Unit := ⟨none, fun _ => none, fun _ => none⟩

def sampleMachine : Machine (PermissionSys Unit) PermissionMove :=
  permissionMachine sampleIsOne fun s => s

theorem samplePermissions_starts : sampleMachine.start samplePermissions :=
  ⟨fun _ => rfl, fun _ => rfl⟩

def denyScreen : Request := .setPermissionPolicy (py "screen") (py "DENY")
def allowBrowser : Request := .setPermissionPolicy (py "browser") (py "ALLOW")

def ScreenDenied (s : PermissionSys Unit) : Bool :=
  s.last .screen = some (.setPolicy .screen .deny)

/-- A call is disturbed, or not. -/
def undisturbed (s : PermissionSys Unit) : PermissionMove → Bool
  | .write call true => (s.calls call).all fun c => c.found && c.current
  | _ => true

theorem undisturbed_iff (s : PermissionSys Unit) (move : PermissionMove)
    (h : undisturbed s move = true) : Undisturbed s move := by
  cases move with
  | read call request fate => trivial
  | write call written =>
    cases written with
    | false => trivial
    | true =>
      intro c hc
      have h : (s.calls call).all (fun c => c.found && c.current) = true := h
      rw [hc] at h
      simpa using h

/-- Two changes, one after the other. -/
theorem refusal_holds_sample :
    ∃ s : PermissionSys Unit, ScreenDenied s ∧
      (∀ p change c, s.last p = some change → c ∈ p.categories → change.Denies c →
        evaluated sampleIsOne s.file .reads c = some .forbidden) ∧
      (∀ move s' c, s.step sampleIsOne (fun s => s) move = some s' → Undisturbed s move →
        (∀ call pending, move = .write call true → s.calls call = some pending →
          c ∉ pending.change.permission.categories) →
        evaluated sampleIsOne s'.file .reads c = evaluated sampleIsOne s.file .reads c) ∧
      (∀ c fate, fate ≠ .reads → evaluated sampleIsOne s.file fate c = none ∨
        evaluated sampleIsOne s.file fate c = some (builtInLevel c)) ∧
      ∀ c ∈ hardLocked, ∀ fate, evaluated sampleIsOne s.file fate c = some (builtInLevel c) := by
  have hrun : (sampleMachine.execChecked undisturbed samplePermissions [.read 0 denyScreen .reads,
      .write 0 true, .read 0 allowBrowser .reads, .write 0 true]).any ScreenDenied := by
    decide +kernel
  obtain ⟨s, hs, hdenied⟩ := (Option.any_eq_true _ _).mp hrun
  have hr : sampleMachine.Reach Undisturbed s :=
    Machine.Reach.execChecked undisturbed_iff (.start samplePermissions_starts) hs
  exact ⟨s, hdenied, refusal_holds hr⟩

/-- A refusal is not kept by an evaluation that finds no JSON, nor by the file when a change of
another permission has read it before. -/
theorem refusal_lost :
    (∃ s, sampleMachine.Reachable s ∧ ScreenDenied s ∧
      evaluated sampleIsOne s.file .notJson .readScreen = some .uiConfirmation) ∧
    ∃ s, sampleMachine.Reachable s ∧ ScreenDenied s ∧
      evaluated sampleIsOne s.file .reads .readScreen = some .uiConfirmation := by
  have hunread : (sampleMachine.exec samplePermissions [.read 0 denyScreen .reads,
      .write 0 true]).any (fun s => ScreenDenied s ∧
        evaluated sampleIsOne s.file .notJson .readScreen = some .uiConfirmation) := by
    decide +kernel
  have hlost : (sampleMachine.exec samplePermissions [.read 0 allowBrowser .reads,
      .read 1 denyScreen .reads, .write 1 true, .write 0 true]).any (fun s => ScreenDenied s ∧
        evaluated sampleIsOne s.file .reads .readScreen = some .uiConfirmation) := by
    decide +kernel
  obtain ⟨s, hs, hsample⟩ := (Option.any_eq_true _ _).mp hunread
  obtain ⟨t, ht, htsample⟩ := (Option.any_eq_true _ _).mp hlost
  exact ⟨⟨s, Machine.reachable_exec samplePermissions_starts hs, of_decide_eq_true hsample⟩,
    t, Machine.reachable_exec samplePermissions_starts ht, of_decide_eq_true htsample⟩

end
end QronosAgent.Permission

import Mathlib
import QronosAgent.Lib.Machine
import QronosAgent.Workflow.Stored

/-! The journal under the operations of any number of processes, each of which may die at any point:
what it holds is what was attempted. -/
namespace QronosAgent.Workflow
open Lib
open Journal (Platform Members)

structure Builtins where
  int : PyStr → Option ℤ
  hexdigest : PyStr → PyStr
  int_natText : ∀ n : ℕ, int (natText n) = some (n : ℤ)
  hexdigest_ne_nil : ∀ text, hexdigest text ≠ []

/-- A `begin` that replaced the file; it returned, or raised after that. -/
structure Attempt where
  operationKey : PyStr
  kind : PyStr
  parts : List PyStr
  owner : Process
  psutil : Bool
  returned : Bool

def Attempt.content (a : Attempt) : PyStr × List PyStr := (a.kind, a.parts)

structure World where
  disk : Disk
  live : List Process
  attempts : List Attempt

/-- An operation on the journal. `settle_if_unresolved` is a `settle`, and a `get` if that raises. -/
inductive Call (F : Type) where
  | begin (owner : Process) (psutil : Bool) (operationKey kind : PyStr) (parts : List PyStr)
      (detail : PyStr) (now : F)
  | settle (operationKey : PyStr) (state : SideEffectState) (detail : PyStr) (now : F)
  | get (operationKey : PyStr)
  | acknowledge (operationKey detail : PyStr) (now : F)
  /-- `psutil` may not tell about the owner of some entries. -/
  | reconcileInterrupted (denied : PyStr → Bool) (now : PyStr → F)

inductive Action (F : Type) where
  | start (p : Process)
  | die (p : Process)
  | call (c : Call F) (fate : Fate)
  | damage (bytes : ByteArray)
  | remove

/-- What `psutil` tells about the process with this number. -/
def see (live : List Process) (denied : Bool) (pid : ℤ) : Seen :=
  if denied ∨ pid < 0 then .unknown
  else match live.find? fun p => p.pid = pid with
    | none => .noSuchProcess
    | some p => .created p.created

section
variable {F : Type} [PyFloat F] (plat : Platform) (builtins : Builtins)

def World.alive (s : World) (denied : PyStr → Bool) (key owner : PyStr) : Bool :=
  ownerAlive builtins.int (see s.live (denied key)) owner

def World.run (s : World) (c : Call F) (fate : Fate) : Except Failure Unit × Disk :=
  match c with
  | .begin owner psutil operationKey kind parts detail now =>
    begin plat fate operationKey (contentKey builtins.hexdigest kind parts) detail
      (currentOwner owner psutil) now s.disk
  | .settle operationKey state detail now => settle plat fate operationKey state detail now s.disk
  | .get operationKey => ((get (F := F) plat fate operationKey s.disk).map fun _ => (), s.disk)
  | .acknowledge operationKey detail now => acknowledge plat fate operationKey detail now s.disk
  | .reconcileInterrupted denied now =>
    reconcileInterrupted plat fate (s.alive builtins denied) now s.disk

/-- The attempt of a `begin` that left this, if it is one. -/
def attempted (s : World) (c : Call F) (r : Except Failure Unit × Disk) : List Attempt :=
  match c with
  | .begin owner psutil operationKey kind parts _ _ =>
    if r.1.isOk || r.2.file ≠ s.disk.file then
      [⟨operationKey, kind, parts, owner, psutil, r.1.isOk⟩]
    else []
  | _ => []

def Call.enabled (s : World) : Call F → Bool
  | .begin owner _ _ _ _ _ _ => s.live.contains owner
  | _ => true

def World.step (s : World) : Action F → Option World
  | .start p => if (s.live.map Process.pid).contains p.pid then none else some { s with live := p :: s.live }
  | .die p => some { s with live := s.live.erase p }
  | .call c fate =>
    if c.enabled s then
      let r := s.run plat builtins c fate
      some { s with disk := r.2, attempts := s.attempts ++ attempted s c r }
    else none
  | .damage bytes =>
    if (load (F := F) plat false ⟨some bytes, s.disk.marker⟩).isOk then none
    else some { s with disk := ⟨some bytes, s.disk.marker⟩ }
  | .remove => some { s with disk := ⟨none, s.disk.marker⟩ }

def journalMachine (F : Type) [PyFloat F] (plat : Platform) (builtins : Builtins) :
    Machine World (Action F) where
  start s := s.disk = ⟨none, false⟩ ∧ (s.live.map Process.pid).Nodup ∧ s.attempts = []
  step s a := s.step plat builtins a

def Meets (s : World) : Action F → Prop
  | .call (.begin _ _ _ kind parts _ _) _ => ∀ a ∈ s.attempts,
      contentKey builtins.hexdigest a.kind a.parts = contentKey builtins.hexdigest kind parts →
        a.content = (kind, parts)
  | .remove => s.disk.marker = true ∨ s.attempts = []
  | _ => True

def World.state (F : Type) [PyFloat F] (plat : Platform) (s : World) (operationKey : PyStr) :
    Option SideEffectState :=
  match load (F := F) plat false s.disk with
  | .ok entries => stateIn entries operationKey
  | .error _ => none

def World.open (F : Type) [PyFloat F] (plat : Platform) (s : World) (a : Attempt) : Bool :=
  (s.state F plat a.operationKey).any SideEffectState.unresolved

/-- Every operation raises and changes nothing. -/
def World.refuses (F : Type) [PyFloat F] (plat : Platform) (builtins : Builtins) (s : World) : Prop :=
  ∀ (c : Call F) (fate : Fate), (s.run plat builtins c fate).1 ≠ .ok () ∧
    (s.run plat builtins c fate).2 = s.disk

end

section
variable {builtins : Builtins} {s : World}

theorem partition_currentOwner (p : Process) (psutil : Bool) :
    partition (currentOwner p psutil) = (natText p.pid, if psutil then p.created else []) := by
  have hcolon : ∀ c ∈ natText p.pid, decide (c ≠ PyChar.scalar ':') = true := by
    intro c hc
    have hdigit := Json.natText_digits p.pid c hc
    apply decide_eq_true
    rintro rfl
    contradiction
  have hpy : py ":" = [PyChar.scalar ':'] := rfl
  unfold partition currentOwner
  rw [hpy, List.append_assoc, List.takeWhile_append_of_pos hcolon, List.dropWhile_append_of_pos hcolon]
  simp

theorem see_live (hpids : (s.live.map Process.pid).Nodup) {p : Process} (hp : p ∈ s.live)
    (denied : Bool) : see s.live denied p.pid = .unknown ∨ see s.live denied p.pid = .created p.created := by
  unfold see
  split
  · exact .inl rfl
  · apply Or.inr
    cases hfind : s.live.find? fun q => (q.pid : ℤ) = p.pid with
    | none =>
      have hnot := List.find?_eq_none.mp hfind p hp
      simp at hnot
    | some q =>
      have hpid : q.pid = p.pid := by
        have hq := List.find?_some hfind
        simpa using hq
      obtain rfl := List.inj_on_of_nodup_map hpids (List.mem_of_find?_eq_some hfind) hp hpid
      rfl

/-- A process that runs is never taken for gone. -/
theorem alive_currentOwner (hpids : (s.live.map Process.pid).Nodup) {p : Process} (hp : p ∈ s.live)
    (psutil : Bool) (denied : PyStr → Bool) (key : PyStr) :
    s.alive builtins denied key (currentOwner p psutil) = true := by
  unfold World.alive ownerAlive
  rw [partition_currentOwner]
  simp only [builtins.int_natText]
  rcases see_live hpids hp (denied key) with hsee | hsee <;> rw [hsee]
  cases psutil <;> simp

end

/-! The file and what was attempted agree. -/

section
variable {F : Type} {builtins : Builtins}

structure Agrees (builtins : Builtins) (attempts : List Attempt) (entries : Entries F) : Prop where
  shaped : Shaped entries
  recorded : ∀ a ∈ attempts, ∃ e : Entry F, entries.get? a.operationKey = some e.members ∧
    e.contentKey = contentKey builtins.hexdigest a.kind a.parts ∧
      e.owner = currentOwner a.owner a.psutil
  known : ∀ key, (entries.get? key).isSome → key ∈ attempts.map Attempt.operationKey

theorem agrees_empty : Agrees builtins [] (Dict.empty : Entries F) where
  shaped := by
    intro key ms hget
    simp at hget
  recorded := by
    intro a ha
    cases ha
  known := by
    intro key hget
    simp at hget

theorem Agrees.altered {attempts : List Attempt} {entries changed : Entries F}
    {allowed : PyStr → Entry F → SideEffectState → Prop} (h : Agrees builtins attempts entries)
    (ha : Altered allowed entries changed) : Agrees builtins attempts changed where
  shaped := ha.shaped h.shaped
  recorded := by
    intro a hmem
    obtain ⟨e, hget, hcontent, howner⟩ := h.recorded a hmem
    obtain ⟨e', hget', hcontent', howner', -⟩ := ha.get? hget
    exact ⟨e', hget', hcontent'.trans hcontent, howner'.trans howner⟩
  known := fun key hget => h.known key (ha.known hget)

theorem Agrees.begun {attempts : List Attempt} {entries : Entries F} {a : Attempt} {e : Entry F}
    (h : Agrees builtins attempts entries) (hs : Shaped (entries.set a.operationKey e.members))
    (hnew : entries.get? a.operationKey = none)
    (hcontent : e.contentKey = contentKey builtins.hexdigest a.kind a.parts)
    (howner : e.owner = currentOwner a.owner a.psutil) :
    Agrees builtins (attempts ++ [a]) (entries.set a.operationKey e.members) where
  shaped := hs
  recorded := by
    intro b hmem
    rcases List.mem_append.mp hmem with hold | hb
    · obtain ⟨e', hget, hrest⟩ := h.recorded b hold
      have hne : b.operationKey ≠ a.operationKey := by
        intro heq
        rw [heq, hnew] at hget
        cases hget
      exact ⟨e', by rw [Dict.get?_set_ne hne, hget], hrest⟩
    · cases List.mem_singleton.mp hb
      exact ⟨e, Dict.get?_set_self, hcontent, howner⟩
  known := by
    intro key hget
    rw [List.map_append, List.mem_append]
    by_cases hkey : key = a.operationKey
    · exact .inr (List.mem_singleton.mpr hkey)
    · rw [Dict.get?_set_ne hkey] at hget
      exact .inl (h.known key hget)

/-- What was attempted under this key is not there. -/
theorem Agrees.notMem {attempts : List Attempt} {entries : Entries F} {key : PyStr}
    (h : Agrees builtins attempts entries) (hget : entries.get? key = none) :
    key ∉ attempts.map Attempt.operationKey := by
  intro hmem
  obtain ⟨a, ha, rfl⟩ := List.mem_map.mp hmem
  obtain ⟨e, hsome, -⟩ := h.recorded a ha
  rw [hget] at hsome
  cases hsome

end

section
variable {F : Type} [PyFloat F] {plat : Platform} {builtins : Builtins} {s s' : World}

def Call.Change (builtins : Builtins) (s : World) (entries changed : Entries F) : Call F → Prop
  | .begin owner psutil operationKey kind parts detail now =>
    operationKey ≠ [] ∧ entries.get? operationKey = none ∧
      (∀ key ms, entries.get? key = some ms →
        blocks (contentKey builtins.hexdigest kind parts) ms = false) ∧
      changed = entries.set operationKey (⟨contentKey builtins.hexdigest kind parts, .submitting,
        detail.take 500, now, currentOwner owner psutil⟩ : Entry F).members
  | .settle operationKey state _ _ =>
    state ≠ .submitting ∧ state ≠ .acknowledged ∧
      Altered (Settles operationKey state) entries changed
  | .get _ => False
  | .acknowledge operationKey _ _ => Altered (Releases operationKey) entries changed
  | .reconcileInterrupted denied _ =>
    Altered (Interrupts (s.alive builtins denied)) entries changed

/-- A call raises and changes nothing, or finds nothing to change, or the file holds what it makes
of the entries. -/
inductive Effect (plat : Platform) (builtins : Builtins) (s : World) (c : Call F)
    (r : Except Failure Unit × Disk) : Prop where
  | same (hdisk : r.2 = s.disk)
      (hloaded : r.1 = .ok () → ∃ entries : Entries F, load plat false s.disk = .ok entries)
      (hattempted : attempted s c r = [])
  | saved (entries changed : Entries F) (hload : load plat false s.disk = .ok entries)
      (hshaped : Shaped changed) (hchange : c.Change builtins s entries changed)
      (hsaved : load plat false r.2 = .ok changed) (hfile : r.2.file ≠ none)
      (hmarker : s.disk.marker = true → r.2.marker = true)

theorem Effect.of_section {c : Call F} {r : Except Failure Unit × Disk}
    {change : Entries F → Except Failure (Option (Entries F))}
    (hshaped : ∀ entries : Entries F, load plat false s.disk = .ok entries → Shaped entries)
    (hchange : ∀ entries changed, Shaped entries → change entries = .ok (some changed) →
      Shaped changed ∧ c.Change builtins s entries changed)
    (hattempted : r.2 = s.disk → (r.1 = .ok () → ∃ entries, change entries = .ok none) →
      attempted s c r = [])
    (h : Section plat s.disk change r) : Effect plat builtins s c r := by
  cases h with
  | same hdisk hreturned =>
    refine .same hdisk (fun hok => ?_) (hattempted hdisk fun hok => ?_)
    · obtain ⟨entries, hload, -⟩ := hreturned hok
      exact ⟨entries, hload⟩
    · obtain ⟨entries, -, hnone⟩ := hreturned hok
      exact ⟨entries, hnone⟩
  | saved entries changed hload hsome bytes hb hfile hmarker =>
    obtain ⟨hs, hc⟩ := hchange entries changed (hshaped entries hload) hsome
    have hsaved : load plat false ⟨some bytes, r.2.marker⟩ = .ok changed := load_encode hs hb
    rw [← hfile] at hsaved
    exact .saved entries changed hload hs hc hsaved (by simp [hfile]) hmarker

theorem run_effect (hshaped : ∀ entries : Entries F, load plat false s.disk = .ok entries →
    Shaped entries) (c : Call F) (fate : Fate) :
    Effect plat builtins s c (s.run plat builtins c fate) := by
  cases c with
  | begin owner psutil operationKey kind parts detail now =>
    unfold World.run begin
    simp only
    split
    · refine .same rfl (fun h => by cases h) ?_
      simp [attempted, Except.isOk, Except.toBool]
    · rename_i hkeys
      rw [not_or] at hkeys
      refine .of_section hshaped (fun entries changed hs hc => ?_) (fun hdisk hreturned => ?_)
        (locked_section fate s.disk _)
      · obtain ⟨hnew, hfree, rfl⟩ := begun_eq_ok hc
        exact ⟨hs.set hkeys.1 hkeys.2, hkeys.1, hnew, hfree, rfl⟩
      · have hraised : ∀ r : Except Failure Unit, (r = .ok () → False) → r.isOk = false := by
          intro r hr
          cases r with
          | error e => rfl
          | ok u => exact (hr rfl).elim
        have hnot := hraised _ fun hok => by
          obtain ⟨entries, hnone⟩ := hreturned hok
          exact begun_ne_none hnone
        simp only [attempted, hnot, hdisk]
        simp
  | settle operationKey state detail now =>
    unfold World.run settle
    simp only
    split
    · exact .same rfl (fun h => by cases h) rfl
    · rename_i hstate
      rw [not_or] at hstate
      refine .of_section hshaped (fun entries changed hs hc => ?_) (fun _ _ => rfl)
        (locked_section fate s.disk _)
      obtain ⟨_, hsome, haltered⟩ := settled_eq_ok hs hc
      cases hsome
      exact ⟨haltered.shaped hs, hstate.1, hstate.2, haltered⟩
  | get operationKey =>
    refine .same rfl (fun h => ?_) rfl
    simp only [World.run, get] at h
    split at h
    · cases hload : load (F := F) plat fate.unreadable s.disk with
      | error e =>
        rw [hload] at h
        cases h
      | ok entries => exact ⟨entries, load_of_unreadable hload⟩
    · cases h
  | acknowledge operationKey detail now =>
    unfold World.run acknowledge
    refine .of_section hshaped (fun entries changed hs hc => ?_) (fun _ _ => rfl)
      (locked_section fate s.disk _)
    obtain ⟨_, hsome, haltered⟩ := released_eq_ok hs hc
    cases hsome
    exact ⟨haltered.shaped hs, haltered⟩
  | reconcileInterrupted denied now =>
    unfold World.run reconcileInterrupted
    refine .of_section hshaped (fun entries changed hs hc => ?_) (fun _ _ => rfl)
      (locked_section fate s.disk _)
    have haltered := reconciled_eq_ok hs hc
    exact ⟨haltered.shaped hs, haltered⟩

structure Inv (F : Type) [PyFloat F] (plat : Platform) (builtins : Builtins) (s : World) : Prop where
  operations : (s.attempts.map Attempt.operationKey).Nodup
  pids : (s.live.map Process.pid).Nodup
  fresh : s.disk.file = none → s.disk.marker = false → s.attempts = []
  agrees : ∀ entries : Entries F, load plat false s.disk = .ok entries →
    Agrees builtins s.attempts entries

theorem Inv.effect (h : Inv F plat builtins s) (c : Call F) (fate : Fate) :
    Effect plat builtins s c (s.run plat builtins c fate) :=
  run_effect (fun entries hload => (h.agrees entries hload).shaped) c fate

/-- The bytes of the file decide what is read. -/
theorem load_congr {d d' : Disk} (hfile : d.file = d'.file) (hsome : d.file ≠ none) :
    load (F := F) plat false d = load plat false d' := by
  unfold load
  rw [← hfile]
  cases hd : d.file with
  | none => exact absurd hd hsome
  | some bytes => rfl

/-- A `begin` that was saved is an attempt. -/
theorem attempted_saved {owner : Process} {psutil : Bool} {operationKey kind : PyStr}
    {parts : List PyStr} {detail : PyStr} {now : F} {r : Except Failure Unit × Disk}
    {entries changed : Entries F} (hload : load plat false s.disk = .ok entries)
    (hsaved : load plat false r.2 = .ok changed) (hfile : r.2.file ≠ none)
    (hchange : Call.Change builtins s entries changed
      (.begin owner psutil operationKey kind parts detail now)) :
    attempted s (.begin owner psutil operationKey kind parts detail now) r =
      [⟨operationKey, kind, parts, owner, psutil, r.1.isOk⟩] := by
  obtain ⟨-, hnew, -, rfl⟩ := hchange
  have hdiffers : r.2.file ≠ s.disk.file := by
    intro hsame
    rw [load_congr hsame hfile, hload] at hsaved
    have hget := congrArg (fun d : Entries F => d.get? operationKey) (Except.ok.inj hsaved)
    simp only [Dict.get?_set_self, hnew] at hget
    cases hget
  simp [attempted, hdiffers]

theorem Inv.call (h : Inv F plat builtins s) (c : Call F) (fate : Fate) :
    Inv F plat builtins { s with
      disk := (s.run plat builtins c fate).2
      attempts := s.attempts ++ attempted s c (s.run plat builtins c fate) } := by
  have heffect := h.effect c fate
  generalize s.run plat builtins c fate = r at heffect ⊢
  cases heffect with
  | same hdisk hloaded hattempted =>
    rw [hdisk, hattempted, List.append_nil]
    exact h
  | saved entries changed hload hshaped hchange hsaved hfile hmarker =>
    have hagrees := h.agrees entries hload
    have hold : attempted s c r = [] → Agrees builtins s.attempts changed →
        Inv F plat builtins { s with disk := r.2, attempts := s.attempts ++ attempted s c r } := by
      intro hattempted hchanged
      rw [hattempted, List.append_nil]
      refine ⟨h.operations, h.pids, fun hnone => absurd hnone hfile, fun entries' hload' => ?_⟩
      cases hsaved.symm.trans hload'
      exact hchanged
    cases c with
    | begin owner psutil operationKey kind parts detail now =>
      rw [attempted_saved hload hsaved hfile hchange]
      obtain ⟨-, hnew, -, rfl⟩ := hchange
      refine ⟨?_, h.pids, fun hnone => absurd hnone hfile, fun entries' hload' => ?_⟩
      · rw [List.map_append, List.nodup_append]
        refine ⟨h.operations, List.nodup_singleton _, fun key hmem key' hmem' => ?_⟩
        cases List.mem_singleton.mp hmem'
        rintro rfl
        exact hagrees.notMem hnew hmem
      · cases hsaved.symm.trans hload'
        exact hagrees.begun hshaped hnew rfl rfl
    | settle operationKey state detail now => exact hold rfl (hagrees.altered hchange.2.2)
    | get operationKey => exact hchange.elim
    | acknowledge operationKey detail now => exact hold rfl (hagrees.altered hchange)
    | reconcileInterrupted denied now => exact hold rfl (hagrees.altered hchange)

theorem Inv.step (h : Inv F plat builtins s) {a : Action F} (hmeets : Meets builtins s a)
    (hs : s.step plat builtins a = some s') : Inv F plat builtins s' := by
  cases a with
  | start p =>
    simp only [World.step] at hs
    split at hs
    · cases hs
    · rename_i hpid
      cases hs
      refine ⟨h.operations, ?_, h.fresh, h.agrees⟩
      exact List.nodup_cons.mpr ⟨by simpa using hpid, h.pids⟩
  | die p =>
    cases hs
    refine ⟨h.operations, ?_, h.fresh, h.agrees⟩
    exact h.pids.sublist (List.erase_sublist.map _)
  | call c fate =>
    simp only [World.step] at hs
    split at hs
    · cases hs
      exact h.call c fate
    · cases hs
  | damage bytes =>
    simp only [World.step] at hs
    split at hs
    · cases hs
    · rename_i hrefused
      cases hs
      refine ⟨h.operations, h.pids, (fun hnone => by cases hnone), fun entries hload => ?_⟩
      simp [hload, Except.isOk, Except.toBool] at hrefused
  | remove =>
    cases hs
    have hempty : s.disk.marker = false → s.attempts = [] := by
      intro hmarker
      rcases hmeets with hthere | hnothing
      · rw [hmarker] at hthere
        cases hthere
      · exact hnothing
    refine ⟨h.operations, h.pids, fun _ => hempty, fun entries hload => ?_⟩
    unfold load at hload
    simp only at hload
    split at hload
    · cases hload
    · rename_i hmarker
      cases hload
      rw [hempty (by simpa using hmarker)]
      exact agrees_empty

theorem inv_of_reach (hr : (journalMachine F plat builtins).Reach (Meets builtins) s) :
    Inv F plat builtins s := by
  apply hr.invariant
  · rintro s₀ ⟨hdisk, hpids, hattempts⟩
    refine ⟨by simp [hattempts], hpids, fun _ _ => hattempts, fun entries hload => ?_⟩
    rw [hdisk] at hload
    cases hload
    rw [hattempts]
    exact agrees_empty
  · intro s₁ a s₂ hinv hmeets hstep
    exact hinv.step hmeets hstep

end
end QronosAgent.Workflow

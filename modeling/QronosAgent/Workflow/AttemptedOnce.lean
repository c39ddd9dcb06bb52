import QronosAgent.Workflow.Runs

/-! No side effect is repeated as long as the journal's file disappears only once its marker is
there, and different contents have different keys. -/
namespace QronosAgent.Workflow
open Lib
open Journal (Platform Members)

section
variable (F : Type) [PyFloat F] (plat : Platform) (builtins : Builtins)

end

/-! How the state of an operation moves. -/

section
variable {F : Type}

variable {entries changed : Entries F} {key : PyStr} {e : Failure} {a : Action F} {fate : Fate}
  {d : Disk}

theorem Altered.stateIn {allowed : PyStr → Entry F → SideEffectState → Prop}
    (h : Altered allowed entries changed) (key : PyStr) :
    stateIn changed key = stateIn entries key ∨
      ∃ (e : Entry F) (state : SideEffectState), entries.get? key = some e.members ∧
        stateIn entries key = some e.state ∧ allowed key e state ∧
          stateIn changed key = some state := by
  unfold Workflow.stateIn
  rcases h key with hsame | ⟨e, state, detail, now, hold, hallowed, hnew⟩
  · exact .inl (by rw [hsame])
  · refine .inr ⟨e, state, hold, ?_, hallowed, ?_⟩
    · rw [hold, Option.bind_some, e.stateOf?_members]
    · rw [hnew, Option.bind_some, Entry.stateOf?_members]

inductive Move (s : World) (key : PyStr) : Option SideEffectState → Option SideEffectState → Prop
  | stays (state) : Move s key state state
  | lost (state) : Move s key state none
  | begins (h : key ∉ s.attempts.map Attempt.operationKey) : Move s key none (some .submitting)
  | settles (state) (h : state ≠ .submitting) (h' : state ≠ .acknowledged) :
      Move s key (some .submitting) (some state)
  | confirms : Move s key (some .uncertain) (some .confirmed)
  | releases : Move s key (some .uncertain) (some .acknowledged)

theorem Call.Change.move {builtins : Builtins} {s : World} {c : Call F}
    (hagrees : Agrees builtins s.attempts entries) (h : c.Change builtins s entries changed)
    (key : PyStr) : Move s key (stateIn entries key) (stateIn changed key) := by
  cases c with
  | begin owner psutil operationKey kind parts detail now =>
    obtain ⟨-, hnew, -, rfl⟩ := h
    unfold stateIn
    by_cases hkey : key = operationKey
    · subst hkey
      rw [hnew, Dict.get?_set_self, Option.bind_none, Option.bind_some, Entry.stateOf?_members]
      exact .begins (hagrees.notMem hnew)
    · rw [Dict.get?_set_ne hkey]
      exact .stays _
  | settle operationKey state detail now =>
    obtain ⟨hsubmitting, hacknowledged, haltered⟩ := h
    rcases haltered.stateIn key with hsame | ⟨e, new, -, hold, ⟨-, rfl, hstate⟩, hnew⟩
    · exact hsame ▸ .stays _
    · rw [hold, hnew]
      rcases hstate with hstate | ⟨hstate, rfl⟩
      · exact hstate ▸ .settles _ hsubmitting hacknowledged
      · exact hstate ▸ .confirms
  | get operationKey => exact h.elim
  | acknowledge operationKey detail now =>
    rcases Altered.stateIn h key with hsame | ⟨e, new, -, hold, ⟨-, hstate, rfl⟩, hnew⟩
    · exact hsame ▸ .stays _
    · rw [hold, hnew, hstate]
      exact .releases
  | reconcileInterrupted denied now =>
    rcases Altered.stateIn h key with hsame | ⟨e, new, -, hold, ⟨hstate, -, rfl⟩, hnew⟩
    · exact hsame ▸ .stays _
    · rw [hold, hnew, hstate]
      exact .settles _ (by decide) (by decide)

theorem Agrees.stateIn {builtins : Builtins} {attempts : List Attempt}
    (h : Agrees builtins attempts entries) {a : Attempt} (ha : a ∈ attempts) : ∃ e : Entry F,
      entries.get? a.operationKey = some e.members ∧
        e.contentKey = contentKey builtins.hexdigest a.kind a.parts ∧
          e.owner = currentOwner a.owner a.psutil ∧
            Workflow.stateIn entries a.operationKey = some e.state := by
  obtain ⟨e, hget, hcontent, howner⟩ := h.recorded a ha
  refine ⟨e, hget, hcontent, howner, ?_⟩
  rw [Workflow.stateIn, hget, Option.bind_some, e.stateOf?_members]

variable [PyFloat F] {plat : Platform} {builtins : Builtins} {s s' : World}

theorem state_of_load (hload : load plat false s.disk = .ok entries) (key : PyStr) :
    s.state F plat key = stateIn entries key := by
  unfold World.state
  rw [hload]

theorem Inv.move (h : Inv F plat builtins s) (hs : s.step plat builtins a = some s') (key : PyStr)
    : Move s key (s.state F plat key) (s'.state F plat key) := by
  cases a with
  | start p =>
    simp only [World.step] at hs
    split at hs
    · cases hs
    · cases hs
      exact .stays _
  | die p =>
    cases hs
    exact .stays _
  | call c fate =>
    simp only [World.step] at hs
    obtain ⟨-, ⟨⟩⟩ := Option.ite_none_right_eq_some.mp hs
    have heffect := h.effect c fate
    generalize s.run plat builtins c fate = r at heffect
    cases heffect with
    | same hdisk =>
      have hsame : World.state F plat { s with
          disk := r.2, attempts := s.attempts ++ attempted s c r } key = s.state F plat key := by
        unfold World.state
        rw [hdisk]
      rw [hsame]
      exact .stays _
    | saved entries changed hload hshaped hchange hsaved =>
      rw [state_of_load hload, state_of_load hsaved]
      exact hchange.move (h.agrees entries hload) key
  | damage bytes =>
    simp only [World.step] at hs
    split at hs
    · cases hs
    · rename_i hrefused
      cases hs
      have hnone : World.state F plat { s with disk := ⟨some bytes, s.disk.marker⟩ } key = none := by
        unfold World.state
        split
        · rename_i entries hload
          simp [hload, Except.isOk, Except.toBool] at hrefused
        · rfl
      rw [hnone]
      exact .lost _
  | remove =>
    cases hs
    have hnone : World.state F plat { s with disk := ⟨none, s.disk.marker⟩ } key = none := by
      unfold World.state load
      by_cases hmarker : s.disk.marker = true
      · simp [hmarker]
      · simp [hmarker, stateIn]
    rw [hnone]
    exact .lost _

/-- A `begin` that returns finds no attempt for its operation and no open one for its content, and
the file has it then. -/
theorem Inv.begin_returned (h : Inv F plat builtins s) {owner : Process} {psutil : Bool}
    {operationKey kind : PyStr} {parts : List PyStr} {detail : PyStr} {now : F}
    (hr : (s.run plat builtins (.begin owner psutil operationKey kind parts detail now) fate).1 =
      .ok ()) :
    ∃ entries changed : Entries F, load plat false s.disk = .ok entries ∧
      load plat false (s.run plat builtins
        (.begin owner psutil operationKey kind parts detail now) fate).2 = .ok changed ∧
        Call.Change builtins s entries changed
          (.begin owner psutil operationKey kind parts detail now) := by
  have heffect := h.effect (.begin owner psutil operationKey kind parts detail now) fate
  cases heffect with
  | same hdisk hloaded hattempted =>
    simp [attempted, hr, Except.isOk, Except.toBool] at hattempted
  | saved entries changed hload hshaped hchange hsaved =>
    exact ⟨entries, changed, hload, hsaved, hchange⟩

theorem settle_ok {operationKey detail : PyStr} {state : SideEffectState} {now : F}
    (hload : load plat fate.unreadable d = .ok entries)
    (hstate : ¬ (state = .submitting ∨ state = .acknowledged))
    (hfate : fate.locked = true ∧ fate.save = .none ∧ fate.marker = .none)
    (hchange : ∃ changed, settled operationKey state detail now entries = .ok (some changed) ∧
      ∃ bytes, (sideEffectStore F).encode plat (payload changed) = .ok bytes) :
    (settle plat fate operationKey state detail now d).1 = .ok () := by
  obtain ⟨changed, hchange, bytes, hencode⟩ := hchange
  unfold settle locked saveEntries
  rw [if_neg hstate, if_pos hfate.1, hload]
  simp only [hchange, hfate.2, Journal.JsonStore.save_none hencode]
  split <;> rfl

end
/-! Contents without NUL have texts of their own. -/

def sampleBuiltins : Builtins where
  int s := some (Nat.ofDigitChars 10 (Json.digitsText s) 0)
  hexdigest text := .scalar '#' :: text
  int_natText n := by rw [Json.digitsText_natText, Nat.ofDigitChars_ten_toDigits]
  hexdigest_ne_nil text := List.cons_ne_nil _ _

def sampleProcess : Process := ⟨1, py "5"⟩

def sampleWorld : World := ⟨⟨none, false⟩, [sampleProcess], []⟩

def sampleMachine : Machine World (Action WholeFloat) :=
  journalMachine WholeFloat Journal.cpython sampleBuiltins

theorem sampleWorld_start : sampleMachine.start sampleWorld := ⟨rfl, by decide, rfl⟩

def working : Fate := ⟨true, false, .none, .none⟩

end QronosAgent.Workflow

import QronosAgent.Handover.Lifecycle

/-! The launch over the runs of the desktop: as long as no launch begins while an earlier one that
set the phase back is still in progress, gate, phase and runtime go together. -/
namespace QronosAgent.Handover
open Lib

section
variable {F : Type}

def Stage.phase : Stage → Phase
  | .reopen _ | .restart _ | .restarting _ => .idle
  | _ => .launching

def Stage.closed : Stage → Bool
  | .entered | .restart _ | .restarting _ => false
  | _ => true

/-- Whether no ticket is outstanding then. -/
def Stage.drained : Stage → Bool
  | .playback drained => drained
  | .status | .takeRuntime | .stopping | .stopped | .launching => true
  | _ => false

/-- Whether the launch has taken the runtime out of its slot, and not given it up. -/
def Stage.holdsRuntime : Stage → Bool
  | .stopping | .stopped | .launching => true
  | _ => false

theorem Stage.closed_of_drained {stage : Stage} (h : stage.drained = true) :
    stage.closed = true := by
  cases stage <;> first | rfl | cases h

theorem Stage.closed_of_holdsRuntime {stage : Stage} (h : stage.holdsRuntime = true) :
    stage.closed = true := by
  cases stage <;> first | rfl | cases h

theorem Stage.phase_ne_exit (stage : Stage) : stage.phase ≠ .exitRequired := by
  cases stage <;> simp [Stage.phase]

def Call.preflighted (c : Call F) : Prop := ∃ status, c.status = some status ∧ preflight status = none

def Call.stopProved (c : Call F) : Prop := ∃ wasRunning, c.stop = some (.ok wasRunning)

/-- The runtime ran before, and the answer of `host.launch` proves that no installer started. -/
def Call.restartable (c : Call F) : Prop :=
  c.stop = some (.ok true) ∧ ∃ line, c.line = some line ∧ line.provesNoStart

def Call.Answered (c : Call F) : Prop :=
  match c.stage with
  | .takeRuntime | .stopping => c.preflighted
  | .stopped | .launching => c.preflighted ∧ c.stopProved
  | .backToIdle r | .reopen r => r.restart = true → c.restartable
  | .restart _ | .restarting _ => c.restartable
  | _ => True

def NoneAllowed (s : Desktop F) : Prop := ∀ start, s.slot = some start → start.stage ≠ .allowed

structure Quiet (s : Desktop F) : Prop where
  calls : ∀ i, s.calls.get? i = none
  phase : s.phase = .idle
  gate : s.gate.closed = false
  active : s.gate.active = s.tickets.length
  unowned : ∀ start, s.slot = some start → start.owner = none
  lines : ∀ line ∈ s.lines, line.provesNoStart

structure Exiting (s : Desktop F) : Prop where
  calls : ∀ i, s.calls.get? i = none
  phase : s.phase = .exitRequired
  gate : s.gate.closed = true
  active : s.gate.active = s.tickets.length
  unowned : ∀ start, s.slot = some start → start.owner = none
  noneAllowed : NoneAllowed s

structure Single (s : Desktop F) (i : ℕ) (c : Call F) : Prop where
  calls : ∀ j, s.calls.get? j = if j = i then some c else none
  phase : s.phase = c.stage.phase
  gate : s.gate.closed = c.stage.closed
  active : s.gate.active = s.tickets.length
  drained : c.stage.drained = true → s.gate.active = 0
  noneAllowed : c.stage.holdsRuntime = true → NoneAllowed s
  owned : ∀ start j, s.slot = some start → start.owner = some j →
    j = i ∧ ∃ r, c.stage = .restarting r
  answered : c.Answered
  lines : ∀ line ∈ s.lines, line.provesNoStart

inductive Inv (s : Desktop F) : Prop where
  | quiet (h : Quiet s)
  | exiting (h : Exiting s)
  | single (i : ℕ) (c : Call F) (h : Single s i c)

/-- No launch begins while another one, which has set the phase back to `Idle`, is still to reopen
the gate or to restart the runtime. -/
def Apart (s : Desktop F) : Action F → Prop
  | .begin _ _ => s.phase = .idle → ∀ i, s.calls.get? i = none
  | _ => True

end

section
variable {F : Type} {s s' : Desktop F} {i : ℕ} {c : Call F}

theorem get?_set_only (h : ∀ j, s.calls.get? j = if j = i then some c else none) (c' : Call F)
    (j : ℕ) : (s.calls.set i c').get? j = if j = i then some c' else none := by
  rw [Dict.get?_set, h]
  by_cases hj : j = i
  · rw [if_pos hj, if_pos hj]
  · rw [if_neg hj, if_neg hj, if_neg hj]

theorem get?_erase_only (h : ∀ j, s.calls.get? j = if j = i then some c else none) (j : ℕ) :
    (s.calls.erase i).get? j = none := by
  rw [Dict.get?_erase, h]
  by_cases hj : j = i
  · rw [if_pos hj]
  · rw [if_neg hj, if_neg hj]

theorem Single.unowned (h : Single s i c) (hstage : ∀ r, c.stage ≠ .restarting r) :
    ∀ start, s.slot = some start → start.owner = none := by
  intro start hstart
  cases howner : start.owner with
  | none => rfl
  | some j =>
    obtain ⟨-, r, hr⟩ := h.owned start j hstart howner
    exact absurd hr (hstage r)

/-- A launch goes on with `c'`, after what its step did to the rest. -/
theorem Single.goes {s₁ : Desktop F} {c' : Call F} (h : Single s i c) (hcalls : s₁.calls = s.calls)
    (hactive : s₁.gate.active = s₁.tickets.length)
    (hlines : ∀ line ∈ s₁.lines, line.provesNoStart)
    (howned : ∀ start j, s₁.slot = some start → start.owner = some j →
      j = i ∧ ∃ r, c'.stage = .restarting r)
    (hphase : s₁.phase = c'.stage.phase) (hgate : s₁.gate.closed = c'.stage.closed)
    (hdrained : c'.stage.drained = true → s₁.gate.active = 0)
    (hnone : c'.stage.holdsRuntime = true → NoneAllowed s₁) (hanswered : c'.Answered) :
    Inv (s₁.put i c') := by
  apply Inv.single i c'
  exact {
    calls := by
      show ∀ j, (s₁.calls.set i c').get? j = _
      rw [hcalls]
      exact get?_set_only h.calls c'
    phase := hphase
    gate := hgate
    active := hactive
    drained := hdrained
    noneAllowed := hnone
    owned := howned
    answered := hanswered
    lines := hlines }

theorem lines_append {line : LaunchLine F} (h : ∀ line ∈ s.lines, line.provesNoStart)
    (hline : line.provesNoStart) : ∀ l ∈ s.lines ++ [line], l.provesNoStart := by
  intro l hl
  rcases List.mem_append.mp hl with hl | hl
  · exact h l hl
  · exact List.mem_singleton.mp hl ▸ hline

theorem Single.launchAnswered {wasRunning : Bool} (h : Single s i c)
    (hstage : c.stage = .launching) (hstop : c.stop = some (.ok wasRunning))
    (line : LaunchLine F) : Inv (s.launchAnswered i c line) := by
  have hunowned := h.unowned (by simp [hstage])
  have hgate := h.gate
  have hnone := h.noneAllowed
  rw [hstage] at hgate hnone
  unfold Desktop.launchAnswered
  cases hclass : classify line with
  | notStarted code message =>
    have hproves : line.provesNoStart := by
      unfold LaunchLine.provesNoStart
      rw [hclass]
      rfl
    simp only [hstop]
    refine h.goes rfl h.active (lines_append h.lines hproves) ?_ ?_ hgate (by rintro ⟨⟩)
      (by rintro ⟨⟩) ?_
    · intro start j hstart howner
      rw [hunowned start hstart] at howner
      contradiction
    · exact h.phase.trans (by rw [hstage]; rfl)
    · intro hrunning
      obtain rfl : wasRunning = true := hrunning
      exact ⟨rfl, line, rfl, hproves⟩
  | launched handoff =>
    simp only
    exact .exiting ⟨get?_erase_only h.calls, rfl, hgate, h.active, hunowned, hnone rfl⟩
  | unknown why =>
    simp only
    exact .exiting ⟨get?_erase_only h.calls, rfl, hgate, h.active, hunowned, hnone rfl⟩

theorem Single.move {m : Move F} (h : Single s i c) (hs : s.move i c c.stage m = some s') :
    Inv s' := by
  generalize hstage : c.stage = stage at hs
  have hphase := h.phase
  have hgate := h.gate
  have hdrained := h.drained
  have hnone := h.noneAllowed
  have hanswered := h.answered
  unfold Call.Answered at hanswered
  rw [hstage] at hphase hgate hdrained hnone hanswered
  -- no launch but one that restarts the runtime owns the slot
  have howned : (∀ r, stage ≠ .restarting r) → ∀ {p : ℕ → Prop} start j, s.slot = some start →
      start.owner = some j → p j := by
    intro hne p start j hstart howner
    have hunowned := h.unowned (hstage ▸ hne) start hstart
    rw [hunowned] at howner
    contradiction
  unfold Desktop.move at hs
  split at hs
  · -- the token is checked
    split at hs
    · cases hs
      exact h.goes rfl h.active h.lines (howned (by simp)) hphase rfl of_decide_eq_true
        (by rintro ⟨⟩) trivial
    · cases hs
      exact .quiet ⟨get?_erase_only h.calls, rfl, hgate, h.active,
        h.unowned (by simp [hstage]), h.lines⟩
  · cases hs
    exact h.goes rfl h.active h.lines (howned (by simp)) hphase hgate (fun _ => hdrained rfl)
      (by rintro ⟨⟩) trivial
  · cases hs
    by_cases hzero : s.gate.active = 0
    · rw [if_pos hzero]
      exact h.goes rfl h.active h.lines (howned (by simp)) hphase rfl (fun _ => hzero)
        (by rintro ⟨⟩) trivial
    · rw [if_neg hzero]
      exact h.goes rfl h.active h.lines (howned (by simp)) hphase rfl (by rintro ⟨⟩)
        (by rintro ⟨⟩) trivial
  · split at hs
    · cases hs
      exact h.goes rfl h.active h.lines (howned (by simp)) hphase hgate (fun _ => ‹_›)
        (by rintro ⟨⟩) trivial
    · split at hs
      · cases hs
        exact h.goes rfl h.active h.lines (howned (by simp)) hphase hgate (by rintro ⟨⟩)
          (by rintro ⟨⟩) (by rintro ⟨⟩)
      · cases hs
        exact .single i c h
  · split at hs
    · cases hs
      exact h.goes rfl h.active h.lines (howned (by simp)) hphase hgate (by rintro ⟨⟩)
        (by rintro ⟨⟩) (by rintro ⟨⟩)
    · cases hs
      exact h.goes rfl h.active h.lines (howned (by simp)) hphase hgate (fun _ => hdrained rfl)
        (by rintro ⟨⟩) ⟨_, rfl, ‹_›⟩
  · -- the slot is free, so no start is in the middle
    split at hs
    · cases hs
      rename_i hslot
      exact h.goes rfl h.active h.lines (howned (by simp)) hphase hgate (fun _ => hdrained rfl)
        (fun _ start hstart => by simp [hslot] at hstart) hanswered
    · cases hs
  · cases hs
    exact h.goes rfl h.active h.lines (howned (by simp)) hphase hgate (fun _ => hdrained rfl)
      (fun _ => hnone rfl) ⟨hanswered, _, rfl⟩
  · cases hs
    exact h.goes rfl h.active h.lines (howned (by simp)) hphase hgate (by rintro ⟨⟩)
      (by rintro ⟨⟩) (by rintro ⟨⟩)
  · cases hs
    exact h.goes rfl h.active h.lines (howned (by simp)) hphase hgate (fun _ => hdrained rfl)
      (fun _ => hnone rfl) hanswered
  · cases hs
    obtain ⟨-, wasRunning, hstop⟩ := hanswered
    exact h.launchAnswered hstage hstop _
  · cases hs
    exact h.goes rfl h.active h.lines (howned (by simp)) rfl hgate (by rintro ⟨⟩)
      (by rintro ⟨⟩) hanswered
  · split at hs
    · cases hs
      exact h.goes rfl h.active h.lines (howned (by simp)) hphase rfl (by rintro ⟨⟩)
        (by rintro ⟨⟩) (hanswered ‹_›)
    · cases hs
      exact .quiet ⟨get?_erase_only h.calls, hphase, rfl, h.active,
        h.unowned (by simp [hstage]), h.lines⟩
  · split at hs
    · cases hs
      refine h.goes rfl h.active h.lines ?_ hphase hgate (by rintro ⟨⟩)
        (by rintro ⟨⟩) hanswered
      intro start j hstart howner
      cases hstart
      cases howner
      exact ⟨rfl, _, rfl⟩
    · cases hs
  · cases hs

/-! Everything else leaves the launches as they are. -/

/-- A step that changes no launch and neither phase nor gate. -/
theorem Inv.frame (h : Inv s) (hcalls : s'.calls = s.calls) (hphase : s'.phase = s.phase)
    (hclosed : s'.gate.closed = s.gate.closed) (hlines : s'.lines = s.lines)
    (hactive : s'.gate.active = s'.tickets.length)
    (hzero : s.gate.closed = true → s.gate.active = 0 → s'.gate.active = 0)
    (hnone : s.gate.closed = true → NoneAllowed s → NoneAllowed s')
    (howned : ∀ start', s'.slot = some start' → start'.owner = none ∨
      ∃ start, s.slot = some start ∧ start.owner = start'.owner) : Inv s' := by
  have hunowned : (∀ start, s.slot = some start → start.owner = none) →
      ∀ start, s'.slot = some start → start.owner = none := by
    intro hall start' hstart'
    rcases howned start' hstart' with hnone | ⟨start, hstart, howner⟩
    · exact hnone
    · exact howner ▸ hall start hstart
  cases h with
  | quiet h =>
    exact .quiet ⟨hcalls ▸ h.calls, hphase ▸ h.phase, hclosed ▸ h.gate, hactive,
      hunowned h.unowned, hlines ▸ h.lines⟩
  | exiting h =>
    exact .exiting ⟨hcalls ▸ h.calls, hphase ▸ h.phase, hclosed ▸ h.gate, hactive,
      hunowned h.unowned, hnone h.gate h.noneAllowed⟩
  | single i c h =>
    apply Inv.single i c
    refine ⟨hcalls ▸ h.calls, hphase ▸ h.phase, hclosed ▸ h.gate, hactive, ?_, ?_, ?_, h.answered,
      hlines ▸ h.lines⟩
    · intro hdrained
      exact hzero (h.gate.trans (Stage.closed_of_drained hdrained)) (h.drained hdrained)
    · intro hholds
      exact hnone (h.gate.trans (Stage.closed_of_holdsRuntime hholds)) (h.noneAllowed hholds)
    · intro start' j hstart' howner'
      rcases howned start' hstart' with hnone | ⟨start, hstart, howner⟩
      · rw [hnone] at howner'
        contradiction
      · exact h.owned start j hstart (howner.trans howner')

theorem Inv.active (h : Inv s) : s.gate.active = s.tickets.length := by
  cases h with
  | quiet h => exact h.active
  | exiting h => exact h.active
  | single i c h => exact h.active

theorem Inv.enter (h : Inv s) (ticket : ℕ) : Inv (s.enter ticket) := by
  unfold Desktop.enter
  split
  · exact h
  · rename_i hopen
    refine h.frame rfl rfl rfl rfl ?_ (fun hclosed => absurd hclosed hopen) (fun _ hnone => hnone)
      (fun start hstart => .inr ⟨start, hstart, rfl⟩)
    simp [h.active]

theorem Inv.dropTicket (h : Inv s) {ticket : ℕ} (hticket : ticket ∈ s.tickets) :
    Inv (s.dropTicket ticket) := by
  unfold Desktop.dropTicket
  refine h.frame rfl rfl rfl rfl ?_ ?_ (fun _ hnone => hnone)
    (fun start hstart => .inr ⟨start, hstart, rfl⟩)
  · simp [h.active, List.length_erase_of_mem hticket]
  · intro _ hzero
    simp [hzero]

theorem Inv.withSlot (h : Inv s) {slot : Option Start}
    (hallowed : ∀ start, slot = some start → start.stage = .allowed → s.gate.closed = false)
    (howned : ∀ start', slot = some start' → start'.owner = none ∨
      ∃ start, s.slot = some start ∧ start.owner = start'.owner) :
    Inv { s with slot := slot } := by
  refine h.frame rfl rfl rfl rfl h.active (fun _ hzero => hzero) ?_ howned
  intro hclosed _ start hstart hstage
  rw [hallowed start hstart hstage] at hclosed
  contradiction

theorem Inv.endStart {start : Start} {isOk : Bool} (h : Inv s) :
    Inv (s.endStart start isOk) := by
  have hfree : Inv { s with slot := none } :=
    h.withSlot (by rintro _ ⟨⟩) (by rintro _ ⟨⟩)
  unfold Desktop.endStart
  cases howner : start.owner with
  | none => exact hfree
  | some i =>
    simp only
    split
    · rename_i r hr
      obtain ⟨c, hc, hstage⟩ := Option.map_eq_some_iff.mp hr
      -- only the launch that is at this stage is in progress
      cases h with
      | quiet h =>
        rw [h.calls] at hc
        contradiction
      | exiting h =>
        rw [h.calls] at hc
        contradiction
      | single j d h =>
        rw [h.calls] at hc
        split at hc
        · cases hc
          rename_i hij
          subst hij
          have hphase := h.phase
          have hgate := h.gate
          rw [hstage] at hphase hgate
          exact .quiet ⟨get?_erase_only h.calls, hphase, hgate, h.active,
            (by rintro _ ⟨⟩), h.lines⟩
        · contradiction
    · exact hfree

theorem startAt_some {stage : StartStage} {start : Start} (h : s.startAt stage = some start) :
    s.slot = some start ∧ start.stage = stage := by
  obtain ⟨hslot, hstage⟩ := Option.filter_eq_some_iff.mp h
  exact ⟨hslot, of_decide_eq_true hstage⟩

theorem Inv.readPhase {start : Start} (h : Inv s) (hslot : s.slot = some start) :
    Inv (s.readPhase start) := by
  unfold Desktop.readPhase
  split
  · exact h.endStart
  · apply h.withSlot
    · intro start' hstart' hallowed
      cases hstart'
      contradiction
    · intro start' hstart'
      cases hstart'
      exact .inr ⟨start, hslot, rfl⟩

theorem Inv.readGate {start : Start} (h : Inv s) (hslot : s.slot = some start) :
    Inv (s.readGate start) := by
  unfold Desktop.readGate
  split
  · exact h.endStart
  · rename_i hopen
    apply h.withSlot
    · exact fun _ _ _ => Bool.eq_false_iff.mpr hopen
    · intro start' hstart'
      cases hstart'
      exact .inr ⟨start, hslot, rfl⟩

theorem Inv.startEnded {start : Start} (h : Inv s)
    (outcome : StartOutcome) : Inv (s.startEnded start outcome) := by
  cases outcome with
  | started =>
    have hstarted : Inv { s with starts := s.starts + 1 } :=
      h.frame rfl rfl rfl rfl h.active (fun _ hzero => hzero) (fun _ hnone => hnone)
        (fun start hstart => .inr ⟨start, hstart, rfl⟩)
    exact hstarted.endStart
  | alreadyRunning => exact h.endStart
  | failed => exact h.endStart

theorem Inv.begin {token : List UInt8} (h : Inv s)
    (hapart : Apart s (.begin i token)) : Inv (s.begin i token) := by
  have hreturned : ∀ value, Inv { s with returned := s.returned ++ [(i, value)] } := fun value =>
    h.frame rfl rfl rfl rfl h.active (fun _ hzero => hzero) (fun _ hnone => hnone)
      (fun start hstart => .inr ⟨start, hstart, rfl⟩)
  unfold Desktop.begin
  split
  · rename_i hphase
    have hcalls := hapart hphase
    cases h with
    | quiet h =>
      apply Inv.single i ⟨token, .entered, none, none, none⟩
      refine ⟨?_, rfl, h.gate, h.active, (by rintro ⟨⟩), (by rintro ⟨⟩), ?_,
        trivial, h.lines⟩
      · intro j
        show (s.calls.set i _).get? j = _
        rw [Dict.get?_set, hcalls]
      · intro start j hstart howner
        rw [h.unowned start hstart] at howner
        contradiction
    | exiting h =>
      rw [h.phase] at hphase
      contradiction
    | single j c h =>
      have hc := h.calls j
      rw [hcalls, if_pos rfl] at hc
      contradiction
  · exact hreturned _
  · exact hreturned _

theorem Inv.step {a : Action F} (h : Inv s) (hapart : Apart s a)
    (hs : (desktopMachine F).step s a = some s') : Inv s' := by
  cases a with
  | begin i token =>
    simp only [desktopMachine] at hs
    split at hs
    · cases hs
    · cases hs
      exact h.begin hapart
  | move i m =>
    obtain ⟨c, hc, hs⟩ := Option.bind_eq_some_iff.mp hs
    cases h with
    | quiet h =>
      rw [h.calls] at hc
      contradiction
    | exiting h =>
      rw [h.calls] at hc
      contradiction
    | single j d h =>
      rw [h.calls] at hc
      split at hc
      · cases hc
        rename_i hij
        subst hij
        exact h.move hs
      · contradiction
  | enter ticket =>
    simp only [desktopMachine] at hs
    split at hs
    · cases hs
    · cases hs
      exact h.enter ticket
  | dropTicket ticket =>
    simp only [desktopMachine] at hs
    split at hs
    · cases hs
      exact h.dropTicket ‹_›
    · cases hs
  | startRequest =>
    simp only [desktopMachine] at hs
    split at hs
    · cases hs
      apply h.withSlot
      · intro start hstart hallowed
        cases hstart
        contradiction
      · intro start hstart
        cases hstart
        exact .inl rfl
    · cases hs
  | readPhase =>
    obtain ⟨start, hstart, rfl⟩ := Option.map_eq_some_iff.mp hs
    exact h.readPhase (startAt_some hstart).1
  | readGate =>
    obtain ⟨start, hstart, rfl⟩ := Option.map_eq_some_iff.mp hs
    exact h.readGate (startAt_some hstart).1
  | startEnded outcome =>
    obtain ⟨start, hstart, rfl⟩ := Option.map_eq_some_iff.mp hs
    exact h.startEnded outcome

theorem inv_reach (hr : (desktopMachine F).Reach Apart s) : Inv s := by
  apply hr.invariant (I := Inv)
  · rintro s rfl
    exact .quiet ⟨fun _ => rfl, rfl, rfl, rfl, (by rintro _ ⟨⟩), (by rintro _ ⟨⟩)⟩
  · exact fun s a s' h hapart hs => h.step hapart hs

structure Latched (s s' : Desktop F) : Prop where
  phase : s'.phase = .exitRequired
  gate : s'.gate.closed = true
  starts : s'.starts = s.starts
  tickets : ∀ ticket ∈ s'.tickets, ticket ∈ s.tickets

theorem endStart_same (s : Desktop F) (start : Start) (isOk : Bool) :
    (s.endStart start isOk).phase = s.phase ∧ (s.endStart start isOk).starts = s.starts ∧
      (s.endStart start isOk).tickets = s.tickets := by
  unfold Desktop.endStart
  cases start.owner with
  | none => exact ⟨rfl, rfl, rfl⟩
  | some i =>
    simp only
    split <;> exact ⟨rfl, rfl, rfl⟩

theorem Inv.exiting_of_phase (h : Inv s) (hphase : s.phase = .exitRequired) : Exiting s := by
  cases h with
  | quiet h =>
    rw [h.phase] at hphase
    contradiction
  | exiting h => exact h
  | single i c h => exact absurd (h.phase.symm.trans hphase) (Stage.phase_ne_exit _)

theorem Exiting.step {a : Action F} (h : Exiting s)
    (hs : (desktopMachine F).step s a = some s') : Exiting s' ∧ Latched s s' := by
  have hapart : Apart s a := by
    cases a with
    | begin i token => exact fun _ => h.calls
    | _ => trivial
  have hinv := Inv.step (.exiting h) hapart hs
  have hsame : s'.phase = s.phase ∧ s'.starts = s.starts ∧
      ∀ ticket ∈ s'.tickets, ticket ∈ s.tickets := by
    have hend : ∀ start isOk, (s.endStart start isOk).phase = s.phase ∧
        (s.endStart start isOk).starts = s.starts ∧
          ∀ ticket ∈ (s.endStart start isOk).tickets, ticket ∈ s.tickets := by
      intro start isOk
      obtain ⟨hphase, hstarts, htickets⟩ := endStart_same s start isOk
      exact ⟨hphase, hstarts, fun ticket ht => htickets ▸ ht⟩
    cases a with
    | begin i token =>
      simp only [desktopMachine] at hs
      split at hs
      · cases hs
      · cases hs
        have hbegin : ∃ value, s.begin i token = { s with returned := s.returned ++ [(i, value)] } := by
          unfold Desktop.begin
          rw [h.phase]
          exact ⟨_, rfl⟩
        obtain ⟨value, hbegin⟩ := hbegin
        rw [hbegin]
        exact ⟨rfl, rfl, fun _ ht => ht⟩
    | move i m =>
      obtain ⟨c, hc, -⟩ := Option.bind_eq_some_iff.mp hs
      rw [h.calls] at hc
      contradiction
    | enter ticket =>
      simp only [desktopMachine, Desktop.enter, h.gate, if_true] at hs
      split at hs
      · cases hs
      · cases hs
        exact ⟨rfl, rfl, fun _ ht => ht⟩
    | dropTicket ticket =>
      simp only [desktopMachine] at hs
      split at hs
      · cases hs
        exact ⟨rfl, rfl, fun _ ht => List.mem_of_mem_erase ht⟩
      · cases hs
    | startRequest =>
      simp only [desktopMachine] at hs
      split at hs
      · cases hs
        exact ⟨rfl, rfl, fun _ ht => ht⟩
      · cases hs
    | readPhase =>
      obtain ⟨start, -, rfl⟩ := Option.map_eq_some_iff.mp hs
      rw [Desktop.readPhase, if_pos h.phase]
      exact hend start false
    | readGate =>
      obtain ⟨start, -, rfl⟩ := Option.map_eq_some_iff.mp hs
      rw [Desktop.readGate, if_pos h.gate]
      exact hend start false
    | startEnded outcome =>
      obtain ⟨start, hstart, -⟩ := Option.map_eq_some_iff.mp hs
      obtain ⟨hslot, hallowed⟩ := startAt_some hstart
      exact absurd hallowed (h.noneAllowed start hslot)
  have hexiting := hinv.exiting_of_phase (hsame.1.trans h.phase)
  exact ⟨hexiting, hexiting.phase, hexiting.gate, hsame.2.1, hsame.2.2⟩

theorem Exiting.exec {as : List (Action F)} (h : Exiting s)
    (he : (desktopMachine F).exec s as = some s') : Latched s s' := by
  induction as generalizing s with
  | nil =>
    cases he
    exact ⟨h.phase, h.gate, rfl, fun _ ht => ht⟩
  | cons a as ih =>
    obtain ⟨t, hs, he⟩ := Option.bind_eq_some_iff.mp he
    obtain ⟨hexiting, hstep⟩ := h.step hs
    have hrest := ih hexiting he
    exact ⟨hrest.phase, hrest.gate, hrest.starts.trans hstep.starts,
      fun ticket ht => hstep.tickets ticket (hrest.tickets ticket ht)⟩

structure HandsOver (s : Desktop F) : Prop where
  one : ∀ i j, (s.calls.get? i).isSome → (s.calls.get? j).isSome → i = j
  /-- `host.launch` is called with the gate closed, no ticket outstanding and no runtime start past
  the gate, after a preflight that found nothing against it and a proved stop. -/
  launch : ∀ i s', (desktopMachine F).step s (.move i .callLaunch) = some s' →
    s.gate.closed = true ∧ s.tickets = [] ∧ NoneAllowed s ∧
      ∃ c, s.calls.get? i = some c ∧ c.preflighted ∧ c.stopProved
  restart : ∀ start i, s.slot = some start → start.owner = some i →
    ∃ c, s.calls.get? i = some c ∧ c.restartable ∧ ∀ j, (s.calls.get? j).isSome → j = i
  /-- An answer that does not prove a non-start ends in `ExitRequired`, -/
  unproved : ∀ line ∈ s.lines, ¬ line.provesNoStart → s.phase = .exitRequired
  latched : s.phase = .exitRequired → ∀ as s', (desktopMachine F).exec s as = some s' → Latched s s'
  restored : (∀ i, s.calls.get? i = none) → s.phase ≠ .exitRequired →
    s.phase = .idle ∧ s.gate.closed = false
  refused : ∀ i token s', s.phase = .launching →
    (desktopMachine F).step s (.begin i token) = some s' →
      s' = { s with returned := s'.returned }

theorem Inv.restart (h : Inv s) {start : Start} (hslot : s.slot = some start)
    (howner : start.owner = some i) :
    ∃ c, s.calls.get? i = some c ∧ c.restartable ∧ ∀ j, (s.calls.get? j).isSome → j = i := by
  cases h with
  | quiet h =>
    rw [h.unowned start hslot] at howner
    contradiction
  | exiting h =>
    rw [h.unowned start hslot] at howner
    contradiction
  | single k c h =>
    obtain ⟨rfl, r, hr⟩ := h.owned start i hslot howner
    have hanswered := h.answered
    unfold Call.Answered at hanswered
    rw [hr] at hanswered
    refine ⟨c, by rw [h.calls, if_pos rfl], hanswered, fun j hj => ?_⟩
    by_contra hne
    rw [h.calls, if_neg hne] at hj
    contradiction

theorem Inv.launch (h : Inv s)
    (hs : (desktopMachine F).step s (.move i .callLaunch) = some s') :
    s.gate.closed = true ∧ s.tickets = [] ∧ NoneAllowed s ∧
      ∃ c, s.calls.get? i = some c ∧ c.preflighted ∧ c.stopProved := by
  obtain ⟨c, hc, hs⟩ := Option.bind_eq_some_iff.mp hs
  have hstage : c.stage = .stopped := by
    generalize hstage : c.stage = stage at hs
    cases stage with
    | playback drained => cases drained <;> cases hs
    | stopped => rfl
    | _ => cases hs
  cases h with
  | quiet h =>
    rw [h.calls] at hc
    contradiction
  | exiting h =>
    rw [h.calls] at hc
    contradiction
  | single j d h =>
    rw [h.calls] at hc
    split at hc
    · cases hc
      rename_i hij
      subst hij
      have hgate := h.gate
      have hdrained := h.drained
      have hnone := h.noneAllowed
      have hanswered := h.answered
      unfold Call.Answered at hanswered
      rw [hstage] at hgate hdrained hnone hanswered
      have hempty : s.tickets = [] := by
        rw [← List.length_eq_zero_iff, ← h.active]
        exact hdrained rfl
      exact ⟨hgate, hempty, hnone rfl, c, by rw [h.calls, if_pos rfl], hanswered⟩
    · contradiction

/-- As long as no launch begins while an earlier one is still to reopen the gate or to restart the
runtime, the hand-over is safe. -/
theorem hands_over_safely (hr : (desktopMachine F).Reach Apart s) : HandsOver s := by
  have hinv := inv_reach hr
  exact {
    one := by
      intro i j hi hj
      cases hinv with
      | quiet h => simp [h.calls] at hi
      | exiting h => simp [h.calls] at hi
      | single k c h =>
        rw [h.calls] at hi hj
        split at hi
        · split at hj
          · simp_all
          · contradiction
        · contradiction
    launch := fun i s' hs => hinv.launch hs
    restart := fun start i hslot howner => hinv.restart hslot howner
    unproved := by
      intro line hline hunproved
      cases hinv with
      | quiet h => exact absurd (h.lines line hline) hunproved
      | exiting h => exact h.phase
      | single k c h => exact absurd (h.lines line hline) hunproved
    latched := fun hphase as s' he => (hinv.exiting_of_phase hphase).exec he
    restored := by
      intro hnone hphase
      cases hinv with
      | quiet h => exact ⟨h.phase, h.gate⟩
      | exiting h => exact absurd h.phase hphase
      | single k c h =>
        have hk := h.calls k
        rw [hnone, if_pos rfl] at hk
        contradiction
    refused := by
      intro i token s' hphase hs
      simp only [desktopMachine] at hs
      split at hs
      · cases hs
      · cases hs
        unfold Desktop.begin
        simp only [hphase] }

end

def sampleToken : List UInt8 := List.replicate 43 65

def sampleStatus : Json Unit :=
  .obj [(py "status", .obj [(py "updateInProgress", .bool false),
    (py "recoveryPending", .bool false), (py "launchAvailable", .bool true),
    (py "launchReady", .obj [])])]

/-- The check of `Apart`. -/
def apart (s : Desktop Unit) : Action Unit → Bool
  | .begin _ _ => s.phase ≠ .idle || s.calls.items.isEmpty
  | _ => true

theorem apart_of_check (s : Desktop Unit) (a : Action Unit) (h : apart s a = true) :
    Apart s a := by
  cases a with
  | begin i token =>
    intro hphase i
    have hempty : s.calls.items = [] := by simpa [apart, hphase] using h
    rw [Dict.get?, hempty, List.lookup_nil]
  | _ => trivial

/-- A launch that a ticket holds up, without an answer from the update service. -/
def sampleRun : List (Action Unit) :=
  [.enter 7, .begin 0 sampleToken, .move 0 .checkToken, .move 0 .playbackStopped, .dropTicket 7,
    .move 0 (.wake false), .move 0 (.statusAnswered (.ok sampleStatus)), .move 0 .takeRuntime,
    .move 0 (.stopAnswered (.ok true)), .move 0 .callLaunch,
    .move 0 (.launchAnswered (.noAnswer []))]

theorem hands_over_safely_sample :
    ∃ s : Desktop Unit, s.phase = .exitRequired ∧ s.lines.length = 1 ∧ HandsOver s := by
  have hrun : ((desktopMachine Unit).execChecked apart .initial sampleRun).any (fun s =>
      s.phase = .exitRequired && s.lines.length = 1) = true := by decide +kernel
  obtain ⟨s, hs, hdone⟩ := (Option.any_eq_true _ _).mp hrun
  simp only [Bool.and_eq_true, decide_eq_true_eq] at hdone
  exact ⟨s, hdone.1, hdone.2,
    hands_over_safely (Machine.Reach.execChecked apart_of_check (.start rfl) hs)⟩

/-- A launch fails its preflight and sets the phase back, a second one begins and closes the gate,
the first one opens it, a request is let in, and the installer is started. -/
def twoLaunches : List (Action Unit) :=
  [.begin 0 sampleToken, .move 0 .checkToken, .move 0 .playbackStopped,
    .move 0 (.statusAnswered (.error [])), .move 0 .setIdle,
    .begin 1 sampleToken, .move 1 .checkToken, .move 0 .reopen, .enter 7,
    .move 1 .playbackStopped, .move 1 (.statusAnswered (.ok sampleStatus)), .move 1 .takeRuntime,
    .move 1 (.stopAnswered (.ok true)), .move 1 .callLaunch,
    .move 1 (.launchAnswered (.noAnswer []))]

/-- After the outcome of a launch is unknown, the gate is open and a request is running. -/
theorem open_after_launch :
    ¬ ∀ s : Desktop Unit, (desktopMachine Unit).Reachable s → s.phase = .exitRequired →
      s.gate.closed = true ∧ s.tickets = [] := by
  intro h
  have hrun : ((desktopMachine Unit).exec .initial twoLaunches).any (fun s =>
      s.phase = .exitRequired && !s.gate.closed) = true := by decide +kernel
  obtain ⟨s, hs, hopen⟩ := (Option.any_eq_true _ _).mp hrun
  simp only [Bool.and_eq_true, decide_eq_true_eq, Bool.not_eq_true'] at hopen
  have hclosed := (h s (Machine.reachable_exec rfl hs) hopen.1).1
  rw [hopen.2] at hclosed
  exact Bool.false_ne_true hclosed

end QronosAgent.Handover

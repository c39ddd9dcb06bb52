import QronosAgent.Supervisor.Invariant

/-! One runtime at a time: how the run comes to rest, and that the runtime obeys once. -/
namespace QronosAgent.Supervision
open Lib

section
variable {s : Supervisor}

def ConnectPoint.rank : ConnectPoint → ℕ
  | .listen => 23
  | .accept => 22
  | .receive => 21
  | .welcome => 20
  | .look => 19

def WatchPoint.rank : WatchPoint → ℕ
  | .poll => 21
  | .receive => 20
  | .stop => 19

def ShutPoint.rank : ShutPoint → ℕ
  | .ask => 18
  | .request => 17
  | .send => 16
  | .grace => 15
  | .closeChannel => 14
  | .terminatePoll => 13
  | .terminate => 12
  | .terminateWait => 11
  | .killPoll => 10
  | .kill => 9
  | .killWait => 8
  | .closeServer => 7

def LeavePoint.rank : LeavePoint → ℕ
  | .stop => 6
  | .refused => 5
  | .budget => 4

/-- How many statements the run may still execute once `stop` has been called. -/
def Phase.rank : Phase → ℕ
  | .starting => 25
  | .launching _ => 24
  | .connecting _ _ point => point.rank
  | .watching _ _ _ point => point.rank
  | .shutting _ point => point.rank
  | .leaving _ point => point.rank
  | .backingOff _ => 3
  | .top => 2
  | .final => 1
  | .ended _ => 0

variable {s' : Supervisor} {t : ℚ} {c : ℕ} {w : Watch} {a : Act}

/-- Whatever the run is at, it can go on. -/
theorem goes_on (hended : s.phase.isEnded = false) :
    ∃ a : Act, a.own = true ∧ a ≠ .raises ∧ (s.step a).isSome = true := by
  cases hphase : s.phase with
  | top => exact ⟨.go, rfl, by simp, by simp [Supervisor.step, Supervisor.go, hphase]⟩
  | starting => exact ⟨.prepared 0, rfl, by simp, by simp [Supervisor.step, hphase]⟩
  | launching t => exact ⟨.launchRaised none, rfl, by simp, by simp [Supervisor.step, hphase]⟩
  | connecting t c point =>
    cases point with
    | listen | look => exact ⟨.go, rfl, by simp, by simp [Supervisor.step, Supervisor.go, hphase]⟩
    | accept => exact ⟨.acceptFailed, rfl, by simp, by simp [Supervisor.step, hphase]⟩
    | receive => exact ⟨.received .timeout 0, rfl, by simp, by simp [Supervisor.step, hphase]⟩
    | welcome => exact ⟨.sendFailed, rfl, by simp, by simp [Supervisor.step, hphase]⟩
  | watching t c w point =>
    cases point with
    | stop | poll => exact ⟨.go, rfl, by simp, by simp [Supervisor.step, Supervisor.go, hphase]⟩
    | receive => exact ⟨.received .error 0, rfl, by simp, by simp [Supervisor.step, hphase]⟩
  | shutting r point =>
    cases point with
    | ask | terminatePoll | killPoll =>
      exact ⟨.go, rfl, by simp, by simp [Supervisor.step, Supervisor.go, hphase]⟩
    | grace | terminateWait | killWait =>
      exact ⟨.waited, rfl, by simp, by simp [Supervisor.step, Supervisor.waited, hphase]⟩
    | _ => exact ⟨.called, rfl, by simp, by simp [Supervisor.step, Supervisor.called, hphase]⟩
  | leaving r point =>
    cases point with
    | stop | refused => exact ⟨.go, rfl, by simp, by simp [Supervisor.step, Supervisor.go, hphase]⟩
    | budget => exact ⟨.budgeted 0 0, rfl, by simp, by simp [Supervisor.step, hphase]⟩
  | backingOff delay =>
    exact ⟨.waited, rfl, by simp, by simp [Supervisor.step, Supervisor.waited, hphase]⟩
  | final => exact ⟨.go, rfl, by simp, by simp [Supervisor.step, Supervisor.go, hphase]⟩
  | ended state =>
    rw [hphase] at hended
    cases hended

end

def Listener.Met (i : ℕ) (log : List ClientEvent) (reason : PyStr) : Prop :=
  .received i (.shutdown reason) ∈ log ∨ reason = Client.gone ∧ .lost i ∈ log

theorem Listener.Met.cons {i : ℕ} {log : List ClientEvent} {reason : PyStr}
    (h : Listener.Met i log reason) (e : ClientEvent) : Listener.Met i (e :: log) reason :=
  h.imp (List.mem_cons_of_mem _) (And.imp_right (List.mem_cons_of_mem _))

structure Client.Inv (c : Client) : Prop where
  history : Every ClientEvent.Justified c.log
  met : ∀ (i : ℕ) reason, c.listeners[i]? = some (.requesting reason) ∨
    c.listeners[i]? = some (.calling reason) → Listener.Met i c.log reason
  /-- A listener that is to call `on_shutdown` is the only one that has passed the section. -/
  calling : ∀ (i : ℕ) reason, c.listeners[i]? = some (.calling reason) → c.shutdownCalled = true ∧
    (∀ j r, .called j r ∉ c.log) ∧ ∀ (j : ℕ) r, c.listeners[j]? = some (.calling r) → j = i
  called : ∀ j r, .called j r ∈ c.log → c.shutdownCalled = true

section
variable {c : Client} {i : ℕ} {l l' : Listener}

theorem getElem?_setListener (hl : c.listeners[i]? = some l) (j : ℕ) :
    (c.setListener i l').listeners[j]? = if i = j then some l' else c.listeners[j]? := by
  unfold Client.setListener
  rw [List.getElem?_set]
  obtain ⟨hlt, -⟩ := List.getElem?_eq_some_iff.mp hl
  simp [hlt]

/-- A listener goes on, and something may be logged; it neither passes the section nor has passed it. -/
theorem Client.Inv.move (h : c.Inv) (hl : c.listeners[i]? = some l) (stopping : Bool)
    {es : List ClientEvent} (hes : es = [] ∨ ∃ e, es = [e] ∧ ∀ j r, e ≠ .called j r)
    (hmet : ∀ reason, l' = .requesting reason → Listener.Met i (es ++ c.log) reason)
    (hnot : ∀ reason, l' ≠ .calling reason) :
    ({ c.setListener i l' with stopping := stopping, log := es ++ c.log } : Client).Inv := by
  have hcalled (j : ℕ) (r : PyStr) : .called j r ∈ es ++ c.log ↔ .called j r ∈ c.log := by
    rcases hes with rfl | ⟨e, rfl, he⟩
    · rfl
    · rw [List.singleton_append, List.mem_cons, or_iff_right (he j r).symm]
  have hkeep (j : ℕ) (reason : PyStr) (hj : (c.setListener i l').listeners[j]? =
      some (.calling reason)) : c.listeners[j]? = some (.calling reason) := by
    rw [getElem?_setListener hl] at hj
    split_ifs at hj with heq
    · exact absurd (Option.some.inj hj) (hnot reason)
    · exact hj
  constructor
  · rcases hes with rfl | ⟨e, rfl, he⟩
    · exact h.history
    · refine ⟨?_, h.history⟩
      cases e with
      | called j r => exact absurd rfl (he j r)
      | _ => trivial
  · intro j reason hj
    have hgrow (hm : Listener.Met j c.log reason) : Listener.Met j (es ++ c.log) reason := by
      rcases hes with rfl | ⟨e, rfl, -⟩
      · exact hm
      · exact hm.cons e
    rcases hj with hj | hj
    · change (c.setListener i l').listeners[j]? = _ at hj
      rw [getElem?_setListener hl] at hj
      split_ifs at hj with heq
      · exact heq ▸ hmet reason (Option.some.inj hj)
      · exact hgrow (h.met j reason (.inl hj))
    · exact hgrow (h.met j reason (.inr (hkeep j reason hj)))
  · intro j reason hj
    obtain ⟨hpassed, hnone, honly⟩ := h.calling j reason (hkeep j reason hj)
    exact ⟨hpassed, fun j' r hmem => hnone j' r ((hcalled j' r).mp hmem),
      fun j' r hj' => honly j' r (hkeep j' r hj')⟩
  · exact fun j r hmem => h.called j r ((hcalled j r).mp hmem)

theorem Client.Inv.request (h : c.Inv) {reason : PyStr}
    (hl : c.listeners[i]? = some (.requesting reason)) (hpassed : c.shutdownCalled = false) :
    ({ c.setListener i (.calling reason) with shutdownCalled := true } : Client).Inv := by
  have hnone (j : ℕ) (r : PyStr) : c.listeners[j]? ≠ some (.calling r) := by
    intro hj
    rw [(h.calling j r hj).1] at hpassed
    cases hpassed
  have honly (j : ℕ) (r : PyStr) (hj : (c.setListener i (.calling reason)).listeners[j]? =
      some (.calling r)) : j = i ∧ r = reason := by
    rw [getElem?_setListener hl] at hj
    split_ifs at hj with heq
    · exact ⟨heq.symm, (Listener.calling.inj (Option.some.inj hj)).symm⟩
    · exact absurd hj (hnone j r)
  constructor
  · exact h.history
  · intro j r hj
    rcases hj with hj | hj
    · change (c.setListener i _).listeners[j]? = _ at hj
      rw [getElem?_setListener hl] at hj
      split_ifs at hj
      · cases hj
      · exact h.met j r (.inl hj)
    · obtain ⟨rfl, rfl⟩ := honly j r hj
      exact h.met j r (.inl hl)
  · intro j r hj
    obtain ⟨rfl, -⟩ := honly j r hj
    refine ⟨rfl, ?_, fun j' r' hj' => (honly j' r' hj').1⟩
    intro j' r' hmem
    rw [h.called j' r' hmem] at hpassed
    cases hpassed
  · exact fun _ _ _ => rfl

theorem Client.Inv.call (h : c.Inv) {reason : PyStr}
    (hl : c.listeners[i]? = some (.calling reason)) :
    ({ c.setListener i .done with stopping := true, log := .called i reason :: c.log } : Client).Inv := by
  obtain ⟨hpassed, hnone, honly⟩ := h.calling i reason hl
  have hother (j : ℕ) (r : PyStr) : (c.setListener i .done).listeners[j]? ≠ some (.calling r) := by
    intro hj
    rw [getElem?_setListener hl] at hj
    split_ifs at hj with heq
    · cases hj
    · exact heq (honly j r hj).symm
  constructor
  · exact ⟨⟨hnone, h.met i reason (.inr hl)⟩, h.history⟩
  · intro j r hj
    rcases hj with hj | hj
    · change (c.setListener i .done).listeners[j]? = _ at hj
      rw [getElem?_setListener hl] at hj
      split_ifs at hj
      · cases hj
      · exact (h.met j r (.inl hj)).cons _
    · exact absurd hj (hother j r)
  · exact fun j r hj => absurd hj (hother j r)
  · exact fun _ _ _ => hpassed

theorem Client.Inv.step {c' : Client} (h : c.Inv) {a : ClientAct} (hstep : c.step a = some c') :
    c'.Inv := by
  unfold Client.step at hstep
  cases a with
  | start answer =>
    cases hstep
    rcases answer with _ | ⟨protocol, pid⟩ | reason
    · exact h
    · change (if pid = c.supervisorPid then _ else c).Inv
      split_ifs
      · -- The new thread begins with its first look.
        have hold (j : ℕ) {l : Listener} (hne : l ≠ .looking)
            (hj : (c.listeners ++ [.looking])[j]? = some l) : c.listeners[j]? = some l := by
          rw [List.getElem?_append] at hj
          split_ifs at hj
          · exact hj
          · exact absurd (List.mem_singleton.mp (List.mem_of_getElem? hj)) hne
        constructor
        · exact h.history
        · exact fun j r hj => h.met j r (hj.imp (hold j (by simp)) (hold j (by simp)))
        · intro j r hj
          obtain ⟨hpassed, hnone, honly⟩ := h.calling j r (hold j (by simp) hj)
          exact ⟨hpassed, hnone, fun j' r' hj' => honly j' r' (hold j' (by simp) hj')⟩
        · exact h.called
      · exact h
    · exact h
  | stop =>
    cases hstep
    exact { h with }
  | look j =>
    simp only at hstep
    split_ifs at hstep with hl hstopping
    · exact Option.some.inj hstep ▸ h.move hl c.stopping (.inl rfl) (by simp) (by simp)
    · exact Option.some.inj hstep ▸ h.move hl c.stopping (.inl rfl) (by simp) (by simp)
  | received j message =>
    simp only at hstep
    split_ifs at hstep with hl
    cases hstep
    apply h.move hl c.stopping (.inr ⟨.received j message, rfl, by simp⟩)
    · intro reason hreason
      cases message with
      | welcome => cases hreason
      | shutdown reason' =>
        cases hreason
        exact .inl List.mem_cons_self
    · intro reason
      cases message <;> simp [Client.heard]
  | timeout j =>
    simp only at hstep
    split_ifs at hstep with hl
    exact Option.some.inj hstep ▸ h.move hl c.stopping (.inl rfl) (by simp) (by simp)
  | lost j =>
    simp only at hstep
    split_ifs at hstep with hl
    cases hstep
    apply h.move hl c.stopping (.inr ⟨.lost j, rfl, by simp⟩)
    · rintro reason ⟨⟩
      exact .inr ⟨rfl, List.mem_cons_self⟩
    · simp
  | request j =>
    obtain ⟨l, hl, hstep⟩ := Option.bind_eq_some_iff.mp hstep
    cases l with
    | requesting reason =>
      simp only at hstep
      split_ifs at hstep with hpassed
      · exact Option.some.inj hstep ▸ h.move hl c.stopping (.inl rfl) (by simp) (by simp)
      · exact Option.some.inj hstep ▸ h.request hl (by simpa using hpassed)
    | _ => cases hstep
  | call j =>
    obtain ⟨l, hl, hstep⟩ := Option.bind_eq_some_iff.mp hstep
    cases l with
    | calling reason => exact Option.some.inj hstep ▸ h.call hl
    | _ => cases hstep

end

def defaultPolicy : SupervisorPolicy :=
  ⟨5, 20, 1, 60, 5, 600, 120, 120, by norm_num, by norm_num, by norm_num, by norm_num, by norm_num,
    by norm_num, by norm_num⟩

def sampleCheck (s : Supervisor) : Act → Bool
  | .raises | .budgeted .. | .launchRaised _ => false
  | .launched .. => s.processes.isEmpty
  | _ => true

end QronosAgent.Supervision

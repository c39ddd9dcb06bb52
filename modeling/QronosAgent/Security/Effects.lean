import QronosAgent.Security.Monitor

/-! What each method of the monitor can change. Everything but a containment and a reset leaves
the latches alone, and every method touches the tables of its principal's segment only. -/
namespace QronosAgent.Security
open Lib

structure Latches where
  contained : Bool
  containedReason : PyStr
  quarantined : Bool
  quarantineReason : PyStr
  containHistory : List Seconds
  hooks : Hook → List CallbackId
  ready : Bool

namespace SecurityMonitor

def latches (m : SecurityMonitor) : Latches :=
  ⟨m.contained, m.containedReason, m.quarantined, m.quarantineReason, m.containHistory, m.hooks,
    m.ready⟩

variable {cfg : MonitorConfig} {m n : SecurityMonitor} {policy : Policy} {r : Reading}
  {signal : SignalKind} {principal : Principal}

@[simp] theorem latches_count (now : Seconds) :
    (m.count policy now signal principal).1.latches = m.latches := rfl

theorem latches_setTracked (segment : Segment) (tracked : Tracked) :
    (m.setTracked segment tracked).latches = m.latches := rfl

@[simp] theorem tracked_setTracked_self (segment : Segment) (tracked : Tracked) :
    (m.setTracked segment tracked).tracked segment = tracked := by
  simp [setTracked]

theorem tracked_setTracked_ne {segment s : Segment} (tracked : Tracked) (h : s ≠ segment) :
    (m.setTracked segment tracked).tracked s = m.tracked s := by
  simp [setTracked, h]

theorem record_cases (m : SecurityMonitor) (wall : Seconds) (response : Response)
    (signal : SignalKind) (principal : Principal) (seconds : Option Seconds) :
    (m.record wall response signal principal seconds = none ∧ ¬ principal.describe.Encodable) ∨
    (principal.describe.Encodable ∧ ∃ incidents,
      m.record wall response signal principal seconds = some { m with incidents }) := by
  unfold record
  by_cases h : principal.describe.Encodable
  · rw [if_pos h]
    exact .inr ⟨h, _, rfl⟩
  · rw [if_neg h]
    exact .inl ⟨rfl, h⟩

theorem throttle_spec (m : SecurityMonitor) (policy : Policy) (r : Reading) (signal : SignalKind)
    (principal : Principal) :
    (m.throttle policy r signal principal).monitor.latches = m.latches ∧
    (∀ s, s ≠ principal.segment →
      (m.throttle policy r signal principal).monitor.tracked s = m.tracked s) ∧
    (m.throttle policy r signal principal).calls = [] ∧
    (m.throttle policy r signal principal).saved = none ∧
    (m.throttle policy r signal principal).result ≠ .error .disk := by
  unfold throttle
  dsimp only
  generalize boundThrottles principal.segment r.now _ = throttles
  generalize { m.tracked principal.segment with throttles } = tracked
  have hframe : ∀ s, s ≠ principal.segment →
      (m.setTracked principal.segment tracked).tracked s = m.tracked s :=
    fun s hs => tracked_setTracked_ne tracked hs
  generalize hn : m.setTracked principal.segment tracked = n at *
  have hlatches : n.latches = m.latches := by
    rw [← hn, latches_setTracked]
  generalize (if policy.duration = 0 then none else some policy.duration) = seconds
  obtain ⟨h, _⟩ | ⟨_, incidents, h⟩ := record_cases n r.wall .throttle signal principal seconds
  · rw [h]
    exact ⟨hlatches, hframe, rfl, rfl, by simp⟩
  · rw [h]
    exact ⟨hlatches, hframe, rfl, rfl, by simp⟩

/-- What `latch` leaves, in the latches and in what it asks for, does not depend on the rest. -/
theorem latch_with (cfg : MonitorConfig) (m : SecurityMonitor) (signal : SignalKind)
    (principal : Principal) (tracked : Segment → Tracked) (incidents : List Incident) (wall : Seconds) :
    (latch cfg { m with tracked, incidents } wall signal principal).2 =
      (latch cfg m wall signal principal).2 ∧
    (latch cfg { m with tracked, incidents } wall signal principal).1.latches =
      (latch cfg m wall signal principal).1.latches ∧
    (latch cfg { m with tracked, incidents } wall signal principal).1.tracked = tracked := by
  have hist : historyAt { m with tracked, incidents } wall = m.historyAt wall := rfl
  unfold latch record
  dsimp only
  rw [hist]
  by_cases he : principal.describe.Encodable
  · simp only [if_pos he]
    by_cases hlen : (m.historyAt wall).length < quarantineAfter
    · simp only [if_pos hlen]
      exact ⟨trivial, rfl, trivial⟩
    · simp only [if_neg hlen]
      by_cases hs : cfg.shutdownOnQuarantine = true
      · simp only [if_pos hs]
        exact ⟨trivial, rfl, trivial⟩
      · simp only [if_neg hs]
        exact ⟨trivial, rfl, trivial⟩
  · simp only [if_neg he]
    exact ⟨trivial, rfl, trivial⟩

theorem callbacks_of_latches (h : m.latches = n.latches) (escalate : List (Hook × PyStr)) :
    m.callbacks escalate = n.callbacks escalate := by
  have hh : m.hooks = n.hooks := congrArg Latches.hooks h
  rw [callbacks, callbacks, hh]

theorem payload_of_latches (h : m.latches = n.latches) : m.payload = n.payload := by
  simp only [latches, Latches.mk.injEq] at h
  obtain ⟨h₁, h₂, h₃, h₄, h₅, _, _⟩ := h
  rw [payload, payload, h₁, h₂, h₃, h₄, h₅]

theorem tracked_contain : (m.contain cfg r signal principal).monitor.tracked = m.tracked := by
  have ht := (latch_with cfg m signal principal m.tracked m.incidents r.wall).2.2
  unfold contain
  split
  · rfl
  · generalize m.latch cfg r.wall signal principal = lm at *
    obtain ⟨m', o⟩ := lm
    cases o with
    | none => exact ht
    | some re =>
      dsimp only
      split <;> exact ht

/-- What `observe` does, by what its policy says of the counted signal. -/
theorem observe_cases (cfg : MonitorConfig) (m : SecurityMonitor) (r : Reading)
    (signal : SignalKind) (principal : Principal) :
    ((∀ policy, cfg.policies signal = some policy → principal.kind ∉ policy.principals) ∧
      ∃ message, m.observe cfg r signal principal = ⟨m, .error (.refused message), [], none⟩) ∨
    ∃ policy, cfg.policies signal = some policy ∧ principal.kind ∈ policy.principals ∧
      (((m.window policy r.now signal principal).length < policy.threshold ∧
          m.observe cfg r signal principal =
            ⟨(m.count policy r.now signal principal).1, .ok ⟨.reject, signal, principal, none⟩, [],
              none⟩) ∨
        (policy.threshold ≤ (m.window policy r.now signal principal).length ∧
          policy.response = .throttle ∧
          m.observe cfg r signal principal =
            (m.count policy r.now signal principal).1.throttle policy r signal principal) ∨
        (policy.threshold ≤ (m.window policy r.now signal principal).length ∧
          policy.response ≠ .throttle ∧
          m.observe cfg r signal principal =
            (m.count policy r.now signal principal).1.contain cfg r signal principal)) := by
  unfold observe
  dsimp only
  cases hp : cfg.policies signal with
  | none => exact .inl ⟨fun _ h => by contradiction, _, rfl⟩
  | some policy =>
    dsimp only
    by_cases hk : principal.kind ∈ policy.principals
    · right
      refine ⟨policy, rfl, hk, ?_⟩
      have hflag : (m.count policy r.now signal principal).2 =
          decide (policy.threshold ≤ (m.window policy r.now signal principal).length) := rfl
      rw [if_pos hk]
      generalize m.count policy r.now signal principal = cm at *
      obtain ⟨n, f⟩ := cm
      dsimp only at hflag ⊢
      subst hflag
      by_cases hw : policy.threshold ≤ (m.window policy r.now signal principal).length
      · right
        simp only [hw, decide_true, true_and]
        by_cases ht : policy.response = .throttle
        · rw [if_pos ht]
          exact .inl ⟨ht, rfl⟩
        · rw [if_neg ht]
          exact .inr ⟨ht, rfl⟩
      · left
        simp only [hw, decide_false, and_true]
        omega
    · rw [if_neg hk]
      refine .inl ⟨fun policy' h => ?_, _, rfl⟩
      cases h
      exact hk

theorem tracked_observe_ne {s : Segment} (hs : s ≠ principal.segment) :
    (m.observe cfg r signal principal).monitor.tracked s = m.tracked s := by
  have hcount : ∀ policy : Policy,
      (m.count policy r.now signal principal).1.tracked s = m.tracked s :=
    fun policy => tracked_setTracked_ne _ hs
  obtain ⟨_, message, h⟩ | ⟨policy, _, _, h⟩ :=
    observe_cases cfg m r signal principal
  · rw [h]
  · obtain ⟨_, h⟩ | ⟨_, _, h⟩ | ⟨_, _, h⟩ := h
    · rw [h]
      exact hcount policy
    · rw [h, (throttle_spec _ _ _ _ _).2.1 s hs, hcount]
    · rw [h, tracked_contain, hcount]

/-- Signals whose policy throttles never touch the latches, call back or save. -/
theorem observe_of_throttle (m : SecurityMonitor) (r : Reading) (principal : Principal)
    (ht : ∀ policy, cfg.policies signal = some policy → principal.kind ∈ policy.principals →
      policy.response = .throttle) :
    (m.observe cfg r signal principal).monitor.latches = m.latches ∧
    (m.observe cfg r signal principal).calls = [] ∧
    (m.observe cfg r signal principal).saved = none := by
  obtain ⟨_, message, h⟩ | ⟨policy, hp, hk, h⟩ :=
    observe_cases cfg m r signal principal
  · rw [h]
    exact ⟨rfl, rfl, rfl⟩
  · obtain ⟨_, h⟩ | ⟨_, _, h⟩ | ⟨_, hne, _⟩ := h
    · rw [h]
      exact ⟨rfl, rfl, rfl⟩
    · rw [h]
      obtain ⟨hl, _, hcalls, hsaved, _⟩ := throttle_spec
        (m.count policy r.now signal principal).1 policy r signal principal
      exact ⟨hl, hcalls, hsaved⟩
    · exact absurd (ht policy hp hk) hne

def containsOn (cfg : MonitorConfig) (m : SecurityMonitor) (now : Seconds) (signal : SignalKind)
    (principal : Principal) : Bool :=
  ((cfg.policies signal).map fun policy =>
    decide (principal.kind ∈ policy.principals ∧
      policy.threshold ≤ (m.window policy now signal principal).length ∧
      policy.response ≠ .throttle ∧ m.contained = false ∧ m.quarantined = false)).getD false

def repeatedContainment : PyStr := py "repeated_containment"

/-- The callbacks a containment asks for, given how many containments now count. -/
def escalation (cfg : MonitorConfig) (signal : SignalKind) (n : ℕ) : List (Hook × PyStr) :=
  (.contain, signal.value) ::
    if n < quarantineAfter then []
    else (.quarantine, repeatedContainment) ::
      if cfg.shutdownOnQuarantine then [(.safeShutdown, repeatedContainment)] else []

theorem latch_encodable (cfg : MonitorConfig) (m : SecurityMonitor) (signal : SignalKind)
    (he : principal.describe.Encodable) (wall : Seconds) :
    ∃ response n, latch cfg m wall signal principal =
        (n, some (response, escalation cfg signal (m.historyAt wall).length)) ∧
      n.tracked = m.tracked ∧ n.contained = true ∧ n.hooks = m.hooks ∧ n.ready = m.ready ∧
      n.containHistory = m.historyAt wall ∧
      (n.quarantined = true ↔ m.quarantined = true ∨
        quarantineAfter ≤ (m.historyAt wall).length) := by
  unfold latch record escalation
  dsimp only
  simp only [if_pos he]
  by_cases hlen : (m.historyAt wall).length < quarantineAfter
  · simp only [if_pos hlen]
    refine ⟨_, _, rfl, rfl, rfl, rfl, rfl, rfl, ?_⟩
    dsimp only
    rw [or_iff_left (Nat.not_le.mpr hlen)]
  · simp only [if_neg hlen]
    by_cases hs : cfg.shutdownOnQuarantine = true
    · simp only [if_pos hs]
      exact ⟨_, _, rfl, rfl, rfl, rfl, rfl, rfl, by simp [Nat.not_lt.mp hlen]⟩
    · simp only [if_neg hs]
      exact ⟨_, _, rfl, rfl, rfl, rfl, rfl, rfl, by simp [Nat.not_lt.mp hlen]⟩

theorem containsOn_iff {now : Seconds} : m.containsOn cfg now signal principal = true ↔
    ∃ policy, cfg.policies signal = some policy ∧ principal.kind ∈ policy.principals ∧
      policy.threshold ≤ (m.window policy now signal principal).length ∧
      policy.response ≠ .throttle ∧ m.contained = false ∧ m.quarantined = false := by
  unfold containsOn
  cases cfg.policies signal <;> simp

/-- A signal that contains is `_contain_locked` once the signal is counted. -/
theorem observe_of_containsOn (h : m.containsOn cfg r.now signal principal = true) :
    ∃ n : SecurityMonitor, n.latches = m.latches ∧
      m.observe cfg r signal principal = n.contain cfg r signal principal := by
  obtain ⟨policy, hp, hk, hw, hne, _⟩ := containsOn_iff.mp h
  obtain ⟨hno, _⟩ | ⟨policy', hp', _, h⟩ :=
    observe_cases cfg m r signal principal
  · exact absurd hk (hno policy hp)
  · obtain rfl : policy' = policy := Option.some.inj (hp'.symm.trans hp)
    obtain ⟨hlt, _⟩ | ⟨_, ht, _⟩ | ⟨_, _, h⟩ := h
    · omega
    · exact absurd ht hne
    · exact ⟨_, latches_count _, h⟩

/-- A signal that does not contain leaves the latches, calls nobody and saves nothing. -/
theorem observe_of_not_containsOn (hc : m.containsOn cfg r.now signal principal = false) :
    (m.observe cfg r signal principal).monitor.latches = m.latches ∧
    (m.observe cfg r signal principal).calls = [] ∧
    (m.observe cfg r signal principal).saved = none ∧
    (m.observe cfg r signal principal).result ≠ .error .disk := by
  obtain ⟨_, message, h⟩ | ⟨policy, hp, hk, h⟩ :=
    observe_cases cfg m r signal principal
  · rw [h]
    exact ⟨rfl, rfl, rfl, by simp⟩
  · obtain ⟨_, h⟩ | ⟨_, _, h⟩ | ⟨hw, hne, h⟩ := h
    · rw [h]
      exact ⟨rfl, rfl, rfl, by simp⟩
    · rw [h]
      obtain ⟨hl, _, hcalls, hsaved, hres⟩ := throttle_spec
        (m.count policy r.now signal principal).1 policy r signal principal
      exact ⟨hl, hcalls, hsaved, hres⟩
    · have hlatched : (m.contained || m.quarantined) = true := by
        by_contra hnot
        simp only [Bool.not_eq_true, Bool.or_eq_false_iff] at hnot
        have := containsOn_iff.mpr ⟨policy, hp, hk, hw, hne, hnot⟩
        simp [this] at hc
      rw [h, contain, if_pos (by exact hlatched)]
      exact ⟨rfl, rfl, rfl, by simp⟩

theorem admitPrincipal_spec (m : SecurityMonitor) (principal : Principal) (now : Seconds) :
    (m.admitPrincipal now principal).1.latches = m.latches ∧
    ∀ s, s ≠ principal.segment →
      (m.admitPrincipal now principal).1.tracked s = m.tracked s := by
  unfold admitPrincipal
  dsimp only
  cases (m.tracked principal.segment).throttles.get? principal with
  | none => exact ⟨rfl, fun _ _ => rfl⟩
  | some t =>
    dsimp only
    by_cases he : t.endsAt ≤ now
    · rw [if_pos he]
      exact ⟨rfl, fun s hs => tracked_setTracked_ne _ hs⟩
    · rw [if_neg he]
      by_cases hl : principal.kind = .lanPeer ∧ t.nextAttempt ≤ now
      · rw [if_pos hl]
        exact ⟨rfl, fun s hs => tracked_setTracked_ne _ hs⟩
      · rw [if_neg hl]
        exact ⟨rfl, fun _ _ => rfl⟩

theorem segment_eq_lan : principal.segment = .lan ↔ principal.kind = .lanPeer := by
  unfold Principal.segment
  split <;> simp_all

end SecurityMonitor
end QronosAgent.Security

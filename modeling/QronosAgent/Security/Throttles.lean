import Mathlib.Algebra.Order.Ring.Rat
import Mathlib.Tactic.Linarith
import QronosAgent.Lib.Machine
import QronosAgent.Security.Effects

/-! How long a throttle lasts: runs of `observe` and `admit` that note what each principal was
told. -/
namespace QronosAgent.Security
open Lib

variable {K V : Type} {d : Dict K V} {k : K} {v : V} {now : Seconds}
  {throttles : Dict Principal Throttle} {p : Principal} {t : Throttle} {segment : Segment}

theorem get?_drop [DecidableEq K] {n : ℕ} (h : (d.drop n).get? k = some v) : d.get? k = some v :=
  Dict.get?_eq_some.mpr (List.drop_subset n _ (Dict.get?_eq_some.mp h))

theorem get?_remember [DecidableEq K] {cap : ℕ} {l : K} {w : V}
    (h : (remember cap d k v).get? l = some w) : if l = k then w = v else d.get? l = some w := by
  have hset := get?_drop h
  rw [Dict.get?_set] at hset
  split_ifs at hset ⊢ with hl
  · exact (Option.some.inj hset).symm
  · rwa [Dict.get?_erase_ne hl] at hset

theorem get?_forgiveOne (h : (forgiveOne now throttles).get? p = some t) :
    throttles.get? p = some t := by
  unfold forgiveOne at h
  split at h
  · rw [Dict.get?_erase] at h
    split_ifs at h
    exact h
  · exact get?_drop h

theorem get?_boundThrottles (h : (boundThrottles segment now throttles).get? p = some t) :
    throttles.get? p = some t := by
  unfold boundThrottles at h
  generalize throttles.items.length - segment.cap = turns at h
  induction turns generalizing throttles with
  | zero => exact h
  | succ turns ih =>
    rw [Function.iterate_succ_apply] at h
    exact get?_forgiveOne (ih h)

theorem boundThrottles_fits (h : throttles.items.length ≤ segment.cap) :
    boundThrottles segment now throttles = throttles := by
  rw [boundThrottles, Nat.sub_eq_zero_of_le h]
  rfl

namespace SecurityMonitor

variable {cfg : MonitorConfig} {m : SecurityMonitor} {r : Reading} {signal : SignalKind}
  {principal p : Principal} {now : Seconds}

/-- The throttle of a principal, running or not. -/
def throttleOf (m : SecurityMonitor) (principal : Principal) : Option Throttle :=
  (m.tracked principal.segment).throttles.get? principal

def throttlesOn (cfg : MonitorConfig) (m : SecurityMonitor) (now : Seconds) (signal : SignalKind)
    (principal : Principal) : Bool :=
  (cfg.policies signal).any fun policy =>
    decide (principal.kind ∈ policy.principals ∧
      policy.threshold ≤ (m.window policy now signal principal).length ∧
      policy.response = .throttle)

def newThrottle (m : SecurityMonitor) (policy : Policy) (now : Seconds) (principal : Principal) :
    Throttle :=
  ⟨max (now + policy.duration) (((m.throttleOf principal).map Throttle.endsAt).getD 0),
    now + lanRetryInterval⟩

/-- `throttles[principal] = ...`, before the table is bounded. -/
def withThrottle (m : SecurityMonitor) (policy : Policy) (now : Seconds) (principal : Principal) :
    Dict Principal Throttle :=
  ((m.tracked principal.segment).throttles.erase principal).set principal
    (m.newThrottle policy now principal)

theorem get?_withThrottle {policy : Policy} : (m.withThrottle policy now principal).get? p =
    if p = principal then some (m.newThrottle policy now principal)
    else (m.tracked principal.segment).throttles.get? p := by
  unfold withThrottle
  rw [Dict.get?_set]
  split_ifs with h
  · rfl
  · exact Dict.get?_erase_ne h

theorem throttle_tracked (m : SecurityMonitor) (policy : Policy) (r : Reading) (signal : SignalKind)
    (principal : Principal) :
    ((m.throttle policy r signal principal).monitor.tracked principal.segment).throttles =
        boundThrottles principal.segment r.now (m.withThrottle policy r.now principal) ∧
      ((m.throttle policy r signal principal).monitor.tracked principal.segment).windows =
        (m.tracked principal.segment).windows ∧
      ∀ d, (m.throttle policy r signal principal).result = .ok d →
        d = ⟨.throttle, signal, principal, some (r.now + policy.duration)⟩ := by
  have hthrottle : boundThrottles principal.segment r.now (m.withThrottle policy r.now principal) =
      boundThrottles principal.segment r.now
        (((m.tracked principal.segment).throttles.erase principal).set principal
          ⟨max (r.now + policy.duration) ((((m.tracked principal.segment).throttles.get?
            principal).map Throttle.endsAt).getD 0), r.now + lanRetryInterval⟩) := rfl
  rw [hthrottle]
  unfold throttle
  dsimp only
  generalize boundThrottles principal.segment r.now _ = throttles
  generalize hn : m.setTracked principal.segment _ = n
  have htracked : n.tracked principal.segment =
      { m.tracked principal.segment with throttles := throttles } := by
    rw [← hn, tracked_setTracked_self]
  generalize (if policy.duration = 0 then none else some policy.duration) = seconds
  obtain ⟨h, -⟩ | ⟨-, incidents, h⟩ := record_cases n r.wall .throttle signal principal seconds
  · rw [h]
    simp only [htracked, true_and]
    exact fun d hd => by cases hd
  · rw [h]
    simp only [htracked, true_and]
    intro d hd
    exact (Except.ok.inj hd).symm

theorem latch_response {wall : Seconds} {response : Response} {escalate : List (Hook × PyStr)}
    (h : (latch cfg m wall signal principal).2 = some (response, escalate)) :
    response ≠ .throttle ∧ response ≠ .reject := by
  have hthree : response = .contain ∨ response = .quarantine ∨ response = .safeShutdown := by
    unfold latch at h
    dsimp only at h
    split at h
    · cases h
    split at h
    · exact .inl (by cases h; rfl)
    split at h
    · cases h
    split at h
    · split at h
      · cases h
      · exact .inr (.inr (by cases h; rfl))
    · exact .inr (.inl (by cases h; rfl))
  rcases hthree with rfl | rfl | rfl <;> exact ⟨by simp, by simp⟩

theorem contain_result (cfg : MonitorConfig) (m : SecurityMonitor) (r : Reading)
    (signal : SignalKind) (principal : Principal) : ∀ d,
      (m.contain cfg r signal principal).result = .ok d →
        d.response ≠ .throttle ∧ d.response ≠ .reject := by
  intro d hd
  unfold contain at hd
  split at hd
  · cases hd
    exact ⟨by simp, by simp⟩
  cases hl : latch cfg m r.wall signal principal with
  | mk n o =>
    rw [hl] at hd
    cases o with
    | none => cases hd
    | some re =>
      dsimp only at hd
      split at hd
      · cases hd
        exact latch_response (congrArg Prod.snd hl)
      · cases hd

theorem observe_throttles (cfg : MonitorConfig) (m : SecurityMonitor) (r : Reading)
    (signal : SignalKind) (principal : Principal) :
    (m.throttlesOn cfg r.now signal principal = false ∧
      (∀ s, ((m.observe cfg r signal principal).monitor.tracked s).throttles =
        (m.tracked s).throttles) ∧
      ∀ d, (m.observe cfg r signal principal).result = .ok d → d.response ≠ .throttle) ∨
    (m.throttlesOn cfg r.now signal principal = true ∧
      ∃ policy, cfg.policies signal = some policy ∧
        policy.threshold ≤ (m.window policy r.now signal principal).length ∧
        ((m.observe cfg r signal principal).monitor.tracked principal.segment).throttles =
          boundThrottles principal.segment r.now (m.withThrottle policy r.now principal) ∧
        ∀ d, (m.observe cfg r signal principal).result = .ok d →
          d = ⟨.throttle, signal, principal, some (r.now + policy.duration)⟩) := by
  have hcount : ∀ (policy : Policy) s,
      ((m.count policy r.now signal principal).1.tracked s).throttles = (m.tracked s).throttles := by
    intro policy s
    unfold count
    by_cases hs : s = principal.segment
    · rw [hs, tracked_setTracked_self]
    · rw [tracked_setTracked_ne _ hs]
  obtain ⟨hno, message, h⟩ | ⟨policy, hp, hk, h⟩ := observe_cases cfg m r signal principal
  · refine .inl ⟨?_, fun s => by rw [h], fun d hd => by rw [h] at hd; cases hd⟩
    unfold throttlesOn
    cases hpol : cfg.policies signal with
    | none => rfl
    | some policy => exact decide_eq_false fun hall => hno policy hpol hall.1
  obtain ⟨hw, h⟩ | ⟨hw, ht, h⟩ | ⟨hw, hne, h⟩ := h
  · refine .inl ⟨?_, fun s => by rw [h, hcount], fun d hd => ?_⟩
    · rw [throttlesOn, hp]
      exact decide_eq_false fun hall => absurd hall.2.1 (Nat.not_le.mpr hw)
    · rw [h] at hd
      cases hd
      simp
  · refine .inr ⟨?_, policy, hp, hw, ?_, ?_⟩
    · rw [throttlesOn, hp]
      exact decide_eq_true ⟨hk, hw, ht⟩
    · rw [h, (throttle_tracked _ _ _ _ _).1, withThrottle, newThrottle, throttleOf, hcount]
      rfl
    · rw [h]
      exact (throttle_tracked _ _ _ _ _).2.2
  · refine .inl ⟨?_, fun s => by rw [h, tracked_contain, hcount], fun d hd => ?_⟩
    · rw [throttlesOn, hp]
      exact decide_eq_false fun hall => hne hall.2.2
    · rw [h] at hd
      exact (contain_result _ _ _ _ _ d hd).1

/-- What a signal leaves of the windows: one of them may be counted on, or emptied by a response;
some may be gone. -/
theorem observe_windows (cfg : MonitorConfig) (m : SecurityMonitor) (r : Reading)
    (signal : SignalKind) (principal : Principal) :
    (∃ message, m.observe cfg r signal principal = ⟨m, .error (.refused message), [], none⟩) ∨
    ∃ policy, cfg.policies signal = some policy ∧
      (∀ q k w, ((m.observe cfg r signal principal).monitor.tracked q.segment).windows.get? (q, k) =
          some w →
        if (q, k) = (principal, signal) then
          w = if policy.threshold ≤ (m.window policy r.now signal principal).length then []
            else m.window policy r.now signal principal
        else (m.tracked q.segment).windows.get? (q, k) = some w) ∧
      ((m.window policy r.now signal principal).length < policy.threshold →
        (m.observe cfg r signal principal).result = .ok ⟨.reject, signal, principal, none⟩) := by
  have hcount : ∀ (policy : Policy) (q : Principal) (k : SignalKind) (w : List Seconds),
      ((m.count policy r.now signal principal).1.tracked q.segment).windows.get? (q, k) = some w →
        if (q, k) = (principal, signal) then
          w = if policy.threshold ≤ (m.window policy r.now signal principal).length then []
            else m.window policy r.now signal principal
        else (m.tracked q.segment).windows.get? (q, k) = some w := by
    intro policy q k w hw
    unfold count at hw
    dsimp only at hw
    by_cases hs : q.segment = principal.segment
    · rw [hs, tracked_setTracked_self] at hw
      have hget := get?_remember hw
      simp only [decide_eq_true_eq] at hget
      rw [hs]
      exact hget
    · rw [tracked_setTracked_ne _ hs] at hw
      rw [if_neg]
      · exact hw
      · rintro ⟨rfl, rfl⟩
        exact hs rfl
  obtain ⟨-, message, h⟩ | ⟨policy, hp, -, h⟩ := observe_cases cfg m r signal principal
  · exact .inl ⟨message, h⟩
  refine .inr ⟨policy, hp, ?_⟩
  obtain ⟨hw, h⟩ | ⟨hw, -, h⟩ | ⟨hw, -, h⟩ := h
  · rw [h]
    exact ⟨hcount policy, fun _ => rfl⟩
  · rw [h]
    refine ⟨fun q k w hget => hcount policy q k w ?_, fun hlt => absurd hlt (Nat.not_lt.mpr hw)⟩
    by_cases hs : q.segment = principal.segment
    · rw [hs, (throttle_tracked _ _ _ _ _).2.1] at hget
      rw [hs]
      exact hget
    · rwa [(throttle_spec _ _ _ _ _).2.1 _ hs] at hget
  · rw [h, tracked_contain]
    exact ⟨hcount policy, fun hlt => absurd hlt (Nat.not_lt.mpr hw)⟩

theorem admitPrincipal_windows (s : Segment) :
    ((m.admitPrincipal now principal).1.tracked s).windows = (m.tracked s).windows := by
  unfold admitPrincipal
  dsimp only
  have hset : ∀ throttles, ((m.setTracked principal.segment
      { m.tracked principal.segment with throttles := throttles }).tracked s).windows =
        (m.tracked s).windows := by
    intro throttles
    by_cases hs : s = principal.segment
    · rw [hs, tracked_setTracked_self]
    · rw [tracked_setTracked_ne _ hs]
  split
  · rfl
  · split_ifs
    · exact hset _
    · exact hset _
    · rfl

/-- An attempt puts nobody into a table. -/
theorem admitPrincipal_keys {s : Segment} {t : Throttle}
    (ht : ((m.admitPrincipal now principal).1.tracked s).throttles.get? p = some t) :
    ((m.tracked s).throttles.get? p).isSome := by
  by_cases hs : s = principal.segment
  swap
  · rw [(admitPrincipal_spec m principal now).2 s hs] at ht
    rw [ht]
    rfl
  rw [hs] at ht ⊢
  unfold admitPrincipal at ht
  dsimp only at ht
  split at ht
  · rw [ht]
    rfl
  · rename_i t₀ ht₀
    split_ifs at ht
    · rw [tracked_setTracked_self, Dict.get?_erase] at ht
      split_ifs at ht
      rw [ht]
      rfl
    · rw [tracked_setTracked_self, Dict.get?_set] at ht
      split_ifs at ht with hp
      · rw [hp, ht₀]
        rfl
      · rw [ht]
        rfl
    · rw [ht]
      rfl

theorem throttleOf_setTracked {throttles : Dict Principal Throttle} :
    (m.setTracked principal.segment
      { m.tracked principal.segment with throttles := throttles }).throttleOf p =
        if p.segment = principal.segment then throttles.get? p else m.throttleOf p := by
  unfold throttleOf
  split_ifs with hs
  · rw [hs, tracked_setTracked_self]
  · rw [tracked_setTracked_ne _ hs]

theorem admitPrincipal_none (h : m.throttleOf principal = none) :
    m.admitPrincipal now principal = (m, true) := by
  unfold admitPrincipal
  dsimp only
  rw [show (m.tracked principal.segment).throttles.get? principal = none from h]

/-- An attempt once the throttle is over takes it out of the table. -/
theorem admitPrincipal_over {t : Throttle} (h : m.throttleOf principal = some t)
    (hover : t.endsAt ≤ now) : (m.admitPrincipal now principal).2 = true ∧
      (m.admitPrincipal now principal).1.throttleOf p =
        if p = principal then none else m.throttleOf p := by
  have heq : m.admitPrincipal now principal = (m.setTracked principal.segment
      { m.tracked principal.segment with
        throttles := (m.tracked principal.segment).throttles.erase principal }, true) := by
    unfold admitPrincipal
    dsimp only
    rw [show (m.tracked principal.segment).throttles.get? principal = some t from h]
    exact if_pos hover
  rw [heq]
  refine ⟨rfl, ?_⟩
  rw [throttleOf_setTracked, Dict.get?_erase]
  split_ifs with hs hp hp
  · rfl
  · rw [throttleOf, hs]
  · exact absurd (congrArg Principal.segment hp) hs
  · rfl

/-- An attempt while the throttle runs goes ahead only for a LAN address whose turn has come. -/
theorem admitPrincipal_running {t : Throttle} (h : m.throttleOf principal = some t)
    (hrun : now < t.endsAt) :
    (principal.kind = .lanPeer ∧ t.nextAttempt ≤ now ∧ (m.admitPrincipal now principal).2 = true ∧
      (m.admitPrincipal now principal).1.throttleOf p = if p = principal then
        some { t with nextAttempt := now + lanRetryInterval } else m.throttleOf p) ∨
    (¬(principal.kind = .lanPeer ∧ t.nextAttempt ≤ now) ∧
      m.admitPrincipal now principal = (m, false)) := by
  have heq : m.admitPrincipal now principal =
      if principal.kind = .lanPeer ∧ t.nextAttempt ≤ now then
        (m.setTracked principal.segment { m.tracked principal.segment with
          throttles := (m.tracked principal.segment).throttles.set principal
            { t with nextAttempt := now + lanRetryInterval } }, true)
      else (m, false) := by
    unfold admitPrincipal
    dsimp only
    rw [show (m.tracked principal.segment).throttles.get? principal = some t from h]
    exact if_neg (not_le.mpr hrun)
  rw [heq]
  by_cases hturn : principal.kind = .lanPeer ∧ t.nextAttempt ≤ now
  · rw [if_pos hturn]
    refine .inl ⟨hturn.1, hturn.2, rfl, ?_⟩
    rw [throttleOf_setTracked, Dict.get?_set]
    split_ifs with hs hp hp
    · rfl
    · rw [throttleOf, hs]
    · exact absurd (congrArg Principal.segment hp) hs
    · rfl
  · rw [if_neg hturn]
    exact .inr ⟨hturn, rfl⟩

end SecurityMonitor

structure Watch where
  monitor : SecurityMonitor
  now : Seconds
  /-- What THROTTLE decisions said, a LAN address's until it leaves the table. -/
  issued : List (Principal × Seconds)
  seen : List Principal
  signals : Principal × SignalKind → List Seconds
  chances : Principal → List Seconds

inductive WatchOp where
  | observe (r : Reading) (signal : SignalKind) (principal : Principal)
  | attempt (now : Seconds) (principal : Principal)

namespace Watch

def begins (w : Watch) (m : SecurityMonitor) (now : Seconds) (p : Principal) : Bool :=
  m.throttleOf p ≠ w.monitor.throttleOf p && !w.monitor.throttled now p

def counted (now : Seconds) (old : List Seconds) : Except MonitorError Decision → List Seconds
  | .ok d => if d.response = .reject then now :: old else []
  | .error (.refused _) => old
  | .error _ => now :: old

/-- A LAN address out of the table is told nothing any more. -/
def stands (m : SecurityMonitor) (pu : Principal × Seconds) : Bool :=
  pu.1.kind ≠ .lanPeer || (m.throttleOf pu.1).isSome

def told (d : Except MonitorError Decision) : List (Principal × Seconds) :=
  match d with
  | .ok d => if d.response = .throttle then (d.throttledUntil.map fun u => (d.principal, u)).toList
    else []
  | .error _ => []

def afterObserve (w : Watch) (r : Reading) (signal : SignalKind) (p : Principal)
    (o : Outcome Decision) : Watch where
  monitor := o.monitor
  now := r.now
  issued := (told o.result ++ w.issued).filter (stands o.monitor)
  seen := p :: w.seen
  signals := Function.update w.signals (p, signal) (counted r.now (w.signals (p, signal)) o.result)
  chances q :=
    if o.monitor.throttleOf q = none then []
    else if w.begins o.monitor r.now q then [r.now] else w.chances q

def afterAdmit (w : Watch) (now : Seconds) (p : Principal) (o : SecurityMonitor × Bool) : Watch where
  monitor := o.1
  now := now
  issued := w.issued.filter (stands o.1)
  seen := w.seen
  signals := w.signals
  chances q :=
    if o.1.throttleOf q = none then []
    else if q = p ∧ o.2 = true then now :: w.chances q else w.chances q

def step (cfg : MonitorConfig) (w : Watch) : WatchOp → Option Watch
  | .observe r signal p =>
    if w.now ≤ r.now then some (w.afterObserve r signal p (w.monitor.observe cfg r signal p))
    else none
  | .attempt now p =>
    if w.now ≤ now then some (w.afterAdmit now p (w.monitor.admitPrincipal now p)) else none

/-- No more principals than the table holds, LAN addresses aside. -/
def few (w : Watch) : Prop :=
  (w.seen.filter fun p => p.segment = .other).dedup.length ≤ Segment.other.cap

end Watch

def watchedMonitor (cfg : MonitorConfig) : Machine Watch WatchOp where
  start w := w.monitor.tracked = (fun _ => ⟨.empty, .empty⟩) ∧ w.issued = [] ∧ w.seen = [] ∧
    w.signals = (fun _ => []) ∧ w.chances = fun _ => []
  step := Watch.step cfg

def NotPutOff (cfg : MonitorConfig) (w : Watch) : WatchOp → Prop
  | .observe r signal p => p.kind = .lanPeer → w.monitor.throttlesOn cfg r.now signal p = true →
    ∀ t, w.monitor.throttleOf p = some t → r.now < t.endsAt → r.now + lanRetryInterval ≤ t.nextAttempt
  | .attempt _ _ => True

namespace SecurityMonitor

variable {cfg : MonitorConfig} {m : SecurityMonitor} {r : Reading} {signal : SignalKind}
  {principal p q : Principal} {now : Seconds} {policy : Policy}

theorem endsAt_newThrottle : now + policy.duration ≤ (m.newThrottle policy now p).endsAt :=
  le_max_left _ _

/-- A response never shortens the throttle there is. -/
theorem endsAt_le_newThrottle {t : Throttle} (h : m.throttleOf p = some t) :
    t.endsAt ≤ (m.newThrottle policy now p).endsAt := by
  unfold newThrottle
  rw [h]
  exact le_max_right _ _

theorem throttled_iff : m.throttled now p = true ↔
    ∃ t, m.throttleOf p = some t ∧ now < t.endsAt := by
  unfold throttled throttleOf
  cases (m.tracked p.segment).throttles.get? p with
  | none => simp
  | some t => simp

theorem throttleOf_unmoved
    (h : ∀ s, ((m.observe cfg r signal p).monitor.tracked s).throttles = (m.tracked s).throttles) :
    (m.observe cfg r signal p).monitor.throttleOf q = m.throttleOf q := by
  unfold throttleOf
  rw [h]

theorem throttleOf_response {t : Throttle}
    (h : ((m.observe cfg r signal p).monitor.tracked p.segment).throttles =
      boundThrottles p.segment r.now (m.withThrottle policy r.now p))
    (ht : (m.observe cfg r signal p).monitor.throttleOf q = some t) :
    if q = p then t = m.newThrottle policy r.now p else m.throttleOf q = some t := by
  unfold throttleOf at ht
  by_cases hs : q.segment = p.segment
  · rw [hs, h] at ht
    have hget := get?_boundThrottles ht
    rw [get?_withThrottle] at hget
    split_ifs at hget ⊢
    · exact (Option.some.inj hget).symm
    · unfold throttleOf
      rwa [hs]
  · rw [tracked_observe_ne hs] at ht
    rw [if_neg fun hq => hs (congrArg Principal.segment hq)]
    exact ht

end SecurityMonitor

namespace Watch
open SecurityMonitor

variable {cfg : MonitorConfig} {w : Watch} {r : Reading} {signal : SignalKind}
  {p q : Principal} {now : Seconds}

structure Inv (w : Watch) : Prop where
  turn : ∀ q t, q.kind = .lanPeer → w.monitor.throttleOf q = some t → w.now < t.endsAt →
    ∃ c rest, w.chances q = c :: rest ∧ t.nextAttempt = c + lanRetryInterval
  apart : ∀ q, q.kind = .lanPeer →
    (w.chances q).IsChain fun later earlier => earlier + lanRetryInterval ≤ later
  past : ∀ q, ∀ c ∈ w.chances q, c ≤ w.now
  told : ∀ pu ∈ w.issued, pu.1.kind = .lanPeer → ∃ t, w.monitor.throttleOf pu.1 = some t ∧
    (w.now < pu.2 → pu.2 ≤ t.endsAt)
  known : ∀ q t, (w.monitor.tracked .other).throttles.get? q = some t →
    q ∈ w.seen ∧ q.segment = .other
  held : w.few → ∀ pu ∈ w.issued, pu.1.segment = .other → w.now < pu.2 →
    ∃ t, w.monitor.throttleOf pu.1 = some t ∧ pu.2 ≤ t.endsAt
  sorted : ∀ key, (w.now :: w.signals key).Pairwise fun later earlier => earlier ≤ later
  counted : ∀ q k l, (w.monitor.tracked q.segment).windows.get? (q, k) = some l →
    l.reverse <+: w.signals (q, k)

theorem few_mono {w' : Watch} (hsub : ∀ q ∈ w.seen, q ∈ w'.seen) (h : w'.few) : w.few := by
  apply le_trans _ h
  apply List.Subperm.length_le
  apply List.subperm_of_subset (List.nodup_dedup _)
  intro q hq
  rw [List.mem_dedup, List.mem_filter] at hq ⊢
  exact ⟨hsub q hq.1, hq.2⟩

theorem length_le_of_few {d : Dict Principal Throttle} (h : w.few)
    (hknown : ∀ q t, d.get? q = some t → q ∈ w.seen ∧ q.segment = .other) :
    d.items.length ≤ Segment.other.cap := by
  apply le_trans _ h
  rw [← List.length_map (f := Prod.fst)]
  apply List.Subperm.length_le
  apply List.subperm_of_subset d.nodup
  intro q hq
  obtain ⟨t, ht⟩ := Option.isSome_iff_exists.mp (Dict.isSome_get?.mpr hq)
  rw [List.mem_dedup, List.mem_filter, decide_eq_true_eq]
  exact hknown q t ht

section Observe

theorem throttleOf_observe {t : Throttle}
    (ht : (w.monitor.observe cfg r signal p).monitor.throttleOf q = some t) :
    w.monitor.throttleOf q = some t ∨
      q = p ∧ w.monitor.throttlesOn cfg r.now signal p = true ∧
        ∃ policy, t = w.monitor.newThrottle policy r.now p := by
  obtain ⟨-, hsame, -⟩ | ⟨hon, policy, -, -, hthrottles, -⟩ :=
    observe_throttles cfg w.monitor r signal p
  · rw [throttleOf_unmoved hsame] at ht
    exact .inl ht
  · have hget := throttleOf_response hthrottles ht
    split_ifs at hget with hq
    · exact .inr ⟨hq, hon, policy, hget⟩
    · exact .inl hget

theorem Inv.turn_observe (h : Inv w) (hclock : w.now ≤ r.now)
    (hok : NotPutOff cfg w (.observe r signal p)) {t : Throttle} (hq : q.kind = .lanPeer)
    (ht : (w.monitor.observe cfg r signal p).monitor.throttleOf q = some t)
    (hrun : r.now < t.endsAt) : ∃ c rest,
      (w.afterObserve r signal p (w.monitor.observe cfg r signal p)).chances q = c :: rest ∧
        t.nextAttempt = c + lanRetryInterval := by
  simp only [afterObserve, ht, reduceCtorEq, if_false]
  rcases throttleOf_observe ht with hold | ⟨rfl, hon, policy, rfl⟩
  · have hnot : w.begins (w.monitor.observe cfg r signal p).monitor r.now q = false := by
      unfold begins
      rw [ht, hold, decide_eq_false (not_not.mpr rfl), Bool.false_and]
    rw [hnot]
    exact h.turn q t hq hold (lt_of_le_of_lt hclock hrun)
  · by_cases hrunning : w.monitor.throttled r.now q = true
    · -- the response did not put the next attempt off, so its last chance is this moment
      obtain ⟨t₀, ht₀, hrun₀⟩ := throttled_iff.mp hrunning
      obtain ⟨c, rest, hc, hnext⟩ := h.turn q t₀ hq ht₀ (lt_of_le_of_lt hclock hrun₀)
      have hput := hok hq hon t₀ ht₀ hrun₀
      have hpast := h.past q c (by rw [hc]; exact List.mem_cons_self)
      have hnow : c = r.now := by linarith
      have hnot : w.begins (w.monitor.observe cfg r signal q).monitor r.now q = false := by
        unfold begins
        rw [hrunning, Bool.not_true, Bool.and_false]
      rw [hnot]
      exact ⟨c, rest, hc, by rw [hnow]; rfl⟩
    · have hbegins : w.begins (w.monitor.observe cfg r signal q).monitor r.now q = true := by
        unfold begins
        rw [Bool.eq_false_of_not_eq_true hrunning, Bool.not_false, Bool.and_true, decide_eq_true_eq,
          ht]
        intro hsame
        exact hrunning (throttled_iff.mpr ⟨_, hsame.symm, hrun⟩)
      rw [hbegins]
      exact ⟨r.now, [], rfl, rfl⟩

theorem chances_observe (o : Outcome Decision) : (w.afterObserve r signal p o).chances q = [] ∨
    (w.afterObserve r signal p o).chances q = [r.now] ∨
    (w.afterObserve r signal p o).chances q = w.chances q := by
  unfold afterObserve
  dsimp only
  split_ifs
  · exact .inl rfl
  · exact .inr (.inl rfl)
  · exact .inr (.inr rfl)

theorem mem_told {d : Except MonitorError Decision} {pu : Principal × Seconds} :
    pu ∈ told d ↔ ∃ e, d = .ok e ∧ e.response = .throttle ∧ e.throttledUntil = some pu.2 ∧
      e.principal = pu.1 := by
  unfold told
  cases d with
  | error e => simp
  | ok e =>
    dsimp only
    split_ifs with hr
    · rw [Option.mem_toList, Option.map_eq_some_iff]
      constructor
      · rintro ⟨u, hu, rfl⟩
        exact ⟨e, rfl, hr, hu, rfl⟩
      · rintro ⟨e', he, -, hu, hp⟩
        cases he
        exact ⟨pu.2, hu, by rw [hp]⟩
    · constructor
      · exact fun hmem => by cases hmem
      · rintro ⟨e', he, hr', -⟩
        cases he
        exact absurd hr' hr

/-- A throttle said is in the table, and a new one runs at least as long as it says and as the one
before it. -/
theorem endsAt_observe {pu : Principal × Seconds} {t : Throttle}
    (hmem : pu ∈ Watch.told (w.monitor.observe cfg r signal p).result ∨
      ∃ t₀, w.monitor.throttleOf pu.1 = some t₀ ∧ pu.2 ≤ t₀.endsAt)
    (ht : (w.monitor.observe cfg r signal p).monitor.throttleOf pu.1 = some t) :
    pu.2 ≤ t.endsAt := by
  obtain ⟨-, hsame, hnot⟩ | ⟨-, policy, -, -, hthrottles, hsaid⟩ :=
    observe_throttles cfg w.monitor r signal p
  · rcases hmem with hmem | ⟨t₀, ht₀, hle⟩
    · obtain ⟨e, he, hr, -⟩ := mem_told.mp hmem
      exact absurd hr (hnot e he)
    · rw [throttleOf_unmoved hsame, ht₀, Option.some.injEq] at ht
      exact ht ▸ hle
  · have hget := throttleOf_response hthrottles ht
    rcases hmem with hmem | ⟨t₀, ht₀, hle⟩
    · obtain ⟨e, he, -, hu, hp⟩ := mem_told.mp hmem
      obtain rfl := hsaid e he
      rw [if_pos hp.symm] at hget
      rw [hget, ← Option.some.inj hu]
      exact endsAt_newThrottle
    · split_ifs at hget with hq
      · rw [hget]
        rw [hq] at ht₀
        exact hle.trans (endsAt_le_newThrottle ht₀)
      · rw [ht₀, Option.some.injEq] at hget
        exact hget ▸ hle

theorem known_observe (h : Inv w) {t : Throttle}
    (ht : ((w.monitor.observe cfg r signal p).monitor.tracked .other).throttles.get? q = some t) :
    q ∈ p :: w.seen ∧ q.segment = .other := by
  have hold : (w.monitor.tracked .other).throttles.get? q = some t →
      q ∈ p :: w.seen ∧ q.segment = .other := by
    intro hget
    obtain ⟨hseen, hseg⟩ := h.known q t hget
    exact ⟨List.mem_cons_of_mem _ hseen, hseg⟩
  obtain ⟨-, hsame, -⟩ | ⟨-, policy, -, -, hthrottles, -⟩ :=
    observe_throttles cfg w.monitor r signal p
  · rw [hsame] at ht
    exact hold ht
  · by_cases hs : p.segment = .other
    · rw [hs] at hthrottles
      rw [hthrottles] at ht
      have hget := get?_boundThrottles ht
      rw [get?_withThrottle] at hget
      split_ifs at hget with hq
      · rw [hq]
        exact ⟨List.mem_cons_self, hs⟩
      · rw [hs] at hget
        exact hold hget
    · rw [tracked_observe_ne (Ne.symm hs)] at ht
      exact hold ht

/-- While few principals were seen, nobody's throttle is forgiven but a LAN address's. -/
theorem stays_observe (h : Inv w)
    (hfew : (w.afterObserve r signal p (w.monitor.observe cfg r signal p)).few)
    (hq : q.segment = .other)
    (hthere : (w.monitor.throttleOf q).isSome ∨
      ∃ e, (w.monitor.observe cfg r signal p).result = .ok e ∧ e.response = .throttle ∧
        e.principal = q) :
    ((w.monitor.observe cfg r signal p).monitor.throttleOf q).isSome := by
  obtain ⟨-, hsame, hnot⟩ | ⟨-, policy, -, -, hthrottles, hsaid⟩ :=
    observe_throttles cfg w.monitor r signal p
  · rw [throttleOf_unmoved hsame]
    rcases hthere with hold | ⟨e, he, hr, -⟩
    · exact hold
    · exact absurd hr (hnot e he)
  have hthere' : q = p ∨ (w.monitor.throttleOf q).isSome := by
    rcases hthere with hold | ⟨e, he, -, hp⟩
    · exact .inr hold
    · obtain rfl := hsaid e he
      exact .inl hp.symm
  by_cases hs : p.segment = .other
  · have hfits : (w.monitor.withThrottle policy r.now p).items.length ≤ p.segment.cap := by
      rw [hs]
      apply length_le_of_few hfew
      intro q' t ht
      rw [get?_withThrottle] at ht
      split_ifs at ht with hq'
      · rw [hq']
        exact ⟨List.mem_cons_self, hs⟩
      · rw [hs] at ht
        obtain ⟨hseen, hseg⟩ := h.known q' t ht
        exact ⟨List.mem_cons_of_mem _ hseen, hseg⟩
    rw [boundThrottles_fits hfits] at hthrottles
    unfold throttleOf
    rw [hq, ← hs, hthrottles, get?_withThrottle]
    split_ifs with hqp
    · rfl
    · have hsome := hthere'.resolve_left hqp
      unfold throttleOf at hsome
      rwa [hq, ← hs] at hsome
  · have hqp : q ≠ p := fun hqp => hs (hqp ▸ hq)
    have hne : q.segment ≠ p.segment := fun hseg => hs (hseg.symm.trans hq)
    unfold throttleOf
    rw [tracked_observe_ne hne]
    exact hthere'.resolve_left hqp

theorem Inv.kept (h : Inv w) (p : Principal) (signal : SignalKind) :
    (((w.monitor.tracked p.segment).windows.get? (p, signal)).getD []).reverse <+:
      w.signals (p, signal) := by
  cases hget : (w.monitor.tracked p.segment).windows.get? (p, signal) with
  | none => exact List.nil_prefix
  | some l => exact h.counted p signal l hget

theorem window_prefix (h : Inv w) {policy : Policy} :
    (w.monitor.window policy r.now signal p).reverse <+: r.now :: w.signals (p, signal) := by
  have hprefix := h.kept p signal
  unfold window pushBounded
  generalize ((w.monitor.tracked p.segment).windows.get? (p, signal)).getD [] = old at hprefix ⊢
  have hkept : (old.dropWhile fun t => policy.window < r.now - t).reverse <+:
      w.signals (p, signal) :=
    (List.reverse_prefix.mpr (List.dropWhile_suffix _)).trans hprefix
  apply (List.reverse_prefix.mpr (List.drop_suffix _ _)).trans
  rw [List.reverse_append]
  exact List.prefix_cons_inj _ |>.mpr hkept

theorem counted_cases (now : Seconds) (old : List Seconds) (d : Except MonitorError Decision) :
    Watch.counted now old d = [] ∨ Watch.counted now old d = old ∨
      Watch.counted now old d = now :: old := by
  unfold Watch.counted
  split
  · split_ifs
    · exact .inr (.inr rfl)
    · exact .inl rfl
  · exact .inr (.inl rfl)
  · exact .inr (.inr rfl)

theorem Inv.counted_observe (h : Inv w) {k : SignalKind} {l : List Seconds}
    (hl : ((w.monitor.observe cfg r signal p).monitor.tracked q.segment).windows.get? (q, k) =
      some l) :
    l.reverse <+:
      (w.afterObserve r signal p (w.monitor.observe cfg r signal p)).signals (q, k) := by
  change l.reverse <+: Function.update w.signals (p, signal)
    (Watch.counted r.now (w.signals (p, signal)) (w.monitor.observe cfg r signal p).result) (q, k)
  obtain ⟨message, heq⟩ | ⟨policy, -, hwindows, hreject⟩ := observe_windows cfg w.monitor r signal p
  · rw [heq] at hl ⊢
    have hsame : Function.update w.signals (p, signal)
        (Watch.counted r.now (w.signals (p, signal)) (.error (.refused message))) = w.signals :=
      Function.update_eq_self _ _
    rw [hsame]
    exact h.counted q k l hl
  · have hget := hwindows q k l hl
    by_cases hkey : (q, k) = (p, signal)
    · rw [if_pos hkey] at hget
      rw [hkey, Function.update_self, hget]
      split_ifs with hreached
      · exact List.nil_prefix
      · rw [hreject (Nat.lt_of_not_le hreached)]
        exact window_prefix h
    · rw [if_neg hkey] at hget
      rw [Function.update_of_ne hkey]
      exact h.counted q k l hget

theorem Inv.observe (h : Inv w) (hclock : w.now ≤ r.now)
    (hok : NotPutOff cfg w (.observe r signal p)) :
    Inv (w.afterObserve r signal p (w.monitor.observe cfg r signal p)) := by
  constructor
  · exact fun q t hq ht hrun => h.turn_observe hclock hok hq ht hrun
  · intro q hq
    rcases chances_observe (w.monitor.observe cfg r signal p) with heq | heq | heq
    · rw [heq]
      exact List.isChain_nil
    · rw [heq]
      exact List.isChain_singleton _
    · rw [heq]
      exact h.apart q hq
  · intro q c hc
    change c ≤ r.now
    rcases chances_observe (w.monitor.observe cfg r signal p) with heq | heq | heq
    · rw [heq] at hc
      cases hc
    · rw [heq] at hc
      exact (List.mem_singleton.mp hc).le
    · rw [heq] at hc
      exact (h.past q c hc).trans hclock
  · intro pu hpu hlan
    obtain ⟨hmem, hstands⟩ := List.mem_filter.mp hpu
    have hsome : ((w.monitor.observe cfg r signal p).monitor.throttleOf pu.1).isSome := by
      unfold stands at hstands
      rw [decide_eq_false (not_not.mpr hlan), Bool.false_or] at hstands
      exact hstands
    obtain ⟨t, ht⟩ := Option.isSome_iff_exists.mp hsome
    refine ⟨t, ht, fun hlt => ?_⟩
    have hlt' : r.now < pu.2 := hlt
    rcases List.mem_append.mp hmem with hnew | hold
    · exact endsAt_observe (.inl hnew) ht
    · obtain ⟨t₀, ht₀, hle⟩ := h.told pu hold hlan
      exact endsAt_observe (.inr ⟨t₀, ht₀, hle (lt_of_le_of_lt hclock hlt')⟩) ht
  · exact fun q t ht => known_observe h ht
  · intro hfew pu hpu hseg hlt
    have hlt' : r.now < pu.2 := hlt
    obtain ⟨hmem, -⟩ := List.mem_filter.mp hpu
    have hcause : pu ∈ Watch.told (w.monitor.observe cfg r signal p).result ∨
        ∃ t₀, w.monitor.throttleOf pu.1 = some t₀ ∧ pu.2 ≤ t₀.endsAt := by
      rcases List.mem_append.mp hmem with hnew | hold
      · exact .inl hnew
      · have hfew₀ : w.few := few_mono (fun _ hs => List.mem_cons_of_mem _ hs) hfew
        exact .inr (h.held hfew₀ pu hold hseg (lt_of_le_of_lt hclock hlt'))
    have hthere : ((w.monitor.observe cfg r signal p).monitor.throttleOf pu.1).isSome := by
      apply stays_observe h hfew hseg
      rcases hcause with hnew | ⟨t₀, ht₀, -⟩
      · obtain ⟨e, he, hr, -, hp⟩ := mem_told.mp hnew
        exact .inr ⟨e, he, hr, hp⟩
      · exact .inl (Option.isSome_iff_exists.mpr ⟨t₀, ht₀⟩)
    obtain ⟨t, ht⟩ := Option.isSome_iff_exists.mp hthere
    exact ⟨t, ht, endsAt_observe hcause ht⟩
  · intro key
    change (r.now :: Function.update w.signals (p, signal) (Watch.counted r.now (w.signals (p, signal))
      (w.monitor.observe cfg r signal p).result) key).Pairwise _
    have hlater : ∀ key, (r.now :: w.signals key).Pairwise fun later earlier => earlier ≤ later := by
      intro key
      obtain ⟨hnow, hrest⟩ := List.pairwise_cons.mp (h.sorted key)
      exact List.pairwise_cons.mpr ⟨fun t ht => (hnow t ht).trans hclock, hrest⟩
    by_cases hkey : key = (p, signal)
    · rw [hkey, Function.update_self]
      rcases counted_cases r.now (w.signals (p, signal))
        (w.monitor.observe cfg r signal p).result with heq | heq | heq
      · rw [heq]
        exact List.pairwise_singleton _ _
      · rw [heq]
        exact hlater _
      · rw [heq, List.pairwise_cons]
        refine ⟨?_, hlater _⟩
        intro t ht
        rcases List.mem_cons.mp ht with rfl | ht
        · exact le_rfl
        · exact (List.pairwise_cons.mp (hlater _)).1 t ht
    · rw [Function.update_of_ne hkey]
      exact hlater key
  · exact fun q k l hl => h.counted_observe hl

end Observe

section Admit

theorem throttleOf_admit {t : Throttle}
    (ht : (w.monitor.admitPrincipal now p).1.throttleOf q = some t) :
    (w.monitor.throttleOf q = some t ∧ (q = p → (w.monitor.admitPrincipal now p).2 = false)) ∨
    (q = p ∧ p.kind = .lanPeer ∧ (w.monitor.admitPrincipal now p).2 = true ∧
      ∃ t₀, w.monitor.throttleOf p = some t₀ ∧ now < t₀.endsAt ∧ t₀.nextAttempt ≤ now ∧
        t = { t₀ with nextAttempt := now + lanRetryInterval }) := by
  cases hp : w.monitor.throttleOf p with
  | none =>
    rw [admitPrincipal_none hp] at ht
    refine .inl ⟨ht, ?_⟩
    rintro rfl
    rw [show w.monitor.throttleOf q = some t from ht] at hp
    cases hp
  | some t₀ =>
    by_cases hover : t₀.endsAt ≤ now
    · rw [(admitPrincipal_over hp hover).2] at ht
      split_ifs at ht with hq
      exact .inl ⟨ht, fun h => absurd h hq⟩
    · rcases admitPrincipal_running hp (not_le.mp hover) with
        ⟨hlan, hturn, hyes, htable⟩ | ⟨-, hno⟩
      · rw [htable] at ht
        split_ifs at ht with hq
        · exact .inr ⟨hq, hlan, hyes, t₀, rfl, not_le.mp hover, hturn, (Option.some.inj ht).symm⟩
        · exact .inl ⟨ht, fun h => absurd h hq⟩
      · rw [hno] at ht ⊢
        exact .inl ⟨ht, fun _ => rfl⟩

theorem stays_admit {t : Throttle} (ht : w.monitor.throttleOf q = some t) (hrun : now < t.endsAt) :
    ∃ t', (w.monitor.admitPrincipal now p).1.throttleOf q = some t' ∧ t'.endsAt = t.endsAt := by
  cases hp : w.monitor.throttleOf p with
  | none =>
    rw [admitPrincipal_none hp]
    exact ⟨t, ht, rfl⟩
  | some t₀ =>
    have hsame : q = p → t = t₀ := by
      rintro rfl
      rw [ht, Option.some.injEq] at hp
      exact hp
    by_cases hover : t₀.endsAt ≤ now
    · have hq : q ≠ p := fun h => not_le.mpr hrun (hsame h ▸ hover)
      rw [(admitPrincipal_over hp hover).2, if_neg hq]
      exact ⟨t, ht, rfl⟩
    · rcases admitPrincipal_running hp (not_le.mp hover) with ⟨-, -, -, htable⟩ | ⟨-, hno⟩
      · rw [htable]
        split_ifs with hq
        · exact ⟨_, rfl, by rw [hsame hq]⟩
        · exact ⟨t, ht, rfl⟩
      · rw [hno]
        exact ⟨t, ht, rfl⟩

theorem Inv.turn_admit (h : Inv w) (hclock : w.now ≤ now) {t : Throttle} (hq : q.kind = .lanPeer)
    (ht : (w.monitor.admitPrincipal now p).1.throttleOf q = some t) (hrun : now < t.endsAt) :
    ∃ c rest, (w.afterAdmit now p (w.monitor.admitPrincipal now p)).chances q = c :: rest ∧
      t.nextAttempt = c + lanRetryInterval := by
  simp only [afterAdmit, ht, reduceCtorEq, if_false]
  rcases throttleOf_admit ht with ⟨hold, hno⟩ | ⟨rfl, -, hyes, t₀, -, -, -, rfl⟩
  · rw [if_neg fun hand => by rw [hno hand.1] at hand; cases hand.2]
    exact h.turn q t hq hold (lt_of_le_of_lt hclock hrun)
  · rw [if_pos ⟨rfl, hyes⟩]
    exact ⟨now, _, rfl, rfl⟩

theorem Inv.apart_admit (h : Inv w) (hclock : w.now ≤ now) (hq : q.kind = .lanPeer) :
    ((w.afterAdmit now p (w.monitor.admitPrincipal now p)).chances q).IsChain
      fun later earlier => earlier + lanRetryInterval ≤ later := by
  unfold afterAdmit
  dsimp only
  split_ifs with hnone hyes
  · exact List.isChain_nil
  · obtain ⟨t, ht⟩ := Option.ne_none_iff_exists'.mp hnone
    rcases throttleOf_admit ht with ⟨-, hno⟩ | ⟨rfl, -, -, t₀, ht₀, hrun₀, hturn, -⟩
    · rw [hno hyes.1] at hyes
      cases hyes.2
    · obtain ⟨c, rest, hc, hnext⟩ := h.turn q t₀ hq ht₀ (lt_of_le_of_lt hclock hrun₀)
      have hchain := h.apart q hq
      rw [hc] at hchain ⊢
      exact List.isChain_cons_cons.mpr ⟨by linarith, hchain⟩
  · exact h.apart q hq

theorem Inv.attempt (h : Inv w) (hclock : w.now ≤ now) :
    Inv (w.afterAdmit now p (w.monitor.admitPrincipal now p)) := by
  constructor
  · exact fun q t hq ht hrun => h.turn_admit hclock hq ht hrun
  · exact fun q hq => h.apart_admit hclock hq
  · intro q c hc
    unfold afterAdmit at hc ⊢
    dsimp only at hc ⊢
    split_ifs at hc
    · cases hc
    · rcases List.mem_cons.mp hc with rfl | hc
      · exact le_rfl
      · exact (h.past q c hc).trans hclock
    · exact (h.past q c hc).trans hclock
  · intro pu hpu hlan
    obtain ⟨hmem, hstands⟩ := List.mem_filter.mp hpu
    unfold stands at hstands
    rw [decide_eq_false (not_not.mpr hlan), Bool.false_or] at hstands
    obtain ⟨t, ht⟩ := Option.isSome_iff_exists.mp hstands
    obtain ⟨t₀, ht₀, hle⟩ := h.told pu hmem hlan
    refine ⟨t, ht, fun hlt => ?_⟩
    have hlt' : now < pu.2 := hlt
    have hends := hle (lt_of_le_of_lt hclock hlt')
    obtain ⟨t', ht', heq⟩ := stays_admit (p := p) ht₀ (lt_of_lt_of_le hlt' hends)
    rw [show (w.monitor.admitPrincipal now p).1.throttleOf pu.1 = some t' from ht',
      Option.some.injEq] at ht
    rw [← ht, heq]
    exact hends
  · intro q t ht
    obtain ⟨t₀, ht₀⟩ := Option.isSome_iff_exists.mp (admitPrincipal_keys ht)
    exact h.known q t₀ ht₀
  · intro hfew pu hpu hseg hlt
    have hlt' : now < pu.2 := hlt
    obtain ⟨t, ht, hle⟩ := h.held hfew pu (List.mem_filter.mp hpu).1 hseg (lt_of_le_of_lt hclock hlt')
    obtain ⟨t', ht', heq⟩ := stays_admit (p := p) ht (lt_of_lt_of_le hlt' hle)
    exact ⟨t', ht', heq ▸ hle⟩
  · intro key
    obtain ⟨hnow, hrest⟩ := List.pairwise_cons.mp (h.sorted key)
    exact List.pairwise_cons.mpr ⟨fun t ht => (hnow t ht).trans hclock, hrest⟩
  · intro q k l hl
    rw [show ((w.afterAdmit now p (w.monitor.admitPrincipal now p)).monitor.tracked q.segment).windows =
      (w.monitor.tracked q.segment).windows from admitPrincipal_windows q.segment] at hl
    exact h.counted q k l hl

end Admit

theorem reach_inv (hr : (watchedMonitor cfg).Reach (NotPutOff cfg) w) : Inv w := by
  induction hr with
  | @start w h0 =>
    obtain ⟨htracked, hissued, hseen, hsignals, hchances⟩ := h0
    have hnone : ∀ q, w.monitor.throttleOf q = none := by
      intro q
      unfold throttleOf
      rw [htracked]
      rfl
    constructor
    · intro q t _ ht
      rw [hnone] at ht
      cases ht
    · intro q _
      rw [hchances]
      exact List.isChain_nil
    · intro q c hc
      rw [hchances] at hc
      cases hc
    · rw [hissued]
      exact fun pu hpu => by cases hpu
    · intro q t ht
      rw [htracked] at ht
      cases ht
    · rw [hissued]
      exact fun _ pu hpu => by cases hpu
    · intro key
      rw [hsignals]
      exact List.pairwise_singleton _ _
    · intro q k l hl
      rw [htracked] at hl
      cases hl
  | @step w w' a _ hok hstep ih =>
    cases a with
    | observe r signal p =>
      change (if w.now ≤ r.now then some _ else none) = some w' at hstep
      split_ifs at hstep with hclock
      cases hstep
      exact ih.observe hclock hok
    | attempt now p =>
      change (if w.now ≤ now then some _ else none) = some w' at hstep
      split_ifs at hstep with hclock
      cases hstep
      exact ih.attempt hclock

/-- What a window holds of the signals before this one came within `window` seconds of it. -/
theorem mem_dropWhile_within {window now : Seconds} {l : List Seconds}
    (hsorted : l.Pairwise fun earlier later => earlier ≤ later) :
    ∀ t ∈ l.dropWhile (fun t => window < now - t), now - t ≤ window := by
  induction l with
  | nil => exact fun t ht => by cases ht
  | cons a l ih =>
    obtain ⟨hfirst, hrest⟩ := List.pairwise_cons.mp hsorted
    by_cases ha : window < now - a
    · rw [List.dropWhile_cons, if_pos (decide_eq_true ha)]
      exact ih hrest
    · rw [List.dropWhile_cons, if_neg (by simpa using ha)]
      intro t ht
      rcases List.mem_cons.mp ht with rfl | ht
      · exact not_lt.mp ha
      · linarith [hfirst t ht]

theorem recent_of_full (h : Inv w) {policy : Policy}
    (hfull : policy.threshold ≤ (w.monitor.window policy r.now signal p).length) :
    policy.threshold - 1 ≤ (w.signals (p, signal)).length ∧
      ∀ t ∈ (w.signals (p, signal)).take (policy.threshold - 1), r.now - t ≤ policy.window := by
  have hprefix := h.kept p signal
  unfold window pushBounded at hfull
  generalize ((w.monitor.tracked p.segment).windows.get? (p, signal)).getD [] = old at hfull hprefix
  change policy.threshold ≤ ((old.dropWhile (fun t => decide (policy.window < r.now - t)) ++
    [r.now]).drop _).length at hfull
  have hsorted : old.Pairwise fun earlier later => earlier ≤ later :=
    List.pairwise_reverse.mp ((List.pairwise_cons.mp (h.sorted (p, signal))).2.sublist
      hprefix.sublist)
  have hwithin := @mem_dropWhile_within policy.window r.now old hsorted
  obtain ⟨rest, hsignals⟩ := (List.reverse_prefix.mpr (List.dropWhile_suffix
    fun t => decide (policy.window < r.now - t))).trans hprefix
  generalize old.dropWhile (fun t => decide (policy.window < r.now - t)) = recent at *
  have hlength : policy.threshold - 1 ≤ recent.reverse.length := by
    rw [List.length_drop, List.length_append, List.length_singleton] at hfull
    rw [List.length_reverse]
    omega
  rw [← hsignals]
  constructor
  · rw [List.length_append]
    omega
  · rw [List.take_append_of_le_length hlength]
    exact fun t ht => hwithin t (List.mem_reverse.mp (List.mem_of_mem_take ht))

/-- The interval has passed since every chance when it has passed since the last. -/
theorem Inv.forall_chances (h : Inv w) (hq : q.kind = .lanPeer) {c : Seconds} {rest : List Seconds}
    (hc : w.chances q = c :: rest) (t : Seconds) :
    (∀ c' ∈ w.chances q, c' + lanRetryInterval ≤ t) ↔ c + lanRetryInterval ≤ t := by
  constructor
  · exact fun hall => hall c (by rw [hc]; exact List.mem_cons_self)
  · intro hlast c' hc'
    have hchain := (h.apart q hq).imp (S := fun later earlier : Seconds => earlier ≤ later)
      fun later earlier hle => le_trans (le_add_of_nonneg_right (by norm_num [lanRetryInterval])) hle
    have : IsTrans Seconds fun later earlier => earlier ≤ later := ⟨fun _ _ _ h h' => h'.trans h⟩
    have hpair := List.isChain_iff_pairwise.mp hchain
    rw [hc] at hpair hc'
    rcases List.mem_cons.mp hc' with rfl | hmem
    · exact hlast
    · linarith [(List.pairwise_cons.mp hpair).1 c' hmem]

end Watch

/-- In runs where no response puts off a LAN address's next attempt: a throttle holds until the time
that was said; a LAN address gets one attempt for each interval, no less and no more; and a throttle
is said only when the last signals of its window are recent. -/
theorem lasts_as_said (cfg : MonitorConfig) : ∀ w, (watchedMonitor cfg).Reach (NotPutOff cfg) w →
    (w.few → ∀ pu ∈ w.issued, pu.1.kind ≠ .lanPeer → ∀ t, w.now ≤ t → t < pu.2 →
      (w.monitor.admitPrincipal t pu.1).2 = false) ∧
    (∀ pu ∈ w.issued, pu.1.kind = .lanPeer → ∀ t, w.now ≤ t → t < pu.2 →
      ((w.monitor.admitPrincipal t pu.1).2 = true ↔
        ∀ c ∈ w.chances pu.1, c + lanRetryInterval ≤ t)) ∧
    (∀ p, p.kind = .lanPeer →
      (w.chances p).IsChain fun later earlier => earlier + lanRetryInterval ≤ later) ∧
    ∀ r signal p d, (w.monitor.observe cfg r signal p).result = .ok d → d.response = .throttle →
      ∃ policy, cfg.policies signal = some policy ∧
        policy.threshold - 1 ≤ (w.signals (p, signal)).length ∧
        ∀ t ∈ (w.signals (p, signal)).take (policy.threshold - 1), r.now - t ≤ policy.window := by
  intro w hr
  have hinv := Watch.reach_inv hr
  refine ⟨?_, ?_, hinv.apart, ?_⟩
  · intro hfew pu hpu hkind t hnow hlt
    have hseg : pu.1.segment = .other := by
      rw [Principal.segment, if_neg hkind]
    obtain ⟨th, hth, hle⟩ := hinv.held hfew pu hpu hseg (lt_of_le_of_lt hnow hlt)
    rcases SecurityMonitor.admitPrincipal_running (p := pu.1) hth (lt_of_lt_of_le hlt hle) with ⟨hlan, -⟩ | ⟨-, hno⟩
    · exact absurd hlan hkind
    · rw [hno]
  · intro pu hpu hlan t hnow hlt
    obtain ⟨th, hth, hle⟩ := hinv.told pu hpu hlan
    have hends := hle (lt_of_le_of_lt hnow hlt)
    obtain ⟨c, rest, hc, hnext⟩ := hinv.turn pu.1 th hlan hth
      (lt_of_lt_of_le (lt_of_le_of_lt hnow hlt) hends)
    rw [hinv.forall_chances hlan hc, ← hnext]
    rcases SecurityMonitor.admitPrincipal_running (p := pu.1) hth (lt_of_lt_of_le hlt hends) with
      ⟨-, hturn, hyes, -⟩ | ⟨hnot, hno⟩
    · exact iff_of_true hyes hturn
    · rw [hno]
      exact iff_of_false Bool.false_ne_true fun hturn => hnot ⟨hlan, hturn⟩
  · intro r signal p d hd hthrottle
    obtain ⟨-, -, hnot⟩ | ⟨-, policy, hp, hfull, -, -⟩ :=
      SecurityMonitor.observe_throttles cfg w.monitor r signal p
    · exact absurd hthrottle (hnot d hd)
    · exact ⟨policy, hp, Watch.recent_of_full hinv hfull⟩

section Samples

def quietMonitor : SecurityMonitor :=
  ⟨fun _ => ⟨.empty, .empty⟩, false, [], false, [], [], [], fun _ => [], true⟩

def watchStart : Watch := ⟨quietMonitor, 0, [], [], fun _ => [], fun _ => []⟩

def productConfig : MonitorConfig := ⟨defaultPolicies, false⟩

def phoneAddress : Principal := ⟨.lanPeer, py "a", []⟩

def failedHandshakes (now : Seconds) (p : Principal) : List WatchOp :=
  List.replicate 10 (.observe ⟨now, now, true⟩ .handshakeFailed p)

def freshSignal (w : Watch) : WatchOp → Bool
  | .observe _ _ p => p.kind ≠ .lanPeer || w.monitor.throttleOf p = none
  | .attempt _ _ => true

theorem notPutOff_of_fresh {cfg : MonitorConfig} (w : Watch) (a : WatchOp)
    (h : freshSignal w a = true) : NotPutOff cfg w a := by
  cases a with
  | observe r signal p =>
    intro hlan _ t ht
    rcases Bool.or_eq_true_iff.mp h with hkind | hnone
    · exact absurd hlan (of_decide_eq_true hkind)
    · rw [of_decide_eq_true hnone] at ht
      cases ht
  | attempt now p => trivial

theorem lasts_as_said_sample : ∃ w, (watchedMonitor productConfig).Reach (NotPutOff productConfig) w ∧
    (w.monitor.admitPrincipal 299 Principal.relay).2 = false ∧
      (w.monitor.admitPrincipal 5 phoneAddress).2 = true := by
  have hrun : ((watchedMonitor productConfig).execChecked freshSignal watchStart
      (failedHandshakes 0 Principal.relay ++ failedHandshakes 0 phoneAddress)).any (fun w =>
        decide (w.seen.dedup.length = 2 ∧ (Principal.relay, 300) ∈ w.issued ∧
          (phoneAddress, 300) ∈ w.issued ∧ w.now = 0 ∧ w.chances phoneAddress = [0])) = true := by
    decide +kernel
  obtain ⟨w, hw, h⟩ := (Option.any_eq_true _ _).mp hrun
  obtain ⟨hseen, hrelay, hphone, hnow, hchances⟩ := of_decide_eq_true h
  have hreach : (watchedMonitor productConfig).Reach (NotPutOff productConfig) w :=
    Machine.Reach.execChecked notPutOff_of_fresh (.start ⟨rfl, rfl, rfl, rfl, rfl⟩) hw
  obtain ⟨hheld, hlan, -⟩ := lasts_as_said productConfig w hreach
  have hfew : w.few := by
    apply le_trans (b := w.seen.dedup.length)
    · apply List.Subperm.length_le
      apply List.subperm_of_subset (List.nodup_dedup _)
      intro q hq
      exact List.mem_dedup.mpr (List.mem_of_mem_filter (List.mem_dedup.mp hq))
    · rw [hseen]
      decide
  refine ⟨w, hreach, ?_, ?_⟩
  · apply hheld hfew _ hrelay (by simp [Principal.relay]) 299 <;> norm_num [hnow]
  · apply (hlan _ hphone rfl 5 (by norm_num [hnow]) (by norm_num)).mpr
    intro c hc
    rw [hchances] at hc
    cases List.mem_singleton.mp hc
    norm_num [lanRetryInterval]

/-- Ten failed handshakes just before the next attempt is due put it off again. -/
theorem put_off_again : ∃ w, (watchedMonitor productConfig).Reachable w ∧
    (phoneAddress, 300) ∈ w.issued ∧ w.now = 4 ∧ w.chances phoneAddress = [0] ∧
      (w.monitor.admitPrincipal 5 phoneAddress).2 = false := by
  have hrun : ((watchedMonitor productConfig).exec watchStart
      (failedHandshakes 0 phoneAddress ++ failedHandshakes 4 phoneAddress)).any (fun w =>
        decide ((phoneAddress, 300) ∈ w.issued ∧ w.now = 4 ∧ w.chances phoneAddress = [0] ∧
          (w.monitor.admitPrincipal 5 phoneAddress).2 = false)) = true := by
    decide +kernel
  obtain ⟨w, hw, h⟩ := (Option.any_eq_true _ _).mp hrun
  exact ⟨w, Machine.reachable_exec ⟨rfl, rfl, rfl, rfl, rfl⟩ hw, of_decide_eq_true h⟩

end Samples

end QronosAgent.Security

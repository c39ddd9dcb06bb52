import QronosAgent.Lib.Transducer
import QronosAgent.Security.Effects

/-! Nothing a LAN address does shows in the answers about anybody else: LAN signals touch the LAN
tables only, and no policy contains on them. -/
namespace QronosAgent.Security
open Lib

namespace SecurityMonitor

def Agree (segment : Segment) (m n : SecurityMonitor) : Prop :=
  m.tracked segment = n.tracked segment ∧ m.latches = n.latches

structure Alike {α : Type} (segment : Segment) (a b : Outcome α) : Prop where
  result : a.result = b.result
  calls : a.calls = b.calls
  saved : a.saved = b.saved
  monitor : Agree segment a.monitor b.monitor

variable {cfg : MonitorConfig} {m n : SecurityMonitor} {policy : Policy} {r : Reading}
  {signal : SignalKind} {principal : Principal} {segment : Segment}

/-- Monitors that agree differ in the other tables and the log only. -/
theorem Agree.eq_with (h : Agree segment m n) :
    n = { m with tracked := n.tracked, incidents := n.incidents } := by
  obtain ⟨_, hl⟩ := h
  cases m
  cases n
  simp only [latches, Latches.mk.injEq] at hl
  obtain ⟨rfl, rfl, rfl, rfl, rfl, rfl, rfl⟩ := hl
  rfl

theorem Agree.setTracked (h : Agree segment m n) (tracked : Tracked) :
    Agree segment (m.setTracked segment tracked) (n.setTracked segment tracked) :=
  ⟨by simp, h.2⟩

theorem Agree.logged (h : Agree segment m n) (i j : List Incident) :
    Agree segment { m with incidents := i } { n with incidents := j } := h

theorem Agree.count (h : Agree principal.segment m n) (policy : Policy) (signal : SignalKind)
    (now : Seconds) :
    (m.count policy now signal principal).2 = (n.count policy now signal principal).2 ∧
    Agree principal.segment (m.count policy now signal principal).1
      (n.count policy now signal principal).1 := by
  have hw : m.window policy now signal principal = n.window policy now signal principal := by
    rw [window, window, h.1]
  unfold SecurityMonitor.count
  dsimp only
  rw [hw, h.1]
  exact ⟨rfl, h.setTracked _⟩

theorem Agree.throttle (h : Agree principal.segment m n) :
    Alike principal.segment (m.throttle policy r signal principal)
      (n.throttle policy r signal principal) := by
  unfold SecurityMonitor.throttle record
  dsimp only
  rw [h.1]
  by_cases he : principal.describe.Encodable
  · rw [if_pos he, if_pos he]
    exact ⟨rfl, rfl, rfl, (h.setTracked _).logged _ _⟩
  · rw [if_neg he, if_neg he]
    exact ⟨rfl, rfl, rfl, h.setTracked _⟩

theorem Agree.contain (h : Agree segment m n) :
    Alike segment (m.contain cfg r signal principal) (n.contain cfg r signal principal) := by
  have hn := h.eq_with
  obtain ⟨hr, hl, ht⟩ := latch_with cfg m signal principal n.tracked n.incidents r.wall
  have htm := (latch_with cfg m signal principal m.tracked m.incidents r.wall).2.2
  rw [← hn] at hr hl ht
  have hc : (m.contained || m.quarantined) = (n.contained || n.quarantined) := by rw [hn]
  unfold SecurityMonitor.contain
  rw [hc]
  by_cases hlatched : (n.contained || n.quarantined) = true
  · rw [if_pos hlatched, if_pos hlatched]
    exact ⟨rfl, rfl, rfl, h⟩
  · rw [if_neg hlatched, if_neg hlatched]
    generalize m.latch cfg r.wall signal principal = lm at *
    generalize n.latch cfg r.wall signal principal = ln at *
    obtain ⟨m', om⟩ := lm
    obtain ⟨n', on⟩ := ln
    dsimp only at hr hl ht htm
    subst hr
    have hagree : Agree segment m' n' := ⟨by rw [ht, htm, h.1], hl.symm⟩
    cases on with
    | none => exact ⟨rfl, rfl, rfl, hagree⟩
    | some re =>
      dsimp only
      by_cases hd : r.diskTakes = true
      · rw [if_pos hd, if_pos hd]
        exact ⟨rfl, callbacks_of_latches hagree.2 _,
          congrArg some (payload_of_latches hagree.2), hagree⟩
      · rw [if_neg hd, if_neg hd]
        exact ⟨rfl, rfl, rfl, hagree⟩

theorem Agree.observe (h : Agree principal.segment m n) :
    Alike principal.segment (m.observe cfg r signal principal)
      (n.observe cfg r signal principal) := by
  unfold SecurityMonitor.observe
  dsimp only
  cases cfg.policies signal with
  | none => exact ⟨rfl, rfl, rfl, h⟩
  | some policy =>
    dsimp only
    by_cases hk : principal.kind ∈ policy.principals
    · rw [if_pos hk, if_pos hk]
      obtain ⟨hf, hagree⟩ := h.count policy signal r.now
      generalize m.count policy r.now signal principal = cm at *
      generalize n.count policy r.now signal principal = cn at *
      obtain ⟨m', fm⟩ := cm
      obtain ⟨n', fn⟩ := cn
      dsimp only at hf hagree
      subst hf
      cases fm with
      | false => exact ⟨rfl, rfl, rfl, hagree⟩
      | true =>
        dsimp only
        by_cases ht : policy.response = .throttle
        · rw [if_pos ht, if_pos ht]
          exact hagree.throttle
        · rw [if_neg ht, if_neg ht]
          exact hagree.contain
    · rw [if_neg hk, if_neg hk]
      exact ⟨rfl, rfl, rfl, h⟩

theorem Agree.admitPrincipal (h : Agree principal.segment m n) (now : Seconds) :
    (m.admitPrincipal now principal).2 = (n.admitPrincipal now principal).2 ∧
    Agree principal.segment (m.admitPrincipal now principal).1
      (n.admitPrincipal now principal).1 := by
  unfold SecurityMonitor.admitPrincipal
  dsimp only
  rw [h.1]
  cases (n.tracked principal.segment).throttles.get? principal with
  | none => exact ⟨rfl, h⟩
  | some t =>
    dsimp only
    by_cases he : t.endsAt ≤ now
    · rw [if_pos he, if_pos he]
      exact ⟨rfl, h.setTracked _⟩
    · rw [if_neg he, if_neg he]
      by_cases hl : principal.kind = .lanPeer ∧ t.nextAttempt ≤ now
      · rw [if_pos hl, if_pos hl]
        exact ⟨rfl, h.setTracked _⟩
      · rw [if_neg hl, if_neg hl]
        exact ⟨rfl, h⟩

end SecurityMonitor

inductive MonitorCall where
  | observe (signal : SignalKind) (principal : Principal)
  | admitPrincipal (principal : Principal)
  | throttled (principal : Principal)
  | remoteAdmission
  | linkAdmission

def MonitorCall.aboutLan : MonitorCall → Bool
  | observe _ p | admitPrincipal p | throttled p => p.kind = .lanPeer
  | remoteAdmission | linkAdmission => false

inductive Reply where
  | decision (d : Except MonitorError Decision)
  | flag (b : Bool)
  | admission (a : Admission)

/-- What a call returns, the callbacks it calls, and the two latches after it. -/
structure Answer where
  reply : Reply
  calls : List Call
  contained : Bool
  quarantined : Bool

namespace SecurityMonitor

def respond (cfg : MonitorConfig) (m : SecurityMonitor) (a : Reading × MonitorCall) :
    SecurityMonitor × Reply × List Call :=
  match a.2 with
  | .observe signal principal =>
    let o := m.observe cfg a.1 signal principal
    (o.monitor, .decision o.result, o.calls)
  | .admitPrincipal principal =>
    let r := m.admitPrincipal a.1.now principal
    (r.1, .flag r.2, [])
  | .throttled principal => (m, .flag (m.throttled a.1.now principal), [])
  | .remoteAdmission => (m, .admission m.remoteAdmission, [])
  | .linkAdmission => (m, .admission m.linkAdmission, [])

def transducer (cfg : MonitorConfig) :
    Transducer SecurityMonitor (Reading × MonitorCall) Answer where
  step m a :=
    let o := m.respond cfg a
    (o.1, ⟨o.2.1, o.2.2, o.1.contained, o.1.quarantined⟩)

variable {cfg : MonitorConfig} {m n : SecurityMonitor}

def LanOnlyThrottled (policies : Policies) : Prop :=
  ∀ signal policy, policies signal = some policy → .lanPeer ∈ policy.principals →
    policy.response = .throttle

theorem defaultPolicies_lan : LanOnlyThrottled defaultPolicies := by
  intro signal policy hp hk
  cases signal <;> simp only [defaultPolicies, Option.some.injEq] at hp <;> subst hp <;>
    first | rfl | simp at hk

def beyondLan (m : SecurityMonitor) : Tracked × Latches := (m.tracked .other, m.latches)

theorem agree_of_beyondLan (h : m.beyondLan = n.beyondLan) : Agree .other m n :=
  Prod.mk.inj h

theorem Agree.beyondLan (h : Agree .other m n) : m.beyondLan = n.beyondLan :=
  Prod.ext h.1 h.2

theorem respond_lan (hpol : LanOnlyThrottled cfg.policies) {a : Reading × MonitorCall}
    (ha : a.2.aboutLan = true) : (m.respond cfg a).1.beyondLan = m.beyondLan := by
  obtain ⟨r, call⟩ := a
  have hseg : ∀ p : Principal, p.kind = .lanPeer → .other ≠ p.segment := by
    intro p hp h
    rw [segment_eq_lan.mpr hp] at h
    contradiction
  cases call with
  | observe signal p =>
    have hp : p.kind = .lanPeer := of_decide_eq_true ha
    have hlat := observe_of_throttle m r p fun policy h hk => hpol signal policy h (hp ▸ hk)
    exact Prod.ext (tracked_observe_ne (hseg p hp)) hlat.1
  | admitPrincipal p =>
    have hp : p.kind = .lanPeer := of_decide_eq_true ha
    have hadm := admitPrincipal_spec m p r.now
    exact Prod.ext (hadm.2 .other (hseg p hp)) hadm.1
  | throttled p => rfl
  | remoteAdmission => exact absurd ha (by simp [MonitorCall.aboutLan])
  | linkAdmission => exact absurd ha (by simp [MonitorCall.aboutLan])

theorem respond_alike (cfg : MonitorConfig) {a : Reading × MonitorCall} (ha : a.2.aboutLan = false)
    (h : Agree .other m n) :
    (m.respond cfg a).2 = (n.respond cfg a).2 ∧
    Agree .other (m.respond cfg a).1 (n.respond cfg a).1 := by
  obtain ⟨r, call⟩ := a
  have hseg : ∀ p : Principal, p.kind ≠ .lanPeer → p.segment = .other := by
    intro p hp
    rw [Principal.segment, if_neg hp]
  have hn := h.eq_with
  cases call with
  | observe signal p =>
    have hp := hseg p (of_decide_eq_false ha)
    have hobs : Alike p.segment (m.observe cfg r signal p) (n.observe cfg r signal p) :=
      (hp ▸ h : Agree p.segment m n).observe
    rw [hp] at hobs
    refine ⟨?_, hobs.monitor⟩
    show (Reply.decision _, _) = (Reply.decision _, _)
    rw [hobs.result, hobs.calls]
  | admitPrincipal p =>
    have hp := hseg p (of_decide_eq_false ha)
    have hadm := (hp ▸ h : Agree p.segment m n).admitPrincipal r.now
    rw [hp] at hadm
    refine ⟨?_, hadm.2⟩
    show (Reply.flag _, _) = (Reply.flag _, _)
    rw [hadm.1]
  | throttled p =>
    have hp := hseg p (of_decide_eq_false ha)
    refine ⟨?_, h⟩
    show (Reply.flag _, _) = (Reply.flag _, _)
    rw [throttled, throttled, hp, h.1]
  | remoteAdmission =>
    refine ⟨?_, h⟩
    show (Reply.admission _, _) = (Reply.admission _, _)
    rw [hn]
    rfl
  | linkAdmission =>
    refine ⟨?_, h⟩
    show (Reply.admission _, _) = (Reply.admission _, _)
    rw [hn]
    rfl

theorem unwinding_lan (hpol : LanOnlyThrottled cfg.policies) :
    (transducer cfg).Unwinding (fun a => !a.2.aboutLan) beyondLan where
  hidden m a ha := respond_lan hpol (by simpa using ha)
  answer m n a ha h := by
    have hal := respond_alike cfg (a := a) (by simpa using ha) (agree_of_beyondLan h)
    have hl := hal.2.2
    simp only [latches, Latches.mk.injEq] at hl
    show Answer.mk _ _ _ _ = Answer.mk _ _ _ _
    rw [hal.1, hl.1, hl.2.2.1]
  carry m n a ha h :=
    (respond_alike cfg (by simpa using ha) (agree_of_beyondLan h)).2.beyondLan

/-- Removing every call about a LAN address leaves the answers to the other calls as they were,
with the callbacks they call and the latches after them. -/
theorem lan_noise_unseen (shutdownOnQuarantine : Bool) (m : SecurityMonitor)
    (calls : List (Reading × MonitorCall)) :
    ((transducer ⟨defaultPolicies, shutdownOnQuarantine⟩).answers m calls).filter
        (fun a => !a.1.2.aboutLan) =
      (transducer ⟨defaultPolicies, shutdownOnQuarantine⟩).answers m
        (calls.filter fun a => !a.2.aboutLan) :=
  (unwinding_lan defaultPolicies_lan).answers_eq rfl calls

end SecurityMonitor
end QronosAgent.Security

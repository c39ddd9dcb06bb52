import Mathlib.Tactic.Linarith
import QronosAgent.Lib.Machine
import QronosAgent.Queue.Governor

/-! Runs of the governor's calls: who holds the heavy slot, and for how long. -/
namespace QronosAgent.Queue
open Lib

/-- What a task was granted, and when it was granted or renewed last. -/
structure Claim where
  weight : Weight
  managed : Bool
  grantedAt : Seconds
  touchedAt : Seconds

def Claim.live (lease now : Seconds) (c : Claim) : Bool :=
  c.managed || decide (now < c.touchedAt + lease)

def Claim.reservation (lease : Seconds) (taskId : TaskId) (c : Claim) : Reservation :=
  ⟨taskId, c.weight, c.grantedAt, c.touchedAt + lease, c.managed⟩

/-- A governor, with what its calls have granted and not taken back. -/
structure Slots where
  governor : ResourceGovernor
  clock : Seconds
  claims : TaskId → Option Claim
  /-- The ids that were granted a managed heavy reservation and have not released it. -/
  held : List TaskId

inductive SlotCall where
  | request (taskId : TaskId) (weight : Weight) (mode : ActivityMode)
    (pressure : ResourcePressure) (decision : ResourceDecision) (managed : Bool)
  | release (taskId : TaskId)
  | renew (taskId : TaskId)
  | active
  | heavyOwner

namespace Slots

def granted (s : Slots) (now : Seconds) (g : ResourceGovernor) (taskId : TaskId)
    (weight : Weight) (managed : Bool) : Slots where
  governor := g
  clock := now
  claims := Function.update s.claims taskId (some ⟨weight, managed, now, now⟩)
  held := if weight = .heavy ∧ managed = true then taskId :: s.held else s.held

def step (lease : Seconds) (s : Slots) : Seconds × SlotCall → Option Slots
  | (now, call) =>
    if now < s.clock then none
    else match call with
      | .request taskId weight mode pressure decision managed =>
        match s.governor.request lease now taskId weight mode pressure decision managed with
        | .error _ => some { s with clock := now }
        | .ok (g, grant) =>
          some (if grant.granted then s.granted now g taskId weight managed
            else { s with governor := g, clock := now })
      | .release taskId => some {
          governor := (s.governor.release taskId).1
          clock := now
          claims := Function.update s.claims taskId none
          held := s.held.filter (· ≠ taskId) }
      | .renew taskId => some { s with
          governor := (s.governor.renew lease now taskId).1
          clock := now
          claims := match (s.governor.renew lease now taskId).2 with
            | none => s.claims
            | some _ => Function.update s.claims taskId
                ((s.claims taskId).map fun c => { c with touchedAt := now }) }
      | .active => some { s with governor := (s.governor.active now).1, clock := now }
      | .heavyOwner => some { s with governor := (s.governor.heavyOwner now).1, clock := now }

end Slots

def slots (lease : Seconds) : Machine Slots (Seconds × SlotCall) where
  start s := s.governor = .empty ∧ s.claims = (fun _ => none) ∧ s.held = []
  step := Slots.step lease

/-- No light request that is let through names an id whose managed heavy reservation has not been
released. -/
def Unreplaced (s : Slots) : Seconds × SlotCall → Prop
  | (_, .request taskId .light _ _ decision _) => decision ≠ .block → taskId ∉ s.held
  | _ => True

/-- What the governor promises: one heavy reservation at most, a managed one is kept until it is
released, and what is listed at any time from now on are the claims that live. -/
structure SlotLaw (lease : Seconds) (s : Slots) : Prop where
  single : ∀ l l' r r', s.governor.get? l = some r → s.governor.get? l' = some r' →
    r.weight = .heavy → r'.weight = .heavy → l = l'
  kept : ∀ t ∈ s.held, ∀ now, s.clock ≤ now → (s.governor.heavyOwner now).2 = some t
  leased : ∀ now, s.clock ≤ now → ∀ r, r ∈ (s.governor.active now).2 ↔
    ∃ t c, s.claims t = some c ∧ c.live lease now = true ∧ c.reservation lease t = r

namespace ResourceGovernor
variable {g : ResourceGovernor} {now later : Seconds} {l : TaskId}

theorem mem_active {r : Reservation} :
    r ∈ (g.active now).2 ↔ ∃ l, (g.expire now).get? l = some r := by
  unfold active get?
  rw [mem_sortedBy, Dict.mem_values]

/-- At most one reservation is heavy. -/
def Single (g : ResourceGovernor) : Prop :=
  ∀ l l' r r', g.get? l = some r → g.get? l' = some r' →
    r.weight = .heavy → r'.weight = .heavy → l = l'

theorem Single.of_sub {g' : ResourceGovernor} (h : g.Single)
    (hsub : ∀ l r, g'.get? l = some r → g.get? l = some r) : g'.Single :=
  fun l l' r r' hr hr' => h l l' r r' (hsub l r hr) (hsub l' r' hr')

theorem Single.expire (h : g.Single) : (g.expire now).Single :=
  h.of_sub fun _ _ => expire_sub

theorem Single.file (h : g.Single) {r : Reservation}
    (hr : r.weight = .heavy → ∀ l r', g.get? l = some r' → r'.weight = .heavy → l = r.taskId) :
    (g.file r).Single := by
  intro l l' x x' hx hx' hw hw'
  rw [get?_file] at hx hx'
  split_ifs at hx hx' with hl hl' hl'
  · rw [hl, hl']
  · cases hx
    rw [hl, hr hw l' x' hx' hw']
  · cases hx'
    rw [hl', hr hw' l x hx hw]
  · exact h l l' x x' hx hx' hw hw'

theorem heavyOwner_of (h : g.Single) {r : Reservation} (hr : (g.expire now).get? l = some r)
    (hw : r.weight = .heavy) : (g.heavyOwner now).2 = some l := by
  have hmem : r ∈ (g.active now).2 := mem_active.mpr ⟨l, hr⟩
  unfold heavyOwner
  simp only
  obtain ⟨r', hfind⟩ := Option.isSome_iff_exists.mp
    (List.find?_isSome.mpr ⟨r, hmem, decide_eq_true hw⟩ :
      ((g.active now).2.find? fun r => decide (r.weight = .heavy)).isSome = true)
  rw [hfind]
  obtain ⟨l', hl'⟩ := mem_active.mp (List.mem_of_find?_eq_some hfind)
  have hw' : r'.weight = .heavy := by simpa using List.find?_some hfind
  rw [Option.map_some, (g.expire now).keyed l' r' hl', h.expire l' l r' r hl' hr hw' hw]

theorem not_granted_of_block {lease : Seconds} {g' : ResourceGovernor} {grant : Grant}
    {mode : ActivityMode} {pressure : ResourcePressure} {managed : Bool}
    (h : g.request lease now l .light mode pressure .block managed = .ok (g', grant)) :
    grant.granted = false := by
  cases hblank : l.blank with
  | true => simp [request, hblank] at h
  | false =>
    simp only [request, hblank, Bool.false_eq_true, ↓reduceIte, reduceCtorEq, Except.ok.injEq,
      Prod.mk.injEq] at h
    rw [← h.2]

end ResourceGovernor

namespace Slots
open ResourceGovernor
variable {lease now : Seconds} {s s' : Slots} {t l : TaskId}

def Filed (lease clock : Seconds) (g : ResourceGovernor) (claims : TaskId → Option Claim) : Prop :=
  ∀ now, clock ≤ now → ∀ l, (g.expire now).get? l =
    ((claims l).filter (Claim.live lease now)).map (Claim.reservation lease l)

@[simp] theorem taskId_reservation (c : Claim) : (c.reservation lease l).taskId = l := rfl

theorem expiredAt_reservation (c : Claim) :
    (c.reservation lease l).expiredAt now = !c.live lease now := by
  apply Bool.eq_iff_iff.2
  simp only [Claim.reservation, Claim.live, Reservation.expiredAt, Bool.and_eq_true,
    Bool.not_eq_true', Bool.or_eq_false_iff, decide_eq_false_iff_not, not_lt]
  exact and_congr_right fun _ => decide_eq_true_iff

variable {clock : Seconds} {g : ResourceGovernor} {claims : TaskId → Option Claim}

theorem Filed.expire (h : Filed lease clock g claims) (hle : clock ≤ now) :
    Filed lease now (g.expire now) claims := by
  intro later hlater l
  rw [← h later (hle.trans hlater) l, get?_expire, get?_expire, get?_expire, Option.filter_filter]
  congr 1
  funext r
  -- what has run out by now has run out later
  have : r.expiresAt ≤ now → r.expiresAt ≤ later := fun hr => hr.trans hlater
  by_cases hm : r.managed <;> by_cases hr : r.expiresAt ≤ now <;>
    simp_all [Reservation.expiredAt]

theorem Filed.file (h : Filed lease now g claims) (c : Claim) (t : TaskId) :
    Filed lease now (g.file (c.reservation lease t)) (Function.update claims t (some c)) := by
  intro later hlater l
  rw [get?_expire, get?_file, taskId_reservation]
  by_cases hl : l = t
  · subst hl
    rw [Function.update_self, if_pos rfl]
    cases hlive : c.live lease later <;> simp [Option.filter, expiredAt_reservation, hlive]
  · rw [Function.update_of_ne hl, if_neg hl, ← h later hlater l, get?_expire]

theorem Filed.drop (h : Filed lease now g claims) (t : TaskId) :
    Filed lease now (g.drop t) (Function.update claims t none) := by
  intro later hlater l
  rw [get?_expire, get?_drop]
  by_cases hl : l = t
  · subst hl
    simp
  · rw [Function.update_of_ne hl, if_neg hl, ← h later hlater l, get?_expire]

theorem Filed.later (h : Filed lease clock g claims) (hle : clock ≤ now) :
    Filed lease now g claims :=
  fun later hlater => h later (hle.trans hlater)

structure Inv (lease : Seconds) (s : Slots) : Prop where
  single : s.governor.Single
  filed : Filed lease s.clock s.governor s.claims
  held : ∀ t ∈ s.held, ∃ c, s.claims t = some c ∧ c.managed = true ∧ c.weight = .heavy

/-- A held id is still in the table, whenever it is looked at. -/
theorem Inv.get?_held (h : Inv lease s) (ht : t ∈ s.held) (hle : s.clock ≤ now) :
    ∃ r, (s.governor.expire now).get? t = some r ∧ r.weight = .heavy := by
  obtain ⟨c, hc, hmanaged, hheavy⟩ := h.held t ht
  refine ⟨c.reservation lease t, ?_, hheavy⟩
  rw [h.filed now hle t, hc]
  simp [Option.filter, Claim.live, hmanaged]

theorem Inv.swept (h : Inv lease s) (hle : s.clock ≤ now) :
    Inv lease { s with governor := s.governor.expire now, clock := now } :=
  ⟨h.single.expire, h.filed.expire hle, h.held⟩

theorem Inv.granted (h : Inv lease s) (hle : s.clock ≤ now) {weight : Weight} {managed : Bool}
    (hfree : weight = .heavy → (s.governor.expire now).heavyReservation? = none)
    (hlight : weight = .light → t ∉ s.held) :
    Inv lease (s.granted now ((s.governor.expire now).file ⟨t, weight, now, now + lease, managed⟩)
      t weight managed) := by
  have hnone : weight = .heavy → s.held = [] := by
    intro hw
    apply List.eq_nil_iff_forall_not_mem.mpr
    intro u hu
    obtain ⟨r, hr, hheavy⟩ := h.get?_held hu hle
    have := heavyReservation?_eq_none.mp (hfree hw) u r hr
    rw [hheavy] at this
    cases this
  constructor
  · apply h.single.expire.file
    intro hw l r hr hheavy
    rw [heavyReservation?_eq_none.mp (hfree hw) l r hr] at hheavy
    cases hheavy
  · exact (h.filed.expire hle).file ⟨weight, managed, now, now⟩ t
  · intro u hu
    simp only [Slots.granted] at hu ⊢
    cases weight with
    | heavy =>
      rw [hnone rfl] at hu
      split_ifs at hu with hboth
      · cases List.mem_singleton.mp hu
        exact ⟨_, Function.update_self .., hboth.2, rfl⟩
      · cases hu
    | light =>
      rw [if_neg (by simp)] at hu
      have hne : u ≠ t := fun heq => hlight rfl (heq ▸ hu)
      rw [Function.update_of_ne hne]
      exact h.held u hu

theorem Inv.release (h : Inv lease s) (hle : s.clock ≤ now) (t : TaskId) :
    Inv lease ⟨s.governor.drop t, now, Function.update s.claims t none,
      s.held.filter (· ≠ t)⟩ := by
  constructor
  · apply h.single.of_sub
    intro l r hr
    rw [get?_drop] at hr
    split_ifs at hr
    exact hr
  · exact (h.filed.later hle).drop t
  · intro u hu
    obtain ⟨hheld, hne⟩ := List.mem_filter.mp hu
    simp only [Function.update_of_ne (of_decide_eq_true hne)]
    exact h.held u hheld

/-- A renewal files what it found with a later end. -/
theorem Inv.renewed (h : Inv lease s) (hle : s.clock ≤ now) {r : Reservation}
    (hr : (s.governor.expire now).get? t = some r) :
    Inv lease { s with
      governor := (s.governor.expire now).file { r with expiresAt := now + lease }
      clock := now
      claims := Function.update s.claims t
        ((s.claims t).map fun c => { c with touchedAt := now }) } := by
  have hfound := h.filed now hle t
  rw [hr, eq_comm, Option.map_eq_some_iff] at hfound
  obtain ⟨c, hc, rfl⟩ := hfound
  obtain ⟨hc, -⟩ := Option.filter_eq_some_iff.mp hc
  constructor
  · apply h.single.expire.file
    intro hw l r' hr' hheavy
    exact h.single.expire l t r' _ hr' hr hheavy hw
  · simp only [hc, Option.map_some]
    exact (h.filed.expire hle).file { c with touchedAt := now } t
  · intro u hu
    obtain ⟨d, hd, hmanaged, hheavy⟩ := h.held u hu
    by_cases hne : u = t
    · subst hne
      exact ⟨{ d with touchedAt := now }, by simp [hd], hmanaged, hheavy⟩
    · exact ⟨d, by simp only [Function.update_of_ne hne, hd], hmanaged, hheavy⟩

theorem Inv.step (h : Inv lease s) {call : Seconds × SlotCall} (hok : Unreplaced s call)
    (hs : s.step lease call = some s') : Inv lease s' := by
  obtain ⟨now, call⟩ := call
  unfold Slots.step at hs
  simp only at hs
  split_ifs at hs with hlt
  have hle := not_lt.mp hlt
  cases call with
  | request taskId weight mode pressure decision managed =>
    simp only at hs
    split at hs
    · cases hs
      exact ⟨h.single, h.filed.later hle, h.held⟩
    · rename_i g grant hrequest
      cases hs
      obtain ⟨-, ⟨hno, -, rfl⟩ | ⟨hyes, rfl, hfree⟩⟩ := request_cases hrequest
      · rw [if_neg (by simp [hno])]
        exact h.swept hle
      · rw [if_pos hyes]
        apply h.granted hle (fun hw => (hfree hw).1)
        intro hlight
        subst hlight
        apply hok
        intro hblock
        rw [hblock] at hrequest
        rw [not_granted_of_block hrequest] at hyes
        cases hyes
  | release taskId =>
    cases hs
    exact h.release hle taskId
  | renew taskId =>
    cases hs
    unfold ResourceGovernor.renew
    cases hr : (s.governor.expire now).get? taskId with
    | none =>
      simp only [hr]
      exact h.swept hle
    | some r =>
      simp only [hr]
      exact h.renewed hle hr
  | active =>
    cases hs
    exact h.swept hle
  | heavyOwner =>
    cases hs
    exact h.swept hle

theorem Inv.start (h : (slots lease).start s) : Inv lease s := by
  obtain ⟨hgovernor, hclaims, hheld⟩ := h
  constructor
  · rw [hgovernor]
    intro l l' r r' hr
    simp [ResourceGovernor.get?, ResourceGovernor.empty] at hr
  · intro now hnow l
    rw [get?_expire, hgovernor, hclaims]
    simp [ResourceGovernor.get?, ResourceGovernor.empty]
  · rw [hheld]
    simp

theorem Inv.law (h : Inv lease s) : SlotLaw lease s := by
  constructor
  · exact h.single
  · intro t ht now hle
    obtain ⟨r, hr, hheavy⟩ := h.get?_held ht hle
    exact heavyOwner_of h.single hr hheavy
  · intro now hle r
    rw [mem_active]
    constructor
    · rintro ⟨t, ht⟩
      rw [h.filed now hle t, Option.map_eq_some_iff] at ht
      obtain ⟨c, hc, hr⟩ := ht
      obtain ⟨hc, hlive⟩ := Option.filter_eq_some_iff.mp hc
      exact ⟨t, c, hc, hlive, hr⟩
    · rintro ⟨t, c, hc, hlive, hr⟩
      refine ⟨t, ?_⟩
      rw [h.filed now hle t, hc]
      simp [Option.filter, hlive, hr]

end Slots

/-- Where no held id is asked for again as light work, the heavy slot has the owner it was given
to, and claims last as long as they should. -/
theorem heavy_slot (lease : Seconds) (s : Slots) (h : (slots lease).Reach Unreplaced s) :
    SlotLaw lease s :=
  (h.invariant (fun _ => Slots.Inv.start) fun _ _ _ hi hok hs => hi.step hok hs).law

def emptySlots : Slots := ⟨.empty, 0, fun _ => none, []⟩

/-- A managed heavy request and a light one, by two names or by one. -/
def askedTwice (first second : String) : List (Seconds × SlotCall) :=
  [(0, .request (py first) .heavy .normal .normal .allow true),
    (1, .request (py second) .light .normal .normal .allow false)]

theorem heavy_slot_sample : ∃ s, (slots 60).Reach Unreplaced s ∧ s.held = [py "a"] ∧
    (s.governor.heavyOwner 1000).2 = some (py "a") := by
  have hrun : ((slots 60).exec emptySlots (askedTwice "a" "b")).map (fun s => (s.held, s.clock)) =
      some ([py "a"], 1) := by
    decide +kernel
  obtain ⟨s, hs, hheld⟩ := Option.map_eq_some_iff.mp hrun
  obtain ⟨hheld, hclock⟩ := Prod.mk.inj hheld
  have hstart : (slots 60).Reach Unreplaced emptySlots := .start ⟨rfl, rfl, rfl⟩
  have hreach : (slots 60).Reach Unreplaced s := by
    apply hstart.exec _ hs
    refine ⟨trivial, ?_⟩
    intro s₁ hs₁
    have hfirst : ((slots 60).step emptySlots
        (0, .request (py "a") .heavy .normal .normal .allow true)).map Slots.held =
        some [py "a"] := by
      decide +kernel
    rw [hs₁] at hfirst
    refine ⟨fun _ hmem => ?_, fun _ _ => trivial⟩
    rw [Option.some.inj hfirst] at hmem
    revert hmem
    decide +kernel
  exact ⟨s, hreach, hheld, (heavy_slot 60 s hreach).kept (py "a") (by simp [hheld]) 1000
    (by rw [hclock]; decide +kernel)⟩

/-- Asked for again by its own name as light work, the managed owner is gone, and the slot free
for a second heavy task. -/
theorem managed_owner_replaced : ∃ s, (slots 60).Reachable s ∧ s.held = [py "a"] ∧
    (s.governor.heavyOwner 1).2 = none := by
  have hrun : ((slots 60).exec emptySlots (askedTwice "a" "a")).map (fun s =>
      (s.held, (s.governor.heavyOwner 1).2)) = some ([py "a"], none) := by
    decide +kernel
  obtain ⟨s, hs, hboth⟩ := Option.map_eq_some_iff.mp hrun
  obtain ⟨hheld, howner⟩ := Prod.mk.inj hboth
  exact ⟨s, Machine.reachable_exec ⟨rfl, rfl, rfl⟩ hs, hheld, howner⟩

end QronosAgent.Queue

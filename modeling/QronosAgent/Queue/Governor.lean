import Mathlib.Data.Rat.Defs
import Mathlib.Algebra.Order.Ring.Rat
import QronosAgent.Lib.Dict
import QronosAgent.Lib.PyText
import QronosAgent.Lib.Sorted

/-! `ResourceGovernor` of `core/resource_governor.py`: reservations with leases, and the rule
that one heavy task at a time holds the machine. -/
namespace QronosAgent.Queue
open Lib

abbrev TaskId := PyStr

/-- Clock readings and durations, as exact numbers. -/
abbrev Seconds := ℚ

inductive Weight where
  | light
  | heavy
  deriving DecidableEq

def Weight.value : Weight → PyStr
  | light => py "light"
  | heavy => py "heavy"

inductive Refusal where
  | resourcePressure
  | activityMode
  | heavyTaskInProgress

inductive ActivityMode where
  | idle
  | normal
  | gamingAssist
  | gamingPerformance
  | creatorAssist
  | creatorPerformance

namespace ActivityMode

def value : ActivityMode → PyStr
  | idle => py "idle"
  | normal => py "normal"
  | gamingAssist => py "gaming_assist"
  | gamingPerformance => py "gaming_performance"
  | creatorAssist => py "creator_assist"
  | creatorPerformance => py "creator_performance"

/-- `_PERFORMANCE_MODES`. -/
def performance : ActivityMode → Bool
  | gamingPerformance | creatorPerformance => true
  | idle | normal | gamingAssist | creatorAssist => false

end ActivityMode

inductive ResourcePressure where
  | normal
  | high
  | critical
  deriving DecidableEq

inductive ResourceDecision where
  | allow
  | warn
  | block
  deriving DecidableEq

inductive QueueError where
  | value (message : PyStr)
  | unknownTask (taskId : TaskId)
  | illegalTransition (message : PyStr)
  | work
  deriving DecidableEq

structure Reservation where
  taskId : TaskId
  weight : Weight
  grantedAt : Seconds
  expiresAt : Seconds
  managed : Bool

def Reservation.expiredAt (r : Reservation) (now : Seconds) : Bool :=
  !r.managed && decide (r.expiresAt ≤ now)

structure Grant where
  granted : Bool
  decision : ResourceDecision
  reservation : Option Reservation
  refusal : Option Refusal
  detail : PyStr

def Grant.refused (refusal : Refusal) (detail : PyStr) : Grant :=
  ⟨false, .block, none, some refusal, detail⟩

/-- The table of reservations; each one is filed under its own task id. -/
structure ResourceGovernor where
  reservations : Dict TaskId Reservation
  keyed : ∀ taskId r, reservations.get? taskId = some r → r.taskId = taskId

namespace ResourceGovernor

def empty : ResourceGovernor := ⟨.empty, by simp⟩

def get? (g : ResourceGovernor) (taskId : TaskId) : Option Reservation :=
  g.reservations.get? taskId

/-- `_expire`: leases nobody renewed are dropped. -/
def expire (g : ResourceGovernor) (now : Seconds) : ResourceGovernor where
  reservations := g.reservations.filter fun _ r => !r.expiredAt now
  keyed := by
    intro taskId r h
    rw [Dict.get?_filter, Option.filter_eq_some_iff] at h
    exact g.keyed taskId r h.1

/-- `self._reservations[reservation.task_id] = reservation`. -/
def file (g : ResourceGovernor) (r : Reservation) : ResourceGovernor where
  reservations := g.reservations.set r.taskId r
  keyed := by
    intro taskId r' h
    rw [Dict.get?_set] at h
    split at h
    · rename_i heq
      simp only [Option.some.injEq] at h
      rw [← h, heq]
    · exact g.keyed taskId r' h

def drop (g : ResourceGovernor) (taskId : TaskId) : ResourceGovernor where
  reservations := g.reservations.erase taskId
  keyed := by
    intro taskId' r h
    rw [Dict.get?_erase] at h
    split at h
    · cases h
    · exact g.keyed taskId' r h

def heavyReservation? (g : ResourceGovernor) : Option Reservation :=
  g.reservations.values.find? fun r => r.weight = .heavy

/-- `_heavy_is_blocked`: the rules that apply to heavy work only. -/
def heavyIsBlocked (g : ResourceGovernor) (mode : ActivityMode) (pressure : ResourcePressure) :
    Option Grant :=
  match g.heavyReservation? with
  | some r =>
    some (.refused .heavyTaskInProgress (r.taskId ++ py " is already running as the heavy task."))
  | none =>
    if mode.performance then
      some (.refused .activityMode (py "Qronos stays out of the way in " ++ mode.value ++ py "."))
    else if pressure = .critical then
      some (.refused .resourcePressure (py "The machine is under critical pressure."))
    else none

/-- Check and reserve in one step. `decision` is the caller's judgement of the machine, or
`evaluate()` when the caller passes none. -/
def request (lease now : Seconds) (g : ResourceGovernor) (taskId : TaskId) (weight : Weight)
    (mode : ActivityMode) (pressure : ResourcePressure) (decision : ResourceDecision)
    (managed : Bool) : Except QueueError (ResourceGovernor × Grant) :=
  if taskId.blank then .error (.value (py "A reservation must name a task."))
  else
    let g := g.expire now
    match if weight = .heavy then g.heavyIsBlocked mode pressure else none with
    | some refusal => .ok (g, refusal)
    | none =>
      if decision = .block then
        .ok (g, ⟨false, decision, none, some .resourcePressure,
          py "The machine is under too much load to start another task."⟩)
      else
        let r : Reservation := ⟨taskId, weight, now, now + lease, managed⟩
        .ok (g.file r, ⟨true, decision, some r, none, []⟩)

/-- Give back a reservation. True if there was one to give back. -/
def release (g : ResourceGovernor) (taskId : TaskId) : ResourceGovernor × Bool :=
  (g.drop taskId, (g.get? taskId).isSome)

/-- Push a lease out. `none` when there is nothing holding it. -/
def renew (lease now : Seconds) (g : ResourceGovernor) (taskId : TaskId) :
    ResourceGovernor × Option Reservation :=
  let g := g.expire now
  match g.get? taskId with
  | none => (g, none)
  | some existing =>
    let renewed := { existing with expiresAt := now + lease }
    (g.file renewed, some renewed)

/-- Everything currently holding a claim, oldest first. -/
def active (g : ResourceGovernor) (now : Seconds) : ResourceGovernor × List Reservation :=
  (g.expire now,
    sortedBy (fun a b => decide (a < b)) Reservation.grantedAt (g.expire now).reservations.values)

def heavyOwner (g : ResourceGovernor) (now : Seconds) : ResourceGovernor × Option TaskId :=
  ((g.active now).1, ((g.active now).2.find? fun r => r.weight = .heavy).map Reservation.taskId)

variable {g : ResourceGovernor} {lease now : Seconds} {taskId l : TaskId}

@[simp] theorem get?_expire :
    (g.expire now).get? l = (g.get? l).filter fun r => !r.expiredAt now := by
  simp only [expire, get?, Dict.get?_filter]

variable {r : Reservation} {mode : ActivityMode} {pressure : ResourcePressure}
  {decision : ResourceDecision} {managed : Bool} {g' : ResourceGovernor} {grant : Grant}

@[simp] theorem get?_file :
    (g.file r).get? l = if l = r.taskId then some r else g.get? l := Dict.get?_set

@[simp] theorem get?_drop : (g.drop taskId).get? l = if l = taskId then none else g.get? l :=
  Dict.get?_erase

theorem heavyReservation?_eq_none :
    g.heavyReservation? = none ↔ ∀ l r, g.get? l = some r → r.weight = .light := by
  rw [heavyReservation?, List.find?_eq_none]
  constructor
  · intro h l r hr
    have hne := h r (Dict.mem_values.mpr ⟨l, hr⟩)
    cases hw : r.weight with
    | light => rfl
    | heavy => exact absurd hw (by simpa using hne)
  · intro h r hr
    obtain ⟨l, hl⟩ := Dict.mem_values.mp hr
    simp [h l r hl]

@[simp] theorem heavyOwner_fst : (g.heavyOwner now).1 = g.expire now := rfl

theorem heavyOwner_eq_none :
    (g.heavyOwner now).2 = none ↔ (g.expire now).heavyReservation? = none := by
  simp only [heavyOwner, active, Option.map_eq_none_iff, List.find?_eq_none, mem_sortedBy,
    heavyReservation?]

theorem expire_sub (hr : (g.expire now).get? l = some r) : g.get? l = some r := by
  rw [get?_expire, Option.filter_eq_some_iff] at hr
  exact hr.1

theorem heavyReservation?_expire (h : g.heavyReservation? = none) :
    (g.expire now).heavyReservation? = none := by
  rw [heavyReservation?_eq_none] at h ⊢
  exact fun l r hr => h l r (expire_sub hr)

theorem request_cases {weight : Weight}
    (h : g.request lease now taskId weight mode pressure decision managed = .ok (g', grant)) :
    taskId.blank = false ∧
    ((grant.granted = false ∧ grant.refusal.isSome ∧ g' = g.expire now) ∨
      (grant.granted = true ∧
        g' = (g.expire now).file ⟨taskId, weight, now, now + lease, managed⟩ ∧
        (weight = .heavy → (g.expire now).heavyReservation? = none ∧ mode.performance = false))) := by
  unfold request at h
  by_cases hb : taskId.blank = true
  · simp [hb] at h
  rw [if_neg hb] at h
  refine ⟨by simpa using hb, ?_⟩
  simp only at h
  split at h
  · rename_i refusal hrefusal
    cases h
    refine .inl ⟨?_, ?_, rfl⟩ <;>
    · split_ifs at hrefusal
      unfold heavyIsBlocked at hrefusal
      split at hrefusal
      · simp only [Option.some.injEq] at hrefusal
        simp [← hrefusal, Grant.refused]
      · split_ifs at hrefusal <;>
        · simp only [Option.some.injEq] at hrefusal
          simp [← hrefusal, Grant.refused]
  · rename_i hfree
    split_ifs at h with hblock
    · cases h
      exact .inl ⟨rfl, rfl, rfl⟩
    · cases h
      refine .inr ⟨rfl, rfl, fun hw => ?_⟩
      rw [if_pos hw] at hfree
      unfold heavyIsBlocked at hfree
      split at hfree
      · cases hfree
      · rename_i hslot
        refine ⟨hslot, ?_⟩
        split_ifs at hfree with hmode
        simpa using hmode

theorem request_light (hb : taskId.blank = false) :
    g.request lease now taskId .light mode pressure .allow false =
      .ok ((g.expire now).file ⟨taskId, .light, now, now + lease, false⟩,
        ⟨true, .allow, some ⟨taskId, .light, now, now + lease, false⟩, none, []⟩) := by
  simp [request, hb]

/-- Heavy work is granted when the slot is free and the machine is not in a performance mode. -/
theorem request_heavy (hb : taskId.blank = false)
    (hslot : (g.expire now).heavyReservation? = none) (hmode : mode.performance = false) :
    g.request lease now taskId .heavy mode .normal .allow false =
      .ok ((g.expire now).file ⟨taskId, .heavy, now, now + lease, false⟩,
        ⟨true, .allow, some ⟨taskId, .heavy, now, now + lease, false⟩, none, []⟩) := by
  simp [request, hb, heavyIsBlocked, hslot, hmode]

end ResourceGovernor
end QronosAgent.Queue

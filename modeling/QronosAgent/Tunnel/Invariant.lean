import QronosAgent.Tunnel.Parker
import Mathlib.Tactic.Linarith
import Mathlib.Tactic.GCongr

/-! What holds of a parker and its connections after every step. -/
namespace QronosAgent.Tunnel
open Lib

namespace Stage

/-- In `_wait_for_phone`, before the phone came. -/
def waits : Stage → Bool
  | parked | reading => true
  | _ => false

/-- In `_park_once`, while the connection is the parker's own. -/
def owns : Stage → Bool
  | greeting | parked | reading | spliced => true
  | _ => false

end Stage

variable {cfg : TunnelSettings} {p p' : Parker}

structure Current (cfg : TunnelSettings) (p : Parker) (c : Connection) : Prop where
  fresh : p.stage = .greeting → c.bytes = 0 ∧ c.parked = none
  parked : p.stage.waits = true → c.parked = p.parkedAt
  bytes : p.stage.waits = true → c.bytes = p.keepalives + if p.parkedAt.isSome then 1 else 0
  keepalives : p.stage.waits = true →
    (p.keepalives : ℚ) ≤ cfg.keepaliveBurst + cfg.keepalivePerSecond * c.parkedFor
  order : ∀ t ∈ c.parked, t ≤ c.last

def Kept (p : Parker) (i : ℕ) (c : Connection) : Prop :=
  c.closed = true ∨ c.handedOver = true ∨
    (i = p.dialled ∧ (p.stage.owns = true ∧ p.carrier = some i ∨ p.stage = .handing))

structure Core (cfg : TunnelSettings) (p : Parker) : Prop where
  budget : p.spliceBudget.Sound
  capacity : p.spliceBudget.capacity = cfg.spliceBurst
  rate : p.spliceBudget.rate = cfg.spliceRefillPerSecond
  initial : p.backoff.initial = cfg.backoffInitial
  maximum : p.backoff.maximum = cfg.backoffMax
  began : p.began ≤ p.now
  last : ∀ c ∈ p.connections, c.last ≤ p.now
  bytes : ∀ c ∈ p.connections,
    (c.bytes : ℚ) ≤ 2 + cfg.keepaliveBurst + cfg.keepalivePerSecond * c.parkedFor

structure Inv (cfg : TunnelSettings) (p : Parker) : Prop extends Core cfg p where
  parkedAt : p.stage.waits = true → ∀ t ∈ p.parkedAt, p.began ≤ t ∧ t ≤ p.now
  current : p.stage = .greeting ∨ p.stage.waits = true →
    ∃ c, p.connections[p.dialled]? = some c ∧ Current cfg p c
  kept : ∀ i c, p.connections[i]? = some c → Kept p i c

/-! Changes that leave what was read of a connection as it is. -/

/-- Nothing was read, and nothing that was closed or handed over is open again. -/
structure Quiet (f : Connection → Connection) : Prop where
  bytes : ∀ c, (f c).bytes = c.bytes
  parked : ∀ c, (f c).parked = c.parked
  last : ∀ c, (f c).last = c.last
  closed : ∀ c, c.closed = true → (f c).closed = true
  handedOver : ∀ c, c.handedOver = true → (f c).handedOver = true

theorem quiet_close : Quiet fun c => { c with closed := true } :=
  ⟨fun _ => rfl, fun _ => rfl, fun _ => rfl, fun _ _ => rfl, fun _ h => h⟩

theorem quiet_handOver : Quiet fun c => { c with handedOver := true } :=
  ⟨fun _ => rfl, fun _ => rfl, fun _ => rfl, fun _ h => h, fun _ _ => rfl⟩

theorem quiet_report (authenticated : Bool) :
    Quiet fun c => { c with reported := some authenticated } :=
  ⟨fun _ => rfl, fun _ => rfl, fun _ => rfl, fun _ h => h, fun _ h => h⟩

variable {f : Connection → Connection} {conns : List Connection} {j i : ℕ} {c : Connection}

theorem Quiet.parkedFor (hf : Quiet f) (c : Connection) :
    (f c).parkedFor = c.parkedFor := by
  unfold Connection.parkedFor
  rw [hf.parked, hf.last]

theorem modify_cases (h : (conns.modify j f)[i]? = some c) :
    ∃ c₀, conns[i]? = some c₀ ∧ c = if j = i then f c₀ else c₀ := by
  rw [List.getElem?_modify] at h
  obtain ⟨c₀, hc₀, hc⟩ := Option.map_eq_some_iff.mp h
  refine ⟨c₀, hc₀, ?_⟩
  rw [← hc]

theorem mem_modify (h : c ∈ conns.modify j f) : c ∈ conns ∨ ∃ c₀ ∈ conns, c = f c₀ := by
  obtain ⟨i, hi⟩ := List.mem_iff_getElem?.mp h
  obtain ⟨c₀, hc₀, rfl⟩ := modify_cases hi
  have hmem := List.mem_of_getElem? hc₀
  split
  · exact .inr ⟨c₀, hmem, rfl⟩
  · exact .inl hmem

theorem Core.quiet (h : Core cfg p) (hf : Quiet f) (j : ℕ) :
    Core cfg { p with connections := p.connections.modify j f } := by
  refine ⟨h.budget, h.capacity, h.rate, h.initial, h.maximum, h.began, fun c hc => ?_,
    fun c hc => ?_⟩
  · rcases mem_modify hc with hold | ⟨c₀, hold, rfl⟩
    · exact h.last c hold
    · rw [hf.last]
      exact h.last c₀ hold
  · rcases mem_modify hc with hold | ⟨c₀, hold, rfl⟩
    · exact h.bytes c hold
    · rw [hf.bytes, hf.parkedFor]
      exact h.bytes c₀ hold

theorem Quiet.kept (hf : Quiet f) (h : Kept p i c) : Kept p i (f c) := by
  rcases h with hclosed | hhanded | hhand
  · exact .inl (hf.closed c hclosed)
  · exact .inr (.inl (hf.handedOver c hhanded))
  · exact .inr (.inr hhand)

theorem Quiet.current (hf : Quiet f) (h : Current cfg p c) : Current cfg p (f c) where
  fresh hstage := by
    rw [hf.bytes, hf.parked]
    exact h.fresh hstage
  parked hstage := (hf.parked c).trans (h.parked hstage)
  bytes hstage := (hf.bytes c).trans (h.bytes hstage)
  keepalives hstage := by
    rw [hf.parkedFor]
    exact h.keepalives hstage
  order t ht := by
    rw [hf.parked] at ht
    rw [hf.last]
    exact h.order t ht

theorem Inv.quiet (h : Inv cfg p) (hf : Quiet f) (j : ℕ) :
    Inv cfg { p with connections := p.connections.modify j f } := by
  refine ⟨h.toCore.quiet hf j, h.parkedAt, fun hstage => ?_, fun i c hc => ?_⟩
  · obtain ⟨c, hc, hcurrent⟩ := h.current hstage
    refine ⟨if j = p.dialled then f c else c, ?_, ?_⟩
    · simp only [List.getElem?_modify, hc, Option.map_eq_map, Option.map_some]
    · split
      · exact hf.current { hcurrent with }
      · exact { hcurrent with }
  · obtain ⟨c₀, hc₀, rfl⟩ := modify_cases hc
    have hkept : Kept { p with connections := p.connections.modify j f } i c₀ := h.kept i c₀ hc₀
    split
    · exact hf.kept hkept
    · exact hkept

def Parker.Settled (p : Parker) : Prop := ∀ c ∈ p.connections, c.closed = true ∨ c.handedOver = true

theorem Parker.letGo_cases (p : Parker) : p.letGo = p ∧ p.carrier = none ∨
    p.letGo = { p with
      connections := p.connections.modify p.dialled fun c => { c with closed := true }
      carrier := none } := by
  unfold Parker.letGo
  cases hcarrier : p.carrier with
  | none => exact .inl ⟨rfl, rfl⟩
  | some c => exact .inr rfl

/-- The `finally` closes what is in hand. -/
theorem letGo_settled (hkept : ∀ i c, p.connections[i]? = some c → Kept p i c)
    (hstage : p.stage ≠ .handing) : p.letGo.Settled := by
  intro c hc
  obtain ⟨i, hi⟩ := List.mem_iff_getElem?.mp hc
  rcases p.letGo_cases with ⟨hsame, hnone⟩ | hclosed
  · rw [hsame] at hi
    rcases hkept i c hi with hclosed | hhanded | ⟨-, ⟨-, hcarrier⟩ | hhanding⟩
    · exact .inl hclosed
    · exact .inr hhanded
    · rw [hnone] at hcarrier
      cases hcarrier
    · exact absurd hhanding hstage
  · rw [hclosed] at hi
    obtain ⟨c₀, hc₀, rfl⟩ := modify_cases hi
    split
    · exact .inl rfl
    · rename_i hne
      rcases hkept i c₀ hc₀ with hclosed | hhanded | ⟨hi, -⟩
      · exact .inl hclosed
      · exact .inr hhanded
      · exact absurd hi.symm hne

theorem Core.letGo (h : Core cfg p) : Core cfg p.letGo := by
  rcases p.letGo_cases with ⟨hsame, -⟩ | hclosed
  · rw [hsame]
    exact h
  · rw [hclosed]
    have hquiet := h.quiet quiet_close p.dialled
    exact { hquiet with }

/-- Between two parkings nothing but the core matters. -/
theorem Inv.of_settled (h : Core cfg p) (hsettled : p.Settled)
    (hstage : p.stage.owns = false) : Inv cfg p := by
  have hwaits : p.stage.waits = false := by
    cases hs : p.stage <;> rw [hs] at hstage <;> first | rfl | cases hstage
  refine ⟨h, fun hwaiting => ?_, fun hwaiting => ?_, fun i c hc => ?_⟩
  · rw [hwaits] at hwaiting
    cases hwaiting
  · rcases hwaiting with hgreeting | hwaiting
    · rw [hgreeting] at hstage
      cases hstage
    · rw [hwaits] at hwaiting
      cases hwaiting
  · rcases hsettled c (List.mem_of_getElem? hc) with hclosed | hhanded
    · exact .inl hclosed
    · exact .inr (.inl hhanded)

theorem Core.returned (h : Core cfg p) (hsettled : p.Settled) (e : Ending) :
    Inv cfg (p.returned e) := by
  cases e with
  | failure f =>
    exact .of_settled { h with }
      hsettled rfl
  | authenticated =>
    exact .of_settled { h with }
      hsettled rfl
  | renew =>
    exact .of_settled { h with }
      hsettled rfl

theorem Core.leave (h : Core cfg p) (hkept : ∀ i c, p.connections[i]? = some c → Kept p i c)
    (hstage : p.stage ≠ .handing) (e : Ending) : Inv cfg (p.leave e) :=
  h.letGo.returned (letGo_settled hkept hstage) e

end QronosAgent.Tunnel

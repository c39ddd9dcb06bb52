import QronosAgent.Tunnel.Rates
import Mathlib.Algebra.Order.Archimedean.Basic
import Mathlib.Data.Rat.Floor

/-! A relay that may do anything cannot keep the computer busy, as long as it says only once of a
connection that it is parked. -/
namespace QronosAgent.Tunnel
open Lib

variable {cfg : TunnelSettings} {p p' p₀ : Parker}

structure Bounded (cfg : TunnelSettings) (ok : Parker → Action → Prop) (p : Parker) : Prop where
  connections : ∀ as p', (parkerMachine cfg).allOk ok p as →
    (parkerMachine cfg).exec p as = some p' →
      (p'.connections.length : ℚ) - p.connections.length ≤
        1 + (p'.now - p.now) / (cfg.backoffInitial / 2) +
          (p'.authenticatedSplices - p.authenticatedSplices) +
          (p'.now - p.now) / cfg.minParkSeconds
  status : ∀ c ∈ p.connections,
    (c.bytes : ℚ) ≤ 2 + cfg.keepaliveBurst + cfg.keepalivePerSecond * c.parkedFor
  splices : ∀ as p', (parkerMachine cfg).allOk ok p as →
    (parkerMachine cfg).exec p as = some p' →
      (p'.splices : ℚ) - p.splices ≤
        cfg.spliceBurst + cfg.spliceRefillPerSecond * (p'.now - p.now)
  reset : ∀ a p', p.step cfg a = some p' → p.backoff.attempt ≠ 0 → p'.backoff.attempt = 0 →
    p.reported = some true
  ended : p.stage = .ended → ∀ c ∈ p.connections, c.closed = true ∨ c.handedOver = true

theorem Inv.splices_step (h : Inv cfg p) (hcfg : cfg.Positive) {a : Action}
    (hs : p.step cfg a = some p') : p.now ≤ p'.now ∧
      (p'.splices : ℚ) + p'.spliceBudget.level p'.now ≤
        p.splices + p.spliceBudget.level p.now + cfg.spliceRefillPerSecond * (p'.now - p.now) := by
  have hsame : ∀ q : Parker, q.now = p.now → q.splices = p.splices →
      q.spliceBudget = p.spliceBudget → p.now ≤ q.now ∧
        (q.splices : ℚ) + q.spliceBudget.level q.now ≤
          p.splices + p.spliceBudget.level p.now + cfg.spliceRefillPerSecond * (q.now - p.now) := by
    intro q hnow hsplices hbudget
    rw [hnow, hsplices, hbudget, sub_self, mul_zero, add_zero]
    exact ⟨le_refl _, le_refl _⟩
  obtain ⟨-, htake⟩ := h.budget.take p.now
  cases turn_of_step h hcfg hs with
  | passes hnow hpass =>
    refine ⟨hnow, ?_⟩
    rw [hpass.splices, hpass.budget]
    have hlater := h.budget.level_later hnow
    rw [h.rate] at hlater
    simp only
    linarith
  | stays hstays => exact hsame p' hstays.now hstays.splices hstays.budget
  | opens hopens => exact hsame p' hopens.now hopens.splices hopens.budget
  | renews hrenews => exact hsame p' hrenews.now hrenews.splices hrenews.budget
  | authenticates hauth => exact hsame p' hauth.now hauth.splices hauth.budget
  | backsOff delay _ hbacks => exact hsame p' hbacks.now hbacks.splices hbacks.budget
  | wakes _ _ _ hwakes => exact hsame p' hwakes.now hwakes.splices hwakes.budget
  | handsOver htaken hhands =>
    rw [htaken, if_pos rfl] at htake
    rw [hhands.now, hhands.splices, hhands.budget]
    refine ⟨le_refl _, ?_⟩
    push_cast
    linarith
  | refuses htaken hrefuses =>
    rw [htaken] at htake
    simp only [Bool.false_eq_true, ↓reduceIte, add_zero] at htake
    rw [hrefuses.now, hrefuses.splices, hrefuses.budget]
    refine ⟨le_refl _, ?_⟩
    simp only
    linarith

theorem Backoff.initial_le_ceiling {b : Backoff} (hpos : 0 ≤ b.initial)
    (hfits : b.initial ≤ b.maximum) : b.initial ≤ b.ceiling := by
  have hpow : (1 : ℚ) ≤ 2 ^ b.attempt := one_le_pow₀ (by norm_num)
  exact le_min hfits (le_mul_of_one_le_right hpos hpow)

/-- The wait after a failure is at least half the initial backoff. -/
def Delays (cfg : TunnelSettings) (p : Parker) : Prop :=
  ∀ d, p.stage = .backingOff d → p.began + cfg.backoffInitial / 2 ≤ d

theorem Delays.turn (h : Delays cfg p) (hinv : Inv cfg p) (hcfg : cfg.Positive)
    (hfits : cfg.backoffInitial ≤ cfg.backoffMax) (hturn : Turn cfg p p') : Delays cfg p' := by
  intro d hd
  cases hturn with
  | passes hnow hpass hstage =>
    rw [hpass.began]
    exact h d (hstage ▸ hd)
  | stays hstays _ hbacksOff =>
    rw [hstays.began]
    exact h d (hbacksOff d hd)
  | opens _ _ _ hstage =>
    rw [hstage] at hd
    cases hd
  | renews _ _ hstage =>
    rw [hstage] at hd
    cases hd
  | authenticates _ _ hstage =>
    rw [hstage] at hd
    cases hd
  | handsOver _ _ _ hstage =>
    rw [hstage] at hd
    cases hd
  | refuses _ _ _ hstage =>
    rw [hstage] at hd
    cases hd
  | wakes _ _ _ _ hstage =>
    rw [hstage] at hd
    cases hd
  | backsOff delay hdraws hbacks _ hstage =>
    rw [hstage] at hd
    cases hd
    have hceiling : cfg.backoffInitial ≤ p.backoff.ceiling := by
      rw [← hinv.initial]
      apply Backoff.initial_le_ceiling
      · rw [hinv.initial]
        exact hcfg.backoffInitial.le
      · rw [hinv.initial, hinv.maximum]
        exact hfits
    simp only [Backoff.draws, Bool.and_eq_true, decide_eq_true_eq] at hdraws
    rw [hbacks.began]
    simp only
    linarith [hdraws.1]

def connectionRate (cfg : TunnelSettings) : ℚ := 1 / (cfg.backoffInitial / 2) + 1 / cfg.minParkSeconds

/-- Every connection since then was paid for by an authenticated splice or by time, except one whose
parking goes on, or whose wait does. -/
def Paid (cfg : TunnelSettings) (p₀ p : Parker) : Prop :=
  (p.connections.length : ℚ) + p₀.authenticatedSplices ≤ p₀.connections.length +
      p.authenticatedSplices + connectionRate cfg * (p.now - p₀.now) ∨
    p.stage.engaged = true ∧ (p.connections.length : ℚ) + p₀.authenticatedSplices ≤
      p₀.connections.length + 1 + p.authenticatedSplices + connectionRate cfg * (p.began - p₀.now)

theorem Paid.turn (h : Paid cfg p₀ p) (hinv : Inv cfg p) (hcfg : cfg.Positive)
    (hdelays : Delays cfg p) (hturn : Turn cfg p p') : Paid cfg p₀ p' := by
  have hhalf : 0 < cfg.backoffInitial / 2 := half_pos hcfg.backoffInitial
  have hrate : 0 ≤ connectionRate cfg :=
    add_nonneg (one_div_nonneg.mpr hhalf.le) (one_div_nonneg.mpr hcfg.minParkSeconds.le)
  have hfailed : 1 ≤ connectionRate cfg * (cfg.backoffInitial / 2) := by
    unfold connectionRate
    rw [add_mul, one_div_mul_cancel hhalf.ne']
    have := mul_nonneg (one_div_nonneg.mpr hcfg.minParkSeconds.le) hhalf.le
    linarith
  have hrenewed : 1 ≤ connectionRate cfg * cfg.minParkSeconds := by
    unfold connectionRate
    rw [add_mul, one_div_mul_cancel hcfg.minParkSeconds.ne']
    have := mul_nonneg (one_div_nonneg.mpr hhalf.le) hcfg.minParkSeconds.le
    linarith
  have hbegan := mul_le_mul_of_nonneg_left hinv.began hrate
  cases hturn with
  | passes hnow hpass hstage =>
    unfold Paid at h ⊢
    rw [hpass.opened, hpass.authenticated, hpass.began, hstage]
    have hlater := mul_le_mul_of_nonneg_left hnow hrate
    rcases h with hpaid | howed
    · left
      simp only
      linarith
    · exact .inr howed
  | stays hstays hengaged =>
    unfold Paid at h ⊢
    rw [hstays.opened, hstays.authenticated, hstays.began, hstays.now]
    rcases h with hpaid | ⟨hstage, howed⟩
    · exact .inl hpaid
    · exact .inr ⟨hengaged hstage, howed⟩
  | opens hopens hopened hfree hstage =>
    unfold Paid at h ⊢
    rw [hopened, hstage, hopens.authenticated, hopens.began]
    rcases h with hpaid | ⟨hengaged, -⟩
    · refine .inr ⟨rfl, ?_⟩
      push_cast
      linarith
    · rw [hfree] at hengaged
      cases hengaged
  | renews hrenews hlasted =>
    unfold Paid at h ⊢
    rw [hrenews.opened, hrenews.authenticated, hrenews.now]
    left
    rcases h with hpaid | ⟨-, howed⟩
    · exact hpaid
    · have hmul := mul_le_mul_of_nonneg_left hlasted hrate
      linarith
  | authenticates hauth =>
    unfold Paid at h ⊢
    rw [hauth.opened, hauth.authenticated, hauth.now]
    left
    push_cast
    rcases h with hpaid | ⟨-, howed⟩ <;> linarith
  | handsOver _ hhands _ hstage =>
    unfold Paid at h ⊢
    rw [hhands.opened, hhands.authenticated, hhands.began, hhands.now, hstage]
    rcases h with hpaid | ⟨-, howed⟩
    · exact .inl hpaid
    · exact .inr ⟨rfl, howed⟩
  | refuses _ hrefuses _ hstage =>
    unfold Paid at h ⊢
    rw [hrefuses.opened, hrefuses.authenticated, hrefuses.began, hrefuses.now, hstage]
    rcases h with hpaid | ⟨-, howed⟩
    · exact .inl hpaid
    · exact .inr ⟨rfl, howed⟩
  | backsOff delay _ hbacks _ hstage =>
    unfold Paid at h ⊢
    rw [hbacks.opened, hbacks.authenticated, hbacks.began, hbacks.now, hstage]
    rcases h with hpaid | ⟨-, howed⟩
    · exact .inl hpaid
    · refine .inr ⟨rfl, ?_⟩
      simp only
      linarith
  | wakes deadline hfrom hover hwakes =>
    unfold Paid at h ⊢
    rw [hwakes.opened, hwakes.authenticated, hwakes.now]
    left
    rcases h with hpaid | ⟨-, howed⟩
    · exact hpaid
    · have hmul := mul_le_mul_of_nonneg_left ((hdelays deadline hfrom).trans hover) hrate
      linarith

theorem Turn.resets (hturn : Turn cfg p p') (hcounting : p.backoff.attempt ≠ 0)
    (hreset : p'.backoff.attempt = 0) : p.reported = some true := by
  cases hturn with
  | authenticates _ hreported => exact hreported
  | passes _ hpass => exact absurd (hpass.backoff ▸ hreset) hcounting
  | stays hstays => exact absurd (hstays.backoff ▸ hreset) hcounting
  | opens hopens => exact absurd (hopens.backoff ▸ hreset) hcounting
  | renews hrenews => exact absurd (hrenews.backoff ▸ hreset) hcounting
  | handsOver _ hhands => exact absurd (hhands.backoff ▸ hreset) hcounting
  | refuses _ hrefuses => exact absurd (hrefuses.backoff ▸ hreset) hcounting
  | wakes _ _ _ hwakes => exact absurd (hwakes.backoff ▸ hreset) hcounting
  | backsOff delay _ hbacks =>
    rw [hbacks.backoff] at hreset
    simp only [Backoff.next] at hreset
    omega

theorem hostile_relay_bounded (hcfg : cfg.Positive) (hfits : cfg.backoffInitial ≤ cfg.backoffMax)
    (hr : (parkerMachine cfg).Reach Meets p) : Bounded cfg Meets p := by
  have hinv := inv_of_reach hcfg hr
  have hdelays : Delays cfg p := by
    apply hr.invariant_of (I := Inv cfg) (fun _ h => inv_of_reach hcfg h)
    · rintro _ ⟨now, rfl⟩ d hd
      cases hd
    · intro p₁ a p₂ h₁ hdelays _ _ hstep
      exact hdelays.turn h₁ hcfg hfits (turn_of_step h₁ hcfg hstep)
  refine ⟨fun as p' hok he => ?_, hinv.bytes, fun as p' hok he => ?_, fun a p' hs => ?_,
    fun hstage => ?_⟩
  · have hall := Machine.exec_invariant (I := fun q => Inv cfg q ∧ Delays cfg q ∧ Paid cfg p q)
      (fun p₁ a p₂ h₁ hmeets hstep => by
        have hturn := turn_of_step h₁.1 hcfg hstep
        exact ⟨h₁.1.step hcfg hmeets hstep, h₁.2.1.turn h₁.1 hcfg hfits hturn,
          h₁.2.2.turn h₁.1 hcfg h₁.2.1 hturn⟩)
      ⟨hinv, hdelays, .inl (by simp)⟩ hok he
    obtain ⟨hinv', -, hpaid⟩ := hall
    have hrate : 0 ≤ connectionRate cfg :=
      add_nonneg (one_div_nonneg.mpr (half_pos hcfg.backoffInitial).le)
        (one_div_nonneg.mpr hcfg.minParkSeconds.le)
    have hbegan := mul_le_mul_of_nonneg_left hinv'.began hrate
    have hsplit : connectionRate cfg * (p'.now - p.now) =
        (p'.now - p.now) / (cfg.backoffInitial / 2) + (p'.now - p.now) / cfg.minParkSeconds := by
      unfold connectionRate
      ring
    rcases hpaid with hpaid | ⟨-, howed⟩ <;> linarith
  · have hall := Machine.exec_invariant (I := fun q => Inv cfg q ∧
        (q.splices : ℚ) + q.spliceBudget.level q.now ≤
          p.splices + p.spliceBudget.level p.now + cfg.spliceRefillPerSecond * (q.now - p.now))
      (fun p₁ a p₂ h₁ hmeets hstep => by
        obtain ⟨-, hspent⟩ := h₁.1.splices_step hcfg hstep
        refine ⟨h₁.1.step hcfg hmeets hstep, ?_⟩
        linarith [h₁.2])
      ⟨hinv, by simp⟩ hok he
    have hfull : p.spliceBudget.level p.now ≤ cfg.spliceBurst := hinv.capacity ▸ TokenBucket.level_le
    have hleft : 0 ≤ p'.spliceBudget.level p'.now := hall.1.budget.level_nonneg
    linarith [hall.2]
  · exact (turn_of_step hinv hcfg hs).resets
  · apply hinv.settled
    · rw [hstage]
      rfl
    · rw [hstage]
      intro hne
      cases hne

/-! A relay that says again and again that the connection is parked. -/

/-- The defaults of `TunnelSettings`. -/
def defaultSettings : TunnelSettings where
  backoffInitial := 1
  backoffMax := 60
  handshakeWait := 15
  spliceBurst := 20
  spliceRefillPerSecond := 1 / 5
  minParkSeconds := 30
  keepaliveBurst := 10
  keepalivePerSecond := 1

theorem defaultSettings_positive : defaultSettings.Positive := by
  constructor <;> norm_num [defaultSettings]

def parks : List Action := [.look true true, .dial .opened, .greet true]

def saysParked : List Action := [.enter, .read (.byte RelayStatus.parked.value)]

/-- The parker left one parking and waits to dial again. -/
theorem hostile_relay_bounded_sample : ∃ p : Parker, p.connections.length = 1 ∧
    p.stage.engaged = true ∧ Bounded defaultSettings Meets p := by
  have hexec : (((parkerMachine defaultSettings).exec (.new defaultSettings 0)
      (parks ++ saysParked ++ [.enter, .read .timeout, .note 1])).any fun p =>
        p.connections.length = 1 && p.stage.engaged) = true := by decide +kernel
  obtain ⟨p, hp, hall⟩ := (Option.any_eq_true _ _).mp hexec
  simp only [Bool.and_eq_true, decide_eq_true_eq] at hall
  refine ⟨p, hall.1, hall.2, hostile_relay_bounded defaultSettings_positive
    (by norm_num [defaultSettings]) (Machine.Reach.exec (.start ⟨0, rfl⟩) ?_ hp)⟩
  refine ⟨trivial, fun p₁ h₁ => ⟨trivial, fun p₂ h₂ => ⟨trivial, fun p₃ h₃ => ⟨trivial, fun p₄ h₄ =>
    ⟨fun _ => ?_, fun _ _ => ⟨trivial, fun _ _ => ⟨trivial, fun _ _ => ⟨trivial, fun _ _ =>
      trivial⟩⟩⟩⟩⟩⟩⟩⟩
  cases h₁
  cases h₂
  cases h₃
  cases h₄
  rfl

/-- After any number of times it still reads, and no time has passed. -/
theorem still_parked (n : ℕ) : ∃ p : Parker, (parkerMachine defaultSettings).Reachable p ∧
    p.stage = .parked ∧ p.stop = false ∧ p.now = 0 ∧ ∃ c, p.connections[p.dialled]? = some c ∧
      c.bytes = n ∧ c.last = 0 ∧ ∀ t ∈ c.parked, t = 0 := by
  induction n with
  | zero =>
    have hparks : (parkerMachine defaultSettings).exec (.new defaultSettings 0) parks = some _ := rfl
    refine ⟨_, Machine.reachable_exec ⟨0, rfl⟩ hparks, rfl, rfl, rfl, _, rfl, rfl, rfl, ?_⟩
    intro t ht
    cases ht
  | succ n ih =>
    obtain ⟨p, hr, hstage, hstop, hnow, c, hc, hbytes, -, hparked⟩ := ih
    have hreading : (parkerMachine defaultSettings).step p .enter =
        some { p with stage := .reading } := by
      simp [parkerMachine, Parker.step, Parker.enter, hstage, hstop]
    refine ⟨({ p with stage := .reading } : Parker).heard.saidParked,
      (hr.step trivial hreading).step (a := .read (.byte RelayStatus.parked.value)) trivial rfl,
      rfl, hstop, hnow, { c.hears p.now with parked := some (c.parked.getD p.now) }, ?_, ?_, hnow,
      fun t ht => ?_⟩
    · simp [Parker.saidParked, Parker.heard, Parker.onDialled, hc, Connection.hears]
    · simp [Connection.hears, hbytes]
    · cases ht
      cases hwhen : c.parked with
      | none => simpa using hnow
      | some t => simpa using hparked t hwhen

/-- No constant bounds the status bytes of one connection. -/
theorem parked_without_end : ¬ ∃ constant : ℚ, ∀ p : Parker,
    (parkerMachine defaultSettings).Reachable p → ∀ c ∈ p.connections,
      (c.bytes : ℚ) ≤ constant + defaultSettings.keepaliveBurst +
        defaultSettings.keepalivePerSecond * c.parkedFor := by
  rintro ⟨constant, h⟩
  obtain ⟨n, hn⟩ := exists_nat_gt (constant + defaultSettings.keepaliveBurst)
  obtain ⟨p, hr, -, -, -, c, hc, hbytes, hlast, hparked⟩ := still_parked n
  have hle := h p hr c (List.mem_of_getElem? hc)
  have hfor : c.parkedFor = 0 := by
    unfold Connection.parkedFor
    split
    · rfl
    · rename_i t ht
      rw [hlast, hparked t ht, sub_zero]
  rw [hbytes, hfor, mul_zero, add_zero] at hle
  exact absurd hle (not_le.mpr hn)

end QronosAgent.Tunnel

import QronosAgent.Lib.Hysteresis
import QronosAgent.Queue.HardFloor

/-! Whether the safety floor can change its mind about a reading that did not change. -/
namespace QronosAgent.Queue
open Lib Lib.Hysteresis

/-- A question put to the floor: whether work needing this much memory may start, or whether
work that runs may go on. -/
inductive FloorAsk where
  | start (sample : LoadSample) (requiredVramMb : ℕ)
  | running (sample : LoadSample)

def FloorAsk.sample : FloorAsk → LoadSample
  | .start sample _ => sample
  | .running sample => sample

def FloorAsk.verdict (config : HardFloorConfig) :
    FloorAsk → Bool → Except QueueError FloorVerdict
  | .start sample requiredVramMb, refused => checkFloor sample config refused requiredVramMb
  | .running sample, refused => .ok (checkRunning sample config refused)

def verdicts (config : HardFloorConfig) :
    Bool → List FloorAsk → Except QueueError (List FloorVerdict)
  | _, [] => .ok []
  | refused, ask :: asks => do
    let v ← ask.verdict config refused
    let vs ← verdicts config (!v.passed) asks
    return v :: vs

/-- What stops the question whatever was answered before: the readings with one line only. -/
def FloorAsk.stopped (config : HardFloorConfig) : FloorAsk → Bool
  | .start sample requiredVramMb =>
    decide (requiredVramMb ≠ 0) && noRoom sample config requiredVramMb
  | .running sample => squeezed sample config

def FloorAsk.refuses (config : HardFloorConfig) (ask : FloorAsk) (refused : Bool) : Bool :=
  (safetyBreach ask.sample config refused).isSome || ask.stopped config

variable {config : HardFloorConfig}

@[simp] theorem passed_verdict (sample : LoadSample) (requiredVramMb : ℤ)
    (breach : Option FloorBreach) (gpuUnknown : Bool) :
    (verdict sample requiredVramMb breach gpuUnknown).passed = breach.isNone := by
  rfl

/-- The floor answers every question, and refuses exactly the ones a limit stops. -/
theorem FloorAsk.verdict_ok (config : HardFloorConfig) (ask : FloorAsk) (refused : Bool) :
    ∃ v, ask.verdict config refused = .ok v ∧ v.passed = !ask.refuses config refused := by
  cases ask with
  | start sample requiredVramMb =>
    have hnonneg : ¬ (requiredVramMb : ℤ) < 0 := by omega
    cases hb : safetyBreach sample config refused with
    | some breach =>
      simp [FloorAsk.verdict, FloorAsk.refuses, FloorAsk.sample, checkFloor, hnonneg, hb]
    | none =>
      by_cases hzero : requiredVramMb = 0
      · simp [FloorAsk.verdict, FloorAsk.refuses, FloorAsk.sample, FloorAsk.stopped, checkFloor,
          hb, hzero]
      · cases hroom : noRoom sample config requiredVramMb <;>
          simp [FloorAsk.verdict, FloorAsk.refuses, FloorAsk.sample, FloorAsk.stopped, checkFloor,
            hb, hnonneg, hzero, hroom]
  | running sample =>
    cases hb : safetyBreach sample config refused with
    | some breach =>
      simp [FloorAsk.verdict, FloorAsk.refuses, FloorAsk.sample, checkRunning, hb]
    | none =>
      cases hs : squeezed sample config <;>
        simp [FloorAsk.verdict, FloorAsk.refuses, FloorAsk.sample, FloorAsk.stopped, checkRunning,
          hb, hs]

theorem verdicts_ok (config : HardFloorConfig) (refused : Bool) (asks : List FloorAsk) :
    ∃ vs, verdicts config refused asks = .ok vs ∧
      vs.map (fun v => !v.passed) = answers (FloorAsk.refuses config) refused asks := by
  induction asks generalizing refused with
  | nil => exact ⟨[], rfl, rfl⟩
  | cons ask asks ih =>
    obtain ⟨v, hv, hpassed⟩ := ask.verdict_ok config refused
    obtain ⟨vs, hvs, hanswers⟩ := ih (ask.refuses config refused)
    refine ⟨v :: vs, ?_, ?_⟩
    · have hrest : verdicts config (!v.passed) asks = .ok vs := by simpa [hpassed] using hvs
      unfold verdicts
      rw [hv]
      change (verdicts config (!v.passed) asks >>= fun vs => .ok (v :: vs)) = _
      rw [hrest]
      rfl
    · simp [answers, hpassed, hanswers]

theorem isSome_safetyBreach (sample : LoadSample) (refused : Bool) :
    (safetyBreach sample config refused).isSome = true ↔
      config.ramCriticalPercent ≤ sample.ramPercent ∨ batteryLow sample config refused = true ∨
        diskLow sample config refused = true ∨ gpuHot sample config refused = true := by
  unfold safetyBreach
  split_ifs <;> simp_all

/-- Where the resume lines lie apart from the critical ones, each limit that refuses refuses
all the more once it has. -/
theorem batteryLow_sticky (h : config.batteryCriticalPercent < config.batteryResumePercent)
    (sample : LoadSample) (hlow : batteryLow sample config false = true) :
    batteryLow sample config true = true := by
  unfold batteryLow at hlow ⊢
  cases hbattery : sample.batteryPercent with
  | none => simp [hbattery] at hlow
  | some battery =>
    simp only [hbattery, Bool.and_eq_true, decide_eq_true_eq, Bool.false_eq_true, ↓reduceIte]
      at hlow ⊢
    exact ⟨hlow.1, lt_of_le_of_lt hlow.2 h⟩

theorem diskLow_sticky (sample : LoadSample) (hlow : diskLow sample config false = true) :
    diskLow sample config true = true := by
  unfold diskLow at hlow ⊢
  cases hfree : sample.diskFreeMb with
  | none => simp [hfree] at hlow
  | some free =>
    simp only [hfree, decide_eq_true_eq, Bool.false_eq_true, ↓reduceIte] at hlow ⊢
    exact lt_of_lt_of_le hlow config.disk_le

theorem gpuHot_sticky (h : config.gpuResumeTempC ≤ config.gpuCriticalTempC)
    (sample : LoadSample) (hhot : gpuHot sample config false = true) :
    gpuHot sample config true = true := by
  unfold gpuHot at hhot ⊢
  cases htemp : sample.gpuTemperatureC with
  | none => simp [htemp] at hhot
  | some temperature =>
    simp only [htemp, decide_eq_true_eq, Bool.false_eq_true, ↓reduceIte] at hhot ⊢
    exact le_trans h hhot

/-- A reading on which only one figure speaks: the memory is far below its limit and the
drive is unread. -/
def quietSample (config : HardFloorConfig) : LoadSample where
  ramPercent := config.ramCriticalPercent - 1
  vramFreeMb := none
  gpuTemperatureC := none
  ownVramMb := 0
  onBattery := none
  batteryPercent := none
  diskFreeMb := none
  powerUnknown := false
  diskUnknown := false
  externalVramGrowthMb := none

def warmSample (config : HardFloorConfig) (temperature : ℤ) : LoadSample :=
  { quietSample config with gpuTemperatureC := some temperature }

def drainedSample (config : HardFloorConfig) (battery : ℚ) : LoadSample :=
  { quietSample config with onBattery := some true, batteryPercent := some battery }

/-- On a card's temperature alone work waits at the line in force. -/
theorem refuses_warm (temperature : ℤ) (refused : Bool) :
    (FloorAsk.running (warmSample config temperature)).refuses config refused =
      decide ((if refused then config.gpuResumeTempC else config.gpuCriticalTempC) ≤
        temperature) := by
  apply Bool.eq_iff_iff.2
  simp [FloorAsk.refuses, FloorAsk.sample, FloorAsk.stopped, isSome_safetyBreach, batteryLow,
    diskLow, gpuHot, squeezed, warmSample, quietSample]

theorem refuses_drained (battery : ℚ) (refused : Bool) :
    (FloorAsk.running (drainedSample config battery)).refuses config refused =
      if refused then decide (battery < config.batteryResumePercent)
      else decide (battery ≤ config.batteryCriticalPercent) := by
  apply Bool.eq_iff_iff.2
  simp [FloorAsk.refuses, FloorAsk.sample, FloorAsk.stopped, isSome_safetyBreach, batteryLow,
    diskLow, gpuHot, squeezed, drainedSample, quietSample]

/-- The floor is sticky exactly where the card must cool below a line no higher than the one
it stopped at, and the battery must charge to a line above the one it stopped at. -/
theorem sticky_refuses_iff :
    Sticky (FloorAsk.refuses config) ↔
      config.gpuResumeTempC ≤ config.gpuCriticalTempC ∧
        config.batteryCriticalPercent < config.batteryResumePercent := by
  constructor
  · intro h
    constructor
    · have hwarm := h (.running (warmSample config config.gpuCriticalTempC))
      simpa [refuses_warm] using hwarm
    · have hdrained := h (.running (drainedSample config config.batteryCriticalPercent))
      simpa [refuses_drained] using hdrained
  · rintro ⟨hgpu, hbattery⟩ ask hrefused
    simp only [FloorAsk.refuses, Bool.or_eq_true, isSome_safetyBreach] at hrefused ⊢
    rcases hrefused with (hram | hlow | hdisk | hhot) | hstopped
    · exact .inl (.inl hram)
    · exact .inl (.inr (.inl (batteryLow_sticky hbattery _ hlow)))
    · exact .inl (.inr (.inr (.inl (diskLow_sticky _ hdisk))))
    · exact .inl (.inr (.inr (.inr (gpuHot_sticky hgpu _ hhot))))
    · exact .inr hstopped

/-- What the resume lines are for: a question refused from a clear state is refused again once
refused, and no run of questions gets two answers to one reading. -/
def SteadyFloor (config : HardFloorConfig) : Prop :=
  (∀ ask v, FloorAsk.verdict config ask false = .ok v → v.passed = false →
    ∃ w, ask.verdict config true = .ok w ∧ w.passed = false) ∧
  ∀ refused asks, ∃ vs, verdicts config refused asks = .ok vs ∧ vs.length = asks.length ∧
    ∀ i, i + 1 < asks.length → asks[i]? = asks[i + 1]? →
      vs[i]?.map FloorVerdict.passed = vs[i + 1]?.map FloorVerdict.passed

theorem steadyFloor_iff_sticky (config : HardFloorConfig) :
    SteadyFloor config ↔ Sticky (FloorAsk.refuses config) := by
  constructor
  · rintro ⟨hagain, -⟩ ask hrefused
    obtain ⟨v, hv, hpassed⟩ := ask.verdict_ok config false
    obtain ⟨w, hw, hstill⟩ := hagain ask v hv (by simp [hpassed, hrefused])
    obtain ⟨w', hw', hsame⟩ := ask.verdict_ok config true
    have : w = w' := by simpa [hw] using hw'
    subst this
    simpa [hsame] using hstill
  · intro hsticky
    constructor
    · intro ask v hv hpassed
      obtain ⟨v', hv', hsame⟩ := ask.verdict_ok config false
      have : v = v' := by simpa [hv] using hv'
      subst this
      obtain ⟨w, hw, hstill⟩ := ask.verdict_ok config true
      refine ⟨w, hw, ?_⟩
      rw [hstill, hsticky ask (by simpa [hsame] using hpassed)]
      rfl
    · intro refused asks
      obtain ⟨vs, hvs, hanswers⟩ := verdicts_ok config refused asks
      have hlen : vs.length = asks.length := by
        simpa using congrArg List.length hanswers
      refine ⟨vs, hvs, hlen, ?_⟩
      intro i hi heq
      have hkept := hsticky.neverFlaps refused asks i hi heq
      rw [← hanswers, List.getElem?_map, List.getElem?_map] at hkept
      rw [List.getElem?_eq_getElem (by omega), List.getElem?_eq_getElem (by omega)] at hkept ⊢
      simpa using hkept

/-- The floor is steady exactly where the graphics card has to cool to a line no higher than
its critical one and the battery to charge above its critical one. -/
theorem steady_floor (config : HardFloorConfig) :
    SteadyFloor config ↔ config.gpuResumeTempC ≤ config.gpuCriticalTempC ∧
      config.batteryCriticalPercent < config.batteryResumePercent :=
  (steadyFloor_iff_sticky config).trans sticky_refuses_iff

/-- A card told to resume at ninety degrees after stopping at eighty-five. -/
def crossedFloor : HardFloorConfig :=
  { defaultHardFloor with gpuResumeTempC := 90, gpuCriticalTempC := 85 }

/-- At eighty-seven degrees the answer is refused, allowed, refused, allowed. -/
theorem crossed_floor_flaps :
    (verdicts crossedFloor false
        (List.replicate 4 (.running (warmSample crossedFloor 87)))).toOption.map
        (·.map FloorVerdict.passed) = some [false, true, false, true] ∧
      ¬ SteadyFloor crossedFloor := by
  refine ⟨by decide +kernel, ?_⟩
  rw [steadyFloor_iff_sticky, sticky_refuses_iff]
  decide

end QronosAgent.Queue

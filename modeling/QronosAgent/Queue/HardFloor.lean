import Mathlib.Data.Rat.Floor
import QronosAgent.Lib.Json
import QronosAgent.Queue.Governor

/-! The safety floor of `core/hard_floor.py`: limits no override lifts, with resume lines that
a refused task has to reach before it may start. -/
namespace QronosAgent.Queue
open Lib

inductive FloorBreach where
  | gpuTemperature
  | vramExhausted
  | systemMemory
  | batteryCritical
  | diskCritical
  | vramSqueezed
  deriving DecidableEq

structure LoadSample where
  ramPercent : ℚ
  vramFreeMb : Option ℤ
  gpuTemperatureC : Option ℤ
  ownVramMb : ℤ
  onBattery : Option Bool
  batteryPercent : Option ℚ
  diskFreeMb : Option ℤ
  powerUnknown : Bool
  diskUnknown : Bool
  externalVramGrowthMb : Option ℤ

/-- What is free on the card once the memory Qronos itself holds is taken off. -/
def LoadSample.physicalVramFreeMb (s : LoadSample) : Option ℤ :=
  s.vramFreeMb.map fun free => max 0 (free - max 0 s.ownVramMb)

structure HardFloorConfig where
  gpuCriticalTempC : ℤ := 85
  gpuResumeTempC : ℤ := 78
  vramHeadroomMb : ℤ := 512
  ramCriticalPercent : ℚ := 95
  batteryCriticalPercent : ℚ := 10
  batteryResumePercent : ℚ := 15
  diskCriticalFreeMb : ℤ := 2 * 1024
  diskResumeFreeMb : ℤ := 3 * 1024
  vramSqueezeGrowthMb : ℤ := 64
  battery_le : batteryCriticalPercent ≤ batteryResumePercent := by decide
  disk_le : diskCriticalFreeMb ≤ diskResumeFreeMb := by decide
  squeeze_pos : 0 < vramSqueezeGrowthMb := by decide
  headroom_nonneg : 0 ≤ vramHeadroomMb := by decide

def defaultHardFloor : HardFloorConfig := {}

structure FloorVerdict where
  breach : Option FloorBreach
  requiredVramMb : ℤ
  freeVramMb : Option ℤ
  gpuTemperatureC : Option ℤ
  gpuUnknown : Bool
  batteryPercent : Option ℚ
  diskFreeMb : Option ℤ
  externalVramGrowthMb : Option ℤ
  powerUnknown : Bool
  diskUnknown : Bool
  deriving DecidableEq

namespace FloorVerdict

def passed (v : FloorVerdict) : Bool := v.breach.isNone

/-- `f"{x:.0f}"`: the nearest integer, halves to the even one. -/
def wholeText (x : ℚ) : PyStr :=
  let n := ⌊x⌋
  let r := x - n
  intText (if r < 1 / 2 ∨ r = 1 / 2 ∧ n % 2 = 0 then n else n + 1)

/-- Why, in numbers, for a person to read. -/
def message (v : FloorVerdict) : PyStr :=
  match v.breach with
  | none => py "Nothing is stopping this from running."
  | some .gpuTemperature =>
    py "The graphics card is at " ++ (v.gpuTemperatureC.map intText).getD (py "None") ++
      py " C. Qronos waits for it to cool before adding work. This is a safety " ++
      py "limit and cannot be overridden."
  | some .vramExhausted =>
    py "This needs " ++ intText v.requiredVramMb ++ py " MB of graphics memory and " ++
      ((v.freeVramMb.map fun free => intText free ++ py " MB is free").getD
        (py "none is readable")) ++
      py ". Running anyway would push another application out of the card, so this is " ++
      py "a safety limit and cannot be overridden."
  | some .batteryCritical =>
    py "The battery is " ++
      ((v.batteryPercent.map fun level => py "at " ++ wholeText level ++ py "%").getD
        (py "nearly empty")) ++
      py " and the machine is not plugged in. Qronos waits for the charger before starting " ++
      py "a model. This is a safety limit and cannot be overridden."
  | some .diskCritical =>
    py "The drive Qronos saves to is " ++
      ((v.diskFreeMb.map fun free => py "down to " ++ intText free ++ py " MB free").getD
        (py "nearly full")) ++
      py ". Work that cannot save its history fails half-way, so Qronos waits for space. " ++
      py "This is a safety limit and cannot be overridden."
  | some .vramSqueezed =>
    py "Another application needs more graphics memory than is free while Qronos is using " ++
      py "the card, so Qronos stops its own work and gives the memory back. It resumes when " ++
      py "there is room."
  | some .systemMemory =>
    py "System memory is nearly full. Loading a model now would push something the user is " ++
      py "working in out to disk. This is a safety limit and cannot be overridden."

end FloorVerdict

/-- `_verdict`: every number the sample had, refused or not. -/
def verdict (sample : LoadSample) (requiredVramMb : ℤ) (breach : Option FloorBreach)
    (gpuUnknown : Bool) : FloorVerdict where
  breach
  requiredVramMb
  freeVramMb := sample.vramFreeMb
  gpuTemperatureC := sample.gpuTemperatureC
  gpuUnknown
  batteryPercent := sample.batteryPercent
  diskFreeMb := sample.diskFreeMb
  externalVramGrowthMb := sample.externalVramGrowthMb
  powerUnknown := sample.powerUnknown
  diskUnknown := sample.diskUnknown

variable (sample : LoadSample) (config : HardFloorConfig) (currentlyRefused : Bool)

/-- Strictly below the resume line once refused, at or below the critical one before. -/
def batteryLow : Bool :=
  match sample.batteryPercent with
  | none => false
  | some battery =>
    sample.onBattery = some true &&
      if currentlyRefused then decide (battery < config.batteryResumePercent)
      else decide (battery ≤ config.batteryCriticalPercent)

def diskLow : Bool :=
  match sample.diskFreeMb with
  | none => false
  | some free =>
    decide (free < if currentlyRefused then config.diskResumeFreeMb else config.diskCriticalFreeMb)

def gpuHot : Bool :=
  match sample.gpuTemperatureC with
  | none => false
  | some temperature =>
    decide ((if currentlyRefused then config.gpuResumeTempC else config.gpuCriticalTempC) ≤
      temperature)

/-- `_safety_breach`: the limits that apply to any work, starting or running. -/
def safetyBreach : Option FloorBreach :=
  if config.ramCriticalPercent ≤ sample.ramPercent then some .systemMemory
  else if batteryLow sample config currentlyRefused then some .batteryCritical
  else if diskLow sample config currentlyRefused then some .diskCritical
  else if gpuHot sample config currentlyRefused then some .gpuTemperature
  else none

/-- Whether the model and its headroom find no room on the card; a card that cannot be read is
given the benefit of the doubt. -/
def noRoom (requiredVramMb : ℤ) : Bool :=
  match sample.physicalVramFreeMb with
  | none => false
  | some free => decide (free < requiredVramMb + config.vramHeadroomMb)

/-- `check`: whether the work is safe to start. -/
def checkFloor (requiredVramMb : ℤ) : Except QueueError FloorVerdict :=
  if requiredVramMb < 0 then
    .error (.value (py "A task cannot need a negative amount of memory."))
  else
    match safetyBreach sample config currentlyRefused with
    | some breach => .ok (verdict sample requiredVramMb (some breach) false)
    | none =>
      if requiredVramMb = 0 then .ok (verdict sample 0 none false)
      else if noRoom sample config requiredVramMb then
        .ok (verdict sample requiredVramMb (some .vramExhausted) false)
      else .ok (verdict sample requiredVramMb none sample.physicalVramFreeMb.isNone)

/-- Somebody else's memory grew since Qronos took the card, and the card has less than the
headroom left for them. -/
def squeezed : Bool :=
  match sample.externalVramGrowthMb, sample.physicalVramFreeMb with
  | some growth, some free =>
    decide (0 < sample.ownVramMb) && decide (config.vramSqueezeGrowthMb ≤ growth) &&
      decide (free < config.vramHeadroomMb)
  | _, _ => false

/-- `check_running`: whether work that is already running must yield. -/
def checkRunning : FloorVerdict :=
  match safetyBreach sample config currentlyRefused with
  | some breach => verdict sample 0 (some breach) false
  | none =>
    if squeezed sample config then verdict sample 0 (some .vramSqueezed) false
    else verdict sample 0 none false

variable {sample config currentlyRefused}

/-- The floor answers for every amount of memory that is not negative. -/
theorem checkFloor_isOk (sample : LoadSample) (config : HardFloorConfig)
    (currentlyRefused : Bool) {requiredVramMb : ℤ} (h : 0 ≤ requiredVramMb) :
    ∃ v, checkFloor sample config currentlyRefused requiredVramMb = .ok v := by
  unfold checkFloor
  rw [if_neg (by omega)]
  cases safetyBreach sample config currentlyRefused with
  | some breach => exact ⟨_, rfl⟩
  | none =>
    simp only
    split_ifs <;> exact ⟨_, rfl⟩

end QronosAgent.Queue

import Mathlib.Algebra.Order.Floor.Semiring
import Mathlib.Data.Rat.Floor
import Mathlib.Tactic.Linarith
import QronosAgent.Queue.Scheduler

/-! `SustainedLoadMonitor` of `core/load_signal.py`: a stream of readings, kept for as long as
the window, turned into one stable answer. -/
namespace QronosAgent.Queue
open Lib

structure LoadReading where
  time : ℚ
  decision : ResourceDecision
  environmentDecision : ResourceDecision

/-- `LoadSample.loaded`: anything the resource policy would not wave through. -/
def LoadReading.loaded (s : LoadReading) : Bool :=
  decide (s.decision ≠ .allow ∨ s.environmentDecision ≠ .allow)

structure SustainedLoadConfig where
  sampleIntervalSeconds : ℚ := 2
  windowSeconds : ℚ := 60
  loadedFraction : ℚ := 3 / 4
  busyDwellSeconds : ℚ := 20
  freeDwellSeconds : ℚ := 30
  interval_pos : 0 < sampleIntervalSeconds := by decide +kernel
  fraction_pos : 0 < loadedFraction := by decide +kernel
  fraction_le : loadedFraction ≤ 1 := by decide +kernel
  busy_pos : 0 < busyDwellSeconds := by decide +kernel
  free_pos : 0 < freeDwellSeconds := by decide +kernel
  longest_le : max busyDwellSeconds freeDwellSeconds ≤ windowSeconds := by decide +kernel

structure SustainedLoadMonitor where
  samples : List LoadReading
  level : LoadLevel
  changedAt : Option ℚ

namespace SustainedLoadMonitor

/-- `reset`, which is also how a monitor begins. -/
def reset (m : SustainedLoadMonitor) : SustainedLoadMonitor :=
  { m with samples := [], level := .unknown, changedAt := none }

def fractionOver (samples : List LoadReading) (count : ℕ) : ℚ :=
  if count = 0 then 0 else (samples.countP LoadReading.loaded : ℚ) / count

variable (config : SustainedLoadConfig)

def trim (now : ℚ) (samples : List LoadReading) : List LoadReading :=
  samples.dropWhile fun s => decide (s.time ≤ now - config.windowSeconds)

/-- `_expected_samples`: how many readings a full dwell should contain. -/
def expectedSamples (dwellSeconds : ℚ) : ℕ :=
  max 2 ⌊dwellSeconds / config.sampleIntervalSeconds⌋₊

def dwellWindow (samples : List LoadReading) (now dwellSeconds : ℚ) : List LoadReading :=
  samples.filter fun s => decide (now - dwellSeconds < s.time)

/-- `_crossed`: whether the last `dwellSeconds` have been mostly loaded, or mostly not. -/
def crossed (samples : List LoadReading) (now dwellSeconds : ℚ) (wantsLoaded : Bool) : Bool :=
  let window := dwellWindow samples now dwellSeconds
  if window.length < expectedSamples config dwellSeconds then false
  else
    let loaded := fractionOver window window.length
    let share := if wantsLoaded then loaded else 1 - loaded
    decide (config.loadedFraction ≤ share)

def settle (level : LoadLevel) (now : ℚ) (m : SustainedLoadMonitor) : SustainedLoadMonitor :=
  if m.level = level then m else { m with level, changedAt := some now }

/-- `_judge`: busy is asked first while nothing is known. -/
def judge (now : ℚ) (m : SustainedLoadMonitor) : SustainedLoadMonitor :=
  match m.level with
  | .unknown =>
    if crossed config m.samples now config.busyDwellSeconds true then settle .busy now m
    else if crossed config m.samples now config.freeDwellSeconds false then settle .free now m
    else m
  | .busy =>
    if crossed config m.samples now config.freeDwellSeconds false then settle .free now m else m
  | .free =>
    if crossed config m.samples now config.busyDwellSeconds true then settle .busy now m else m

/-- `offer`: a reading is folded in, and what left the window dropped. -/
def offer (m : SustainedLoadMonitor) (sample : LoadReading) : SustainedLoadMonitor :=
  judge config sample.time { m with samples := trim config sample.time (m.samples ++ [sample]) }

def offerWhole (m : SustainedLoadMonitor) (sample : LoadReading) : SustainedLoadMonitor :=
  judge config sample.time { m with samples := m.samples ++ [sample] }

def offers (m : SustainedLoadMonitor) (samples : List LoadReading) : SustainedLoadMonitor :=
  samples.foldl (offer config) m

def offersWhole (m : SustainedLoadMonitor) (samples : List LoadReading) : SustainedLoadMonitor :=
  samples.foldl (offerWhole config) m

variable {config} {m w : SustainedLoadMonitor} {now : ℚ}

/-! What the verdict depends on: the level, when it changed, and the readings in each dwell. -/

@[simp] theorem settle_samples (level : LoadLevel) (now : ℚ) (m : SustainedLoadMonitor) :
    (settle level now m).samples = m.samples := by
  unfold settle
  split <;> rfl

@[simp] theorem judge_samples : (judge config now m).samples = m.samples := by
  unfold judge
  split <;> split_ifs <;> simp

variable {samples : List LoadReading} {dwellSeconds : ℚ} {loaded : Bool}

theorem crossed_congr (config : SustainedLoadConfig) {samples' : List LoadReading}
    (h : dwellWindow samples now dwellSeconds = dwellWindow samples' now dwellSeconds)
    (wantsLoaded : Bool) :
    crossed config samples now dwellSeconds wantsLoaded =
      crossed config samples' now dwellSeconds wantsLoaded := by
  unfold crossed
  rw [h]

/-- Two monitors with one verdict that keep the same readings of each dwell judge alike. -/
theorem judge_congr (config : SustainedLoadConfig) (now : ℚ) (hlevel : m.level = w.level)
    (hchanged : m.changedAt = w.changedAt)
    (hbusy : dwellWindow m.samples now config.busyDwellSeconds =
      dwellWindow w.samples now config.busyDwellSeconds)
    (hfree : dwellWindow m.samples now config.freeDwellSeconds =
      dwellWindow w.samples now config.freeDwellSeconds) :
    (judge config now m).level = (judge config now w).level ∧
      (judge config now m).changedAt = (judge config now w).changedAt := by
  have hb := crossed_congr config hbusy true
  have hf := crossed_congr config hfree false
  unfold judge
  rw [hlevel, hb, hf]
  cases hw : w.level <;> simp only <;> split_ifs <;> simp_all [settle]

/-! Trimming drops only readings that no dwell looks at. -/

theorem exists_dropped (config : SustainedLoadConfig) (now : ℚ) (samples : List LoadReading) :
    ∃ dropped, samples = dropped ++ trim config now samples ∧
      ∀ s ∈ dropped, s.time ≤ now - config.windowSeconds := by
  refine ⟨samples.takeWhile fun s => decide (s.time ≤ now - config.windowSeconds),
    (List.takeWhile_append_dropWhile).symm, ?_⟩
  intro s hs
  simpa using List.mem_takeWhile_imp hs

theorem dwellWindow_append_of_old {dropped : List LoadReading}
    (hdropped : ∀ s ∈ dropped, s.time ≤ now - config.windowSeconds)
    (hle : dwellSeconds ≤ config.windowSeconds) :
    dwellWindow (dropped ++ samples) now dwellSeconds = dwellWindow samples now dwellSeconds := by
  have hnone : dwellWindow dropped now dwellSeconds = [] := by
    apply List.filter_eq_nil_iff.mpr
    intro s hs
    have := hdropped s hs
    simp only [decide_eq_true_eq, not_lt]
    linarith
  unfold dwellWindow at hnone ⊢
  rw [List.filter_append, hnone, List.nil_append]

/-- The monitor beside one that never forgets: one verdict, and what the first has dropped had
left the window by `now`. -/
structure Follows (config : SustainedLoadConfig) (now : ℚ) (m w : SustainedLoadMonitor) :
    Prop where
  level : m.level = w.level
  changedAt : m.changedAt = w.changedAt
  dropped : ∃ dropped, w.samples = dropped ++ m.samples ∧
    ∀ s ∈ dropped, s.time ≤ now - config.windowSeconds

theorem Follows.offer (h : Follows config now m w) {sample : LoadReading}
    (hle : now ≤ sample.time) :
    Follows config sample.time (offer config m sample) (offerWhole config w sample) := by
  obtain ⟨dropped, hsamples, hdropped⟩ := h.dropped
  obtain ⟨more, hmore, hold⟩ := exists_dropped config sample.time (m.samples ++ [sample])
  have hall : ∀ s ∈ dropped ++ more, s.time ≤ sample.time - config.windowSeconds := by
    intro s hs
    rcases List.mem_append.mp hs with hs | hs
    · have := hdropped s hs
      linarith
    · exact hold s hs
  have heq : w.samples ++ [sample] =
      dropped ++ more ++ trim config sample.time (m.samples ++ [sample]) := by
    rw [hsamples, List.append_assoc, List.append_assoc, ← hmore]
  have hdwell : ∀ dwellSeconds ≤ config.windowSeconds,
      dwellWindow (trim config sample.time (m.samples ++ [sample])) sample.time dwellSeconds =
        dwellWindow (w.samples ++ [sample]) sample.time dwellSeconds := by
    intro dwellSeconds hdwell
    rw [heq, dwellWindow_append_of_old hall hdwell]
  obtain ⟨hlevel, hchanged⟩ := judge_congr config sample.time
    (m := { m with samples := trim config sample.time (m.samples ++ [sample]) })
    (w := { w with samples := w.samples ++ [sample] }) h.level h.changedAt
    (hdwell _ ((le_max_left _ _).trans config.longest_le))
    (hdwell _ ((le_max_right _ _).trans config.longest_le))
  refine ⟨hlevel, hchanged, dropped ++ more, ?_, hall⟩
  simpa [SustainedLoadMonitor.offer, offerWhole] using heq

theorem Follows.offers (h : Follows config now m w) (hle : ∀ s ∈ samples, now ≤ s.time)
    (hsorted : samples.Pairwise fun s s' => s.time ≤ s'.time) :
    ∃ now', Follows config now' (offers config m samples) (offersWhole config w samples) := by
  induction samples generalizing now m w with
  | nil => exact ⟨now, h⟩
  | cons sample samples ih =>
    rw [List.pairwise_cons] at hsorted
    exact ih (h.offer (hle sample (by simp))) hsorted.1 hsorted.2

theorem follows_reset (m : SustainedLoadMonitor) (now : ℚ) :
    Follows config now m.reset m.reset :=
  ⟨rfl, rfl, [], rfl, by simp⟩

/-- The bounded window gives the verdict of the whole history. -/
theorem level_offers (config : SustainedLoadConfig) (m : SustainedLoadMonitor)
    (hsorted : samples.Pairwise fun s s' => s.time ≤ s'.time) :
    (offers config m.reset samples).level = (offersWhole config m.reset samples).level := by
  cases samples with
  | nil => rfl
  | cons sample samples =>
    have hle : ∀ s ∈ sample :: samples, sample.time ≤ s.time := by
      intro s hs
      rcases List.mem_cons.mp hs with rfl | hs
      · exact le_rfl
      · exact (List.pairwise_cons.mp hsorted).1 s hs
    obtain ⟨now', h⟩ := (follows_reset m sample.time).offers hle hsorted
    exact h.level

/-! Readings that all say the same, as far apart as the configuration asks for. -/

/-- The level, and the dwell that leads to it, of a machine that is loaded or is not. -/
def levelOf : Bool → LoadLevel
  | true => .busy
  | false => .free

def dwellOf (config : SustainedLoadConfig) : Bool → ℚ
  | true => config.busyDwellSeconds
  | false => config.freeDwellSeconds

theorem two_le_expectedSamples (config : SustainedLoadConfig) (dwellSeconds : ℚ) : 2 ≤ expectedSamples config dwellSeconds :=
  le_max_left _ _

theorem fractionOver_uniform (h : ∀ s ∈ samples, s.loaded = loaded) (hne : samples.length ≠ 0) :
    fractionOver samples samples.length = if loaded then 1 else 0 := by
  unfold fractionOver
  rw [if_neg hne]
  cases loaded with
  | true =>
    rw [List.countP_eq_length.mpr h]
    have : (samples.length : ℚ) ≠ 0 := by exact_mod_cast hne
    simp [this]
  | false =>
    rw [List.countP_eq_zero.mpr (by simpa using h)]
    simp

/-- A dwell of readings that say one thing is full of it or decides nothing. -/
theorem crossed_uniform (config : SustainedLoadConfig) (h : ∀ s ∈ samples, s.loaded = loaded)
    (now dwellSeconds : ℚ) (wantsLoaded : Bool) :
    crossed config samples now dwellSeconds wantsLoaded = true ↔
      wantsLoaded = loaded ∧
        expectedSamples config dwellSeconds ≤ (dwellWindow samples now dwellSeconds).length := by
  have huniform : ∀ s ∈ dwellWindow samples now dwellSeconds, s.loaded = loaded :=
    fun s hs => h s (List.mem_filter.mp hs).1
  have hpos := config.fraction_pos
  have hle := config.fraction_le
  have htwo := two_le_expectedSamples config dwellSeconds
  unfold crossed
  simp only
  split_ifs with hfew hwants
  · simp only [false_iff, not_and, not_le]
    exact fun _ => hfew
  · rw [fractionOver_uniform huniform (by omega)]
    cases loaded <;> simp_all [not_le.mpr hpos]
  · rw [fractionOver_uniform huniform (by omega)]
    cases loaded <;> simp_all [not_le.mpr hpos]

/-- Judged on readings that say one thing, a monitor that does not hold the opposite moves to
their level as soon as the dwell is full. -/
theorem level_judge_uniform (h : ∀ s ∈ m.samples, s.loaded = loaded)
    (hlevel : m.level = .unknown ∨ m.level = levelOf loaded) :
    (judge config now m).level =
      if expectedSamples config (dwellOf config loaded) ≤
          (dwellWindow m.samples now (dwellOf config loaded)).length
      then levelOf loaded else m.level := by
  have hcrossed := fun dwellSeconds wantsLoaded =>
    crossed_uniform config h now dwellSeconds wantsLoaded
  unfold judge
  cases loaded with
  | true =>
    rcases hlevel with hlevel | hlevel <;>
      simp [hlevel, hcrossed, levelOf, dwellOf, settle, apply_ite]
  | false =>
    rcases hlevel with hlevel | hlevel <;>
      simp [hlevel, hcrossed, levelOf, dwellOf, settle, apply_ite]

section Paced
variable {start : ℚ} {stream : ℕ → LoadReading} {loaded : Bool}

structure Paced (config : SustainedLoadConfig) (start : ℚ) (loaded : Bool)
    (stream : ℕ → LoadReading) : Prop where
  time : ∀ k, (stream k).time = start + k * config.sampleIntervalSeconds
  loaded : ∀ k, (stream k).loaded = loaded

theorem Paced.sorted (h : Paced config start loaded stream) (n : ℕ) :
    ((List.range n).map stream).Pairwise fun s s' => s.time ≤ s'.time := by
  have hpos := config.interval_pos
  rw [List.pairwise_map]
  apply List.pairwise_lt_range.imp
  intro i j hij
  have : (i : ℚ) ≤ j := by exact_mod_cast hij.le
  rw [h.time, h.time]
  nlinarith

@[simp] theorem samples_offersWhole (samples : List LoadReading) :
    (offersWhole config m samples).samples = m.samples ++ samples := by
  unfold offersWhole
  induction samples generalizing m with
  | nil => simp
  | cons sample samples ih => simp [ih, offerWhole]

theorem offersWhole_succ (stream : ℕ → LoadReading) (n : ℕ) :
    offersWhole config m ((List.range (n + 1)).map stream) =
      offerWhole config (offersWhole config m ((List.range n).map stream)) (stream n) := by
  simp [offersWhole, List.range_succ]

theorem Paced.level_succ (h : Paced config start loaded stream) (n : ℕ)
    (hlevel : (offersWhole config m.reset ((List.range n).map stream)).level = .unknown ∨
      (offersWhole config m.reset ((List.range n).map stream)).level = levelOf loaded) :
    (offersWhole config m.reset ((List.range (n + 1)).map stream)).level =
      if expectedSamples config (dwellOf config loaded) ≤
          (dwellWindow ((List.range (n + 1)).map stream) (stream n).time
            (dwellOf config loaded)).length
      then levelOf loaded
      else (offersWhole config m.reset ((List.range n).map stream)).level := by
  have hsamples : (offersWhole config m.reset ((List.range n).map stream)).samples ++
      [stream n] = (List.range (n + 1)).map stream := by
    simp [reset, List.range_succ]
  rw [offersWhole_succ]
  unfold offerWhole
  rw [hsamples]
  apply level_judge_uniform
  · intro s hs
    obtain ⟨k, -, rfl⟩ := List.mem_map.mp hs
    exact h.loaded k
  · exact hlevel

/-- Nothing but the level of the readings is ever reached. -/
theorem Paced.level_of (h : Paced config start loaded stream) (n : ℕ) :
    (offersWhole config m.reset ((List.range n).map stream)).level = .unknown ∨
      (offersWhole config m.reset ((List.range n).map stream)).level = levelOf loaded := by
  induction n with
  | zero => exact .inl rfl
  | succ n ih =>
    rw [h.level_succ n ih]
    split_ifs
    · exact .inr rfl
    · exact ih

theorem Paced.reaches (h : Paced config start loaded stream)
    (hdwell : config.sampleIntervalSeconds < dwellOf config loaded) :
    (offersWhole config m.reset
      ((List.range (expectedSamples config (dwellOf config loaded))).map stream)).level =
        levelOf loaded := by
  have htwo := two_le_expectedSamples config (dwellOf config loaded)
  obtain ⟨n, hn⟩ : ∃ n, expectedSamples config (dwellOf config loaded) = n + 1 :=
    ⟨_, (Nat.sub_add_cancel (by omega)).symm⟩
  have hpos := config.interval_pos
  have hfits : n * config.sampleIntervalSeconds < dwellOf config loaded := by
    unfold expectedSamples at hn
    rcases le_total 2 ⌊dwellOf config loaded / config.sampleIntervalSeconds⌋₊ with hge | hle
    · rw [max_eq_right hge] at hn
      have hfloor := Nat.floor_le (div_nonneg (hpos.le.trans hdwell.le) hpos.le)
      rw [hn, le_div_iff₀ hpos] at hfloor
      push_cast at hfloor
      linarith
    · rw [max_eq_left hle] at hn
      have : n = 1 := by omega
      subst this
      simpa using hdwell
  have hwindow : dwellWindow ((List.range (n + 1)).map stream) (stream n).time
      (dwellOf config loaded) = (List.range (n + 1)).map stream := by
    apply List.filter_eq_self.mpr
    intro s hs
    obtain ⟨k, -, rfl⟩ := List.mem_map.mp hs
    have : (0 : ℚ) ≤ k := Nat.cast_nonneg k
    simp only [decide_eq_true_eq, h.time]
    nlinarith
  rw [hn, h.level_succ n (h.level_of n), hwindow]
  simp [hn]

/-- Where they come in no more often than the dwell is long, it never holds two of them. -/
theorem Paced.never_reaches (h : Paced config start loaded stream)
    (hdwell : dwellOf config loaded ≤ config.sampleIntervalSeconds) (n : ℕ) :
    (offersWhole config m.reset ((List.range n).map stream)).level = .unknown := by
  induction n with
  | zero => rfl
  | succ n ih =>
    rw [h.level_succ n (.inl ih), ih]
    apply if_neg
    have hpos := config.interval_pos
    have hwindow : (dwellWindow ((List.range (n + 1)).map stream) (stream n).time
        (dwellOf config loaded)).length ≤ 1 := by
      have hbefore : dwellWindow ((List.range n).map stream) (stream n).time
          (dwellOf config loaded) = [] := by
        apply List.filter_eq_nil_iff.mpr
        intro s hs
        obtain ⟨k, hk, rfl⟩ := List.mem_map.mp hs
        have : (k : ℚ) + 1 ≤ n := by exact_mod_cast List.mem_range.mp hk
        simp only [decide_eq_true_eq, not_lt, h.time]
        nlinarith
      unfold dwellWindow at hbefore ⊢
      rw [List.range_succ, List.map_append, List.filter_append, hbefore, List.nil_append]
      exact List.length_filter_le _ _
    have htwo := two_le_expectedSamples config (dwellOf config loaded)
    omega

end Paced

/-- What the monitor is for: forgetting what left the window changes no verdict, and readings
that all say the same settle it. -/
structure Sound (config : SustainedLoadConfig) : Prop where
  bounded : ∀ (m : SustainedLoadMonitor) (samples : List LoadReading),
    (samples.Pairwise fun s s' => s.time ≤ s'.time) →
      (offers config m.reset samples).level = (offersWhole config m.reset samples).level
  settles : ∀ (m : SustainedLoadMonitor) (start : ℚ) (loaded : Bool) (stream : ℕ → LoadReading),
    Paced config start loaded stream →
      ∃ n, (offers config m.reset ((List.range n).map stream)).level = levelOf loaded

/-- Readings of a machine that is always loaded, or never, one every interval. -/
def pacedReadings (config : SustainedLoadConfig) (loaded : Bool) (k : ℕ) : LoadReading where
  time := k * config.sampleIntervalSeconds
  decision := if loaded then .block else .allow
  environmentDecision := .allow

theorem paced_pacedReadings (config : SustainedLoadConfig) (loaded : Bool) :
    Paced config 0 loaded (pacedReadings config loaded) := by
  constructor
  · intro k
    simp [pacedReadings]
  · intro k
    cases loaded <;> rfl

theorem sound_iff (config : SustainedLoadConfig) :
    Sound config ↔ ∀ loaded, config.sampleIntervalSeconds < dwellOf config loaded := by
  constructor
  · intro h loaded
    by_contra hle
    have hpaced := paced_pacedReadings config loaded
    obtain ⟨n, hn⟩ := h.settles ⟨[], .unknown, none⟩ 0 loaded _ hpaced
    rw [level_offers config _ (hpaced.sorted n), hpaced.never_reaches (not_lt.mp hle)] at hn
    cases loaded <;> cases hn
  · intro hdwell
    constructor
    · intro m samples hsorted
      exact level_offers config m hsorted
    · intro m start loaded stream hpaced
      refine ⟨expectedSamples config (dwellOf config loaded), ?_⟩
      rw [level_offers config m (hpaced.sorted _)]
      exact hpaced.reaches (hdwell loaded)

/-- The monitor is sound exactly where both dwells are longer than the sample interval. -/
theorem load_monitor_sound (config : SustainedLoadConfig) :
    Sound config ↔ config.sampleIntervalSeconds < config.busyDwellSeconds ∧
      config.sampleIntervalSeconds < config.freeDwellSeconds := by
  rw [sound_iff, Bool.forall_bool]
  exact and_comm

/-- A reading a minute for dwells of twenty and thirty seconds, which the window holds. -/
def sparseConfig : SustainedLoadConfig :=
  { sampleIntervalSeconds := 60 }

/-- Such a monitor knows nothing after five loaded readings, nor ever. -/
theorem sparse_monitor_never_settles :
    (offers sparseConfig ⟨[], .unknown, none⟩
        ((List.range 5).map (pacedReadings sparseConfig true))).level = .unknown ∧
      ¬ Sound sparseConfig := by
  constructor
  · decide +kernel
  · rw [sound_iff]
    intro h
    have := h true
    simp only [sparseConfig, dwellOf] at this
    norm_num at this

end SustainedLoadMonitor

end QronosAgent.Queue

import QronosAgent.Broker.Effects

/-! An elevated action runs at most once, and only as approved. A nonce is remembered for
`markerSeconds` after it was claimed; within that time it is not claimed again. -/
namespace QronosAgent.Broker
open Lib

variable {F : Type} (p : Platform F)

def Event.isPerformance (nonce : PyStr) : Event F → Bool
  | .performed _ n _ _ => n == nonce
  | _ => false

def performances (log : List (Event F)) (nonce : PyStr) : ℕ :=
  (log.filter (Event.isPerformance nonce)).length

def InTime (w : World F) : Step F → Prop
  | .openMarker r _ => ∀ launch v, w.requests r = some (launch, .opening v) →
    ∀ r' c, Event.claimed r' v.nonce c ∈ w.log → w.clock ≤ c + markerSeconds
  | _ => True

def MarkersDiffer : Prop := Set.InjOn (marker p) {nonce | isHex 32 nonce = true}

def Stage.horizon? : Stage F → Option Seconds
  | .pruning _ horizon | .unlinking _ horizon _ => some horizon
  | _ => none

/-- The directory remembers every nonce that was claimed within `markerSeconds`, and requests
unlink only markers that are older. -/
structure Remembers (w : World F) : Prop where
  once : ∀ r r' nonce c c', Event.claimed r nonce c ∈ w.log → Event.claimed r' nonce c' ∈ w.log →
    r = r' ∧ c = c'
  valid : ∀ r nonce c, Event.claimed r nonce c ∈ w.log → isHex 32 nonce = true
  kept : ∀ r nonce c, Event.claimed r nonce c ∈ w.log →
    w.markers.get? (marker p nonce) = some c ∨ c + markerSeconds < w.clock
  known : ∀ name mtime, w.markers.get? name = some mtime →
    ∃ r nonce, Event.claimed r nonce mtime ∈ w.log ∧ name = marker p nonce
  horizons : ∀ r launch stage horizon, w.requests r = some (launch, stage) →
    stage.horizon? = some horizon → horizon + markerSeconds ≤ w.clock
  stale : ∀ r launch v horizon name, w.requests r = some (launch, .unlinking v horizon name) →
    ∃ r' nonce c, Event.claimed r' nonce c ∈ w.log ∧ name = marker p nonce ∧ c < horizon

variable {p}

theorem remembers_fresh (now : Seconds) : Remembers p (World.fresh (F := F) now) where
  once _ _ _ _ _ h := (nomatch h)
  valid _ _ _ h := (nomatch h)
  kept _ _ _ h := (nomatch h)
  known _ _ h := (nomatch h)
  horizons _ _ _ _ h := (nomatch h)
  stale _ _ _ _ _ h := (nomatch h)

variable {w : World F} {r : ℕ} {launch : Launch F} {stage : Stage F} {events : List (Event F)}
  {nonce : PyStr}

theorem Remembers.tick {now : Seconds} (h : Remembers p w) (hnow : w.clock ≤ now) :
    Remembers p { w with clock := now } where
  once := h.once
  valid := h.valid
  kept r nonce c hc := (h.kept r nonce c hc).imp_right fun hlt => hlt.trans_le hnow
  known := h.known
  horizons r launch stage horizon hr hs := (h.horizons r launch stage horizon hr hs).trans hnow
  stale := h.stale

/-- A step that neither claims a nonce nor touches the directory. -/
theorem Remembers.set (h : Remembers p w)
    (he : ∀ e ∈ events, ∀ r' nonce c, e ≠ .claimed r' nonce c)
    (hhorizon : ∀ horizon, stage.horizon? = some horizon → horizon + markerSeconds ≤ w.clock)
    (hstale : ∀ v horizon name, stage = .unlinking v horizon name →
      ∃ r' nonce c, Event.claimed r' nonce c ∈ w.log ∧ name = marker p nonce ∧ c < horizon) :
    Remembers p (w.set r launch stage events) := by
  have hold : ∀ {r' nonce c}, Event.claimed r' nonce c ∈ (w.set r launch stage events).log ↔
      Event.claimed r' nonce c ∈ w.log := by
    intro r' nonce c
    refine ⟨fun hmem => ?_, fun hmem => List.mem_append_right _ hmem⟩
    rcases List.mem_append.mp hmem with hmem | hmem
    · exact absurd rfl (he _ hmem r' nonce c)
    · exact hmem
  constructor
  · intro r₁ r₂ nonce c c' h₁ h₂
    exact h.once r₁ r₂ nonce c c' (hold.mp h₁) (hold.mp h₂)
  · intro r' nonce c hc
    exact h.valid r' nonce c (hold.mp hc)
  · intro r' nonce c hc
    exact h.kept r' nonce c (hold.mp hc)
  · intro name mtime hm
    obtain ⟨r', nonce, hc, hname⟩ := h.known name mtime hm
    exact ⟨r', nonce, hold.mpr hc, hname⟩
  · intro r' l st horizon hr hs
    by_cases heq : r' = r
    · rw [heq, World.requests_set_self] at hr
      cases hr
      exact hhorizon horizon hs
    · rw [World.requests_set_ne heq] at hr
      exact h.horizons r' l st horizon hr hs
  · intro r' l v horizon name hr
    suffices hs : ∃ r' nonce c, Event.claimed r' nonce c ∈ w.log ∧ name = marker p nonce ∧
        c < horizon by
      obtain ⟨r', nonce, c, hc, hrest⟩ := hs
      exact ⟨r', nonce, c, hold.mpr hc, hrest⟩
    by_cases heq : r' = r
    · rw [heq, World.requests_set_self] at hr
      cases hr
      exact hstale v horizon name rfl
    · rw [World.requests_set_ne heq] at hr
      exact h.stale r' l v horizon name hr

theorem Remembers.erase {horizon : Seconds} {name : PyStr} (h : Remembers p w)
    (hdiffer : MarkersDiffer p) (hhorizon : horizon + markerSeconds ≤ w.clock)
    (hstale : ∃ r nonce c, Event.claimed r nonce c ∈ w.log ∧ name = marker p nonce ∧ c < horizon) :
    Remembers p { w with markers := w.markers.erase name } where
  once := h.once
  valid := h.valid
  kept r nonce c hc := by
    obtain ⟨r', old, c', hc', rfl, hlt⟩ := hstale
    by_cases heq : marker p nonce = marker p old
    · obtain rfl := hdiffer (h.valid _ _ _ hc) (h.valid _ _ _ hc') heq
      obtain ⟨-, rfl⟩ := h.once _ _ _ _ _ hc hc'
      right
      exact (add_lt_add_left hlt _).trans_le hhorizon
    · rcases h.kept r nonce c hc with hm | hlt
      · exact .inl ((Dict.get?_erase_ne heq).trans hm)
      · exact .inr hlt
  known other mtime hm := by
    rw [Dict.get?_erase] at hm
    split at hm
    · contradiction
    · exact h.known other mtime hm
  horizons := h.horizons
  stale := h.stale

/-- A nonce whose marker is absent and that was not claimed too long ago has not been claimed. -/
theorem Remembers.not_claimed (h : Remembers p w) (hnone : w.markers.get? (marker p nonce) = none)
    (htime : ∀ r c, Event.claimed r nonce c ∈ w.log → w.clock ≤ c + markerSeconds) (r : ℕ)
    (c : Seconds) : Event.claimed r nonce c ∉ w.log := by
  intro hc
  rcases h.kept r nonce c hc with hm | hlt
  · rw [hnone] at hm
    contradiction
  · exact absurd hlt (not_lt.mpr (htime r c hc))

theorem Remembers.claim (h : Remembers p w) (hdiffer : MarkersDiffer p)
    (hnonce : isHex 32 nonce = true) (hnone : w.markers.get? (marker p nonce) = none)
    (hnew : ∀ r c, Event.claimed r nonce c ∉ w.log) (hstage : stage.horizon? = none)
    (hevents : ∀ r' n c, Event.claimed r' n c ∈ events ↔ r' = r ∧ n = nonce ∧ c = w.clock) :
    Remembers p { w.set r launch stage events with
      markers := w.markers.set (marker p nonce) w.clock } := by
  have hlog : ∀ {r' n c}, Event.claimed r' n c ∈ events ++ w.log ↔
      (r' = r ∧ n = nonce ∧ c = w.clock) ∨ Event.claimed r' n c ∈ w.log := by
    intro r' n c
    rw [List.mem_append, hevents]
  have hother : ∀ {r' n c}, Event.claimed r' n c ∈ w.log → marker p n ≠ marker p nonce := by
    intro r' n c hc heq
    obtain rfl := hdiffer (h.valid _ _ _ hc) hnonce heq
    exact hnew r' c hc
  have hreq : ∀ {r' : ℕ} {l : Launch F} {st : Stage F},
      (w.set r launch stage events).requests r' = some (l, st) →
      st.horizon? = none ∨ w.requests r' = some (l, st) := by
    intro r' l st hr
    by_cases heq : r' = r
    · rw [heq, World.requests_set_self] at hr
      cases hr
      exact .inl hstage
    · rw [World.requests_set_ne heq] at hr
      exact .inr hr
  constructor
  · intro r₁ r₂ n c₁ c₂ h₁ h₂
    rcases hlog.mp h₁ with ⟨rfl, rfl, rfl⟩ | hold₁ <;>
      rcases hlog.mp h₂ with ⟨rfl, heq, rfl⟩ | hold₂
    · exact ⟨rfl, rfl⟩
    · exact absurd hold₂ (hnew r₂ c₂)
    · exact absurd (heq ▸ hold₁) (hnew r₁ c₁)
    · exact h.once r₁ r₂ n c₁ c₂ hold₁ hold₂
  · intro r' n c hc
    rcases hlog.mp hc with ⟨-, rfl, -⟩ | hc
    · exact hnonce
    · exact h.valid r' n c hc
  · intro r' n c hc
    rcases hlog.mp hc with ⟨-, rfl, rfl⟩ | hc
    · exact .inl Dict.get?_set_self
    · exact (h.kept r' n c hc).imp_left fun hm => (Dict.get?_set_ne (hother hc)).trans hm
  · intro name mtime hm
    dsimp only at hm
    rw [Dict.get?_set] at hm
    split at hm
    · cases hm
      exact ⟨r, nonce, hlog.mpr (.inl ⟨rfl, rfl, rfl⟩), ‹_›⟩
    · obtain ⟨r', n, hc, hname⟩ := h.known name mtime hm
      exact ⟨r', n, hlog.mpr (.inr hc), hname⟩
  · intro r' l st horizon hr hs
    rcases hreq hr with hnone | hr
    · rw [hnone] at hs
      contradiction
    · exact h.horizons r' l st horizon hr hs
  · intro r' l v horizon name hr
    rcases hreq hr with hnone | hr
    · contradiction
    · obtain ⟨r₀, n, c, hc, hrest⟩ := h.stale r' l v horizon name hr
      exact ⟨r₀, n, c, hlog.mpr (.inr hc), hrest⟩

section Runs
variable [PyFloat F]

variable {w w' : World F} {a : Step F}

theorem Remembers.moves {r : ℕ} {launch : Launch F} {stage : Stage F} (h : Remembers p w)
    (hdiffer : MarkersDiffer p) (hshown : Shown p w) (hreq : w.requests r = some (launch, stage))
    (hm : Moves p w r launch stage w') (htime : ∀ v, stage = .opening v →
      ∀ r' c, Event.claimed r' v.nonce c ∈ w.log → w.clock ≤ c + markerSeconds) :
    Remembers p w' := by
  cases hm with
  | ends result hend => exact h.set (by simp) (by simp [Stage.horizon?]) (by simp)
  | checked hv => exact h.set (by simp) (by simp [Stage.horizon?]) (by simp)
  | trusted hsecret => exact h.set (by simp) (by simp [Stage.horizon?]) (by simp)
  | passed => exact h.set (by simp) (by simp [Stage.horizon?]) (by simp)
  | pruning =>
    apply h.set (by simp) ?_ (by simp)
    intro horizon hh
    cases hh
    simp
  | @stale v horizon mtime name hm hlt =>
    apply h.set (by simp)
    · intro horizon' hh
      cases hh
      exact h.horizons r launch _ horizon hreq rfl
    · intro v' horizon' name' he
      cases he
      obtain ⟨r', nonce, hc, hname⟩ := h.known name mtime hm
      exact ⟨r', nonce, mtime, hc, hname, hlt⟩
  | kept => exact h
  | @unlinked v horizon name works =>
    have hhorizon := h.horizons r launch _ horizon hreq rfl
    have hset : Remembers p (w.set r launch (.pruning v horizon) []) := by
      apply h.set (by simp) ?_ (by simp)
      intro horizon' hh
      cases hh
      exact hhorizon
    cases works with
    | false => exact hset
    | true => exact hset.erase hdiffer hhorizon (h.stale r launch v horizon name hreq)
  | pruned => exact h.set (by simp) (by simp [Stage.horizon?]) (by simp)
  | @claimed v stage events hnone hcase =>
    have hstage := hshown.stages r launch _ hreq
    have hnonce := (approved_of_checkRequest p hstage.1.checked.1).2.nonce
    apply h.claim hdiffer hnonce hnone (h.not_claimed hnone (htime v rfl))
    · rcases hcase with ⟨rfl, -⟩ | ⟨rfl, -⟩ <;> rfl
    · rcases hcase with ⟨-, rfl⟩ | ⟨-, rfl⟩ <;> simp
  | performed works => exact h.set (by simp) (by simp [Stage.horizon?]) (by simp)

theorem Remembers.step (h : Remembers p w) (hdiffer : MarkersDiffer p) (hshown : Shown p w)
    (hok : InTime w a) (hs : w.step p a = some w') : Remembers p w' := by
  rcases World.step_cases hs with ⟨now, hnow, rfl⟩ | ⟨r, launch, hnew, rfl⟩ |
    ⟨r, launch, stage, hr, hreq, hadvance⟩
  · exact h.tick hnow
  · exact h.set (by simp) (by simp [Stage.horizon?]) (by simp)
  · apply h.moves hdiffer hshown hreq (World.advance_moves hadvance)
    rintro v rfl
    cases a with
    | openMarker r' answer =>
      obtain rfl : r' = r := hr
      exact hok launch v hreq
    | _ => contradiction

theorem remembers_of_reach (hdiffer : MarkersDiffer p) (h : (machine p).Reach InTime w) :
    Remembers p w := by
  apply h.invariant_of (fun _ hr => shown_of_reach hr)
  · rintro w ⟨now, rfl⟩
    exact remembers_fresh now
  · intro w a w' hshown hw _ hok hs
    exact hw.step hdiffer hshown hok hs

/-- A nonce under which an action was performed is not performed again. -/
theorem performances_step (hw : Remembers p w) (hshown : Shown p w)
    (h : ∀ nonce, performances w.log nonce ≤ 1) (hs : w.step p a = some w') (nonce : PyStr) :
    performances w'.log nonce ≤ 1 := by
  have hkept : ∀ es : List (Event F), (∀ e ∈ es, e.isPerformance nonce = false) →
      performances (es ++ w.log) nonce ≤ 1 := by
    intro es hes
    have hnil : es.filter (Event.isPerformance nonce) = [] := by simpa using hes
    rw [performances, List.filter_append, hnil]
    exact h nonce
  rcases World.step_cases hs with ⟨now, -, rfl⟩ | ⟨r, launch, -, rfl⟩ |
    ⟨r, launch, stage, -, hreq, hadvance⟩
  · exact h nonce
  · exact h nonce
  · cases World.advance_moves hadvance with
    | ends result hend => exact hkept [_] (by simp [Event.isPerformance])
    | checked hv => exact hkept [_] (by simp [Event.isPerformance])
    | trusted hsecret => exact hkept [_] (by simp [Event.isPerformance])
    | passed => exact hkept [_] (by simp [Event.isPerformance])
    | claimed hnone hcase =>
      rcases hcase with ⟨-, rfl⟩ | ⟨-, rfl⟩ <;> exact hkept _ (by simp [Event.isPerformance])
    | @performed v works =>
      obtain ⟨-, ⟨c, hc⟩, hun⟩ := hshown.stages r launch _ hreq
      by_cases hn : v.nonce = nonce
      · have hnil : w.log.filter (Event.isPerformance nonce) = [] := by
          apply List.filter_eq_nil_iff.mpr
          intro e he hperf
          cases e with
          | performed r' n kind params =>
            obtain rfl : n = nonce := by simpa [Event.isPerformance] using hperf
            obtain ⟨-, -, -, -, -, -, -, c', hc'⟩ := hshown.events _ he
            obtain ⟨rfl, -⟩ := hw.once _ _ _ _ _ hc (hn ▸ hc')
            exact hun n kind params he
          | _ => simp [Event.isPerformance] at hperf
        rw [World.set, performances, List.filter_append, hnil]
        simp [Event.isPerformance, hn]
      · exact hkept [_, _] (by simp [Event.isPerformance, hn])
    | _ => exact h nonce

theorem performances_of_reach (hdiffer : MarkersDiffer p) (h : (machine p).Reach InTime w) :
    ∀ nonce, performances w.log nonce ≤ 1 := by
  apply h.invariant_of (I := fun w => Remembers p w ∧ Shown p w)
    (fun _ hr => ⟨remembers_of_reach hdiffer hr, shown_of_reach hr⟩)
  · rintro w ⟨now, rfl⟩ nonce
    exact Nat.zero_le 1
  · intro w a w' hI hw _ _ hs
    exact performances_step hI.1 hI.2 hw hs

end Runs
end QronosAgent.Broker

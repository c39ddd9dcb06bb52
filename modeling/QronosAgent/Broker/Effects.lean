import QronosAgent.Broker.Runs

/-! What one step of a broker launch does, and what every request has shown by then. -/
namespace QronosAgent.Broker
open Lib

variable {F : Type} [PyFloat F] (p : Platform F)

def Stage.mayEnd : Stage F → Bool
  | .unlinking _ _ _ | .claimed _ | .ended => false
  | _ => true

inductive Moves (w : World F) (r : ℕ) (launch : Launch F) : Stage F → World F → Prop where
  | ends {stage : Stage F} (result : Result) : stage.mayEnd = true →
      Moves w r launch stage (w.finish r launch result)
  | checked {v : Verified F} : checkRequest p launch w.clock = .ok v →
      Moves w r launch .received (w.set r launch (.approved v) [.checked r v.now])
  | trusted {v : Verified F} {secret : PyStr} : launch.secret? = some secret →
      Moves w r launch (.approved v) (w.set r launch (.trusted v) [.secretAccepted r secret])
  | passed {v : Verified F} :
      Moves w r launch (.trusted v) (w.set r launch (.passed v) [.gatePassed r v.request])
  | pruning {v : Verified F} : Moves w r launch (.passed v)
      (w.set r launch (.pruning v (w.clock - markerSeconds)) [])
  | stale {v : Verified F} {horizon mtime : Seconds} {name : PyStr} :
      w.markers.get? name = some mtime → mtime < horizon →
      Moves w r launch (.pruning v horizon) (w.set r launch (.unlinking v horizon name) [])
  | kept {v : Verified F} {horizon : Seconds} : Moves w r launch (.pruning v horizon) w
  | unlinked {v : Verified F} {horizon : Seconds} {name : PyStr} (works : Bool) :
      Moves w r launch (.unlinking v horizon name)
        { w.set r launch (.pruning v horizon) [] with
          markers := if works then w.markers.erase name else w.markers }
  | pruned {v : Verified F} {horizon : Seconds} :
      Moves w r launch (.pruning v horizon) (w.set r launch (.opening v) [])
  | claimed {v : Verified F} {stage : Stage F} {events : List (Event F)} :
      w.markers.get? (marker p v.nonce) = none →
      stage = .claimed v ∧ events = [.claimed r v.nonce w.clock] ∨
        stage = .ended ∧ events = [.ended r .raised, .claimed r v.nonce w.clock] →
      Moves w r launch (.opening v)
        { w.set r launch stage events with
          markers := w.markers.set (marker p v.nonce) w.clock }
  | performed {v : Verified F} (works : Bool) : Moves w r launch (.claimed v)
      (w.set r launch .ended
        [.ended r (if works then .performed else .failed), .performed r v.nonce v.kind v.params])

variable {p}

theorem World.advance_moves {w w' : World F} {r : ℕ} {launch : Launch F} {stage : Stage F}
    {a : Step F} (h : w.advance p r launch stage a = some w') : Moves p w r launch stage w' := by
  unfold World.advance at h
  split at h
  · split at h
    · cases h
      exact .ends _ rfl
    · cases h
      exact .checked ‹_›
  · split at h
    · split at h
      · cases h
        exact .trusted ‹_›
      · cases h
        exact .ends _ rfl
    · cases h
      exact .ends _ rfl
  · split at h
    · cases h
      exact .ends _ rfl
    · split at h
      · cases h
        exact .passed
      · cases h
        exact .ends _ rfl
      · cases h
        exact .ends _ rfl
  · split at h
    · cases h
      exact .ends _ rfl
    · split at h
      · cases h
        exact .pruning
      · cases h
        exact .ends _ rfl
  · split at h
    · split at h
      · cases h
        exact .stale ‹_› ‹_›
      · cases h
        exact .kept
    · cases h
      exact .kept
  · cases h
    exact .unlinked _
  · split at h
    · cases h
      exact .pruned
    · cases h
      exact .ends _ rfl
  · split at h
    · cases h
      exact .ends _ rfl
    · split at h
      · cases h
        exact .ends _ rfl
      · split at h
        · cases h
          exact .claimed ‹_› (.inr ⟨rfl, rfl⟩)
        · cases h
          exact .claimed ‹_› (.inl ⟨rfl, rfl⟩)
  · cases h
    exact .performed _
  · contradiction

theorem World.step_cases {w w' : World F} {a : Step F} (h : w.step p a = some w') :
    (∃ now, w.clock ≤ now ∧ w' = { w with clock := now }) ∨
    (∃ r launch, w.requests r = none ∧ w' = w.set r launch .received []) ∨
    ∃ r launch stage, a.request = r ∧ w.requests r = some (launch, stage) ∧
      w.advance p r launch stage a = some w' := by
  unfold World.step at h
  split at h
  · split at h
    · cases h
      exact .inl ⟨_, ‹_›, rfl⟩
    · contradiction
  · split at h
    · cases h
      exact .inr (.inl ⟨_, _, ‹_›, rfl⟩)
    · contradiction
  · split at h
    · contradiction
    · exact .inr (.inr ⟨_, _, _, rfl, ‹_›, h⟩)

def Event.request : Event F → ℕ
  | .checked r _ | .secretAccepted r _ | .gatePassed r _ | .claimed r _ _ | .performed r _ _ _
  | .ended r _ => r

def Event.touches : Event F → Bool
  | .claimed _ _ _ | .performed _ _ _ _ => true
  | _ => false

section Shown
variable (p) (log : List (Event F)) (r : ℕ) (launch : Launch F)

def Untouched : Prop := ∀ e ∈ log, e.request = r → e.touches = false

def Unperformed : Prop := ∀ nonce kind params, Event.performed r nonce kind params ∉ log

def Checked (v : Verified F) : Prop :=
  checkRequest p launch v.now = .ok v ∧ Event.checked r v.now ∈ log

def SecretAccepted : Prop :=
  ∃ secret, launch.secret? = some secret ∧ Event.secretAccepted r secret ∈ log

/-- Everything that a request must have shown before its nonce is claimed. -/
structure Cleared (v : Verified F) : Prop where
  checked : Checked p log r launch v
  secret : SecretAccepted log r launch
  gate : Event.gatePassed r v.request ∈ log

def StageShown : Stage F → Prop
  | .received => Untouched log r
  | .approved v => Checked p log r launch v ∧ Untouched log r
  | .trusted v => (Checked p log r launch v ∧ SecretAccepted log r launch) ∧ Untouched log r
  | .passed v | .pruning v _ | .unlinking v _ _ | .opening v =>
    Cleared p log r launch v ∧ Untouched log r
  | .claimed v =>
    Cleared p log r launch v ∧ (∃ c, Event.claimed r v.nonce c ∈ log) ∧ Unperformed log r
  | .ended => True

end Shown

def EventShown (p : Platform F) (w : World F) : Event F → Prop
  | .performed r nonce kind params => ∃ launch v, w.requests r = some (launch, .ended) ∧
    Cleared p w.log r launch v ∧ v.nonce = nonce ∧ v.kind = kind ∧ v.params = params ∧
    ∃ c, Event.claimed r nonce c ∈ w.log
  | .ended r (.refused _ _) => Untouched w.log r ∧ ∃ launch, w.requests r = some (launch, .ended)
  | e => (w.requests e.request).isSome

structure Shown (p : Platform F) (w : World F) : Prop where
  stages : ∀ r launch stage, w.requests r = some (launch, stage) →
    StageShown p w.log r launch stage
  events : ∀ e ∈ w.log, EventShown p w e

section Grow
variable {log events : List (Event F)} {r : ℕ} {launch : Launch F}

theorem Checked.grow {v : Verified F} (h : Checked p log r launch v) :
    Checked p (events ++ log) r launch v := ⟨h.1, List.mem_append_right _ h.2⟩

omit [PyFloat F] in
theorem SecretAccepted.grow (h : SecretAccepted log r launch) :
    SecretAccepted (events ++ log) r launch := by
  obtain ⟨secret, hs, he⟩ := h
  exact ⟨secret, hs, List.mem_append_right _ he⟩

theorem Cleared.grow {v : Verified F} (h : Cleared p log r launch v) :
    Cleared p (events ++ log) r launch v :=
  ⟨h.checked.grow, h.secret.grow, List.mem_append_right _ h.gate⟩

omit [PyFloat F] in
theorem Untouched.grow (h : Untouched log r) (he : ∀ e ∈ events, e.request = r → e.touches = false) :
    Untouched (events ++ log) r := by
  intro e hmem
  rcases List.mem_append.mp hmem with hmem | hmem
  · exact he e hmem
  · exact h e hmem

omit [PyFloat F] in
theorem Unperformed.grow (h : Unperformed log r) (he : ∀ e ∈ events, e.request ≠ r) :
    Unperformed (events ++ log) r := by
  intro nonce kind params hmem
  rcases List.mem_append.mp hmem with hmem | hmem
  · exact he _ hmem rfl
  · exact h nonce kind params hmem

/-- What other requests do does not take back what one has shown. -/
theorem StageShown.grow {stage : Stage F} (h : StageShown p log r launch stage)
    (he : ∀ e ∈ events, e.request ≠ r) : StageShown p (events ++ log) r launch stage := by
  have hu : Untouched log r → Untouched (events ++ log) r :=
    fun h => h.grow fun e hmem hr => absurd hr (he e hmem)
  cases stage with
  | received => exact hu h
  | approved v => exact ⟨h.1.grow, hu h.2⟩
  | trusted v => exact ⟨⟨h.1.1.grow, h.1.2.grow⟩, hu h.2⟩
  | passed v => exact ⟨h.1.grow, hu h.2⟩
  | pruning v horizon => exact ⟨h.1.grow, hu h.2⟩
  | unlinking v horizon name => exact ⟨h.1.grow, hu h.2⟩
  | opening v => exact ⟨h.1.grow, hu h.2⟩
  | claimed v =>
    obtain ⟨c, hc⟩ := h.2.1
    exact ⟨h.1.grow, ⟨c, List.mem_append_right _ hc⟩, h.2.2.grow he⟩
  | ended => trivial

end Grow

section Set
variable {w : World F} {r : ℕ} {launch : Launch F} {stage : Stage F} {events : List (Event F)}

omit [PyFloat F] in
theorem World.requests_set_self : (w.set r launch stage events).requests r = some (launch, stage) :=
  Function.update_self ..

omit [PyFloat F] in
theorem World.requests_set_ne {r' : ℕ} (h : r' ≠ r) :
    (w.set r launch stage events).requests r' = w.requests r' := Function.update_of_ne h ..

/-- The old events keep what they say when a request that had not ended takes a step. -/
theorem EventShown.set {e : Event F} (h : EventShown p w e)
    (hr : ∀ l, w.requests r ≠ some (l, .ended)) (he : ∀ e' ∈ events, e'.request = r) :
    EventShown p (w.set r launch stage events) e := by
  have hne : ∀ {r' l}, w.requests r' = some (l, .ended) → r' ≠ r := by
    rintro r' l hr' rfl
    exact hr l hr'
  have hsome : ∀ r', (w.requests r').isSome → ((w.set r launch stage events).requests r').isSome := by
    intro r' hr'
    by_cases heq : r' = r
    · rw [heq, World.requests_set_self]
      rfl
    · rwa [World.requests_set_ne heq]
  cases e with
  | performed r' nonce kind params =>
    obtain ⟨l, v, hreq, hcleared, hnonce, hkind, hparams, c, hc⟩ := h
    exact ⟨l, v, (World.requests_set_ne (hne hreq)).trans hreq, hcleared.grow, hnonce, hkind,
      hparams, c, List.mem_append_right _ hc⟩
  | ended r' result =>
    cases result with
    | refused outcome detail =>
      obtain ⟨hu, l, hreq⟩ := h
      refine ⟨hu.grow fun e' hmem heq => ?_, l, (World.requests_set_ne (hne hreq)).trans hreq⟩
      exact absurd (heq.symm.trans (he e' hmem)) (hne hreq)
    | _ => exact hsome _ h
  | _ => exact hsome _ h

/-- A step of one request keeps what is known, given what it shows itself. -/
theorem Shown.set (h : Shown p w) (hr : ∀ l, w.requests r ≠ some (l, .ended))
    (he : ∀ e ∈ events, e.request = r) (hstage : StageShown p (events ++ w.log) r launch stage)
    (hevents : ∀ e ∈ events, EventShown p (w.set r launch stage events) e) :
    Shown p (w.set r launch stage events) where
  stages r' l st hreq := by
    by_cases heq : r' = r
    · rw [heq, World.requests_set_self] at hreq
      cases hreq
      exact heq ▸ hstage
    · rw [World.requests_set_ne heq] at hreq
      exact (h.stages r' l st hreq).grow fun e hmem hr' => heq (hr'.symm.trans (he e hmem))
  events e hmem := by
    rcases List.mem_append.mp hmem with hmem | hmem
    · exact hevents e hmem
    · exact (h.events e hmem).set hr he

end Set

theorem Shown.congr {w w' : World F} (h : Shown p w) (hr : w'.requests = w.requests)
    (hl : w'.log = w.log) : Shown p w' where
  stages := by
    rw [hr, hl]
    exact h.stages
  events e he := by
    rw [hl] at he
    have hshown := h.events e he
    cases e with
    | ended r result => cases result <;> simpa [EventShown, hr, hl] using hshown
    | _ => simpa [EventShown, hr, hl] using hshown

theorem Shown.isSome {w : World F} (h : Shown p w) {e : Event F} (he : e ∈ w.log) :
    (w.requests e.request).isSome := by
  have hshown := h.events e he
  cases e with
  | performed r nonce kind params =>
    obtain ⟨l, v, hreq, -⟩ := hshown
    simp [Event.request, hreq]
  | ended r result =>
    cases result with
    | refused outcome detail =>
      obtain ⟨-, l, hreq⟩ := hshown
      simp [Event.request, hreq]
    | _ => exact hshown
  | _ => exact hshown

theorem StageShown.untouched {log : List (Event F)} {r : ℕ} {launch : Launch F} {stage : Stage F}
    (h : StageShown p log r launch stage) (hend : stage.mayEnd = true) : Untouched log r := by
  cases stage with
  | received => exact h
  | unlinking v horizon name => contradiction
  | claimed v => contradiction
  | ended => contradiction
  | _ => exact h.2

theorem Shown.moves {w w' : World F} {r : ℕ} {launch : Launch F} {stage : Stage F}
    (h : Shown p w) (hreq : w.requests r = some (launch, stage))
    (hm : Moves p w r launch stage w') : Shown p w' := by
  have hstage := h.stages r launch stage hreq
  have hlive : stage.mayEnd = true ∨ (∃ v x y, stage = .unlinking v x y) ∨ (∃ v, stage = .claimed v) →
      ∀ l, w.requests r ≠ some (l, .ended) := by
    rintro hs l hl
    rw [hreq] at hl
    cases hl
    simp [Stage.mayEnd] at hs
  have hsome : ∀ {st : Stage F} {es : List (Event F)},
      ((w.set r launch st es).requests r).isSome := by
    intro st es
    rw [World.requests_set_self]
    rfl
  cases hm with
  | ends result hend =>
    have hu : Untouched ([.ended r result] ++ w.log) r :=
      (hstage.untouched hend).grow (by simp [Event.touches])
    refine h.set (hlive (.inl hend)) (by simp [Event.request]) trivial ?_
    intro e he
    cases List.mem_singleton.mp he
    cases result with
    | refused outcome detail => exact ⟨hu, launch, World.requests_set_self⟩
    | _ => exact hsome
  | @checked v hv =>
    have hnow := (approved_of_checkRequest p hv).1
    refine h.set (hlive (.inl rfl)) (by simp [Event.request]) ⟨⟨?_, by simp⟩, ?_⟩ ?_
    · rw [hnow]
      exact hv
    · exact Untouched.grow hstage (by simp [Event.touches])
    · intro e he
      cases List.mem_singleton.mp he
      exact hsome
  | trusted hsecret =>
    refine h.set (hlive (.inl rfl)) (by simp [Event.request])
      ⟨⟨hstage.1.grow, _, hsecret, by simp⟩, hstage.2.grow (by simp [Event.touches])⟩ ?_
    intro e he
    cases List.mem_singleton.mp he
    exact hsome
  | passed =>
    refine h.set (hlive (.inl rfl)) (by simp [Event.request])
      ⟨⟨hstage.1.1.grow, hstage.1.2.grow, by simp⟩, hstage.2.grow (by simp [Event.touches])⟩ ?_
    intro e he
    cases List.mem_singleton.mp he
    exact hsome
  | pruning => exact h.set (hlive (.inl rfl)) (by simp) hstage (by simp)
  | stale => exact h.set (hlive (.inl rfl)) (by simp) hstage (by simp)
  | kept => exact h
  | @unlinked v horizon name works =>
    have hset : Shown p (w.set r launch (.pruning v horizon) []) :=
      h.set (hlive (.inr (.inl ⟨_, _, _, rfl⟩))) (by simp) hstage (by simp)
    exact hset.congr rfl rfl
  | pruned => exact h.set (hlive (.inl rfl)) (by simp) hstage (by simp)
  | @claimed v stage events hnone hcase =>
    suffices hset : Shown p (w.set r launch stage events) from hset.congr rfl rfl
    rcases hcase with ⟨rfl, rfl⟩ | ⟨rfl, rfl⟩
    · refine h.set (hlive (.inl rfl)) (by simp [Event.request])
        ⟨hstage.1.grow, ⟨w.clock, by simp⟩, ?_⟩ ?_
      · intro nonce kind params hmem
        simp only [List.cons_append, List.nil_append, List.mem_cons, reduceCtorEq,
          false_or] at hmem
        exact absurd (hstage.2 _ hmem rfl) (by simp [Event.touches])
      · intro e he
        cases List.mem_singleton.mp he
        exact hsome
    · refine h.set (hlive (.inl rfl)) (by simp [Event.request]) trivial ?_
      intro e he
      simp only [List.mem_cons, List.not_mem_nil, or_false] at he
      rcases he with rfl | rfl <;> exact hsome
  | @performed v works =>
    obtain ⟨hcleared, ⟨c, hc⟩, -⟩ := hstage
    refine h.set (hlive (.inr (.inr ⟨_, rfl⟩))) (by simp [Event.request]) trivial ?_
    intro e he
    simp only [List.mem_cons, List.not_mem_nil, or_false] at he
    rcases he with rfl | rfl
    · cases works <;> exact hsome
    · exact ⟨launch, v, World.requests_set_self, hcleared.grow, rfl, rfl, rfl, c,
        List.mem_append_right _ hc⟩

theorem Shown.step {w w' : World F} {a : Step F} (h : Shown p w) (hs : w.step p a = some w') :
    Shown p w' := by
  rcases World.step_cases hs with ⟨now, -, rfl⟩ | ⟨r, launch, hnew, rfl⟩ |
    ⟨r, launch, stage, -, hreq, hadvance⟩
  · exact h.congr rfl rfl
  · refine h.set (by simp [hnew]) (by simp) ?_ (by simp)
    intro e he hr
    have hsome := h.isSome he
    rw [hr, hnew] at hsome
    contradiction
  · exact h.moves hreq (World.advance_moves hadvance)

theorem shown_of_reach {ok : World F → Step F → Prop} {w : World F}
    (h : (machine p).Reach ok w) : Shown p w := by
  apply h.invariant
  · rintro w ⟨now, rfl⟩
    exact ⟨fun r l st hr => (nomatch hr), fun e he => (nomatch he)⟩
  · intro w a w' hw _ hs
    exact hw.step hs

end QronosAgent.Broker

import QronosAgent.Actions.Registry

/-! Where no sweep falls between the check and the registration of an action that it is to stop,
every sweep reaches what it is to stop. -/
namespace QronosAgent.Actions
open Lib

structure Turn.Ok (turn : Turn) {T : Type} (s : Registry T) : Prop where
  epoch : turn.epoch ≤ s.epoch
  since : turn.since ≤ s.given.length
  stopped : turn.epoch < s.epoch → ∃ r, s.lastReason = some r ∧ r ∈ s.given.drop turn.since
  closed : s.closed = true → turn.closed = true ∨ .shutdown ∈ s.given.drop turn.since

structure Action.Ok {T : Type} (s : Registry T) (a : Action) : Prop where
  since : a.since ≤ s.given.length
  epoch : ∀ t, a.turn = some t → t.epoch ≤ s.epoch
  reason : ∀ r, a.token.reason = some r → a.Given s.given r
  found : ∀ r, a.stage = .checked (some r) → a.Given s.given r
  refused : a.stage = .refused → a.token.reason.isSome = true
  /-- Without `close`, what is stopped was stopped by a sweep after the turn's beginning. -/
  late : a.token.reason.isSome = true ∨ (∃ r, a.stage = .checked (some r)) → s.closed = false →
    ∀ t, a.turn = some t → t.epoch < s.epoch
  entry : ∀ e, a.stage.entry? = some e → e ≤ s.epoch
  left : ∀ e l, a.stage = .exited e l → l ≤ s.epoch
  passed : a.stage = .checked none → ∀ t, a.turn = some t → t.epoch = s.epoch
  unswept : a.stage = .checked none → ∀ call ∈ s.calls, call.ofClose = true → call.stage.sweep? = none
  born : ∀ e t, a.stage.entry? = some e → a.turn = some t → t.epoch < e →
    a.token.reason.isSome = true
  bornClosed : ∀ e k, a.stage.entry? = some e → ∀ call ∈ s.calls, call.ofClose = true →
    call.stage.sweep? = some k → k ≤ e → a.token.reason.isSome = true

structure Call.Ok {T : Type} (s : Registry T) (call : Call) : Prop where
  closed : call.ofClose = true → s.closed = true
  sweep : ∀ k, call.stage.sweep? = some k → k ≤ s.epoch
  covers : ∀ k, call.stage.sweep? = some k → ∀ (b : ℕ) a, s.begins[b]? = some a → a.stage.In k →
    a.token.reason.isSome = true ∨ b ∈ call.stage.rest
  rest : ∀ b ∈ call.stage.rest, ∃ a, s.begins[b]? = some a ∧ call.reason ∈ s.given.drop a.since ∧
    ∀ t, a.turn = some t → t.epoch < s.epoch

structure Inv {T : Type} (s : Registry T) : Prop where
  turns : ∀ t turn, s.turn t = some turn → turn.Ok s
  shutdown : s.closed = true → .shutdown ∈ s.given
  begins : ∀ a ∈ s.begins, a.Ok s
  calls : ∀ call ∈ s.calls, call.Ok s
  listed : ∀ key b, (key, b) ∈ s.active.items ↔
    ∃ a e, s.begins[b]? = some a ∧ a.stage = .running key e
  keys : ∀ key b, (key, b) ∈ s.active.items → key < s.nextKey
  sweeps : ∀ k, 0 < k → k ≤ s.epoch → ∃ call ∈ s.calls, call.stage.sweep? = some k

section
variable {T : Type} {s s' : Registry T}

/-! A state that has only grown: no sweep, reasons added at the end. -/

structure Registry.Grows (s s' : Registry T) : Prop where
  epoch : s'.epoch = s.epoch
  given : s.given <+: s'.given
  closed : s.closed = true → s'.closed = true
  swept : ∀ call' ∈ s'.calls, ∀ k, call'.stage.sweep? = some k →
    ∃ call ∈ s.calls, call.stage.sweep? = some k ∧ call.ofClose = call'.ofClose

structure Registry.Quiet (s s' : Registry T) : Prop where
  epoch : s'.epoch = s.epoch
  given : s'.given = s.given
  closed : s'.closed = s.closed
  calls : s'.calls = s.calls
  lastReason : s'.lastReason = s.lastReason

theorem Registry.Quiet.grows (h : s.Quiet s') : s.Grows s' := by
  refine ⟨h.epoch, h.given ▸ List.prefix_rfl, fun hclosed => h.closed ▸ hclosed, ?_⟩
  rw [h.calls]
  exact fun call hcall k hk => ⟨call, hcall, hk, rfl⟩

variable {xs ys : List Reason} {n key e b c k : ℕ} {r : Reason} {a a' : Action} {turn : Turn}
  {t : T} {call' : Call} {labels : List PyStr} {act : Act T}

theorem mem_drop_mono (h : xs <+: ys) (hr : r ∈ xs.drop n) : r ∈ ys.drop n := by
  obtain ⟨zs, rfl⟩ := h
  rw [List.drop_append]
  exact List.mem_append_left _ hr

theorem mem_drop_append (h : n ≤ xs.length) (r : Reason) :
    r ∈ (xs ++ [r]).drop n := by
  rw [List.drop_append_of_le_length h]
  simp

theorem Action.Given.mono (h : xs <+: ys) (hr : a.Given xs r) : a.Given ys r := by
  rcases hr with hr | hr
  · exact .inl (mem_drop_mono h hr)
  · exact .inr hr

theorem Action.Ok.grows (h : a.Ok s) (hs : s.Grows s') : a.Ok s' := by
  constructor
  · exact h.since.trans hs.given.length_le
  · rw [hs.epoch]
    exact h.epoch
  · exact fun r hr => (h.reason r hr).mono hs.given
  · exact fun r hr => (h.found r hr).mono hs.given
  · exact h.refused
  · intro hlate hopen
    rw [hs.epoch]
    apply h.late hlate
    by_contra hclosed
    rw [hs.closed (by simpa using hclosed)] at hopen
    cases hopen
  · rw [hs.epoch]
    exact h.entry
  · rw [hs.epoch]
    exact h.left
  · rw [hs.epoch]
    exact h.passed
  · intro hstage call' hcall' hclose
    cases hk : call'.stage.sweep? with
    | none => rfl
    | some k =>
      obtain ⟨call, hcall, hsweep, hkind⟩ := hs.swept call' hcall' k hk
      rw [h.unswept hstage call hcall (hkind.trans hclose)] at hsweep
      cases hsweep
  · exact h.born
  · intro e k he call' hcall' hclose hk hle
    obtain ⟨call, hcall, hsweep, hkind⟩ := hs.swept call' hcall' k hk
    exact h.bornClosed e k he call hcall (hkind.trans hclose) hsweep hle

theorem Turn.Ok.grows (h : turn.Ok s) (hs : s.Grows s') (hlast : s'.lastReason = s.lastReason)
    (hclosed : s'.closed = s.closed ∨ ∃ n, turn.since ≤ n ∧ .shutdown ∈ s'.given.drop n) :
    turn.Ok s' := by
  constructor
  · exact hs.epoch ▸ h.epoch
  · exact h.since.trans hs.given.length_le
  · intro hlt
    rw [hs.epoch] at hlt
    obtain ⟨r, hr, hmem⟩ := h.stopped hlt
    exact ⟨r, hlast.trans hr, mem_drop_mono hs.given hmem⟩
  · intro hc
    rcases hclosed with heq | ⟨n, hn, hmem⟩
    · rw [heq] at hc
      exact (h.closed hc).imp_right (mem_drop_mono hs.given)
    · right
      obtain ⟨m, rfl⟩ := Nat.exists_eq_add_of_le hn
      rw [← List.drop_drop] at hmem
      exact List.mem_of_mem_drop hmem

theorem CancellationToken.cancel_reason (token : CancellationToken) (r : Reason) :
    (token.cancel r).1.reason = some (token.reason.getD r) := by
  unfold CancellationToken.cancel CancellationToken.cancelled
  cases h : token.reason <;> simp [h]

theorem Action.Ok.cancel (h : a.Ok s) (hr : a.Given s.given r)
    (hlate : s.closed = false → ∀ t, a.turn = some t → t.epoch < s.epoch) :
    ({ a with token := (a.token.cancel r).1 } : Action).Ok s := by
  have hsome : (a.token.cancel r).1.reason.isSome = true := by
    rw [CancellationToken.cancel_reason]
    rfl
  refine ⟨h.since, h.epoch, ?_, h.found, fun _ => hsome, fun _ => hlate, h.entry, h.left, h.passed,
    h.unswept, fun _ _ _ _ _ => hsome, fun _ _ _ _ _ _ _ _ => hsome⟩
  intro r' hr'
  rw [CancellationToken.cancel_reason, Option.some.injEq] at hr'
  cases htoken : a.token.reason with
  | none =>
    rw [htoken] at hr'
    exact hr' ▸ hr
  | some r₀ =>
    rw [htoken] at hr'
    exact hr' ▸ h.reason r₀ htoken

theorem Action.Ok.refuse (h : a.Ok s) (hstage : a.stage = .checked (some r)) :
    ({ a with token := (a.token.cancel r).1, stage := .refused } : Action).Ok s := by
  have hlate := h.late (.inr ⟨r, hstage⟩)
  have hcancel := h.cancel (h.found r hstage) hlate
  refine ⟨h.since, h.epoch, hcancel.reason, ?_, ?_, fun _ => hlate, ?_, ?_, ?_, ?_, ?_, ?_⟩
  · intro r' hr'
    cases hr'
  · intro _
    rw [CancellationToken.cancel_reason]
    rfl
  · intro e he
    cases he
  · intro e l hl
    cases hl
  · intro hpassed
    cases hpassed
  · intro hpassed
    cases hpassed
  · intro e t he
    cases he
  · intro e k he
    cases he

theorem Action.Ok.register (h : a.Ok s) (key : ℕ)
    (hstage : a.stage = .checked none ∨ a.stage = .refused) :
    ({ a with stage := .running key s.epoch } : Action).Ok s := by
  refine ⟨h.since, h.epoch, h.reason, ?_, ?_, ?_, ?_, ?_, ?_, ?_, ?_, ?_⟩
  · intro r hr
    cases hr
  · intro hr
    cases hr
  · rintro (hsome | ⟨r, hr⟩)
    · exact h.late (.inl hsome)
    · cases hr
  · intro e he
    cases he
    exact le_rfl
  · intro e l hl
    cases hl
  · intro hpassed
    cases hpassed
  · intro hpassed
    cases hpassed
  · intro e t he ht hlt
    cases he
    rcases hstage with hstage | hstage
    · have hpassed := h.passed hstage t ht
      omega
    · exact h.refused hstage
  · intro e k he call hcall hclose hk hle
    rcases hstage with hstage | hstage
    · rw [h.unswept hstage call hcall hclose] at hk
      cases hk
    · exact h.refused hstage

theorem Action.Ok.exit (h : a.Ok s) (hstage : a.stage = .running key e) :
    ({ a with stage := .exited e s.epoch } : Action).Ok s := by
  have hentry : a.stage.entry? = some e := by
    rw [hstage]
    rfl
  refine ⟨h.since, h.epoch, h.reason, ?_, ?_, ?_, ?_, ?_, ?_, ?_, ?_, ?_⟩
  · intro r hr
    cases hr
  · intro hr
    cases hr
  · rintro (hsome | ⟨r, hr⟩)
    · exact h.late (.inl hsome)
    · cases hr
  · intro e' he
    cases he
    exact h.entry e hentry
  · intro e' l hl
    cases hl
    exact le_rfl
  · intro hpassed
    cases hpassed
  · intro hpassed
    cases hpassed
  · intro e' t he
    cases he
    exact h.born e t hentry
  · intro e' k he
    cases he
    exact h.bornClosed e k hentry

/-- What `stopped_since_turn_start` answers, in an open registry. -/
theorem Inv.stopped_cases (h : Inv s) (hopen : s.closed = false) (ht : s.turn t = some turn) :
    turn.epoch = s.epoch ∧ s.stoppedSinceTurnStart t = none ∨
      turn.epoch < s.epoch ∧ ∃ r, s.stoppedSinceTurnStart t = some r ∧ r ∈ s.given.drop turn.since := by
  have hturn := h.turns t turn ht
  unfold Registry.stoppedSinceTurnStart
  rw [if_neg (by simp [hopen]), ht, Option.bind_some]
  by_cases heq : turn.epoch = s.epoch
  · exact .inl ⟨heq, if_neg (not_not.mpr heq)⟩
  · have hlt : turn.epoch < s.epoch := lt_of_le_of_ne hturn.epoch heq
    obtain ⟨r, hr, hmem⟩ := hturn.stopped hlt
    exact .inr ⟨hlt, r, (if_pos heq).trans hr, hmem⟩

theorem stopped_unmarked (hopen : s.closed = false) (ht : s.turn t = none) :
    s.stoppedSinceTurnStart t = none := by
  simp [Registry.stoppedSinceTurnStart, hopen, ht]

theorem stopped_closed (hclosed : s.closed = true) :
    s.stoppedSinceTurnStart t = some .shutdown := by
  simp [Registry.stoppedSinceTurnStart, hclosed]

theorem Inv.enter_ok (h : Inv s) (t : T) (label : PyStr) :
    (⟨⟨label, none⟩, s.turn t, .checked (s.stoppedSinceTurnStart t)⟩ : Action).Ok s := by
  constructor
  · cases ht : s.turn t with
    | none => exact Nat.zero_le _
    | some turn => exact (h.turns t turn ht).since
  · exact fun turn ht => (h.turns t turn ht).epoch
  · intro r hr
    cases hr
  · intro r hr
    simp only [Stage.checked.injEq] at hr
    unfold Action.Given Action.since
    cases hclosed : s.closed with
    | true =>
      rw [stopped_closed hclosed] at hr
      cases hr
      cases ht : s.turn t with
      | none => exact .inl (h.shutdown hclosed)
      | some turn =>
        rcases (h.turns t turn ht).closed hclosed with hmarked | hmem
        · exact .inr ⟨hmarked, rfl⟩
        · exact .inl hmem
    | false =>
      cases ht : s.turn t with
      | none =>
        rw [stopped_unmarked hclosed ht] at hr
        cases hr
      | some turn =>
        rcases h.stopped_cases hclosed ht with ⟨-, hnone⟩ | ⟨-, r', hr', hmem⟩
        · rw [hnone] at hr
          cases hr
        · rw [hr', Option.some.injEq] at hr
          exact .inl (hr ▸ hmem)
  · intro hr
    cases hr
  · rintro (hsome | ⟨r, hr⟩) hopen turn ht
    · cases hsome
    · rcases h.stopped_cases hopen ht with ⟨-, hnone⟩ | ⟨hlt, -⟩
      · simp only [Stage.checked.injEq] at hr
        rw [hnone] at hr
        cases hr
      · exact hlt
  · intro e he
    cases he
  · intro e l hl
    cases hl
  · intro hpassed turn ht
    simp only [Stage.checked.injEq] at hpassed
    cases hclosed : s.closed with
    | true =>
      rw [stopped_closed hclosed] at hpassed
      cases hpassed
    | false =>
      rcases h.stopped_cases hclosed ht with ⟨heq, -⟩ | ⟨-, r, hr, -⟩
      · exact heq
      · rw [hpassed] at hr
        cases hr
  · intro hpassed call hcall hclose
    simp only [Stage.checked.injEq] at hpassed
    rw [stopped_closed ((h.calls call hcall).closed hclose)] at hpassed
    cases hpassed
  · intro e turn he
    cases he
  · intro e k he
    cases he

/-! The calls, over actions that have moved on. -/

/-- Actions keep their turn and their cancellation, and are registered at no further sweep that has
been; new ones are at none. -/
structure Registry.Moves (s s' : Registry T) : Prop where
  back : ∀ (b : ℕ) a', s'.begins[b]? = some a' → (∃ a, s.begins[b]? = some a ∧
    (a.token.reason.isSome = true → a'.token.reason.isSome = true) ∧
      ∀ k ≤ s.epoch, a'.stage.In k → a.stage.In k) ∨ ∀ k, ¬ a'.stage.In k
  forth : ∀ (b : ℕ) a, s.begins[b]? = some a → ∃ a', s'.begins[b]? = some a' ∧ a'.turn = a.turn

theorem Registry.Moves.of_eq (h : s'.begins = s.begins) : s.Moves s' := by
  constructor
  · intro b a ha
    rw [h] at ha
    exact .inl ⟨a, ha, id, fun _ _ => id⟩
  · intro b a ha
    rw [h]
    exact ⟨a, ha, rfl⟩

theorem Registry.Moves.of_append (h : s'.begins = s.begins ++ [a]) (ha : ∀ k, ¬ a.stage.In k) :
    s.Moves s' := by
  constructor
  · intro b a' ha'
    rw [h, List.getElem?_append] at ha'
    split_ifs at ha' with hlt
    · exact .inl ⟨a', ha', id, fun _ _ => id⟩
    · right
      have hmem := List.mem_of_getElem? ha'
      rw [List.mem_singleton] at hmem
      exact hmem ▸ ha
  · intro b a' ha'
    obtain ⟨hlt, -⟩ := List.getElem?_eq_some_iff.mp ha'
    rw [h, List.getElem?_append_left hlt]
    exact ⟨a', ha', rfl⟩

theorem Registry.Moves.of_set (ha : s.begins[b]? = some a) (h : s'.begins = s.begins.set b a')
    (hturn : a'.turn = a.turn)
    (hsome : a.token.reason.isSome = true → a'.token.reason.isSome = true)
    (hin : ∀ k ≤ s.epoch, a'.stage.In k → a.stage.In k) : s.Moves s' := by
  have hself : (s.begins.set b a')[b]? = some a' := by
    obtain ⟨hlt, -⟩ := List.getElem?_eq_some_iff.mp ha
    simp [hlt]
  constructor
  · intro b' x hx
    rw [h] at hx
    by_cases hne : b = b'
    · subst hne
      rw [hself] at hx
      cases hx
      exact .inl ⟨a, ha, hsome, hin⟩
    · rw [List.getElem?_set_ne hne] at hx
      exact .inl ⟨x, hx, id, fun _ _ => id⟩
  · intro b' x hx
    rw [h]
    by_cases hne : b = b'
    · subst hne
      rw [ha] at hx
      cases hx
      exact ⟨a', hself, hturn⟩
    · rw [List.getElem?_set_ne hne]
      exact ⟨x, hx, rfl⟩

theorem Call.Ok.moves {call : Call} (h : call.Ok s) (hs : s.Grows s') (hb : s.Moves s') :
    call.Ok s' := by
  constructor
  · exact fun hclose => hs.closed (h.closed hclose)
  · rw [hs.epoch]
    exact h.sweep
  · intro k hk b a' ha' hin
    rcases hb.back b a' ha' with ⟨a, ha, hsome, hback⟩ | hnot
    · exact (h.covers k hk b a ha (hback k (h.sweep k hk) hin)).imp_left hsome
    · exact absurd hin (hnot k)
  · intro b hmem
    obtain ⟨a, ha, hreason, hlate⟩ := h.rest b hmem
    obtain ⟨a', ha', hturn⟩ := hb.forth b a ha
    have hsince : a'.since = a.since := by
      unfold Action.since
      rw [hturn]
    refine ⟨a', ha', hsince ▸ mem_drop_mono hs.given hreason, ?_⟩
    rw [hturn, hs.epoch]
    exact hlate

/-- Every step but a sweep. -/
theorem Inv.grows (h : Inv s) (hs : s.Grows s') (hb : s.Moves s')
    (hturns : ∀ t turn, s'.turn t = some turn → s.turn t = some turn ∨ turn.Ok s')
    (hlast : s'.lastReason = s.lastReason)
    (hclosed : s'.closed = s.closed ∨ .shutdown ∈ s'.given.drop s.given.length)
    (hbegins : ∀ a ∈ s'.begins, a ∈ s.begins ∨ a.Ok s')
    (hcalls : ∀ call ∈ s'.calls, call ∈ s.calls ∨ call.Ok s')
    (hswept : ∀ call ∈ s.calls, ∀ k, call.stage.sweep? = some k →
      ∃ call' ∈ s'.calls, call'.stage.sweep? = some k)
    (hlisted : ∀ key b, (key, b) ∈ s'.active.items ↔
      ∃ a e, s'.begins[b]? = some a ∧ a.stage = .running key e)
    (hkeys : ∀ key b, (key, b) ∈ s'.active.items → key < s'.nextKey) : Inv s' := by
  constructor
  · intro t turn ht
    rcases hturns t turn ht with hold | hok
    · have hturn := h.turns t turn hold
      exact hturn.grows hs hlast (hclosed.imp_right fun hmem => ⟨_, hturn.since, hmem⟩)
    · exact hok
  · intro hc
    rcases hclosed with heq | hmem
    · exact hs.given.subset (h.shutdown (heq ▸ hc))
    · exact List.mem_of_mem_drop hmem
  · intro a ha
    rcases hbegins a ha with hold | hok
    · exact (h.begins a hold).grows hs
    · exact hok
  · intro call hcall
    rcases hcalls call hcall with hold | hok
    · exact (h.calls call hold).moves hs hb
    · exact hok
  · exact hlisted
  · exact hkeys
  · intro k hpos hle
    rw [hs.epoch] at hle
    obtain ⟨call, hcall, hk⟩ := h.sweeps k hpos hle
    exact hswept call hcall k hk

/-- A step that changes neither the actions nor the calls. -/
theorem Inv.same (h : Inv s) (hs : s.Quiet s') (hbegins : s'.begins = s.begins)
    (hactive : s'.active = s.active) (hkey : s'.nextKey = s.nextKey)
    (hturns : ∀ t turn, s'.turn t = some turn → s.turn t = some turn ∨ turn.Ok s') : Inv s' := by
  apply h.grows hs.grows (.of_eq hbegins) hturns hs.lastReason (.inl hs.closed)
  · exact fun a ha => .inl (hbegins ▸ ha)
  · exact fun call hcall => .inl (hs.calls ▸ hcall)
  · exact fun call hcall k hk => ⟨call, hs.calls ▸ hcall, hk⟩
  · rw [hactive, hbegins]
    exact h.listed
  · rw [hactive, hkey]
    exact h.keys

/-- A step that changes one action. -/
theorem Inv.moved (h : Inv s) (ha : s.begins[b]? = some a) (hok : a'.Ok s) (hs : s.Quiet s')
    (hturns : s'.turn = s.turn) (hbegins : s'.begins = s.begins.set b a')
    (hturn : a'.turn = a.turn)
    (hsome : a.token.reason.isSome = true → a'.token.reason.isSome = true)
    (hin : ∀ k ≤ s.epoch, a'.stage.In k → a.stage.In k)
    (hlisted : ∀ key b, (key, b) ∈ s'.active.items ↔
      ∃ a e, s'.begins[b]? = some a ∧ a.stage = .running key e)
    (hkeys : ∀ key b, (key, b) ∈ s'.active.items → key < s'.nextKey) : Inv s' := by
  apply h.grows hs.grows (.of_set ha hbegins hturn hsome hin) (fun t turn ht => .inl (hturns ▸ ht))
    hs.lastReason (.inl hs.closed) _ (fun call hcall => .inl (hs.calls ▸ hcall))
    (fun call hcall k hk => ⟨call, hs.calls ▸ hcall, hk⟩) hlisted hkeys
  intro x hx
  rw [hbegins] at hx
  rcases List.mem_or_eq_of_mem_set hx with hold | rfl
  · exact .inl hold
  · exact .inr (hok.grows hs.grows)

theorem getElem?_set_self {α : Type} {xs : List α} {a : α} (h : xs[b]? = some a) (a' : α) :
    (xs.set b a')[b]? = some a' := by
  obtain ⟨hlt, -⟩ := List.getElem?_eq_some_iff.mp h
  simp [hlt]

/-- What is registered, after a change to an action that is not. -/
theorem Inv.listed_set (h : Inv s) (ha : s.begins[b]? = some a)
    (hstage : ∀ key e, a'.stage = .running key e ↔ a.stage = .running key e) (key b' : ℕ) :
    (key, b') ∈ s.active.items ↔
      ∃ x e, (s.begins.set b a')[b']? = some x ∧ x.stage = .running key e := by
  rw [h.listed]
  by_cases hne : b = b'
  · subst hne
    rw [getElem?_set_self ha, ha]
    simp only [Option.some.injEq, exists_and_left, exists_eq_left', hstage]
  · rw [List.getElem?_set_ne hne]

theorem Inv.refuse (h : Inv s) (ha : s.begins[b]? = some a) (hstage : a.stage = .checked (some r))
    :
    Inv (s.setAction b { a with token := (a.token.cancel r).1, stage := .refused }) := by
  have hok := (h.begins a (List.mem_of_getElem? ha)).refuse hstage
  apply h.moved ha hok (by exact ⟨rfl, rfl, rfl, rfl, rfl⟩) (by rfl) (by rfl) rfl
  · exact fun _ => hok.refused rfl
  · intro k _ hin
    cases hin
  · apply h.listed_set ha
    intro key e
    simp [hstage]
  · exact h.keys

theorem Inv.register (h : Inv s) (ha : s.begins[b]? = some a)
    (hstage : a.stage = .checked none ∨ a.stage = .refused) : Inv (s.register b a) := by
  have hok := (h.begins a (List.mem_of_getElem? ha)).register s.nextKey hstage
  have hnot : ∀ key e, a.stage ≠ .running key e := by
    intro key e heq
    rcases hstage with hstage | hstage
    · rw [hstage] at heq
      cases heq
    · rw [hstage] at heq
      cases heq
  have hfresh : s.nextKey ∉ s.active.keys := by
    intro hmem
    obtain ⟨⟨key, b'⟩, hitem, hkey⟩ := List.mem_map.mp hmem
    have hlt := h.keys key b' hitem
    simp only at hkey
    omega
  have hitems : (s.active.set s.nextKey b).items = s.active.items ++ [(s.nextKey, b)] :=
    Dict.items_set_of_notMem hfresh
  apply h.moved ha hok (by exact ⟨rfl, rfl, rfl, rfl, rfl⟩) (by rfl) (by rfl) rfl id
  · intro k hle hin
    change s.epoch < k at hin
    omega
  · intro key b'
    change (key, b') ∈ (s.active.set s.nextKey b).items ↔ ∃ x e, (s.begins.set b _)[b']? = some x ∧ _
    rw [hitems, List.mem_append, List.mem_singleton, Prod.mk.injEq, h.listed]
    by_cases hne : b = b'
    · subst hne
      rw [getElem?_set_self ha, ha]
      simp [hnot, eq_comm]
    · rw [List.getElem?_set_ne hne]
      simp [Ne.symm hne]
  · intro key b' hmem
    change (key, b') ∈ (s.active.set s.nextKey b).items at hmem
    change key < s.nextKey + 1
    rw [hitems, List.mem_append, List.mem_singleton, Prod.mk.injEq] at hmem
    rcases hmem with hmem | ⟨rfl, -⟩
    · exact (h.keys key b' hmem).trans (Nat.lt_succ_self _)
    · exact Nat.lt_succ_self _

theorem Inv.exit (h : Inv s) (ha : s.begins[b]? = some a) (hstage : a.stage = .running key e) :
    Inv { s.setAction b { a with stage := .exited e s.epoch } with active := s.active.erase key } := by
  have hok := (h.begins a (List.mem_of_getElem? ha)).exit hstage
  have hitem : (key, b) ∈ s.active.items := (h.listed key b).mpr ⟨a, e, ha, hstage⟩
  have herase : ∀ key' b', (key', b') ∈ (s.active.erase key).items ↔
      (key', b') ∈ s.active.items ∧ key' ≠ key := by
    intro key' b'
    rw [Dict.erase, Dict.mem_filter]
    simp
  apply h.moved ha hok (by exact ⟨rfl, rfl, rfl, rfl, rfl⟩) (by rfl) (by rfl) rfl id
  · intro k hle hin
    rw [hstage]
    exact hin.1
  · intro key' b'
    change (key', b') ∈ (s.active.erase key).items ↔ ∃ x e, (s.begins.set b _)[b']? = some x ∧ _
    rw [herase]
    by_cases hne : b = b'
    · subst hne
      rw [getElem?_set_self ha]
      apply iff_of_false
      · rintro ⟨hmem, hkey⟩
        obtain ⟨x, e', hx, hrunning⟩ := (h.listed key' b).mp hmem
        rw [ha] at hx
        cases hx
        rw [hstage] at hrunning
        cases hrunning
        exact hkey rfl
      · rintro ⟨x, e', hx, hrunning⟩
        cases hx
        cases hrunning
    · rw [List.getElem?_set_ne hne, h.listed]
      constructor
      · exact fun hmem => hmem.1
      · intro hmem
        refine ⟨hmem, ?_⟩
        rintro rfl
        exact hne (Dict.item_unique hitem ((h.listed _ b').mpr hmem))
  · exact fun key' b' hmem => h.keys key' b' ((herase key' b').mp hmem).1

theorem Inv.enter (h : Inv s) {label : PyStr} (hs : s.Quiet s') (hbegins : s'.begins =
      s.begins ++ [⟨⟨label, none⟩, s.turn t, .checked (s.stoppedSinceTurnStart t)⟩])
    (hturns : s'.turn = s.turn) (hactive : s'.active = s.active) (hkey : s'.nextKey = s.nextKey) :
    Inv s' := by
  apply h.grows hs.grows (.of_append hbegins fun k hin => hin) (fun t turn ht => .inl (hturns ▸ ht))
    hs.lastReason (.inl hs.closed)
  · intro a ha
    rw [hbegins] at ha
    rcases List.mem_append.mp ha with hold | hnew
    · exact .inl hold
    · rw [List.mem_singleton] at hnew
      exact .inr (hnew ▸ (h.enter_ok t label).grows hs.grows)
  · exact fun call hcall => .inl (hs.calls ▸ hcall)
  · exact fun call hcall k hk => ⟨call, hs.calls ▸ hcall, hk⟩
  · intro key b
    rw [hactive, h.listed, hbegins]
    simp only [List.getElem?_append]
    split_ifs with hlt
    · exact Iff.rfl
    · apply iff_of_false
      · rintro ⟨a, e, ha, -⟩
        exact hlt (List.getElem?_eq_some_iff.mp ha).1
      · rintro ⟨a, e, ha, hstage⟩
        have hmem := List.mem_of_getElem? ha
        rw [List.mem_singleton] at hmem
        rw [hmem] at hstage
        cases hstage
  · rw [hactive, hkey]
    exact h.keys

/-- A call that begins, in `close` after its own section. -/
theorem Inv.call (h : Inv s) {call : Call} (hstage : call.stage = .entering)
    (hs : s.Grows s') (hcalls : s'.calls = s.calls ++ [call])
    (hclosed : call.ofClose = true → s'.closed = true)
    (hshutdown : s'.closed = s.closed ∨ .shutdown ∈ s'.given.drop s.given.length)
    (hlast : s'.lastReason = s.lastReason) (hturns : s'.turn = s.turn)
    (hbegins : s'.begins = s.begins) (hactive : s'.active = s.active)
    (hkey : s'.nextKey = s.nextKey) : Inv s' := by
  apply h.grows hs (.of_eq hbegins) (fun t turn ht => .inl (hturns ▸ ht)) hlast hshutdown
  · exact fun a ha => .inl (hbegins ▸ ha)
  · intro x hx
    rw [hcalls] at hx
    rcases List.mem_append.mp hx with hold | hnew
    · exact .inl hold
    · rw [List.mem_singleton] at hnew
      subst hnew
      right
      constructor
      · exact hclosed
      · intro k hk
        rw [hstage] at hk
        cases hk
      · intro k hk
        rw [hstage] at hk
        cases hk
      · intro b hb
        rw [hstage] at hb
        cases hb
  · intro x hx k hk
    rw [hcalls]
    exact ⟨x, List.mem_append_left _ hx, hk⟩
  · rw [hactive, hbegins]
    exact h.listed
  · rw [hactive, hkey]
    exact h.keys

theorem swept_of_append {call : Call} (hstage : call.stage = .entering)
    (hcalls : s'.calls = s.calls ++ [call]) : ∀ call' ∈ s'.calls, ∀ k,
      call'.stage.sweep? = some k →
        ∃ call ∈ s.calls, call.stage.sweep? = some k ∧ call.ofClose = call'.ofClose := by
  intro x hx k hk
  rw [hcalls] at hx
  rcases List.mem_append.mp hx with hold | hnew
  · exact ⟨x, hold, hk, rfl⟩
  · rw [List.mem_singleton] at hnew
    rw [hnew, hstage] at hk
    cases hk

theorem swept_of_set {call : Call} (hcall : s.calls[c]? = some call)
    (hcalls : s'.calls = s.calls.set c call') (hkind : call'.ofClose = call.ofClose)
    (hsweep : call'.stage.sweep? = call.stage.sweep?) : ∀ x ∈ s'.calls, ∀ k,
      x.stage.sweep? = some k →
        ∃ y ∈ s.calls, y.stage.sweep? = some k ∧ y.ofClose = x.ofClose := by
  intro x hx k hk
  rw [hcalls] at hx
  rcases List.mem_or_eq_of_mem_set hx with hold | rfl
  · exact ⟨x, hold, hk, rfl⟩
  · exact ⟨call, List.mem_of_getElem? hcall, hsweep ▸ hk, hkind.symm⟩

theorem kept_of_set {call : Call} (hcall : s.calls[c]? = some call)
    (hcalls : s'.calls = s.calls.set c call') (hsweep : call'.stage.sweep? = call.stage.sweep?) :
    ∀ x ∈ s.calls, ∀ k, x.stage.sweep? = some k → ∃ y ∈ s'.calls, y.stage.sweep? = some k := by
  intro x hx k hk
  rw [hcalls]
  obtain ⟨i, hi⟩ := List.mem_iff_getElem?.mp hx
  obtain ⟨hlt, -⟩ := List.getElem?_eq_some_iff.mp hcall
  by_cases hne : c = i
  · subst hne
    rw [hcall] at hi
    cases hi
    exact ⟨call', List.mem_set hlt _, hsweep.trans hk⟩
  · exact ⟨x, List.mem_of_getElem? ((List.getElem?_set_ne hne).trans hi), hk⟩

theorem Inv.setCall (h : Inv s) {call : Call} (hcall : s.calls[c]? = some call)
    (hkind : call'.ofClose = call.ofClose) (hsweep : call'.stage.sweep? = call.stage.sweep?)
    (hok : call'.Ok s) : Inv (s.setCall c call') := by
  have hs : s.Grows (s.setCall c call') :=
    ⟨rfl, List.prefix_rfl, id, swept_of_set hcall rfl hkind hsweep⟩
  apply h.grows hs (.of_eq rfl) (fun _ _ => .inl) (by rfl) (.inl (by rfl)) (fun _ => .inl) _
    (kept_of_set hcall rfl hsweep) h.listed h.keys
  intro x hx
  rcases List.mem_or_eq_of_mem_set hx with hold | rfl
  · exact .inl hold
  · exact .inr (hok.moves hs (.of_eq rfl))

theorem Inv.finish (h : Inv s) {call : Call} (hcall : s.calls[c]? = some call)
    (hstage : call.stage = .cancelling k [] labels) :
    Inv (s.setCall c { call with stage := .returned k labels }) := by
  obtain ⟨hclosed, hsweep, hcovers, -⟩ := h.calls call (List.mem_of_getElem? hcall)
  rw [hstage] at hsweep hcovers
  apply h.setCall hcall (by rfl)
  · rw [hstage]
    rfl
  · exact ⟨hclosed, hsweep, hcovers, fun b hb => absurd hb List.not_mem_nil⟩

theorem Inv.cancel (h : Inv s) {call : Call} (hcall : s.calls[c]? = some call) {rest : List ℕ}
    (hstage : call.stage = .cancelling k (b :: rest) labels)
    (hs : s.cancelNext c call k b rest labels = some s') : Inv s' := by
  have hcallOk := h.calls call (List.mem_of_getElem? hcall)
  obtain ⟨a, ha, hreason, hlate⟩ := hcallOk.rest b (by rw [hstage]; exact List.mem_cons_self)
  rw [Registry.cancelNext, ha, Option.map_some, Option.some.injEq] at hs
  simp only at hs
  have hok := (h.begins a (List.mem_of_getElem? ha)).cancel (.inl hreason) fun _ => hlate
  have hsome : (a.token.cancel call.reason).1.reason.isSome = true := by
    rw [CancellationToken.cancel_reason]
    rfl
  have hinv : Inv (s.setAction b { a with token := (a.token.cancel call.reason).1 }) := by
    apply h.moved ha hok (by exact ⟨rfl, rfl, rfl, rfl, rfl⟩) (by rfl) (by rfl) rfl (fun _ => hsome)
      (fun _ _ => id)
    · exact h.listed_set ha fun _ _ => Iff.rfl
    · exact h.keys
  generalize hnext : s.setAction b { a with token := (a.token.cancel call.reason).1 } = next at hinv hs
  have hcall' : next.calls[c]? = some call := by
    rw [← hnext]
    exact hcall
  have hbegins : next.begins = s.begins.set b { a with token := (a.token.cancel call.reason).1 } := by
    rw [← hnext]
    rfl
  have hcallOk' := hinv.calls call (List.mem_of_getElem? hcall')
  rw [← hs]
  apply hinv.setCall hcall' (by rfl)
  · rw [hstage]
    rfl
  · constructor
    · exact hcallOk'.closed
    · intro k' hk'
      apply hcallOk'.sweep
      rw [hstage]
      exact hk'
    · intro k' hk' b' x hx hin
      rcases hcallOk'.covers k' (by rw [hstage]; exact hk') b' x hx hin with hdone | hmem
      · exact .inl hdone
      · rw [hstage] at hmem
        rcases List.mem_cons.mp hmem with rfl | hrest
        · rw [hbegins, getElem?_set_self ha] at hx
          cases hx
          exact .inl hsome
        · exact .inr hrest
    · intro b' hb'
      apply hcallOk'.rest
      rw [hstage]
      exact List.mem_cons_of_mem _ hb'

/-- The section of `cancel_all`, where it misses no action. -/
theorem Inv.sweep (h : Inv s) {call : Call} (hcall : s.calls[c]? = some call)
    (hstage : call.stage = .entering) (hmisses : ¬ s.Misses call) : Inv (s.sweep c call) := by
  have hgiven : s.given <+: s.given ++ [call.reason] := List.prefix_append _ _
  have hpassed : ∀ a ∈ s.begins, a.stage = .checked none → a.turn = none ∧ call.ofClose = false := by
    intro a ha hstage
    constructor
    · cases hturn : a.turn with
      | none => rfl
      | some turn => exact absurd ⟨a, ha, hstage, .inl (by simp [hturn])⟩ hmisses
    · cases hclose : call.ofClose with
      | false => rfl
      | true => exact absurd ⟨a, ha, hstage, .inr hclose⟩ hmisses
  have hcalls : ∀ x ∈ (s.sweep c call).calls, x ∈ s.calls ∨
      x = { call with stage := .cancelling (s.epoch + 1) s.active.values [] } :=
    fun x hx => List.mem_or_eq_of_mem_set hx
  constructor
  · intro t turn ht
    obtain ⟨hepoch, hsince, -, hclosed⟩ := h.turns t turn ht
    constructor
    · exact hepoch.trans (Nat.le_succ _)
    · exact hsince.trans hgiven.length_le
    · exact fun _ => ⟨call.reason, rfl, mem_drop_append hsince _⟩
    · exact fun hc => (hclosed hc).imp_right (mem_drop_mono hgiven)
  · exact fun hc => hgiven.subset (h.shutdown hc)
  · intro a ha
    have hok := h.begins a ha
    constructor
    · exact hok.since.trans hgiven.length_le
    · exact fun t ht => (hok.epoch t ht).trans (Nat.le_succ _)
    · exact fun r hr => (hok.reason r hr).mono hgiven
    · exact fun r hr => (hok.found r hr).mono hgiven
    · exact hok.refused
    · exact fun _ _ t ht => Nat.lt_succ_of_le (hok.epoch t ht)
    · exact fun e he => (hok.entry e he).trans (Nat.le_succ _)
    · exact fun e l hl => (hok.left e l hl).trans (Nat.le_succ _)
    · intro hpass t ht
      rw [(hpassed a ha hpass).1] at ht
      cases ht
    · intro hpass x hx hclose
      rcases hcalls x hx with hold | rfl
      · exact hok.unswept hpass x hold hclose
      · rw [(hpassed a ha hpass).2] at hclose
        cases hclose
    · exact hok.born
    · intro e k he x hx hclose hk hle
      rcases hcalls x hx with hold | rfl
      · exact hok.bornClosed e k he x hold hclose hk hle
      · cases hk
        have hentry := hok.entry e he
        omega
  · intro x hx
    rcases hcalls x hx with hold | rfl
    · obtain ⟨hclosed, hsweep, hcovers, hrest⟩ := h.calls x hold
      refine ⟨hclosed, fun k hk => (hsweep k hk).trans (Nat.le_succ _), hcovers, ?_⟩
      intro b hb
      obtain ⟨a, ha, hreason, hlate⟩ := hrest b hb
      exact ⟨a, ha, mem_drop_mono hgiven hreason, fun t ht => (hlate t ht).trans (Nat.lt_succ_self _)⟩
    · constructor
      · exact (h.calls call (List.mem_of_getElem? hcall)).closed
      · intro k hk
        cases hk
        exact le_rfl
      · intro k hk b a ha hin
        cases hk
        right
        cases hrunning : a.stage with
        | running key e =>
          exact List.mem_map.mpr ⟨(key, b), (h.listed key b).mpr ⟨a, e, ha, hrunning⟩, rfl⟩
        | exited e l =>
          have hleft := (h.begins a (List.mem_of_getElem? ha)).left e l hrunning
          rw [hrunning] at hin
          have hlater : s.epoch + 1 ≤ l := hin.2
          omega
        | checked stopped =>
          rw [hrunning] at hin
          exact hin.elim
        | refused =>
          rw [hrunning] at hin
          exact hin.elim
      · intro b hb
        obtain ⟨⟨key, b'⟩, hitem, rfl⟩ := List.mem_map.mp hb
        obtain ⟨a, e, ha, -⟩ := (h.listed key b').mp hitem
        have hok := h.begins a (List.mem_of_getElem? ha)
        exact ⟨a, ha, mem_drop_append hok.since _, fun t ht => Nat.lt_succ_of_le (hok.epoch t ht)⟩
  · exact h.listed
  · exact h.keys
  · intro k hpos hle
    obtain ⟨hlt, -⟩ := List.getElem?_eq_some_iff.mp hcall
    by_cases hnew : k = s.epoch + 1
    · exact ⟨_, List.mem_set hlt _, hnew ▸ rfl⟩
    · obtain ⟨x, hx, hk⟩ := h.sweeps k hpos (Nat.le_of_lt_succ (lt_of_le_of_ne hle hnew))
      obtain ⟨i, hi⟩ := List.mem_iff_getElem?.mp hx
      have hne : c ≠ i := by
        rintro rfl
        rw [hcall, Option.some.injEq] at hi
        rw [← hi, hstage] at hk
        cases hk
      exact ⟨x, List.mem_of_getElem? ((List.getElem?_set_ne hne).trans hi), hk⟩

theorem Inv.start (h : s.Fresh) : Inv s := by
  obtain ⟨hactive, hepoch, hclosed, hturn, hbegins, hcalls, -, -⟩ := h
  constructor
  · intro t turn ht
    rw [hturn t] at ht
    cases ht
  · intro hc
    rw [hclosed] at hc
    cases hc
  · rw [hbegins]
    exact fun a ha => absurd ha List.not_mem_nil
  · rw [hcalls]
    exact fun a ha => absurd ha List.not_mem_nil
  · intro key b
    rw [hactive, hbegins]
    apply iff_of_false
    · exact List.not_mem_nil
    · rintro ⟨a, e, ha, -⟩
      cases ha
  · intro key b hb
    rw [hactive] at hb
    exact absurd hb List.not_mem_nil
  · intro k hpos hle
    omega

theorem Registry.step_cancelAll [DecidableEq T] {value : PyStr}
    (hs : s.step (.cancelAll value) = some s') :
    s' = s ∨ ∃ r, s' = { s with calls := s.calls ++ [⟨false, r, .entering⟩] } := by
  simp only [Registry.step] at hs
  split at hs
  · cases hs
    exact .inl rfl
  · cases hs
    exact .inr ⟨_, rfl⟩

theorem Inv.step [DecidableEq T] (h : Inv s) (hok : Orderly s act) (hs : s.step act = some s') :
    Inv s' := by
  cases act with
  | markTurnStart t =>
    cases hs
    apply h.same (by exact ⟨rfl, rfl, rfl, rfl, rfl⟩) (by rfl) (by rfl) (by rfl)
    intro t' turn ht
    by_cases hne : t' = t
    · subst hne
      simp only [Function.update_self] at ht
      cases ht
      right
      constructor
      · exact le_rfl
      · exact le_rfl
      · intro hlt
        exact absurd hlt (Nat.lt_irrefl _)
      · exact .inl
    · simp only [Function.update_of_ne hne] at ht
      exact .inl ht
  | enter t label =>
    cases hs
    exact h.enter ⟨rfl, rfl, rfl, rfl, rfl⟩ rfl rfl rfl rfl
  | refuse b =>
    obtain ⟨a, ha, hs⟩ := Option.bind_eq_some_iff.mp hs
    split at hs
    · rename_i reason hstage
      cases hs
      exact h.refuse ha hstage
    · cases hs
  | register b =>
    obtain ⟨a, ha, hs⟩ := Option.bind_eq_some_iff.mp hs
    split at hs
    · rename_i hstage
      cases hs
      exact h.register ha (.inl hstage)
    · rename_i hstage
      cases hs
      exact h.register ha (.inr hstage)
    · cases hs
  | exit b =>
    obtain ⟨a, ha, hs⟩ := Option.bind_eq_some_iff.mp hs
    split at hs
    · rename_i key e hstage
      cases hs
      exact h.exit ha hstage
    · cases hs
  | cancelAll value =>
    rcases Registry.step_cancelAll hs with rfl | ⟨reason, rfl⟩
    · exact h
    · have hentering : (⟨false, reason, .entering⟩ : Call).stage = .entering := rfl
      have hclose : (⟨false, reason, .entering⟩ : Call).ofClose = true → s.closed = true := by
        intro hclose
        cases hclose
      exact h.call hentering ⟨rfl, List.prefix_rfl, id, swept_of_append hentering rfl⟩ rfl hclose
        (.inl rfl) rfl rfl rfl rfl rfl
  | close =>
    cases hs
    have hentering : (⟨true, .shutdown, .entering⟩ : Call).stage = .entering := rfl
    exact h.call hentering
      ⟨rfl, List.prefix_append _ _, fun _ => rfl, swept_of_append hentering rfl⟩ rfl (fun _ => rfl)
      (.inr (mem_drop_append le_rfl _)) rfl rfl rfl rfl rfl
  | sweep c =>
    obtain ⟨call, hcall, hs⟩ := Option.bind_eq_some_iff.mp hs
    split at hs
    · rename_i hstage
      cases hs
      exact h.sweep hcall hstage (hok call hcall)
    · cases hs
  | cancel c =>
    obtain ⟨call, hcall, hs⟩ := Option.bind_eq_some_iff.mp hs
    split at hs
    · rename_i k b rest labels hstage
      exact h.cancel hcall hstage hs
    · cases hs
  | finish c =>
    obtain ⟨call, hcall, hs⟩ := Option.bind_eq_some_iff.mp hs
    split at hs
    · rename_i k labels hstage
      cases hs
      exact h.finish hcall hstage
    · cases hs
  | waitIdle =>
    cases hs
    exact h.same ⟨rfl, rfl, rfl, rfl, rfl⟩ rfl rfl rfl fun _ _ => .inl
  | look w | giveUp w =>
    obtain ⟨wait, hwait, hs⟩ := Option.bind_eq_some_iff.mp hs
    split at hs
    · cases hs
      exact h.same ⟨rfl, rfl, rfl, rfl, rfl⟩ rfl rfl rfl fun _ _ => .inl
    · cases hs

theorem Inv.stopReaches (h : Inv s) : StopReaches s := by
  constructor
  · intro call hcall k labels hstage a ha hheeds
    have hok := h.begins a ha
    have hsweep : call.stage.sweep? = some k := by
      rw [hstage]
      rfl
    have hsome : a.token.reason.isSome = true := by
      rcases hheeds with hin | ⟨e, he, hle, hclose | ⟨t, ht, hlt⟩⟩
      · obtain ⟨b, hb⟩ := List.mem_iff_getElem?.mp ha
        rcases (h.calls call hcall).covers k hsweep b a hb hin with hdone | hmem
        · exact hdone
        · rw [hstage] at hmem
          exact absurd hmem List.not_mem_nil
      · exact hok.bornClosed e k he call hcall hclose hsweep hle
      · exact hok.born e t he ht (by omega)
    obtain ⟨r, hr⟩ := Option.isSome_iff_exists.mp hsome
    exact ⟨r, hr, hok.reason r hr⟩
  · intro hopen a ha t ht hreturned
    have hok := h.begins a ha
    by_contra hstopped
    have hlt := hok.late (.inl (Option.isSome_iff_ne_none.mpr hstopped)) hopen t ht
    -- The last epoch was begun by a call that has returned before the turn.
    obtain ⟨call, hcall, hsweep⟩ := h.sweeps s.epoch (by omega) le_rfl
    obtain ⟨k, labels, hstage, hle⟩ := hreturned call hcall
    rw [hstage] at hsweep
    cases hsweep
    omega

theorem Registry.KeepsReasons.refl (s : Registry T) : s.KeepsReasons s :=
  fun _ a _ ha hr => ⟨a, ha, hr⟩

theorem Registry.KeepsReasons.of_eq (h : s'.begins = s.begins) : s.KeepsReasons s' := by
  intro b a r ha hr
  exact ⟨a, h ▸ ha, hr⟩

theorem Registry.KeepsReasons.of_set (ha : s.begins[b]? = some a)
    (h : s'.begins = s.begins.set b a')
    (hkeeps : ∀ r, a.token.reason = some r → a'.token.reason = some r) : s.KeepsReasons s' := by
  intro b' x r hx hr
  rw [h]
  by_cases hne : b = b'
  · subst hne
    rw [ha] at hx
    cases hx
    exact ⟨a', getElem?_set_self ha a', hkeeps r hr⟩
  · exact ⟨x, (List.getElem?_set_ne hne).trans hx, hr⟩

theorem CancellationToken.cancel_keeps {token : CancellationToken} (h : token.reason = some r)
    (reason : Reason) : (token.cancel reason).1.reason = some r := by
  rw [cancel_reason, h]
  rfl

theorem Registry.step_keepsReasons [DecidableEq T] (hs : s.step act = some s') :
    s.KeepsReasons s' := by
  cases act with
  | markTurnStart t | waitIdle | close =>
    cases hs
    exact .of_eq rfl
  | enter t label =>
    cases hs
    intro b a r ha hr
    obtain ⟨hlt, -⟩ := List.getElem?_eq_some_iff.mp ha
    exact ⟨a, (List.getElem?_append_left hlt).trans ha, hr⟩
  | cancelAll value =>
    rcases Registry.step_cancelAll hs with rfl | ⟨_, rfl⟩ <;> exact .of_eq rfl
  | refuse b =>
    obtain ⟨a, ha, hs⟩ := Option.bind_eq_some_iff.mp hs
    split at hs
    · cases hs
      exact .of_set ha rfl fun r hr => CancellationToken.cancel_keeps hr _
    · cases hs
  | register b | exit b =>
    obtain ⟨a, ha, hs⟩ := Option.bind_eq_some_iff.mp hs
    split at hs <;> cases hs <;> exact .of_set ha rfl fun r hr => hr
  | sweep c | finish c =>
    obtain ⟨call, hcall, hs⟩ := Option.bind_eq_some_iff.mp hs
    split at hs
    · cases hs
      exact .of_eq rfl
    · cases hs
  | cancel c =>
    obtain ⟨call, hcall, hs⟩ := Option.bind_eq_some_iff.mp hs
    split at hs
    · obtain ⟨a, ha, hs⟩ := Option.map_eq_some_iff.mp hs
      cases hs
      exact .of_set ha rfl fun r hr => CancellationToken.cancel_keeps hr _
    · cases hs
  | look w | giveUp w =>
    obtain ⟨wait, hwait, hs⟩ := Option.bind_eq_some_iff.mp hs
    split at hs
    · cases hs
      exact .of_eq rfl
    · cases hs

theorem Registry.exec_keepsReasons [DecidableEq T] {acts : List (Act T)}
    (he : (registryMachine T).exec s acts = some s') : s.KeepsReasons s' := by
  refine Machine.exec_invariant ?_ (Registry.KeepsReasons.refl s) (Machine.allOk_true s acts) he
  intro s₁ act s₂ hkeeps _ hs b a r ha hr
  obtain ⟨a₁, ha₁, hr₁⟩ := hkeeps b a r ha hr
  exact Registry.step_keepsReasons hs b a₁ r ha₁ hr₁

/-- What the predicate of `wait_idle` has seen. -/
theorem Inv.lookIdle (h : Inv s) (hlook : s.lookIdle = .returned true) :
    s.active.items = [] ∧ ∀ a ∈ s.begins, ∀ key e, a.stage ≠ .running key e := by
  have hempty : s.active.items = [] := by
    unfold Registry.lookIdle at hlook
    split_ifs at hlook with hempty
    exact hempty
  refine ⟨hempty, fun a ha key e hrunning => ?_⟩
  obtain ⟨b, hb⟩ := List.mem_iff_getElem?.mp ha
  have hitem := (h.listed key b).mpr ⟨a, e, hb, hrunning⟩
  rw [hempty] at hitem
  cases hitem

theorem Registry.WaitsTruly.of_eq (h : s'.waits = s.waits) : s.WaitsTruly s' :=
  fun _ hw => .inl (h ▸ hw)

theorem Inv.waitsTruly [DecidableEq T] (h : Inv s) (hs : s.step act = some s') :
    s.WaitsTruly s' := by
  cases act with
  | markTurnStart t | enter t label | close =>
    cases hs
    exact .of_eq rfl
  | cancelAll value =>
    rcases Registry.step_cancelAll hs with rfl | ⟨_, rfl⟩ <;> exact .of_eq rfl
  | refuse b | register b | exit b =>
    obtain ⟨a, ha, hs⟩ := Option.bind_eq_some_iff.mp hs
    split at hs <;> cases hs <;> exact .of_eq rfl
  | sweep c | finish c =>
    obtain ⟨call, hcall, hs⟩ := Option.bind_eq_some_iff.mp hs
    split at hs <;> cases hs
    exact .of_eq rfl
  | cancel c =>
    obtain ⟨call, hcall, hs⟩ := Option.bind_eq_some_iff.mp hs
    split at hs
    · obtain ⟨a, ha, hs⟩ := Option.map_eq_some_iff.mp hs
      cases hs
      exact .of_eq rfl
    · cases hs
  | waitIdle =>
    cases hs
    intro w hw
    simp only [List.getElem?_append] at hw
    split_ifs at hw with hlt
    · exact .inl hw
    · have hmem := List.mem_of_getElem? hw
      rw [List.mem_singleton] at hmem
      exact .inr (h.lookIdle hmem.symm)
  | look w =>
    obtain ⟨wait, hwait, hs⟩ := Option.bind_eq_some_iff.mp hs
    split at hs
    · cases hs
      intro w' hw
      by_cases hne : w = w'
      · subst hne
        rw [getElem?_set_self hwait, Option.some.injEq] at hw
        exact .inr (h.lookIdle hw)
      · exact .inl ((List.getElem?_set_ne hne).symm.trans hw)
    · cases hs
  | giveUp w =>
    obtain ⟨wait, hwait, hs⟩ := Option.bind_eq_some_iff.mp hs
    split at hs
    · cases hs
      intro w' hw
      by_cases hne : w = w'
      · subst hne
        rw [getElem?_set_self hwait] at hw
        cases hw
      · exact .inl ((List.getElem?_set_ne hne).symm.trans hw)
    · cases hs

/-- In every run whose sweeps miss no action, every sweep reaches what it is to stop; tokens keep
their reasons in every run, and no wait ends with `True` while an action is registered. -/
theorem stop_reaches [DecidableEq T] (h : (registryMachine T).Reach Orderly s) :
    StopReaches s ∧
      (∀ acts s', (registryMachine T).exec s acts = some s' → s.KeepsReasons s') ∧
      ∀ act s', s.step act = some s' → s.WaitsTruly s' := by
  have hinv : Inv s := Machine.Reach.invariant (fun _ => Inv.start)
    (fun _ _ _ hinv hok hs => hinv.step hok hs) h
  exact ⟨hinv.stopReaches, fun _ _ he => Registry.exec_keepsReasons he, fun _ _ hs => hinv.waitsTruly hs⟩

end

def sampleRegistry : Registry ℕ where
  active := Dict.empty
  nextKey := 1
  epoch := 0
  lastReason := none
  closed := false
  turn _ := none
  begins := []
  calls := []
  waits := []
  given := []

theorem sampleRegistry_fresh : sampleRegistry.Fresh :=
  ⟨rfl, rfl, rfl, fun _ => rfl, rfl, rfl, rfl, rfl⟩

def sampleCheck (s : Registry ℕ) : Act ℕ → Bool
  | .sweep c => (s.calls[c]?).all fun call => s.begins.all fun a =>
    match a.stage with
    | .checked none => a.turn.isNone && !call.ofClose
    | _ => true
  | _ => true

theorem orderly_of_check (s : Registry ℕ) (act : Act ℕ) (h : sampleCheck s act = true) :
    Orderly s act := by
  cases act with
  | sweep c =>
    rintro call hcall ⟨a, ha, hstage, hmisses⟩
    simp only [sampleCheck, hcall, Option.all_some, List.all_eq_true] at h
    have hnone := h a ha
    rw [hstage] at hnone
    rcases hmisses with hturn | hclose
    · simp [Option.isSome_iff_ne_none.mp hturn] at hnone
    · simp [hclose] at hnone
  | _ => trivial

/-- An action is running when Stop comes, and the same turn begins another. -/
def sampleActs : List (Act ℕ) :=
  [.markTurnStart 0, .enter 0 (py "paint"), .register 0, .cancelAll (py "user_stop"), .sweep 0,
    .cancel 0, .finish 0, .enter 0 (py "type"), .refuse 1, .register 1, .exit 0, .exit 1, .waitIdle]

theorem stop_reaches_sample : ∃ s, (registryMachine ℕ).Reach Orderly s ∧
    s.begins.map (fun a => a.token.reason) = [some .userStop, some .userStop] ∧ StopReaches s := by
  have hrun : ((registryMachine ℕ).execChecked sampleCheck sampleRegistry sampleActs).any (fun s =>
      s.begins.map (fun a => a.token.reason) = [some .userStop, some .userStop]) = true := by
    decide +kernel
  obtain ⟨s, hs, hreasons⟩ := (Option.any_eq_true _ _).mp hrun
  have hreach : (registryMachine ℕ).Reach Orderly s :=
    Machine.Reach.execChecked orderly_of_check (.start sampleRegistry_fresh) hs
  exact ⟨s, hreach, of_decide_eq_true hreasons, (stop_reaches hreach).1⟩

/-- `close` comes between the check and the registration. -/
def missedActs : List (Act ℕ) :=
  [.markTurnStart 0, .enter 0 (py "paint"), .close, .sweep 0, .finish 0, .register 0]

theorem stop_misses : ∃ s, (registryMachine ℕ).Reachable s ∧ ¬ StopReaches s := by
  have hrun : (registryMachine ℕ).exec sampleRegistry missedActs = some {
      active := ⟨[(1, 0)], by decide⟩, nextKey := 2, epoch := 1, lastReason := some .shutdown
      closed := true, turn := Function.update (fun _ => none) 0 (some ⟨0, 0, false⟩)
      begins := [⟨⟨py "paint", none⟩, some ⟨0, 0, false⟩, .running 1 1⟩]
      calls := [⟨true, .shutdown, .returned 1 []⟩], waits := [], given := [.shutdown, .shutdown] } := rfl
  refine ⟨_, Machine.reachable_exec sampleRegistry_fresh hrun, fun h => ?_⟩
  obtain ⟨r, hr, -⟩ := h.stopped _ (List.mem_singleton_self _) 1 [] rfl _ (List.mem_singleton_self _)
    (.inr ⟨1, rfl, le_rfl, .inl rfl⟩)
  cases hr

end QronosAgent.Actions

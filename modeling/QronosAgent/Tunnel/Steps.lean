import QronosAgent.Tunnel.Invariant

/-! Every step keeps the invariant. -/
namespace QronosAgent.Tunnel
open Lib

variable {cfg : TunnelSettings} {p p' : Parker}

theorem Inv.settled (h : Inv cfg p) (howns : p.stage.owns = false) (hstage : p.stage ≠ .handing) :
    p.Settled := by
  intro c hc
  obtain ⟨i, hi⟩ := List.mem_iff_getElem?.mp hc
  rcases h.kept i c hi with hclosed | hhanded | ⟨-, ⟨hown, -⟩ | hhanding⟩
  · exact .inl hclosed
  · exact .inr hhanded
  · rw [howns] at hown
    cases hown
  · exact absurd hhanding hstage

theorem Inv.goTo (h : Inv cfg p) (hsettled : p.Settled) {stage : Stage}
    (hstage : stage.owns = false) : Inv cfg { p with stage := stage } := by
  have hcore : Core cfg { p with stage := stage } :=
    { h with }
  exact .of_settled hcore hsettled hstage

theorem Inv.pass (h : Inv cfg p) {elapsed : Seconds} (hpos : 0 ≤ elapsed) :
    Inv cfg { p with now := p.now + elapsed } := by
  have hlater : p.now ≤ p.now + elapsed := by linarith
  refine ⟨⟨h.budget, h.capacity, h.rate, h.initial, h.maximum, h.began.trans hlater,
    fun c hc => (h.last c hc).trans hlater, h.bytes⟩, fun hstage t ht => ?_, fun hstage => ?_, h.kept⟩
  · obtain ⟨hbegan, hnow⟩ := h.parkedAt hstage t ht
    exact ⟨hbegan, hnow.trans hlater⟩
  · obtain ⟨c, hc, hcurrent⟩ := h.current hstage
    exact ⟨c, hc, hcurrent.fresh, hcurrent.parked, hcurrent.bytes, hcurrent.keepalives,
      hcurrent.order⟩

/-- What another thread does to the events and to the list of a `halt`. -/
theorem Inv.signal (h : Inv cfg p) (stop stopping : Bool) (halting : List ℕ) :
    Inv cfg { p with stop := stop, stopping := stopping, halting := halting } := by
  refine ⟨{ h with },
    h.parkedAt, fun hstage => ?_, h.kept⟩
  obtain ⟨c, hc, hcurrent⟩ := h.current hstage
  exact ⟨c, hc, hcurrent.fresh, hcurrent.parked, hcurrent.bytes, hcurrent.keepalives,
    hcurrent.order⟩

theorem Inv.look (h : Inv cfg p) {eligible admitted : Bool}
    (hs : p.look eligible admitted = some p') : Inv cfg p' := by
  unfold Parker.look at hs
  split at hs
  · cases hs
  · rename_i hloop
    have hstage : p.stage = .loop := not_not.mp hloop
    have hsettled : p.Settled := by
      apply h.settled
      · rw [hstage]
        rfl
      · rw [hstage]
        intro hne
        cases hne
    split at hs
    · cases hs
      exact h.goTo hsettled rfl
    · split at hs
      · cases hs
        exact h.goTo hsettled rfl
      · split at hs
        all_goals
          cases hs
          exact h.goTo hsettled rfl

theorem Inv.dialOpened (h : Inv cfg p) (hcfg : cfg.Positive) (hsettled : p.Settled) :
    Inv cfg { p with
      connections := p.connections ++ [.new p.now]
      dialled := p.connections.length
      carrier := some p.connections.length
      began := p.now
      stage := .greeting } := by
  have hburst := hcfg.keepaliveBurst
  refine ⟨⟨h.budget, h.capacity, h.rate, h.initial, h.maximum, le_refl _, fun c hc => ?_,
    fun c hc => ?_⟩, fun hstage => ?_, fun _ => ?_, fun i c hc => ?_⟩
  · rcases List.mem_append.mp hc with hold | hnew
    · exact h.last c hold
    · cases List.mem_singleton.mp hnew
      exact le_refl _
  · rcases List.mem_append.mp hc with hold | hnew
    · exact h.bytes c hold
    · cases List.mem_singleton.mp hnew
      simp only [Connection.new, Connection.parkedFor, Nat.cast_zero, mul_zero, add_zero]
      linarith
  · cases hstage
  · refine ⟨.new p.now, ?_, ⟨fun _ => ⟨rfl, rfl⟩, fun hstage => ?_, fun hstage => ?_,
      fun hstage => ?_, fun t ht => ?_⟩⟩
    · simp
    · cases hstage
    · cases hstage
    · cases hstage
    · cases ht
  · rw [List.getElem?_append] at hc
    split at hc
    · rcases hsettled c (List.mem_of_getElem? hc) with hclosed | hhanded
      · exact .inl hclosed
      · exact .inr (.inl hhanded)
    · rename_i hlt
      have hi : i = p.connections.length := by
        have hzero := List.getElem?_eq_some_iff.mp hc
        obtain ⟨hshort, -⟩ := hzero
        simp only [List.length_singleton] at hshort
        omega
      subst hi
      exact .inr (.inr ⟨rfl, .inl ⟨rfl, rfl⟩⟩)

theorem Inv.dial (h : Inv cfg p) (hcfg : cfg.Positive) {d : Dialled} (hs : p.dial d = some p') :
    Inv cfg p' := by
  unfold Parker.dial at hs
  split at hs
  · cases hs
  · rename_i hdialling
    have hstage : p.stage = .dialling := not_not.mp hdialling
    have hsettled : p.Settled := by
      apply h.settled
      · rw [hstage]
        rfl
      · rw [hstage]
        intro hne
        cases hne
    cases d with
    | opened =>
      cases hs
      exact h.dialOpened hcfg hsettled
    | sslError =>
      cases hs
      exact h.toCore.returned hsettled _
    | osError =>
      cases hs
      exact h.toCore.returned hsettled _

theorem Inv.greet (h : Inv cfg p) (hcfg : cfg.Positive) {sent : Bool}
    (hs : p.greet sent = some p') : Inv cfg p' := by
  unfold Parker.greet at hs
  split at hs
  · cases hs
  · rename_i hgreeting
    have hstage : p.stage = .greeting := not_not.mp hgreeting
    split at hs
    · cases hs
      refine ⟨{ h with },
        fun _ t ht => ?_, fun _ => ?_, fun i c hc => ?_⟩
      · cases ht
      · obtain ⟨c, hc, hcurrent⟩ := h.current (.inl hstage)
        obtain ⟨hbytes, hparked⟩ := hcurrent.fresh hstage
        refine ⟨c, hc, ⟨fun hne => ?_, fun _ => hparked, fun _ => hbytes, fun _ => ?_, hcurrent.order⟩⟩
        · cases hne
        · have hburst := hcfg.keepaliveBurst
          simp only [Connection.parkedFor, hparked, Nat.cast_zero, mul_zero, add_zero]
          linarith
      · rcases h.kept i c hc with hclosed | hhanded | ⟨hi, ⟨-, hcarrier⟩ | hhanding⟩
        · exact .inl hclosed
        · exact .inr (.inl hhanded)
        · exact .inr (.inr ⟨hi, .inl ⟨rfl, hcarrier⟩⟩)
        · rw [hstage] at hhanding
          cases hhanding
    · cases hs
      apply h.toCore.leave h.kept
      rw [hstage]
      intro hne
      cases hne

theorem Inv.enter (h : Inv cfg p) (hs : p.enter = some p') : Inv cfg p' := by
  unfold Parker.enter at hs
  split at hs
  · cases hs
  · rename_i hparked
    have hstage : p.stage = .parked := not_not.mp hparked
    have hwaits : p.stage.waits = true := by
      rw [hstage]
      rfl
    split at hs
    · cases hs
      apply h.toCore.leave h.kept
      rw [hstage]
      intro hne
      cases hne
    · cases hs
      refine ⟨{ h with },
        fun _ => h.parkedAt hwaits, fun _ => ?_, fun i c hc => ?_⟩
      · obtain ⟨c, hc, hcurrent⟩ := h.current (.inr hwaits)
        refine ⟨c, hc, ⟨fun hne => ?_, fun _ => hcurrent.parked hwaits,
          fun _ => hcurrent.bytes hwaits, fun _ => hcurrent.keepalives hwaits, hcurrent.order⟩⟩
        cases hne
      · rcases h.kept i c hc with hclosed | hhanded | ⟨hi, ⟨-, hcarrier⟩ | hhanding⟩
        · exact .inl hclosed
        · exact .inr (.inl hhanded)
        · exact .inr (.inr ⟨hi, .inl ⟨rfl, hcarrier⟩⟩)
        · rw [hstage] at hhanding
          cases hhanding

structure Heard (cfg : TunnelSettings) (p : Parker) (c : Connection) : Prop where
  found : p.connections[p.dialled]? = some c
  parked : c.parked = p.parkedAt
  bytes : c.bytes = p.keepalives + 1 + if p.parkedAt.isSome then 1 else 0
  keepalives : (p.keepalives : ℚ) ≤ cfg.keepaliveBurst + cfg.keepalivePerSecond * c.parkedFor
  last : c.last = p.now
  order : ∀ t ∈ c.parked, t ≤ c.last

theorem Heard.sinceParked {c : Connection} (h : Heard cfg p c) : c.parkedFor = p.sinceParked := by
  unfold Connection.parkedFor Parker.sinceParked
  rw [h.parked, h.last]

theorem Inv.heard (h : Inv cfg p) (hcfg : cfg.Positive) (hstage : p.stage = .reading) :
    Core cfg p.heard ∧ (∀ i c, p.heard.connections[i]? = some c → Kept p.heard i c) ∧
      ∃ c, Heard cfg p.heard c := by
  have hwaits : p.stage.waits = true := by
    rw [hstage]
    rfl
  have hrate := hcfg.keepalivePerSecond
  obtain ⟨c, hc, hcurrent⟩ := h.current (.inr hwaits)
  have hlast : c.last ≤ p.now := h.last c (List.mem_of_getElem? hc)
  have hgrows : c.parkedFor ≤ (c.hears p.now).parkedFor := by
    unfold Connection.parkedFor Connection.hears
    cases c.parked with
    | none => exact le_refl _
    | some t => exact sub_le_sub_right hlast t
  have hkeepalives : (p.keepalives : ℚ) ≤
      cfg.keepaliveBurst + cfg.keepalivePerSecond * (c.hears p.now).parkedFor := by
    have hmul := mul_le_mul_of_nonneg_left hgrows hrate.le
    have hold := hcurrent.keepalives hwaits
    linarith
  have hbytes : (c.hears p.now).bytes = p.keepalives + 1 + if p.parkedAt.isSome then 1 else 0 := by
    unfold Connection.hears
    simp only [hcurrent.bytes hwaits]
    omega
  have hmodified : ∀ i c', p.heard.connections[i]? = some c' → i = p.dialled ∧ c' = c.hears p.now ∨
      p.connections[i]? = some c' := by
    intro i c' hc'
    obtain ⟨c₀, hc₀, rfl⟩ := modify_cases hc'
    by_cases hi : p.dialled = i
    · subst hi
      cases hc₀.symm.trans hc
      rw [if_pos rfl]
      exact .inl ⟨rfl, rfl⟩
    · rw [if_neg hi]
      exact .inr hc₀
  refine ⟨⟨h.budget, h.capacity, h.rate, h.initial, h.maximum, h.began, fun c' hc' => ?_,
    fun c' hc' => ?_⟩, fun i c' hc' => ?_, c.hears p.now, ?_⟩
  · obtain ⟨i, hi⟩ := List.mem_iff_getElem?.mp hc'
    rcases hmodified i c' hi with ⟨-, rfl⟩ | hold
    · exact le_refl _
    · exact h.last c' (List.mem_of_getElem? hold)
  · obtain ⟨i, hi⟩ := List.mem_iff_getElem?.mp hc'
    rcases hmodified i c' hi with ⟨-, rfl⟩ | hold
    · have htwo : ((c.hears p.now).bytes : ℚ) ≤ p.keepalives + 2 := by
        rw [hbytes]
        split <;> push_cast <;> linarith
      linarith
    · exact h.bytes c' (List.mem_of_getElem? hold)
  · rcases hmodified i c' hc' with ⟨rfl, rfl⟩ | hold
    · rcases h.kept p.dialled c hc with hclosed | hhanded | hhand
      · exact .inl hclosed
      · exact .inr (.inl hhanded)
      · exact .inr (.inr hhand)
    · exact h.kept i c' hold
  · refine ⟨?_, hcurrent.parked hwaits, hbytes, hkeepalives, rfl, fun t ht => ?_⟩
    · simp [Parker.heard, Parker.onDialled, hc]
    · exact (hcurrent.order t ht).trans hlast

theorem Kept.owned {q : Parker} {i : ℕ} {c : Connection} (h : Kept p i c)
    (hdialled : q.dialled = p.dialled) (hcarrier : q.carrier = p.carrier)
    (howns : q.stage.owns = true) (hstage : p.stage ≠ .handing) : Kept q i c := by
  rcases h with hclosed | hhanded | ⟨hi, ⟨-, hhand⟩ | hhanding⟩
  · exact .inl hclosed
  · exact .inr (.inl hhanded)
  · exact .inr (.inr ⟨hi.trans hdialled.symm, .inl ⟨howns, hcarrier.trans hhand⟩⟩)
  · exact absurd hhanding hstage

theorem Heard.saidParked {c : Connection} (h : Heard cfg p c) (hcore : Core cfg p)
    (hkept : ∀ i c, p.connections[i]? = some c → Kept p i c) (hstage : p.stage ≠ .handing)
    (hnone : p.parkedAt = none) : Inv cfg p.saidParked := by
  have hparked : c.parked = none := h.parked.trans hnone
  have hfor : c.parkedFor = 0 := by
    unfold Connection.parkedFor
    rw [hparked]
  have hkeepalives : (p.keepalives : ℚ) ≤ cfg.keepaliveBurst := by
    have hle := h.keepalives
    rw [hfor, mul_zero, add_zero] at hle
    exact hle
  have hbytes : c.bytes = p.keepalives + 1 := by
    have hsum := h.bytes
    rw [hnone] at hsum
    exact hsum
  have hfor' : ({ c with parked := some (c.parked.getD p.now) } : Connection).parkedFor = 0 := by
    rw [hparked]
    exact sub_eq_zero.mpr h.last
  have hmodified : ∀ i c', p.saidParked.connections[i]? = some c' →
      i = p.dialled ∧ c' = { c with parked := some (c.parked.getD p.now) } ∨
        p.connections[i]? = some c' := by
    intro i c' hc'
    obtain ⟨c₀, hc₀, rfl⟩ := modify_cases hc'
    by_cases hi : p.dialled = i
    · subst hi
      cases hc₀.symm.trans h.found
      rw [if_pos rfl]
      exact .inl ⟨rfl, rfl⟩
    · rw [if_neg hi]
      exact .inr hc₀
  refine ⟨⟨hcore.budget, hcore.capacity, hcore.rate, hcore.initial, hcore.maximum, hcore.began,
    fun c' hc' => ?_, fun c' hc' => ?_⟩, fun _ t ht => ?_, fun _ => ?_, fun i c' hc' => ?_⟩
  · obtain ⟨i, hi⟩ := List.mem_iff_getElem?.mp hc'
    rcases hmodified i c' hi with ⟨-, rfl⟩ | hold
    · exact h.last.le
    · exact hcore.last c' (List.mem_of_getElem? hold)
  · obtain ⟨i, hi⟩ := List.mem_iff_getElem?.mp hc'
    rcases hmodified i c' hi with ⟨-, rfl⟩ | hold
    · rw [hfor', mul_zero, add_zero]
      simp only [hbytes, Nat.cast_add, Nat.cast_one]
      linarith
    · exact hcore.bytes c' (List.mem_of_getElem? hold)
  · cases ht
    exact ⟨hcore.began, le_refl _⟩
  · refine ⟨{ c with parked := some (c.parked.getD p.now) }, ?_, fun hne => ?_, fun _ => ?_,
      fun _ => hbytes, fun _ => ?_, fun t ht => ?_⟩
    · simp [Parker.saidParked, Parker.onDialled, h.found]
    · cases hne
    · rw [hparked]
      rfl
    · rw [hfor', mul_zero, add_zero]
      exact hkeepalives
    · rw [hparked] at ht
      cases ht
      exact h.last.ge
  · rcases hmodified i c' hc' with ⟨rfl, rfl⟩ | hold
    · have hkept' := (hkept p.dialled c h.found).owned (q := p.saidParked) rfl rfl rfl hstage
      exact hkept'
    · exact (hkept i c' hold).owned rfl rfl rfl hstage

theorem Heard.saidKeepalive {c : Connection} (h : Heard cfg p c) (hcore : Core cfg p)
    (hkept : ∀ i c, p.connections[i]? = some c → Kept p i c) (hstage : p.stage = .reading)
    (hbegan : ∀ t ∈ p.parkedAt, p.began ≤ t ∧ t ≤ p.now) : Inv cfg (p.saidKeepalive cfg) := by
  have hhanding : p.stage ≠ .handing := by
    rw [hstage]
    intro hne
    cases hne
  unfold Parker.saidKeepalive
  split
  · apply Core.leave
    · exact { hcore with }
    · exact hkept
    · exact hhanding
  · rename_i hfew
    rw [← h.sinceParked] at hfew
    refine ⟨{ hcore with }, fun _ => hbegan, fun _ => ⟨c, h.found, fun hne => ?_,
        fun _ => h.parked, fun _ => h.bytes, fun _ => ?_, h.order⟩, fun i c' hc' => ?_⟩
    · cases hne
    · push_cast
      exact not_lt.mp hfew
    · exact (hkept i c' hc').owned rfl rfl rfl hhanding

theorem Inv.read (h : Inv cfg p) (hcfg : cfg.Positive) {r : Received}
    (hmeets : Meets p (.read r)) (hs : p.read cfg r = some p') : Inv cfg p' := by
  unfold Parker.read at hs
  split at hs
  · cases hs
  · rename_i hreading
    have hstage : p.stage = .reading := not_not.mp hreading
    have hhanding : p.stage ≠ .handing := by
      rw [hstage]
      intro hne
      cases hne
    cases r with
    | timeout =>
      cases hs
      exact h.toCore.leave h.kept hhanding _
    | endOfStream =>
      cases hs
      exact h.toCore.leave h.kept hhanding _
    | osError =>
      cases hs
      exact h.toCore.leave h.kept hhanding _
    | byte value =>
      cases hs
      obtain ⟨hcore, hkept, c, hheard⟩ := h.heard hcfg hstage
      have hbegan : ∀ t ∈ p.heard.parkedAt, p.began ≤ t ∧ t ≤ p.now := by
        apply h.parkedAt
        rw [hstage]
        rfl
      unfold Parker.said
      split
      · rename_i hdecoded
        exact hheard.saidParked hcore hkept hhanding (hmeets hdecoded)
      · exact hheard.saidKeepalive hcore hkept hstage hbegan
      · refine ⟨{ hcore with }, fun hne => ?_, fun hne => ?_, fun i c' hc' => ?_⟩
        · cases hne
        · rcases hne with hne | hne <;> cases hne
        · exact (hkept i c' hc').owned rfl rfl rfl hhanding
      · exact hcore.leave hkept hhanding _
      · exact hcore.leave hkept hhanding _
      · exact hcore.leave hkept hhanding _

/-! Handing over, and the wait for the server's verdict. -/

theorem Inv.recheck (h : Inv cfg p) {eligible : Bool} (hs : p.recheck eligible = some p') :
    Inv cfg p' := by
  unfold Parker.recheck at hs
  split at hs
  · cases hs
  · rename_i hspliced
    have hstage : p.stage = .spliced := not_not.mp hspliced
    have hhanding : p.stage ≠ .handing := by
      rw [hstage]
      intro hne
      cases hne
    obtain ⟨hsound, -⟩ := h.budget.take p.now
    have hcapacity := (p.spliceBudget.take_capacity p.now).trans h.capacity
    have hrate := (p.spliceBudget.take_rate p.now).trans h.rate
    split at hs
    · cases hs
      exact h.toCore.leave h.kept hhanding _
    · split at hs
      · cases hs
        refine ⟨⟨hsound, hcapacity, hrate, h.initial, h.maximum, h.began, h.last, h.bytes⟩,
          fun hne => ?_, fun hne => ?_, fun i c hc => ?_⟩
        · cases hne
        · rcases hne with hne | hne <;> cases hne
        · rcases h.kept i c hc with hclosed | hhanded | ⟨hi, -⟩
          · exact .inl hclosed
          · exact .inr (.inl hhanded)
          · exact .inr (.inr ⟨hi, .inr rfl⟩)
      · cases hs
        apply Core.leave
        · exact ⟨hsound, hcapacity, hrate, h.initial, h.maximum, h.began, h.last, h.bytes⟩
        · exact h.kept
        · exact hhanding

theorem Inv.handOver (h : Inv cfg p) (hs : p.handOver cfg = some p') : Inv cfg p' := by
  unfold Parker.handOver at hs
  split at hs
  · cases hs
  · rename_i hhands
    have hstage : p.stage = .handing := not_not.mp hhands
    cases hs
    have hcore := h.toCore.quiet quiet_handOver p.dialled
    apply Inv.of_settled
    · exact { hcore with }
    · intro c hc
      obtain ⟨i, hi⟩ := List.mem_iff_getElem?.mp hc
      obtain ⟨c₀, hc₀, rfl⟩ := modify_cases hi
      split
      · exact .inr rfl
      · rename_i hne
        rcases h.kept i c₀ hc₀ with hclosed | hhanded | ⟨hdialled, -⟩
        · exact .inl hclosed
        · exact .inr hhanded
        · exact absurd hdialled.symm hne
    · rfl

theorem Inv.conclude (h : Inv cfg p) (hs : p.conclude = some p') : Inv cfg p' := by
  unfold Parker.conclude at hs
  split at hs
  · rename_i deadline hstage
    have hhanding : p.stage ≠ .handing := by
      rw [hstage]
      intro hne
      cases hne
    split at hs
    · cases hs
    · split at hs
      · cases hs
        apply Core.leave
        · exact { h with }
        · exact h.kept
        · exact hhanding
      · cases hs
        exact h.toCore.leave h.kept hhanding _
  · cases hs

theorem Parker.noteFailure_core (f : RelayFailure) (h : Core cfg p) : Core cfg (p.noteFailure f) := by
  unfold Parker.noteFailure
  split
  · exact h
  · exact { h with }

theorem Parker.noteFailure_fields (p : Parker) (f : RelayFailure) :
    (p.noteFailure f).now = p.now ∧ (p.noteFailure f).connections = p.connections ∧
      (p.noteFailure f).backoff = p.backoff ∧ (p.noteFailure f).spliceBudget = p.spliceBudget ∧
        (p.noteFailure f).splices = p.splices ∧
          (p.noteFailure f).authenticatedSplices = p.authenticatedSplices := by
  unfold Parker.noteFailure
  split <;> exact ⟨rfl, rfl, rfl, rfl, rfl, rfl⟩

theorem Inv.note (h : Inv cfg p) {delay : Seconds} (hs : p.note delay = some p') : Inv cfg p' := by
  unfold Parker.note at hs
  split at hs
  · rename_i f hstage
    split at hs
    · cases hs
      have hcore := Parker.noteFailure_core f h.toCore
      obtain ⟨hnow, hconnections, -⟩ := p.noteFailure_fields f
      apply Inv.of_settled
      · exact ⟨hcore.budget, hcore.capacity, hcore.rate, h.initial, h.maximum, hnow.ge, hcore.last,
          hcore.bytes⟩
      · unfold Parker.Settled
        rw [hconnections]
        apply h.settled <;> rw [hstage]
        · rfl
        · intro hne
          cases hne
      · rfl
    · cases hs
  · cases hs

theorem Inv.wake (h : Inv cfg p) (hs : p.wake = some p') : Inv cfg p' := by
  have hsettled : p.stage.owns = false → p.stage ≠ .handing → p.Settled := h.settled
  unfold Parker.wake at hs
  split at hs
  all_goals
    first
    | cases hs
    | rename_i deadline hstage
      have hquiet : p.Settled := by
        apply hsettled <;> rw [hstage]
        · rfl
        · intro hne
          cases hne
      split at hs
      · cases hs
        exact h.goTo hquiet rfl
      · split at hs
        · cases hs
          exact h.goTo hquiet rfl
        · cases hs

theorem Inv.raises (h : Inv cfg p) (hmeets : Meets p .raises) (hs : p.raises = some p') :
    Inv cfg p' := by
  have hleft : ∀ q : Parker, q = { p.letGo with stage := .ended } → Inv cfg q := by
    rintro q rfl
    have hcore := h.toCore.letGo
    apply Inv.of_settled
    · exact { hcore with }
    · exact letGo_settled h.kept hmeets
    · rfl
  unfold Parker.raises at hs
  split at hs
  all_goals
    first
    | cases hs; done
    | exact hleft p' (Option.some.inj hs).symm
    | rename_i hstage
      cases hs
      apply h.goTo _ rfl
      apply h.settled <;> rw [hstage]
      · rfl
      · intro hne
        cases hne

theorem Inv.step (h : Inv cfg p) (hcfg : cfg.Positive) {a : Action} (hmeets : Meets p a)
    (hs : p.step cfg a = some p') : Inv cfg p' := by
  cases a with
  | pass elapsed =>
    simp only [Parker.step] at hs
    split at hs
    · cases hs
      exact h.pass ‹_›
    · cases hs
  | stopping =>
    cases hs
    exact h.signal p.stop true p.halting
  | halt =>
    cases hs
    exact h.signal true p.stopping p.halting
  | haltTakes =>
    simp only [Parker.step, Parker.haltTakes] at hs
    split at hs
    · cases hs
      exact h.signal p.stop p.stopping (p.carrier.toList ++ p.halting)
    · cases hs
  | haltCloses c =>
    simp only [Parker.step, Parker.haltCloses] at hs
    split at hs
    · cases hs
      exact h.quiet quiet_close c
    · cases hs
  | report c authenticated =>
    simp only [Parker.step, Parker.report] at hs
    split at hs
    · cases hs
      exact h.quiet (quiet_report authenticated) c
    · cases hs
  | look eligible admitted => exact h.look hs
  | dial d => exact h.dial hcfg hs
  | greet sent => exact h.greet hcfg hs
  | enter => exact h.enter hs
  | read r => exact h.read hcfg hmeets hs
  | recheck eligible => exact h.recheck hs
  | handOver => exact h.handOver hs
  | conclude => exact h.conclude hs
  | note delay => exact h.note hs
  | wake => exact h.wake hs
  | raises => exact h.raises hmeets hs

theorem inv_new (hcfg : cfg.Positive) (now : Seconds) : Inv cfg (.new cfg now) := by
  have hsound : (Parker.new cfg now).spliceBudget.Sound :=
    ⟨hcfg.spliceRefillPerSecond.le, hcfg.spliceBurst.le, le_refl _⟩
  apply Inv.of_settled
  · exact ⟨hsound, rfl, rfl, rfl, rfl, le_refl _, (fun c hc => by cases hc), fun c hc => by cases hc⟩
  · intro c hc
    cases hc
  · rfl

theorem inv_of_reach (hcfg : cfg.Positive) (hr : (parkerMachine cfg).Reach Meets p) : Inv cfg p := by
  apply hr.invariant
  · rintro p₀ ⟨now, rfl⟩
    exact inv_new hcfg now
  · intro p₁ a p₂ hinv hmeets hstep
    exact hinv.step hcfg hmeets hstep

end QronosAgent.Tunnel

import QronosAgent.Link.CommandLedger

/-! What each method of the ledger does to the entry of one device and command. -/
namespace QronosAgent.Link
open Lib

variable {ο : Type}

namespace Entries

theorem mem_expired {entries : Entries ο} {cutoff : Seconds} {ce : CommandId × Entry ο} :
    ce ∈ entries.expired cutoff ↔
      entries.get? ce.1 = some ce.2 ∧ ce.2.finished = true ∧ ce.2.startedAt < cutoff := by
  rw [expired, List.mem_filter, Dict.get?_eq_some]
  simp

theorem nodup_expired (entries : Entries ο) (cutoff : Seconds) :
    ((entries.expired cutoff).map Prod.fst).Nodup :=
  entries.nodup.sublist (List.filter_sublist.map _)

theorem get?_withoutExpired {entries : Entries ο} {cutoff : Seconds} {c : CommandId} :
    (entries.withoutExpired cutoff).get? c =
      if c ∈ (entries.expired cutoff).map Prod.fst then none else entries.get? c := by
  rw [withoutExpired, Dict.get?_filter]
  by_cases hin : c ∈ (entries.expired cutoff).map Prod.fst
  · rw [if_pos hin]
    obtain ⟨⟨c', e⟩, hmem, rfl⟩ := List.mem_map.mp hin
    obtain ⟨hget, hfin, hold⟩ := mem_expired.mp hmem
    dsimp only at hget hfin hold ⊢
    rw [hget, Option.filter_some, if_neg (by simp [hfin, hold])]
  · rw [if_neg hin]
    cases hget : entries.get? c with
    | none => rfl
    | some e =>
      have hkeep : ¬ (e.finished = true ∧ e.startedAt < cutoff) := fun h =>
        hin (List.mem_map.mpr ⟨(c, e), mem_expired.mpr ⟨hget, h⟩, rfl⟩)
      rw [Option.filter_some, if_pos]
      rw [Bool.not_eq_true', ← Bool.not_eq_true, Bool.and_eq_true, decide_eq_true_iff]
      exact hkeep

structure RoomMade (maxPerDevice : ℕ) (entries : Entries ο) (room : Room ο) : Prop where
  evicted : ∀ v ∈ room.evicted, entries.get? v.commandId = some v.entry ∧
    v.entry.finished = true ∧ maxPerDevice ≤ v.held
  nodup : (room.evicted.map Evicted.commandId).Nodup
  rest : ∀ c, room.entries.get? c =
    if c ∈ room.evicted.map Evicted.commandId then none else entries.get? c

theorem makeRoom_spec (maxPerDevice turns : ℕ) (entries : Entries ο) :
    RoomMade maxPerDevice entries (makeRoom maxPerDevice turns entries) := by
  have hstay : ∀ (entries : Entries ο) free, RoomMade maxPerDevice entries ⟨entries, [], free⟩ :=
    fun entries free => ⟨by simp, List.nodup_nil, by simp⟩
  induction turns generalizing entries with
  | zero => exact hstay _ _
  | succ turns ih =>
    rw [makeRoom]
    by_cases hfree : entries.items.length < maxPerDevice
    · rw [if_pos hfree]
      exact hstay _ _
    · rw [if_neg hfree]
      cases hold : entries.oldestFinished? with
      | none => exact hstay _ _
      | some ce =>
        obtain ⟨c, e⟩ := ce
        have hmem := List.mem_of_find?_eq_some hold
        have hfin : e.finished = true :=
          List.find?_some (p := fun ce : CommandId × Entry ο => ce.2.finished) hold
        obtain ⟨hev, hnodup, hrest⟩ := ih (entries.erase c)
        have hne : ∀ v ∈ (makeRoom maxPerDevice turns (entries.erase c)).evicted,
            v.commandId ≠ c := by
          intro v hv heq
          have := (hev v hv).1
          rw [heq, Dict.get?_erase_self] at this
          contradiction
        refine ⟨fun v hv => ?_, ?_, fun d => ?_⟩
        · obtain rfl | hv := List.mem_cons.mp hv
          · exact ⟨Dict.get?_eq_some.mpr hmem, hfin, Nat.not_lt.mp hfree⟩
          · obtain ⟨hget, h⟩ := hev v hv
            rw [Dict.get?_erase_ne (hne v hv)] at hget
            exact ⟨hget, h⟩
        · simp only [List.map_cons, List.nodup_cons]
          refine ⟨fun hin => ?_, hnodup⟩
          obtain ⟨v, hv, heq⟩ := List.mem_map.mp hin
          exact hne v hv heq
        · dsimp only
          rw [hrest d, List.map_cons]
          by_cases hd : d = c
          · rw [hd, if_pos (List.mem_cons_self), Dict.get?_erase_self, ite_self]
          · rw [Dict.get?_erase_ne hd]
            simp only [List.mem_cons, hd, false_or]

end Entries

def Entry.core (e : Entry ο) : Fingerprint × Bool := (e.fingerprint, e.finished)

/-- The ids `begin` took out of the device's table. -/
def Begun.removed (b : Begun ο) : List CommandId :=
  b.expired.map Prod.fst ++ b.evicted.map Evicted.commandId

namespace CommandLedger
variable {cfg : LedgerConfig ο} {l : CommandLedger ο} {d : DeviceId} {c : CommandId}

theorem entryOf_withEntries {entries : Entries ο} {removed : List (CommandId × Entry ο)}
    (d' : DeviceId) (c' : CommandId) : (l.withEntries d entries removed).entryOf d' c' =
      if d' = d then entries.get? c' else l.entryOf d' c' := by
  unfold entryOf CommandLedger.entries withEntries
  rw [Dict.get?_set]
  split <;> rfl

structure BeginSpec (cfg : LedgerConfig ο) (l : CommandLedger ο) (startNow : Seconds)
    (d : DeviceId) (c : CommandId) (fp : Fingerprint) (b : Begun ο) : Prop where
  nodup : b.removed.Nodup
  expired : ∀ ce ∈ b.expired, l.entryOf d ce.1 = some ce.2 ∧ ce.2.finished = true
  evicted : ∀ v ∈ b.evicted, l.entryOf d v.commandId = some v.entry ∧ v.entry.finished = true ∧
    cfg.maxPerDevice ≤ v.held
  remembered : ∀ e, l.entryOf d c = some e → c ∉ b.removed →
    b.decision = if e.fingerprint ≠ fp then ⟨.conflict, none⟩
      else if !e.finished then ⟨.inProgress, none⟩ else ⟨.done, e.outcome⟩
  /-- Otherwise the id is claimed, or refused for want of room. -/
  free : l.entryOf d c = none ∨ c ∈ b.removed →
    b.decision = ⟨.new, none⟩ ∨ b.decision = ⟨.inProgress, none⟩
  entry : ∀ d' c', b.ledger.entryOf d' c' =
    if b.decision.state = .new ∧ d' = d ∧ c' = c then some ⟨fp, startNow, false, none, 0⟩
    else if d' = d ∧ c' ∈ b.removed then none else l.entryOf d' c'

theorem begin_spec (cfg : LedgerConfig ο) (l : CommandLedger ο) (expiryNow startNow : Seconds)
    (d : DeviceId) (c : CommandId) (fp : Fingerprint) :
    BeginSpec cfg l startNow d c fp (l.begin cfg expiryNow startNow d c fp) := by
  unfold CommandLedger.begin
  dsimp only
  generalize expiryNow - cfg.ttl = cutoff
  have hexp : ∀ ce ∈ (l.entries d).expired cutoff,
      l.entryOf d ce.1 = some ce.2 ∧ ce.2.finished = true := fun ce hce =>
    have h := Entries.mem_expired.mp hce
    ⟨h.1, h.2.1⟩
  have hkept : ∀ c', ((l.entries d).withoutExpired cutoff).get? c' =
      if c' ∈ ((l.entries d).expired cutoff).map Prod.fst then none else l.entryOf d c' :=
    fun c' => Entries.get?_withoutExpired
  have hnodup := Entries.nodup_expired (l.entries d) cutoff
  generalize (l.entries d).expired cutoff = expired at *
  generalize (l.entries d).withoutExpired cutoff = entries at *
  cases hget : entries.get? c with
  | some entry =>
    have hc : c ∉ expired.map Prod.fst ∧ l.entryOf d c = some entry := by
      rw [hkept] at hget
      by_cases hin : c ∈ expired.map Prod.fst
      · simp [if_pos hin] at hget
      · rw [if_neg hin] at hget
        exact ⟨hin, hget⟩
    dsimp only
    refine ⟨?_, hexp, by simp, fun e he _ => ?_, fun h => ?_, fun d' c' => ?_⟩
    · simpa [Begun.removed] using hnodup
    · rw [hc.2] at he
      rw [Option.some.inj he]
    · simp [Begun.removed, hc.2, hc.1] at h
    · have hnew : (if entry.fingerprint ≠ fp then (⟨.conflict, none⟩ : CommandDecision ο)
          else if !entry.finished then ⟨.inProgress, none⟩
          else ⟨.done, entry.outcome⟩).state ≠ .new := by
        split
        · simp
        · split <;> simp
      dsimp only
      generalize (if entry.fingerprint ≠ fp then (⟨.conflict, none⟩ : CommandDecision ο)
        else if !entry.finished then ⟨.inProgress, none⟩
        else ⟨.done, entry.outcome⟩) = decision at *
      rw [if_neg fun h => hnew h.1, entryOf_withEntries, hkept]
      by_cases hd : d' = d
      · rw [if_pos hd, hd]
        by_cases hin : c' ∈ expired.map Prod.fst
        · rw [if_pos hin, if_pos ⟨rfl, List.mem_append_left _ hin⟩]
        · rw [if_neg hin, if_neg]
          rintro ⟨_, h⟩
          exact (List.mem_append.mp h).elim hin (by simp)
      · rw [if_neg hd, if_neg fun h => hd h.1]
  | none =>
    obtain ⟨hev, hnodupEv, hrest⟩ :=
      Entries.makeRoom_spec cfg.maxPerDevice entries.items.length entries
    generalize Entries.makeRoom cfg.maxPerDevice entries.items.length entries = room at *
    have hevicted : ∀ v ∈ room.evicted, v.commandId ∉ expired.map Prod.fst ∧
        l.entryOf d v.commandId = some v.entry := by
      intro v hv
      have h := (hev v hv).1
      rw [hkept] at h
      by_cases hin : v.commandId ∈ expired.map Prod.fst
      · simp [if_pos hin] at h
      · rw [if_neg hin] at h
        exact ⟨hin, h⟩
    have hremoved : (expired.map Prod.fst ++ room.evicted.map Evicted.commandId).Nodup := by
      rw [List.nodup_append]
      refine ⟨hnodup, hnodupEv, ?_⟩
      rintro a ha b hb rfl
      obtain ⟨v, hv, rfl⟩ := List.mem_map.mp hb
      exact (hevicted v hv).1 ha
    have hroom : ∀ c', room.entries.get? c' =
        if c' ∈ expired.map Prod.fst ++ room.evicted.map Evicted.commandId then none
        else l.entryOf d c' := by
      intro c'
      rw [hrest, hkept]
      by_cases h₁ : c' ∈ room.evicted.map Evicted.commandId
      · rw [if_pos h₁, if_pos (List.mem_append_right _ h₁)]
      · rw [if_neg h₁]
        by_cases h₂ : c' ∈ expired.map Prod.fst
        · rw [if_pos h₂, if_pos (List.mem_append_left _ h₂)]
        · rw [if_neg h₂, if_neg fun h => (List.mem_append.mp h).elim h₂ h₁]
    have hgone : l.entryOf d c = none ∨ c ∈ expired.map Prod.fst := by
      rw [hkept] at hget
      by_cases hin : c ∈ expired.map Prod.fst
      · exact .inr hin
      · rw [if_neg hin] at hget
        exact .inl hget
    dsimp only
    by_cases hfree : room.free = true
    · rw [if_pos hfree]
      refine ⟨hremoved, hexp, fun v hv => ⟨(hevicted v hv).2, (hev v hv).2⟩, fun e he hc => ?_,
        fun _ => .inl rfl, fun d' c' => ?_⟩
      · obtain h | h := hgone
        · simp [he] at h
        · exact absurd (List.mem_append_left _ h) hc
      · dsimp only
        rw [entryOf_withEntries, entryOf_withEntries, Dict.get?_set, hroom]
        by_cases hd : d' = d
        · simp only [hd, true_and, if_true]
          rfl
        · rw [if_neg hd, if_neg hd, if_neg fun h => hd h.2.1, if_neg fun h => hd h.1]
    · rw [if_neg hfree]
      refine ⟨hremoved, hexp, fun v hv => ⟨(hevicted v hv).2, (hev v hv).2⟩, fun e he hc => ?_,
        fun _ => .inr rfl, fun d' c' => ?_⟩
      · obtain h | h := hgone
        · simp [he] at h
        · exact absurd (List.mem_append_left _ h) hc
      · dsimp only
        rw [entryOf_withEntries, entryOf_withEntries, hroom]
        by_cases hd : d' = d
        · simp only [hd, true_and, if_true, reduceCtorEq, false_and, if_false]
          rfl
        · rw [if_neg hd, if_neg hd, if_neg fun h => hd h.2.1, if_neg fun h => hd h.1]

theorem entryOf_modifyEntry {f : Entry ο → Entry ο} (d' : DeviceId) (c' : CommandId) :
    (l.modifyEntry d c f).entryOf d' c' =
      if d' = d ∧ c' = c then (l.entryOf d c).map f else l.entryOf d' c' := by
  unfold entryOf CommandLedger.entries modifyEntry
  dsimp only
  rw [Dict.get?_modify]
  by_cases hd : d' = d
  · rw [if_pos hd, hd]
    by_cases hc : c' = c
    · rw [if_pos ⟨rfl, hc⟩, hc]
      cases l.devices.get? d with
      | none => rfl
      | some entries => exact Dict.get?_modify_self
    · rw [if_neg fun h => hc h.2]
      cases l.devices.get? d with
      | none => rfl
      | some entries => exact Dict.get?_modify_ne hc
  · rw [if_neg hd, if_neg fun h => hd h.1]

@[simp] theorem entryOf_addRetained (n : ℤ) (d' : DeviceId) (c' : CommandId) :
    (l.addRetained n).entryOf d' c' = l.entryOf d' c' := rfl

theorem entryOf_forgetDevice (d' : DeviceId) (c' : CommandId) :
    (l.forgetDevice d).entryOf d' c' = if d' = d then none else l.entryOf d' c' := by
  unfold entryOf CommandLedger.entries forgetDevice
  rw [Dict.get?_erase]
  split <;> rfl

structure Thinned (l l' : CommandLedger ο) : Prop where
  core : ∀ d c, (l'.entryOf d c).map Entry.core = (l.entryOf d c).map Entry.core
  outcome : ∀ d c e' o, l'.entryOf d c = some e' → e'.outcome = some o →
    ∃ e, l.entryOf d c = some e ∧ e.outcome = some o

theorem Thinned.refl (l : CommandLedger ο) : Thinned l l :=
  ⟨fun _ _ => rfl, fun _ _ e _ he ho => ⟨e, he, ho⟩⟩

theorem Thinned.trans {l₁ l₂ l₃ : CommandLedger ο} (h₁ : Thinned l₁ l₂) (h₂ : Thinned l₂ l₃) :
    Thinned l₁ l₃ where
  core d c := (h₂.core d c).trans (h₁.core d c)
  outcome d c e o he ho :=
    have ⟨e', he', ho'⟩ := h₂.outcome d c e o he ho
    h₁.outcome d c e' o he' ho'

theorem thinned_dropOldestOutcome {l' : CommandLedger ο} (h : l.dropOldestOutcome = some l') :
    Thinned l l' := by
  obtain ⟨⟨d, c, e⟩, _, rfl⟩ := Option.map_eq_some_iff.mp h
  constructor
  · intro d' c'
    rw [entryOf_modifyEntry]
    by_cases hdc : d' = d ∧ c' = c
    · rw [if_pos hdc, hdc.1, hdc.2, entryOf_addRetained, Option.map_map]
      rfl
    · rw [if_neg hdc, entryOf_addRetained]
  · intro d' c' e' o he' ho
    rw [entryOf_modifyEntry] at he'
    by_cases hdc : d' = d ∧ c' = c
    · rw [if_pos hdc, Option.map_eq_some_iff] at he'
      obtain ⟨e₀, _, rfl⟩ := he'
      contradiction
    · rw [if_neg hdc] at he'
      exact ⟨e', he', ho⟩

theorem thinned_dropUntilFits (cfg : LedgerConfig ο) (size turns : ℕ) (l : CommandLedger ο) :
    Thinned l (l.dropUntilFits cfg size turns) := by
  induction turns generalizing l with
  | zero => exact .refl l
  | succ turns ih =>
    rw [dropUntilFits]
    by_cases hfit : l.fits cfg size = true
    · rw [if_pos hfit]
      exact .refl l
    · rw [if_neg hfit]
      cases hdrop : l.dropOldestOutcome with
      | none => exact .refl l
      | some l' => exact (thinned_dropOldestOutcome hdrop).trans (ih l')

/-- What `finish` leaves: the entry under the id is finished, and every answer kept was kept
before or is the one handed in. -/
structure FinishSpec (l : CommandLedger ο) (d : DeviceId) (c : CommandId) (outcome : ο)
    (l' : CommandLedger ο) : Prop where
  core : ∀ d' c', (l'.entryOf d' c').map Entry.core =
    if d' = d ∧ c' = c then (l.entryOf d c).map fun e => (e.fingerprint, true)
    else (l.entryOf d' c').map Entry.core
  outcome : ∀ d' c' e' o, l'.entryOf d' c' = some e' → e'.outcome = some o →
    (∃ e, l.entryOf d' c' = some e ∧ e.outcome = some o) ∨
      (d' = d ∧ c' = c ∧ o = outcome ∧ ∃ e, l.entryOf d c = some e ∧ e.finished = false)

theorem finish_spec (cfg : LedgerConfig ο) (l : CommandLedger ο) (d : DeviceId) (c : CommandId)
    (outcome : ο) : FinishSpec l d c outcome (l.finish cfg d c outcome) := by
  have hsame : ∀ e, l.entryOf d c = some e → e.finished = true → FinishSpec l d c outcome l := by
    intro e he hf
    refine ⟨fun d' c' => ?_, fun d' c' e' o he' ho => .inl ⟨e', he', ho⟩⟩
    by_cases hdc : d' = d ∧ c' = c
    · rw [if_pos hdc, hdc.1, hdc.2, he, Option.map_some, Option.map_some, Entry.core, hf]
    · rw [if_neg hdc]
  have hmark : ∀ e, l.entryOf d c = some e → FinishSpec l d c outcome
      (l.modifyEntry d c fun e => { e with finished := true }) := by
    intro e he
    refine ⟨fun d' c' => ?_, fun d' c' e' o he' ho => .inl ?_⟩
    · rw [entryOf_modifyEntry]
      by_cases hdc : d' = d ∧ c' = c
      · rw [if_pos hdc, if_pos hdc, Option.map_map]
        rfl
      · rw [if_neg hdc, if_neg hdc]
    · rw [entryOf_modifyEntry] at he'
      by_cases hdc : d' = d ∧ c' = c
      · rw [if_pos hdc, he, Option.map_some] at he'
        cases he'
        exact ⟨e, by rw [hdc.1, hdc.2, he], ho⟩
      · rw [if_neg hdc] at he'
        exact ⟨e', he', ho⟩
  have hthin : ∀ {l₁ l₂}, FinishSpec l d c outcome l₁ → Thinned l₁ l₂ →
      FinishSpec l d c outcome l₂ := by
    intro l₁ l₂ h ht
    refine ⟨fun d' c' => (ht.core d' c').trans (h.core d' c'), fun d' c' e' o he' ho => ?_⟩
    obtain ⟨e, he, ho⟩ := ht.outcome d' c' e' o he' ho
    exact h.outcome d' c' e o he ho
  unfold CommandLedger.finish
  dsimp only
  cases he : l.entryOf d c with
  | none =>
    refine ⟨fun d' c' => ?_, fun d' c' e' o he' ho => .inl ⟨e', he', ho⟩⟩
    by_cases hdc : d' = d ∧ c' = c
    · rw [if_pos hdc, hdc.1, hdc.2, he]
      rfl
    · rw [if_neg hdc]
  | some e =>
    dsimp only
    by_cases hf : e.finished = true
    · rw [if_pos hf]
      exact hsame e he hf
    · rw [if_neg hf]
      have hmarked := hmark e he
      generalize l.modifyEntry d c (fun e => { e with finished := true }) = marked at *
      by_cases hbig : cfg.maxResultBytes < cfg.encodedSize outcome
      · rw [if_pos hbig]
        exact hmarked
      · rw [if_neg hbig]
        have hdropped := hthin hmarked (thinned_dropUntilFits cfg (cfg.encodedSize outcome)
          marked.allEntries.length marked)
        generalize dropUntilFits cfg (cfg.encodedSize outcome) marked.allEntries.length marked =
          dropped at *
        by_cases hfit : dropped.fits cfg (cfg.encodedSize outcome) = true
        · rw [if_pos hfit]
          refine ⟨fun d' c' => ?_, fun d' c' e' o he' ho => ?_⟩
          · rw [← hdropped.core, entryOf_modifyEntry]
            by_cases hdc : d' = d ∧ c' = c
            · rw [if_pos hdc, hdc.1, hdc.2, entryOf_addRetained, Option.map_map]
              rfl
            · rw [if_neg hdc, entryOf_addRetained]
          · rw [entryOf_modifyEntry] at he'
            by_cases hdc : d' = d ∧ c' = c
            · rw [if_pos hdc, Option.map_eq_some_iff] at he'
              obtain ⟨e₁, _, rfl⟩ := he'
              exact .inr ⟨hdc.1, hdc.2, (Option.some.inj ho).symm, e, he,
                Bool.not_eq_true _ ▸ hf⟩
            · rw [if_neg hdc] at he'
              exact hdropped.outcome d' c' e' o he' ho
        · rw [if_neg hfit]
          exact hdropped

end CommandLedger
end QronosAgent.Link

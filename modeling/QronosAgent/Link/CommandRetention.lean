import Mathlib.Algebra.Order.Ring.Rat
import Mathlib.Tactic.Linarith
import QronosAgent.Lib.Machine
import QronosAgent.Link.CommandEffects

/-! How long the ledger answers for a command: runs of its calls with their clock readings. -/
namespace QronosAgent.Link
open Lib

variable {ο : Type}

structure Answered where
  device : DeviceId
  command : CommandId
  fingerprint : Fingerprint
  finishedAt : Seconds
  since : List CommandId
  deriving DecidableEq

def Answered.claim (device : DeviceId) (command : CommandId) (a : Answered) : Answered :=
  if a.device = device ∧ a.command ≠ command then { a with since := command :: a.since } else a

/-- Fewer other ids were claimed since than a device may have. -/
def Answered.few (cfg : LedgerConfig ο) (a : Answered) : Prop :=
  a.since.dedup.length < cfg.maxPerDevice

instance (cfg : LedgerConfig ο) (a : Answered) : Decidable (a.few cfg) :=
  inferInstanceAs (Decidable (a.since.dedup.length < cfg.maxPerDevice))

structure TimedLedger (ο : Type) where
  ledger : CommandLedger ο
  now : Seconds
  /-- What finished, but for the devices that were forgotten since. -/
  answered : List Answered

inductive TimedOp (ο : Type) where
  | begin (expiryNow startNow : Seconds) (deviceId : DeviceId) (commandId : CommandId)
    (fingerprint : Fingerprint)
  | finish (now : Seconds) (deviceId : DeviceId) (commandId : CommandId) (outcome : ο)
  | forgetDevice (deviceId : DeviceId)

namespace TimedLedger

def afterBegin (s : TimedLedger ο) (startNow : Seconds) (d : DeviceId) (c : CommandId)
    (b : Begun ο) : TimedLedger ο where
  ledger := b.ledger
  now := startNow
  answered := if b.decision.state = .new then s.answered.map (·.claim d c) else s.answered

def step (cfg : LedgerConfig ο) (s : TimedLedger ο) : TimedOp ο → Option (TimedLedger ο)
  | .begin t₁ t₂ d c fp =>
    if s.now ≤ t₁ ∧ t₁ ≤ t₂ then some (s.afterBegin t₂ d c (s.ledger.begin cfg t₁ t₂ d c fp))
    else none
  | .finish t d c outcome =>
    if s.now ≤ t then some {
      ledger := s.ledger.finish cfg d c outcome
      now := t
      answered := match s.ledger.entryOf d c with
        | some e => ⟨d, c, e.fingerprint, t, []⟩ :: s.answered
        | none => s.answered }
    else none
  | .forgetDevice d => some { s with
      ledger := s.ledger.forgetDevice d
      answered := s.answered.filter (·.device ≠ d) }

end TimedLedger

def timedLedger (cfg : LedgerConfig ο) : Machine (TimedLedger ο) (TimedOp ο) where
  start s := s.ledger = .empty ∧ s.answered = []
  step := TimedLedger.step cfg

def Entries.nextToGo (entries : Entries ο) (maxPerDevice : ℕ) (c : CommandId) : Prop :=
  maxPerDevice ≤ entries.items.length ∧ entries.oldestFinished?.map Prod.fst = some c

/-- No call lets go of a command that finished no longer than `ttl` ago, as long as few other ids
were claimed since: none comes later than `ttl` after its claim, and none claims another id, few
still, while it is the one to be let go. -/
def Retains (cfg : LedgerConfig ο) (s : TimedLedger ο) : TimedOp ο → Prop
  | .begin t₁ _ d c _ => ∀ a ∈ s.answered, a.device = d → t₁ ≤ a.finishedAt + cfg.ttl →
      a.few cfg →
      (∀ e, s.ledger.entryOf d a.command = some e → t₁ ≤ e.startedAt + cfg.ttl) ∧
      (((s.ledger.entries d).withoutExpired (t₁ - cfg.ttl)).get? c = none → (a.claim d c).few cfg →
        ¬ ((s.ledger.entries d).withoutExpired (t₁ - cfg.ttl)).nextToGo cfg.maxPerDevice a.command)
  | _ => True

namespace Entries

/-- A table that is not too full loses one entry at most, the oldest that is finished. -/
theorem makeRoom_one {maxPerDevice : ℕ} (turns : ℕ) {entries : Entries ο}
    (hfits : entries.items.length ≤ maxPerDevice) :
    (∀ v ∈ (makeRoom maxPerDevice turns entries).evicted,
      entries.nextToGo maxPerDevice v.commandId ∧
        (makeRoom maxPerDevice turns entries).free = true) ∧
    (makeRoom maxPerDevice turns entries).entries.items.length ≤ maxPerDevice ∧
    ((makeRoom maxPerDevice turns entries).free = true →
      (makeRoom maxPerDevice turns entries).entries.items.length < maxPerDevice) := by
  cases turns with
  | zero => exact ⟨by simp [makeRoom], hfits, by simp [makeRoom]⟩
  | succ turns =>
    rw [makeRoom]
    by_cases hroom : entries.items.length < maxPerDevice
    · rw [if_pos hroom]
      exact ⟨by simp, hfits, fun _ => hroom⟩
    rw [if_neg hroom]
    cases hold : entries.oldestFinished? with
    | none => exact ⟨by simp, hfits, fun hn => by cases hn⟩
    | some ce =>
      have hmem : ce ∈ entries.items := List.mem_of_find?_eq_some hold
      -- one entry is gone, so the next turn finds room
      have hless : (entries.erase ce.1).items.length < maxPerDevice := by
        apply lt_of_lt_of_le _ hfits
        apply List.length_filter_lt_length_iff_exists.mpr
        exact ⟨ce, hmem, by simp⟩
      have hrest : makeRoom maxPerDevice turns (entries.erase ce.1) =
          ⟨entries.erase ce.1, [], true⟩ := by
        cases turns with
        | zero => simp only [makeRoom, hless, decide_true]
        | succ turns => rw [makeRoom, if_pos hless]
      simp only [hrest]
      refine ⟨fun v hv => ?_, hless.le, fun _ => hless⟩
      cases List.mem_singleton.mp hv
      exact ⟨⟨Nat.not_lt.mp hroom, by rw [hold]; rfl⟩, trivial⟩

theorem length_withoutExpired (entries : Entries ο) (cutoff : Seconds) :
    (entries.withoutExpired cutoff).items.length ≤ entries.items.length :=
  List.length_filter_le ..

end Entries

namespace CommandLedger
variable {cfg : LedgerConfig ο} {l : CommandLedger ο} {d : DeviceId} {c : CommandId}

/-- No device's table holds more than it may. -/
def Bounded (cfg : LedgerConfig ο) (l : CommandLedger ο) : Prop :=
  ∀ d, (l.entries d).items.length ≤ cfg.maxPerDevice

theorem entries_withEntries {entries : Entries ο} {removed : List (CommandId × Entry ο)}
    (d' : DeviceId) : (l.withEntries d entries removed).entries d' =
      if d' = d then entries else l.entries d' := by
  unfold CommandLedger.entries withEntries
  rw [Dict.get?_set]
  split <;> rfl

theorem Bounded.withEntries (h : l.Bounded cfg) {entries : Entries ο}
    {removed : List (CommandId × Entry ο)} (hentries : entries.items.length ≤ cfg.maxPerDevice) :
    (l.withEntries d entries removed).Bounded cfg := by
  intro d'
  rw [entries_withEntries]
  split
  · exact hentries
  · exact h d'

theorem Bounded.begin (h : l.Bounded cfg) (t₁ t₂ : Seconds) (fp : Fingerprint) :
    (l.begin cfg t₁ t₂ d c fp).ledger.Bounded cfg := by
  unfold CommandLedger.begin
  have hfits : ((l.entries d).withoutExpired (t₁ - cfg.ttl)).items.length ≤ cfg.maxPerDevice :=
    (Entries.length_withoutExpired _ _).trans (h d)
  simp only
  generalize (l.entries d).withoutExpired (t₁ - cfg.ttl) = entries at hfits ⊢
  cases entries.get? c with
  | some entry => exact h.withEntries hfits
  | none =>
    obtain ⟨-, hlength, hfree⟩ := Entries.makeRoom_one entries.items.length hfits
    simp only
    split
    · rename_i hroom
      apply (h.withEntries hfits).withEntries
      apply le_trans _ (Nat.succ_le_of_lt (hfree hroom))
      unfold Dict.set
      simp only
      split
      · rw [List.length_map]
        exact Nat.le_succ _
      · rw [List.length_append]
        rfl
    · exact (h.withEntries hfits).withEntries hlength

/-- What `begin` takes out of the device's table: what is too old, and one entry for a new id. -/
theorem removed_begin (h : l.Bounded cfg) {t₁ t₂ : Seconds} {fp : Fingerprint} {c' : CommandId}
    (hc' : c' ∈ (l.begin cfg t₁ t₂ d c fp).removed) :
    (∃ e, l.entryOf d c' = some e ∧ e.startedAt < t₁ - cfg.ttl) ∨
      ((l.entries d).withoutExpired (t₁ - cfg.ttl)).get? c = none ∧
        ((l.entries d).withoutExpired (t₁ - cfg.ttl)).nextToGo cfg.maxPerDevice c' ∧
        (l.begin cfg t₁ t₂ d c fp).decision.state = .new := by
  have hexpired : ∀ {c'}, c' ∈ ((l.entries d).expired (t₁ - cfg.ttl)).map Prod.fst →
      ∃ e, l.entryOf d c' = some e ∧ e.startedAt < t₁ - cfg.ttl := by
    intro c' hin
    obtain ⟨ce, hce, rfl⟩ := List.mem_map.mp hin
    obtain ⟨hget, -, hold⟩ := Entries.mem_expired.mp hce
    exact ⟨ce.2, hget, hold⟩
  have hfits : ((l.entries d).withoutExpired (t₁ - cfg.ttl)).items.length ≤ cfg.maxPerDevice :=
    (Entries.length_withoutExpired _ _).trans (h d)
  unfold CommandLedger.begin Begun.removed at hc'
  unfold CommandLedger.begin
  simp only at hc' ⊢
  generalize (l.entries d).withoutExpired (t₁ - cfg.ttl) = entries at hfits hc' ⊢
  cases hget : entries.get? c with
  | some entry =>
    rw [hget] at hc'
    simp only [List.map_nil, List.append_nil] at hc'
    exact .inl (hexpired hc')
  | none =>
    obtain ⟨hone, -, -⟩ := Entries.makeRoom_one entries.items.length hfits
    have hparts : c' ∈ ((l.entries d).expired (t₁ - cfg.ttl)).map Prod.fst ++
        (entries.makeRoom cfg.maxPerDevice entries.items.length).evicted.map
          Evicted.commandId := by
      rw [hget] at hc'
      simp only at hc'
      split at hc' <;> exact hc'
    rcases List.mem_append.mp hparts with hin | hin
    · exact .inl (hexpired hin)
    · obtain ⟨v, hv, rfl⟩ := List.mem_map.mp hin
      obtain ⟨hnext, hfree⟩ := hone v hv
      refine .inr ⟨rfl, hnext, ?_⟩
      rw [if_pos hfree]

theorem length_modifyEntry (f : Entry ο → Entry ο) (d' : DeviceId) :
    ((l.modifyEntry d c f).entries d').items.length = (l.entries d').items.length := by
  unfold CommandLedger.entries modifyEntry
  simp only
  rw [Dict.get?_modify]
  split
  · rename_i hd
    rw [hd]
    cases l.devices.get? d with
    | none => rfl
    | some entries =>
      show (entries.items.map _).length = entries.items.length
      rw [List.length_map]
  · rfl

theorem Bounded.modifyEntry (h : l.Bounded cfg) (f : Entry ο → Entry ο) :
    (l.modifyEntry d c f).Bounded cfg := by
  intro d'
  rw [length_modifyEntry]
  exact h d'

theorem Bounded.dropUntilFits (size turns : ℕ) {l : CommandLedger ο} (h : l.Bounded cfg) :
    (l.dropUntilFits cfg size turns).Bounded cfg := by
  induction turns generalizing l with
  | zero => exact h
  | succ turns ih =>
    unfold CommandLedger.dropUntilFits
    split
    · exact h
    · cases hdrop : l.dropOldestOutcome with
      | none => exact h
      | some l' =>
        obtain ⟨o, -, rfl⟩ := Option.map_eq_some_iff.mp hdrop
        exact ih (Bounded.modifyEntry (l := l.addRetained _) h _)

theorem Bounded.finish (h : l.Bounded cfg) (outcome : ο) :
    (l.finish cfg d c outcome).Bounded cfg := by
  unfold CommandLedger.finish
  simp only
  cases l.entryOf d c with
  | none => exact h
  | some entry =>
    have hmarked : (l.modifyEntry d c fun e => { e with finished := true }).Bounded cfg :=
      h.modifyEntry _
    have hdropped := hmarked.dropUntilFits (cfg.encodedSize outcome)
      (l.modifyEntry d c fun e => { e with finished := true }).allEntries.length
    simp only
    split
    · exact h
    · split
      · exact hmarked
      · split
        · exact Bounded.modifyEntry (l := CommandLedger.addRetained _ _) hdropped _
        · exact hdropped

theorem Bounded.forgetDevice (h : l.Bounded cfg) (d : DeviceId) :
    (l.forgetDevice d).Bounded cfg := by
  intro d'
  unfold CommandLedger.entries CommandLedger.forgetDevice
  simp only
  rw [Dict.get?_erase]
  split
  · exact Nat.zero_le _
  · exact h d'

end CommandLedger

namespace TimedLedger
variable {cfg : LedgerConfig ο} {s t : TimedLedger ο}

def Remembers (s : TimedLedger ο) (a : Answered) : Prop :=
  ∃ e, s.ledger.entryOf a.device a.command = some e ∧ e.finished = true ∧
    e.fingerprint = a.fingerprint

/-- What finished no longer than `ttl` ago is remembered while few ids were claimed since. -/
structure Inv (cfg : LedgerConfig ο) (s : TimedLedger ο) : Prop where
  bounded : s.ledger.Bounded cfg
  kept : ∀ a ∈ s.answered, s.now ≤ a.finishedAt + cfg.ttl → a.few cfg → s.Remembers a

variable {a : Answered} {d : DeviceId} {c : CommandId} {t₁ t₂ : Seconds} {fp : Fingerprint}

theorem few_of_claim (h : (a.claim d c).few cfg) :
    a.few cfg := by
  unfold Answered.claim at h
  split at h
  · apply lt_of_le_of_lt _ h
    show a.since.dedup.length ≤ (c :: a.since).dedup.length
    by_cases hc : c ∈ a.since
    · rw [List.dedup_cons_of_mem hc]
    · rw [List.dedup_cons_of_notMem hc]
      exact Nat.le_succ _
  · exact h

/-- A call that meets the condition takes no such command out of the table. -/
theorem not_removed (h : Inv cfg s) (hok : Retains cfg s (.begin t₁ t₂ d c fp))
    (ha : a ∈ s.answered) (hd : a.device = d) (htime : t₁ ≤ a.finishedAt + cfg.ttl)
    (hfew : a.few cfg)
    (hclaim : (s.ledger.begin cfg t₁ t₂ d c fp).decision.state = .new → (a.claim d c).few cfg) :
    a.command ∉ (s.ledger.begin cfg t₁ t₂ d c fp).removed := by
  intro hin
  obtain ⟨hstarted, hevicted⟩ := hok a ha hd htime hfew
  rcases CommandLedger.removed_begin h.bounded hin with ⟨e, he, hold⟩ | ⟨hnone, hnext, hnew⟩
  · have hrecent := hstarted e he
    linarith
  · exact hevicted hnone (hclaim hnew) hnext

/-- An id that is remembered is not claimed. -/
theorem not_new {l : CommandLedger ο} {e : Entry ο} (he : l.entryOf d c = some e)
    (hkept : c ∉ (l.begin cfg t₁ t₂ d c fp).removed) :
    (l.begin cfg t₁ t₂ d c fp).decision.state ≠ .new := by
  intro hnew
  rw [(CommandLedger.begin_spec cfg l t₁ t₂ d c fp).remembered e he hkept] at hnew
  split at hnew
  · cases hnew
  · split at hnew <;> cases hnew

theorem Inv.begin (h : Inv cfg s) (hnow : s.now ≤ t₁) (hclock : t₁ ≤ t₂)
    (hok : Retains cfg s (.begin t₁ t₂ d c fp)) :
    Inv cfg (s.afterBegin t₂ d c (s.ledger.begin cfg t₁ t₂ d c fp)) := by
  constructor
  · exact h.bounded.begin t₁ t₂ fp
  intro a' ha' htime hfew
  have hspec := CommandLedger.begin_spec cfg s.ledger t₁ t₂ d c fp
  have hremoved : ∀ a ∈ s.answered, a.device = d → t₁ ≤ a.finishedAt + cfg.ttl → a.few cfg →
      ((s.ledger.begin cfg t₁ t₂ d c fp).decision.state = .new → (a.claim d c).few cfg) →
      a.command ∉ (s.ledger.begin cfg t₁ t₂ d c fp).removed :=
    fun a ha hd htime hfew hclaim => not_removed h hok ha hd htime hfew hclaim
  have hnot : ∀ {e}, s.ledger.entryOf d c = some e →
      c ∉ (s.ledger.begin cfg t₁ t₂ d c fp).removed →
      (s.ledger.begin cfg t₁ t₂ d c fp).decision.state ≠ .new :=
    fun he hkept => not_new he hkept
  unfold afterBegin at ha' htime
  unfold Remembers afterBegin
  generalize s.ledger.begin cfg t₁ t₂ d c fp = b at *
  simp only at ha' htime ⊢
  have hlater : ∀ {x : Answered}, t₂ ≤ x.finishedAt + cfg.ttl →
      t₁ ≤ x.finishedAt + cfg.ttl ∧ s.now ≤ x.finishedAt + cfg.ttl := by
    intro x hx
    constructor <;> linarith
  -- the command as it was before the call, and the one that came of it
  obtain ⟨a, ha, hclaim, hsame, hsince⟩ : ∃ a ∈ s.answered,
      (b.decision.state = .new → a' = a.claim d c) ∧
      (a'.device = a.device ∧ a'.command = a.command ∧ a'.fingerprint = a.fingerprint ∧
        a'.finishedAt = a.finishedAt) ∧ (b.decision.state ≠ .new → a' = a) := by
    by_cases hnew : b.decision.state = .new
    · rw [if_pos hnew] at ha'
      obtain ⟨a, ha, rfl⟩ := List.mem_map.mp ha'
      refine ⟨a, ha, fun _ => rfl, ?_, fun hn => absurd hnew hn⟩
      unfold Answered.claim
      split <;> exact ⟨rfl, rfl, rfl, rfl⟩
    · rw [if_neg hnew] at ha'
      exact ⟨a', ha', fun hn => absurd hn hnew, ⟨rfl, rfl, rfl, rfl⟩, fun _ => rfl⟩
  obtain ⟨hdevice, hcommand, hfp, hfinished⟩ := hsame
  rw [hfinished] at htime
  obtain ⟨htime₁, htime₀⟩ := hlater htime
  have hfewBefore : a.few cfg := by
    by_cases hnew : b.decision.state = .new
    · rw [hclaim hnew] at hfew
      exact few_of_claim hfew
    · rw [← hsince hnew]
      exact hfew
  obtain ⟨e, he, hdone, hprint⟩ := h.kept a ha htime₀ hfewBefore
  rw [hdevice, hcommand, hfp]
  refine ⟨e, ?_, hdone, hprint⟩
  rw [hspec.entry]
  have hstays : a.device = d → a.command ∉ b.removed := by
    intro hd
    apply hremoved a ha hd htime₁ hfewBefore
    intro hnew
    rw [← hclaim hnew]
    exact hfew
  rw [if_neg, if_neg]
  · exact he
  · rintro ⟨hd, hin⟩
    exact hstays hd hin
  · rintro ⟨hnew, hd, hc⟩
    rw [hd, hc] at he
    exact hnot he (hc ▸ hstays hd) hnew

theorem Inv.finish (h : Inv cfg s) {now : Seconds} {outcome : ο} (hnow : s.now ≤ now)
    {s' : TimedLedger ο} (hs' : s.step cfg (.finish now d c outcome) = some s') :
    Inv cfg s' := by
  simp only [step, if_pos hnow] at hs'
  cases hs'
  have hspec := CommandLedger.finish_spec cfg s.ledger d c outcome
  constructor
  · exact h.bounded.finish outcome
  intro a ha htime hfew
  simp only at ha htime
  unfold Remembers
  simp only
  -- what is remembered is so after the answer, and what has just finished is
  have hcore : ∀ {d' c' fp'}, ((s.ledger.finish cfg d c outcome).entryOf d' c').map Entry.core =
      some (fp', true) → ∃ e, (s.ledger.finish cfg d c outcome).entryOf d' c' = some e ∧
        e.finished = true ∧ e.fingerprint = fp' := by
    intro d' c' fp' hmap
    obtain ⟨e, he, hcore⟩ := Option.map_eq_some_iff.mp hmap
    exact ⟨e, he, congrArg Prod.snd hcore, congrArg Prod.fst hcore⟩
  have hold : a ∈ s.answered → ∃ e, (s.ledger.finish cfg d c outcome).entryOf a.device a.command =
      some e ∧ e.finished = true ∧ e.fingerprint = a.fingerprint := by
    intro ha
    obtain ⟨e, he, hdone, hfp⟩ := h.kept a ha (by linarith) hfew
    apply hcore
    rw [hspec.core]
    by_cases hdc : a.device = d ∧ a.command = c
    · rw [if_pos hdc, ← hdc.1, ← hdc.2, he, Option.map_some, hfp]
    · rw [if_neg hdc, he, Option.map_some, Entry.core, hdone, hfp]
  cases hentry : s.ledger.entryOf d c with
  | none =>
    rw [hentry] at ha
    exact hold ha
  | some e =>
    rw [hentry] at ha
    rcases List.mem_cons.mp ha with rfl | ha
    · apply hcore
      rw [hspec.core, if_pos ⟨rfl, rfl⟩, hentry, Option.map_some]
    · exact hold ha

theorem Inv.forgetDevice (h : Inv cfg s) (d : DeviceId) : Inv cfg { s with
    ledger := s.ledger.forgetDevice d
    answered := s.answered.filter (·.device ≠ d) } := by
  constructor
  · exact h.bounded.forgetDevice d
  intro a ha htime hfew
  obtain ⟨ha, hd⟩ := List.mem_filter.mp ha
  have hne : a.device ≠ d := of_decide_eq_true hd
  obtain ⟨e, he, hdone, hfp⟩ := h.kept a ha htime hfew
  refine ⟨e, ?_, hdone, hfp⟩
  simp only
  rw [CommandLedger.entryOf_forgetDevice, if_neg hne, he]

theorem reach_inv (hr : (timedLedger cfg).Reach (Retains cfg) s) : Inv cfg s := by
  apply hr.invariant
  · rintro s ⟨hl, hanswered⟩
    constructor
    · intro d
      rw [hl]
      exact Nat.zero_le _
    · intro a ha
      rw [hanswered] at ha
      cases ha
  · intro s op t h hok hstep
    cases op with
    | begin t₁ t₂ d c fp =>
      obtain ⟨⟨hnow, hclock⟩, heq⟩ := Option.ite_none_right_eq_some.mp hstep
      cases heq
      exact h.begin hnow hclock hok
    | finish now d c outcome =>
      obtain ⟨hnow, -⟩ := Option.ite_none_right_eq_some.mp hstep
      exact h.finish hnow hstep
    | forgetDevice d =>
      cases hstep
      exact h.forgetDevice d

end TimedLedger

/-- A command that finished is not run again by a call within `ttl` of its end, as long as few
other ids were claimed since, in runs whose calls meet the condition. -/
theorem answered_again (cfg : LedgerConfig ο) : ∀ s, (timedLedger cfg).Reach (Retains cfg) s →
    ∀ a ∈ s.answered, a.few cfg → ∀ t₁ t₂, s.now ≤ t₁ → t₁ ≤ t₂ → t₁ ≤ a.finishedAt + cfg.ttl →
      Retains cfg s (.begin t₁ t₂ a.device a.command a.fingerprint) →
        (s.ledger.begin cfg t₁ t₂ a.device a.command a.fingerprint).decision.state = .done := by
  intro s hr a ha hfew t₁ t₂ hnow hclock htime hok
  have hinv := TimedLedger.reach_inv hr
  obtain ⟨e, he, hdone, hfp⟩ := hinv.kept a ha (by linarith) hfew
  have hclaim : a.claim a.device a.command = a := by
    unfold Answered.claim
    rw [if_neg fun h => h.2 rfl]
  have hkept := TimedLedger.not_removed hinv hok ha rfl htime hfew fun _ => by
    rw [hclaim]
    exact hfew
  rw [(CommandLedger.begin_spec cfg s.ledger t₁ t₂ a.device a.command
    a.fingerprint).remembered e he hkept, if_neg (not_not_intro hfp), hdone]
  rfl

/-! A command that ran for longer than its answer is kept. -/

section Samples

/-- The product's settings, but for `max_per_device`, over numbered answers. -/
def timedConfig (maxPerDevice : ℕ) : LedgerConfig ℕ :=
  ⟨600, maxPerDevice, 256 * 1024, 2 * 1024 * 1024, fun _ => 2⟩

def timedStart : TimedLedger ℕ := ⟨.empty, 0, []⟩

def timedBegin (t : Seconds) (c : String) : TimedOp ℕ := .begin t t (py "phone") (py c) (py "ask")

def told (cfg : LedgerConfig ℕ) (s : TimedLedger ℕ) (t : Seconds) (a : Answered) : CommandState :=
  (s.ledger.begin cfg t t a.device a.command a.fingerprint).decision.state

theorem answered_again_sample : ∃ s, (timedLedger (timedConfig 64)).Reach (Retains (timedConfig 64)) s ∧
    ∃ a ∈ s.answered, s.now = 5 ∧ told (timedConfig 64) s 5 a = .done := by
  have hrun : ((timedLedger (timedConfig 64)).exec timedStart
      [timedBegin 0 "a", .finish 5 (py "phone") (py "a") 7]).any (fun s =>
        decide (s.answered = [⟨py "phone", py "a", py "ask", 5, []⟩] ∧ s.now = 5 ∧
          (s.ledger.entryOf (py "phone") (py "a")).all (fun e => e.startedAt = 0) = true ∧
          (((s.ledger.entries (py "phone")).withoutExpired (5 - 600)).get?
            (py "a")).isSome = true)) = true := by decide +kernel
  obtain ⟨s, hs, h⟩ := (Option.any_eq_true _ _).mp hrun
  obtain ⟨hanswered, hnow, hstarted, hthere⟩ := of_decide_eq_true h
  have hreach : (timedLedger (timedConfig 64)).Reach (Retains (timedConfig 64)) s := by
    refine Machine.Reach.exec (.start ⟨rfl, rfl⟩) ?_ hs
    exact ⟨(fun a ha => by cases ha), fun _ _ => ⟨trivial, fun _ _ => trivial⟩⟩
  have ha : ⟨py "phone", py "a", py "ask", 5, []⟩ ∈ s.answered := by
    rw [hanswered]
    exact List.mem_singleton_self _
  refine ⟨s, hreach, _, ha, hnow, ?_⟩
  apply answered_again (timedConfig 64) s hreach _ ha (by decide +kernel) 5 5 hnow.le le_rfl
    (by decide +kernel)
  intro b hb _ _ _
  rw [hanswered] at hb
  cases List.mem_singleton.mp hb
  constructor
  · intro e he
    rw [he] at hstarted
    have hzero : e.startedAt = 0 := of_decide_eq_true hstarted
    rw [hzero]
    decide +kernel
  · intro hnone
    have hsome : (((s.ledger.entries (py "phone")).withoutExpired (5 - 600)).get?
      (py "a")).isSome = true := hthere
    have hnone' : ((s.ledger.entries (py "phone")).withoutExpired (5 - 600)).get? (py "a") = none :=
      hnone
    rw [hnone'] at hsome
    cases hsome

/-- A retry one second after the answer runs the command again: it took longer than `ttl`; or one
other id was claimed since, of two that a device may have. -/
theorem run_again : (∃ s, (timedLedger (timedConfig 64)).Reachable s ∧ ∃ a ∈ s.answered,
      a.few (timedConfig 64) ∧ s.now = 700 ∧ a.finishedAt = 700 ∧
        told (timedConfig 64) s 701 a = .new) ∧
    ∃ s, (timedLedger (timedConfig 2)).Reachable s ∧ ∃ a ∈ s.answered,
      a.few (timedConfig 2) ∧ s.now = 3 ∧ a.finishedAt = 2 ∧ told (timedConfig 2) s 3 a = .new := by
  constructor
  · have hrun : ((timedLedger (timedConfig 64)).exec timedStart
        [timedBegin 0 "a", .finish 700 (py "phone") (py "a") 7]).any (fun s =>
          decide (⟨py "phone", py "a", py "ask", 700, []⟩ ∈ s.answered ∧ s.now = 700 ∧
            told (timedConfig 64) s 701 ⟨py "phone", py "a", py "ask", 700, []⟩ = .new)) = true := by
      decide +kernel
    obtain ⟨s, hs, h⟩ := (Option.any_eq_true _ _).mp hrun
    obtain ⟨ha, hnow, htold⟩ := of_decide_eq_true h
    exact ⟨s, Machine.reachable_exec ⟨rfl, rfl⟩ hs, _, ha, by decide +kernel, hnow, rfl, htold⟩
  · have hrun : ((timedLedger (timedConfig 2)).exec timedStart
        [timedBegin 0 "a", timedBegin 1 "b", .finish 2 (py "phone") (py "a") 7,
          .finish 2 (py "phone") (py "b") 7, timedBegin 3 "c"]).any (fun s =>
          decide (⟨py "phone", py "a", py "ask", 2, [py "c"]⟩ ∈ s.answered ∧ s.now = 3 ∧
            told (timedConfig 2) s 3 ⟨py "phone", py "a", py "ask", 2, [py "c"]⟩ = .new)) =
          true := by
      decide +kernel
    obtain ⟨s, hs, h⟩ := (Option.any_eq_true _ _).mp hrun
    obtain ⟨ha, hnow, htold⟩ := of_decide_eq_true h
    exact ⟨s, Machine.reachable_exec ⟨rfl, rfl⟩ hs, _, ha, by decide +kernel, hnow, rfl, htold⟩

end Samples

end QronosAgent.Link

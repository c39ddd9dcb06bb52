import QronosAgent.Lib.Machine
import QronosAgent.Link.CommandEffects
import QronosAgent.Link.CommandMemory

/-! Runs of the ledger shared by any number of sessions: every NEW decision is a run of its
command, which hands in its outcome once, at any later time. -/
namespace QronosAgent.Link
open Lib

variable {ο : Type}

inductive LedgerOp (ο : Type) where
  | begin (expiryNow startNow : Seconds) (deviceId : DeviceId) (commandId : CommandId)
    (fingerprint : Fingerprint)
  | finish (run : ℕ) (outcome : ο)
  | forgetDevice (deviceId : DeviceId)

abbrev LedgerEvent (ο : Type) := MemoryEvent DeviceId CommandId Fingerprint ο

/-- The ledger, the run each id was last given to, the runs that have not handed in yet, and the
events that led here. -/
structure LedgerSys (ο : Type) where
  ledger : CommandLedger ο
  run : DeviceId → CommandId → ℕ
  nextRun : ℕ
  due : List (ℕ × DeviceId × CommandId)
  log : List (LedgerEvent ο)

namespace LedgerSys

def owner? (s : LedgerSys ο) (run : ℕ) : Option (DeviceId × CommandId) :=
  (s.due.find? fun r => r.1 = run).map Prod.snd

/-- The entries a call of `begin` let go, with the events that say so. -/
def letGo (s : LedgerSys ο) (d : DeviceId) (b : Begun ο) : List (CommandId × LedgerEvent ο) :=
  b.expired.map (fun ce => (ce.1, .expired d ce.1 (s.run d ce.1))) ++
    b.evicted.map fun v => (v.commandId, .evicted d v.commandId (s.run d v.commandId) v.held)

def afterBegin (s : LedgerSys ο) (d : DeviceId) (c : CommandId) (fp : Fingerprint)
    (b : Begun ο) : LedgerSys ο :=
  let log := ((s.letGo d b).map Prod.snd).reverse ++ s.log
  if b.decision.state = .new then
    { ledger := b.ledger
      run := fun d' c' => if d' = d ∧ c' = c then s.nextRun else s.run d' c'
      nextRun := s.nextRun + 1
      due := (s.nextRun, d, c) :: s.due
      log := .new d c s.nextRun fp :: log }
  else { s with ledger := b.ledger, log }

def unfinished (s : LedgerSys ο) (d : DeviceId) (c : CommandId) : Bool :=
  ((s.ledger.entryOf d c).map fun e => !e.finished).getD false

def afterFinish (cfg : LedgerConfig ο) (s : LedgerSys ο) (run : ℕ) (outcome : ο) (d : DeviceId)
    (c : CommandId) : LedgerSys ο :=
  { s with
    ledger := s.ledger.finish cfg d c outcome
    due := s.due.filter fun r => r.1 ≠ run
    log := (if s.unfinished d c then [.finished d c (s.run d c)] else []) ++
      .passed run outcome :: s.log }

def step (cfg : LedgerConfig ο) (s : LedgerSys ο) : LedgerOp ο → Option (LedgerSys ο)
  | .begin t₁ t₂ d c fp => some (s.afterBegin d c fp (s.ledger.begin cfg t₁ t₂ d c fp))
  | .finish run outcome =>
    (s.owner? run).map fun dc => s.afterFinish cfg run outcome dc.1 dc.2
  | .forgetDevice d => some { s with
      ledger := s.ledger.forgetDevice d, log := .forgotten d :: s.log }

def memory (s : LedgerSys ο) : Memory DeviceId CommandId Fingerprint ο where
  slot d c := (s.ledger.entryOf d c).map fun e => ⟨s.run d c, e.fingerprint, e.finished⟩
  log := s.log

end LedgerSys

def ledgerMachine (cfg : LedgerConfig ο) : Machine (LedgerSys ο) (LedgerOp ο) where
  start s := s.ledger = .empty ∧ s.log = []
  step := LedgerSys.step cfg

def OwnEntry (s : LedgerSys ο) : LedgerOp ο → Prop
  | .finish run _ => ∀ d c, s.owner? run = some (d, c) → s.unfinished d c = true → s.run d c = run
  | _ => True

namespace LedgerSys
open CommandLedger

variable {cfg : LedgerConfig ο} {s t : LedgerSys ο}

/-- Every answer kept under an id was handed in by the run the id was given to. -/
def OutcomesOwn (s : LedgerSys ο) : Prop :=
  ∀ d c e o, s.ledger.entryOf d c = some e → e.outcome = some o → .passed (s.run d c) o ∈ s.log

theorem OutcomesOwn.begin (h : s.OutcomesOwn) (t₁ t₂ : Seconds) (d : DeviceId) (c : CommandId)
    (fp : Fingerprint) :
    (s.afterBegin d c fp (s.ledger.begin cfg t₁ t₂ d c fp)).OutcomesOwn := by
  have hspec := begin_spec cfg s.ledger t₁ t₂ d c fp
  generalize s.ledger.begin cfg t₁ t₂ d c fp = b at *
  have hkept : ∀ d' c' e o, ¬ (b.decision.state = .new ∧ d' = d ∧ c' = c) →
      b.ledger.entryOf d' c' = some e → e.outcome = some o →
      .passed (s.run d' c') o ∈ s.log := by
    intro d' c' e o hnot he ho
    rw [hspec.entry, if_neg hnot] at he
    split at he
    · contradiction
    · exact h d' c' e o he ho
  intro d' c' e o he ho
  unfold afterBegin at he ⊢
  dsimp only at he ⊢
  by_cases hnew : b.decision.state = .new
  · rw [if_pos hnew] at he ⊢
    dsimp only at he ⊢
    by_cases hdc : d' = d ∧ c' = c
    · rw [hspec.entry, if_pos ⟨hnew, hdc⟩] at he
      rw [← Option.some.inj he] at ho
      contradiction
    · rw [if_neg hdc]
      exact List.mem_cons_of_mem _
        (List.mem_append_right _ (hkept d' c' e o (fun h => hdc h.2) he ho))
  · rw [if_neg hnew] at he ⊢
    exact List.mem_append_right _ (hkept d' c' e o (fun h => hnew h.1) he ho)

theorem OutcomesOwn.finish (h : s.OutcomesOwn) {run : ℕ} {outcome : ο} {d : DeviceId}
    {c : CommandId} (howner : s.owner? run = some (d, c))
    (hok : OwnEntry s (.finish run outcome)) :
    (s.afterFinish cfg run outcome d c).OutcomesOwn := by
  intro d' c' e' o he' ho
  obtain ⟨e, he, ho⟩ | ⟨rfl, rfl, rfl, e, he, hf⟩ :=
    (finish_spec cfg s.ledger d c outcome).outcome d' c' e' o he' ho
  · exact List.mem_append_right _ (List.mem_cons_of_mem _ (h d' c' e o he ho))
  · have hrun : s.run d' c' = run := hok d' c' howner (by simp [unfinished, he, hf])
    rw [← hrun]
    exact List.mem_append_right _ List.mem_cons_self

theorem OutcomesOwn.step {a : LedgerOp ο} (h : s.OutcomesOwn) (hok : OwnEntry s a)
    (hst : s.step cfg a = some t) : t.OutcomesOwn := by
  cases a with
  | begin t₁ t₂ d c fp =>
    cases hst
    exact h.begin t₁ t₂ d c fp
  | finish run outcome =>
    obtain ⟨⟨d, c⟩, howner, rfl⟩ := Option.map_eq_some_iff.mp hst
    exact h.finish howner hok
  | forgetDevice d =>
    cases hst
    intro d' c' e o he ho
    dsimp only at he
    rw [entryOf_forgetDevice] at he
    split at he
    · contradiction
    · exact List.mem_cons_of_mem _ (h d' c' e o he ho)

end LedgerSys

section Samples

def sampleSys : LedgerSys ℕ := ⟨.empty, fun _ _ => 0, 0, [], []⟩

end Samples

end QronosAgent.Link

import QronosAgent.Secret.Guesses

/-! The lockout: the count of wrong guesses in a row is at most the stored count, and the lockout
that is stored ends no sooner than that row asks for. -/
namespace QronosAgent.Secret
open Lib

theorem lockSeconds_mono {m n : ℕ} (h : m ≤ n) : lockSeconds m ≤ lockSeconds n := by
  unfold lockSeconds
  apply min_le_min le_rfl
  apply mul_le_mul_of_nonneg_left _ (by norm_num [baseLockSeconds])
  apply pow_le_pow_right₀ (by norm_num)
  omega

/-- The exponent's bound is out of reach of the lockout's. -/
theorem lockSeconds_eq (n : ℕ) :
    lockSeconds n = min 3600 (60 * 2 ^ (n - maxFailuresBeforeLock)) := by
  unfold lockSeconds maxLockSeconds baseLockSeconds
  rcases Nat.le_total (n - maxFailuresBeforeLock) 16 with hle | hge
  · rw [min_eq_left hle]
  · have hbig : (3600 : ℚ) ≤ 60 * 2 ^ (16 : ℕ) := by norm_num
    have hbigger : (2 : ℚ) ^ 16 ≤ 2 ^ (n - maxFailuresBeforeLock) :=
      pow_le_pow_right₀ (by norm_num) hge
    rw [min_eq_right hge, min_eq_left hbig, min_eq_left (by linarith)]

theorem Kept.counter {P : Platform} {job : Job} {now : Seconds} {before after : SecretFile}
    {result : Except SecretFailure Decision} (h : Kept P job now before after result) :
    answersOf result = none ∧ after.counter = before.counter ∨
    answersOf result = some true ∧ GoodGuess P job now before ∧ after.counter = (0, 0) ∨
    answersOf result = some false ∧ after.counter =
      ((countWrong before.counter.1 now).failures,
        (countWrong before.counter.1 now).lockedUntil) := by
  cases h with
  | refused e _ hcounter _ => exact .inl ⟨rfl, hcounter⟩
  | verified hgood _ hcounter | changed hgood hcounter =>
    exact .inr (.inl ⟨rfl, hgood, hcounter⟩)
  | wrong d hd _ _ hcounter =>
    right
    right
    obtain rfl | rfl := hd <;> exact ⟨rfl, hcounter⟩
  | provisioned _ hcounter => exact .inl ⟨rfl, hcounter⟩

namespace SecretWorld

structure Counting (s : SecretWorld) : Prop where
  row : wrongRow s.log ≤ s.file.counter.1
  locked : maxFailuresBeforeLock ≤ wrongRow s.log → ∃ last, lastWrong s.log = some last ∧
    last + lockSeconds (wrongRow s.log) ≤ s.file.counter.2
  paced : Paced s.log

variable {s t : SecretWorld} {P : Platform}

theorem Counting.start (hlog : s.log = []) : s.Counting := by
  constructor <;> simp [hlog, wrongRow, Paced, maxFailuresBeforeLock]

theorem Counting.congr (h : s.Counting) (hfile : t.file.counter = s.file.counter)
    (hlog : t.log = s.log) : t.Counting := by
  obtain ⟨hrow, hlocked, hpaced⟩ := h
  rw [← hlog, ← hfile] at hrow hlocked
  exact ⟨hrow, hlocked, hlog ▸ hpaced⟩

theorem Counting.answer (h : s.Counting) (id : CallId) (a : Answer) :
    (s.answer id a).Counting := ⟨h.row, h.locked, h.paced⟩

theorem Counting.look (h : s.Counting) (id : CallId) (faults : Faults) :
    (s.look id faults).Counting := by
  have hlook : Counting { s with
      file := (readTransaction faults s.file).1
      log := .look ⟨id, s.file, (readTransaction faults s.file).1,
        (readTransaction faults s.file).2⟩ :: s.log } := by
    constructor
    · simpa [wrongRow] using h.row
    · simpa [wrongRow, lastWrong] using h.locked
    · exact h.paced
  unfold SecretWorld.look
  simp only
  split
  · exact hlook.answer _ _
  · exact hlook.congr rfl rfl

/-- One more transaction: what it does to the counter is what its answer does to the row. -/
theorem Counting.turn (h : s.Counting) {t : Turn} (hbefore : t.before = s.file)
    (hkept : Kept P t.job t.now t.before t.after t.result)
    (hunlocked : t.compared.isSome → t.before.counter.2 ≤ t.now) :
    Counting { s with file := t.after, log := .turn t :: s.log } := by
  obtain ⟨hrow, hlocked, hpaced⟩ := h
  rw [← hbefore] at hrow hlocked
  have hpace : Paced (.turn t :: s.log) := by
    refine ⟨?_, hpaced⟩
    intro hcompared hfive
    obtain ⟨last, hlast, hle⟩ := hlocked hfive
    rw [lockSeconds_eq] at hle
    exact ⟨last, hlast, hle.trans (hunlocked hcompared)⟩
  rcases hkept.counter with ⟨hanswers, hafter⟩ | ⟨hanswers, -, hafter⟩ | ⟨hanswers, hafter⟩
  · constructor
    · simpa [wrongRow, Turn.answers, hanswers, hafter] using hrow
    · simpa [wrongRow, lastWrong, Turn.answers, hanswers, hafter] using hlocked
    · exact hpace
  · constructor
    · simp [wrongRow, Turn.answers, hanswers]
    · simp [wrongRow, Turn.answers, hanswers, maxFailuresBeforeLock]
    · exact hpace
  · constructor
    · simpa [wrongRow, Turn.answers, hanswers, hafter, countWrong] using hrow
    · simp only [wrongRow, lastWrong, Turn.answers, hanswers, hafter, Option.some.injEq,
        Bool.false_eq_true, if_false, if_true]
      intro hfive
      refine ⟨t.now, rfl, ?_⟩
      unfold countWrong
      simp only
      rw [if_pos (by omega)]
      have hmono := lockSeconds_mono (Nat.add_le_add_right hrow 1)
      linarith
    · exact hpace

theorem Counting.step {move : SecretMove} (h : s.Counting) (hok : s.ReadsWhole move)
    (hf : s.Fires P move t) : t.Counting := by
  cases hf with
  | tick | asked | askedStatus | recorded | found => exact h.congr rfl rfl
  | refused | answered | report => exact h.answer _ _
  | transact id faults new job _ =>
    have hkept : Kept P job s.clock s.file (s.turn P id job faults new).after
        (s.turn P id job faults new).result := kept_writeTransaction hok
    have hunlocked : (compared P faults s.clock job s.file).isSome →
        s.file.counter.2 ≤ s.clock := by
      intro hsome
      obtain ⟨ok, hcompared⟩ := Option.isSome_iff_exists.mp hsome
      exact unlocked_of_compared hok hcompared
    have hturn : Counting { s with
        file := (s.turn P id job faults new).after
        log := .turn (s.turn P id job faults new) :: s.log } := h.turn rfl hkept hunlocked
    exact hturn.congr rfl rfl
  | notFound id _ _ =>
    apply Counting.answer
    exact ⟨h.row, h.locked, h.paced⟩
  | look id faults _ => exact h.look id faults

end SecretWorld

structure GuessesCounted (P : Platform) (s : SecretWorld) : Prop where
  /-- Each transaction works on what the one before it has left. -/
  chained : Chained s.file s.log
  /-- Only the stored secret is accepted, and not under a lockout. -/
  accepted : ∀ t, .turn t ∈ s.log → t.answers = some true → GoodGuess P t.job t.now t.before
  replaced : ∀ t, .turn t ∈ s.log → t.before.rows ≠ [] → t.after.rows ≠ t.before.rows →
    GoodGuess P t.job t.now t.before
  counted : ∀ t, .turn t ∈ s.log → t.answers = some false →
    t.after.counter.1 = t.before.counter.1 + 1
  reset : ∀ t, .turn t ∈ s.log → t.after.counter.1 < t.before.counter.1 →
    GoodGuess P t.job t.now t.before
  /-- Guesses after five and more wrong ones keep their distance. -/
  paced : Paced s.log
  compared : ∀ t, .turn t ∈ s.log → ∀ ok, t.answers = some ok → t.compared = some ok
  /-- No credential counts as absent that is there, and no lockout as none. -/
  present : ∀ t, .turn t ∈ s.log →
    t.result = .error .notConfigured ∨ t.result = .ok .provisioned → t.before.rows = []
  unlocked : ∀ t, .turn t ∈ s.log → t.compared.isSome → t.before.counter.2 ≤ t.now
  looks : ∀ l, .look l ∈ s.log → ∀ configured failures lockedUntil,
    l.result = .ok (configured, failures, lockedUntil) →
      (configured = false → l.before.rows = []) ∧ (failures, lockedUntil) = l.before.counter
  notFound : ∀ id file, .notFound id file ∈ s.log → file.rows = []
  /-- Every answer follows from a transaction of its call, which has only one. -/
  earned : AllEarned s.log
  once : (s.log.filterMap SecretWorld.turnCall).Nodup

variable {P : Platform} {job : Job} {now : Seconds} {before after : SecretFile}
  {result : Except SecretFailure Decision}

theorem Kept.good_of_rows (h : Kept P job now before after result) (hstored : before.rows ≠ [])
    (hne : after.rows ≠ before.rows) :
    GoodGuess P job now before := by
  cases h with
  | refused _ hrows | wrong _ _ _ hrows => exact absurd hrows hne
  | verified hgood | changed hgood => exact hgood
  | provisioned hnone => exact absurd hnone hstored

theorem Kept.rows_nil (h : Kept P job now before after result)
    (hresult : result = .error .notConfigured ∨ result = .ok .provisioned) : before.rows = [] := by
  cases h with
  | refused e _ _ hnone => exact hnone (by simpa using hresult)
  | provisioned hnone => exact hnone
  | wrong d hd => rcases hd with rfl | rfl <;> simp at hresult
  | verified | changed => simp at hresult

/-- While no failing read hides what is stored, guesses are counted and the secret is replaced
only with itself. -/
theorem guesses_counted {P : Platform} {s : SecretWorld}
    (hr : (secretMachine P).Reach SecretWorld.ReadsWhole s) : GuessesCounted P s := by
  have hinv : s.Linked ∧ s.Recorded P ∧ s.Counting := by
    apply hr.invariant (I := fun s => s.Linked ∧ s.Recorded P ∧ s.Counting)
    · rintro s ⟨hcalls, hlog⟩
      refine ⟨.start hcalls hlog, ?_, .start hlog⟩
      constructor <;> simp [hlog, Chained]
    · rintro s move t ⟨hlinked, hrecorded, hcounting⟩ hok hstep
      have hf := SecretWorld.fires hstep
      exact ⟨hlinked.step hf, hrecorded.step hok hf, hcounting.step hok hf⟩
  obtain ⟨hlinked, hrecorded, hcounting⟩ := hinv
  constructor
  · exact hrecorded.chained
  · intro t ht hright
    rcases (hrecorded.kept t ht).counter with ⟨h, -⟩ | ⟨-, hgood, -⟩ | ⟨h, -⟩
    · cases hright.symm.trans h
    · exact hgood
    · cases hright.symm.trans h
  · intro t ht
    exact (hrecorded.kept t ht).good_of_rows
  · intro t ht hwrong
    rcases (hrecorded.kept t ht).counter with ⟨h, -⟩ | ⟨h, -⟩ | ⟨-, hcounter⟩
    · cases hwrong.symm.trans h
    · cases hwrong.symm.trans h
    · rw [hcounter]
      rfl
  · intro t ht hless
    rcases (hrecorded.kept t ht).counter with ⟨-, h⟩ | ⟨-, hgood, -⟩ | ⟨-, h⟩
    · rw [h] at hless
      exact absurd hless (lt_irrefl _)
    · exact hgood
    · rw [h] at hless
      simp only [countWrong] at hless
      omega
  · exact hcounting.paced
  · exact hrecorded.compared
  · intro t ht
    exact (hrecorded.kept t ht).rows_nil
  · exact hrecorded.unlocked
  · exact hrecorded.looks
  · exact hrecorded.notFound
  · exact hlinked.earned
  · exact hlinked.once

def noFaults : Faults := fun _ => none

theorem notHidden_noFaults (file : SecretFile) : NotHidden file noFaults := by
  constructor <;> simp [noFaults]

def zeros (n : ℕ) : ByteArray := ⟨(List.replicate n 0).toArray⟩

/-- Every secret has the same digest but one. -/
def samplePlatform : Platform where
  normalize s := s
  decimal c := 48 ≤ c.code && c.code ≤ 57
  scrypt secret _ _ :=
    if secret = "password".toByteArray then zeros 32 else ⟨(List.replicate 32 1).toArray⟩

def sampleParams : KdfParams := ⟨2 ^ 15, 8, 1⟩

def sampleStart : SecretWorld where
  file := .store ⟨1, [⟨.text kdfName, sampleParams, .blob (zeros 16), .blob (zeros 32), 0, 0⟩],
    some ⟨4, 0, 0⟩⟩
  clock := 100
  calls _ := .idle
  log := []

def sampleRecord : NewRecord := ⟨zeros 16, sampleParams, 100⟩

/-- A fifth wrong guess, one that comes too soon, and the right one a minute later. -/
def guessing : List SecretMove :=
  [.ask 0 (.verify (.text (py "guess"))), .transact 0 noFaults sampleRecord, .answer 0 false,
    .ask 1 (.verify (.text (py "password"))), .transact 1 noFaults sampleRecord, .answer 1 false,
    .tick 160, .ask 2 (.verify (.text (py "password"))), .transact 2 noFaults sampleRecord,
    .answer 2 false]

/-- The answers, the last one first. -/
def SecretWorld.yeses (s : SecretWorld) : List CallId :=
  s.log.filterMap fun
    | .answered id .yes => some id
    | _ => none

theorem guesses_counted_sample : ∃ s,
    (secretMachine samplePlatform).exec sampleStart guessing = some s ∧ s.yeses = [2] ∧
      GuessesCounted samplePlatform s := by
  have hrun : ((secretMachine samplePlatform).exec sampleStart guessing).any
      (fun s => decide (s.yeses = [2])) = true := by decide +kernel
  obtain ⟨s, hs, hyes⟩ := (Option.any_eq_true _ _).mp hrun
  have hok : ∀ move ∈ guessing, ∀ t, SecretWorld.ReadsWhole t move := by
    intro move hmove t
    fin_cases hmove <;> first | trivial | exact notHidden_noFaults _
  have hr : (secretMachine samplePlatform).Reach SecretWorld.ReadsWhole s :=
    Machine.Reach.exec (.start ⟨rfl, rfl⟩) (Machine.allOk_of hok _) hs
  exact ⟨s, hs, of_decide_eq_true hyes, guesses_counted hr⟩

def credentialFails : Faults :=
  fun stmt => if stmt = .credential then some (.operational false) else none

def replacing : List SecretMove :=
  [.ask 0 (.set (.text (py "open sesame")) .absent), .transact 0 credentialFails sampleRecord]

def SecretEvent.replaces (P : Platform) : SecretEvent → Bool
  | .turn t => decide (t.before.rows ≠ [] ∧ t.after.rows ≠ t.before.rows ∧
      t.job.guess P = none)
  | _ => false

/-- The stored secret is replaced as if there were none. -/
theorem replaced_without_itself : ∃ s, (secretMachine samplePlatform).Reachable s ∧
    ∃ t, .turn t ∈ s.log ∧ t.before.rows ≠ [] ∧ t.after.rows ≠ t.before.rows ∧
      ¬ GoodGuess samplePlatform t.job t.now t.before := by
  have hrun : ((secretMachine samplePlatform).exec sampleStart replacing).any
      (fun s => s.log.any (SecretEvent.replaces samplePlatform)) = true := by decide +kernel
  obtain ⟨s, hs, hlog⟩ := (Option.any_eq_true _ _).mp hrun
  obtain ⟨event, hevent, hturn⟩ := List.any_eq_true.mp hlog
  cases event with
  | turn t =>
    obtain ⟨hstored, hne, hnone⟩ := of_decide_eq_true hturn
    refine ⟨s, Machine.reachable_exec ⟨rfl, rfl⟩ hs, t, hevent, hstored, hne, ?_⟩
    rintro ⟨⟨guess, c, hguess, -⟩, -⟩
    cases hguess.symm.trans hnone
  | _ => contradiction

end QronosAgent.Secret

import QronosAgent.Lib.Fallible
import QronosAgent.Secret.Store

/-! What one transaction does to the credential and the counter, when no failing statement hides
them. -/
namespace QronosAgent.Secret
open Lib

namespace SecretFile

def rows : SecretFile → List CredentialRow
  | .store s => s.credential
  | _ => []

def counter : SecretFile → ℕ × Seconds
  | .store s => (s.attempts.map fun a => (a.failures, a.lockedUntil)).getD (0, 0)
  | _ => (0, 0)

@[simp] theorem rows_opened (file : SecretFile) : file.opened.rows = file.rows := by
  cases file <;> rfl

@[simp] theorem counter_opened (file : SecretFile) : file.opened.counter = file.counter := by
  cases file <;> rfl

end SecretFile

/-- No read of a stored credential or counter fails with an operational error. -/
def NotHidden (file : SecretFile) (faults : Faults) : Prop :=
  (file.rows ≠ [] → ∀ busy, faults .credential ≠ some (.operational busy)) ∧
  (file.counter ≠ (0, 0) → ∀ busy, faults .attempts ≠ some (.operational busy))

structure GoodGuess (P : Platform) (job : Job) (now : Seconds) (file : SecretFile) : Prop where
  right : ∃ guess c, job.guess P = some guess ∧ readCredential file.rows = .ok (some c) ∧
    derive P guess c.salt c.params = .ok c.digest
  unlocked : file.counter.2 ≤ now

variable {faults : Faults} {stmt : Statement} {s t : SecretStore} {file file' : SecretFile}
  {o : Option SecretStore} {c : Credential} {P : Platform} {now createdAt : Seconds}
  {candidate guess proposed : ByteArray} {ok : Bool} {job : Job} {d : Decision} {new : NewRecord}
  {current secret : Submitted}

theorem run_eq_ok {turned : SqlError → SecretFailure} {u : Unit} :
    run faults turned stmt = .ok u ↔ faults stmt = none := by
  unfold run
  cases faults stmt <;> simp

@[simp] theorem counter_setAttempts (a : Attempts) (h : s.attempts.isSome) :
    (SecretFile.store (s.setAttempts a)).counter = (a.failures, a.lockedUntil) := by
  obtain ⟨b, hb⟩ := Option.isSome_iff_exists.mp h
  simp [SecretFile.counter, SecretStore.setAttempts, hb]

/-- A transaction works on the store that is there, or on a new one. -/
theorem ensureSchema_write (h : ensureSchema faults true file = .ok o) :
    ∃ s, o = some s ∧ s.attempts.isSome ∧ s.credential = file.rows ∧
      (SecretFile.store s).counter = file.counter := by
  unfold ensureSchema at h
  obtain ⟨_, _, h⟩ := bind_eq_ok.mp h
  cases file with
  | missing | empty =>
    simp only [if_true] at h
    obtain ⟨_, _, h⟩ := bind_eq_ok.mp h
    obtain ⟨_, _, h⟩ := bind_eq_ok.mp h
    obtain ⟨_, _, h⟩ := bind_eq_ok.mp h
    exact ⟨newStore, (Except.ok.inj h).symm, rfl, rfl, rfl⟩
  | unrecognised => contradiction
  | store s =>
    obtain ⟨_, _, h⟩ := bind_eq_ok.mp h
    simp only at h
    split at h
    · contradiction
    split at h
    · contradiction
    obtain ⟨_, _, h⟩ := bind_eq_ok.mp h
    split at h
    · contradiction
    refine ⟨s, (Except.ok.inj h).symm, ?_, rfl, rfl⟩
    cases hs : s.attempts <;> simp_all

theorem credential_none
    (hseen : s.credential ≠ [] → ∀ busy, faults .credential ≠ some (.operational busy))
    (h : credential faults (some s) = .ok none) : s.credential = [] := by
  unfold credential at h
  split at h
  · by_contra hne
    exact hseen hne _ ‹_›
  · contradiction
  · simp only at h
    unfold readCredential at h
    split at h
    · assumption
    · split at h
      · split at h
        · split at h <;> simp at h
        · contradiction
      · contradiction
    · contradiction

theorem credential_some (h : credential faults (some s) = .ok (some c)) :
    readCredential s.credential = .ok (some c) := by
  unfold credential at h
  split at h
  · simp at h
  · contradiction
  · exact h

theorem attempts_ok {a : ℕ × Seconds} (hseen : (SecretFile.store s).counter ≠ (0, 0) →
      ∀ busy, faults .attempts ≠ some (.operational busy)) (h : attempts faults (some s) = .ok a) :
    a = (SecretFile.store s).counter := by
  unfold attempts at h
  split at h
  · have : (SecretFile.store s).counter = (0, 0) := by
      by_contra hne
      exact hseen hne _ ‹_›
    rw [this]
    exact (Except.ok.inj h).symm
  · contradiction
  · cases hs : s.attempts <;> simp_all [SecretFile.counter]

/-- `_check`, once it has answered. -/
theorem check_ok (hs : s.attempts.isSome) (hseen : (SecretFile.store s).counter ≠ (0, 0) →
      ∀ busy, faults .attempts ≠ some (.operational busy))
    (h : check P faults now s candidate c = .ok (t, ok)) :
    t.credential = s.credential ∧ t.attempts.isSome ∧ (SecretFile.store s).counter.2 ≤ now ∧
      (ok = true ∧ derive P candidate c.salt c.params = .ok c.digest ∧
          (SecretFile.store t).counter = (0, 0) ∨
        ok = false ∧ (SecretFile.store t).counter =
          ((countWrong (SecretFile.store s).counter.1 now).failures,
            (countWrong (SecretFile.store s).counter.1 now).lockedUntil)) := by
  unfold check at h
  obtain ⟨⟨failures, lockedUntil⟩, ha, h⟩ := bind_eq_ok.mp h
  have ha := attempts_ok hseen ha
  simp only at h
  split at h
  · contradiction
  obtain ⟨submitted, hsub, h⟩ := bind_eq_ok.mp h
  obtain ⟨_, _, h⟩ := bind_eq_ok.mp h
  have hset (a : Attempts) : (s.setAttempts a).attempts.isSome := by
    simpa [SecretStore.setAttempts] using hs
  rw [← ha]
  split at h
  · cases h
    refine ⟨rfl, hset _, not_lt.mp ‹_›, .inl ⟨rfl, ?_, counter_setAttempts _ hs⟩⟩
    rw [hsub]
    simp [*]
  · cases h
    exact ⟨rfl, hset _, not_lt.mp ‹_›, .inr ⟨rfl, counter_setAttempts _ hs⟩⟩

/-- What a transaction that leaves `after` for `before` has done, by what it gives. -/
inductive Kept (P : Platform) (job : Job) (now : Seconds) (before after : SecretFile) :
    Except SecretFailure Decision → Prop
  | refused (e : SecretFailure) : after.rows = before.rows → after.counter = before.counter →
      (e = .notConfigured → before.rows = []) → Kept P job now before after (.error e)
  | verified : GoodGuess P job now before → after.rows = before.rows → after.counter = (0, 0) →
      Kept P job now before after (.ok (.verified true))
  | changed : GoodGuess P job now before → after.counter = (0, 0) →
      Kept P job now before after (.ok .changed)
  | wrong (d : Decision) : d = .verified false ∨ d = .notChanged → before.counter.2 ≤ now →
      after.rows = before.rows →
      after.counter = ((countWrong before.counter.1 now).failures,
        (countWrong before.counter.1 now).lockedUntil) → Kept P job now before after (.ok d)
  | provisioned : before.rows = [] → after.counter = before.counter →
      Kept P job now before after (.ok .provisioned)

theorem kept_check (hs : s.attempts.isSome) (hseen : NotHidden (.store s) faults)
    (hguess : job.guess P = some guess) (hc : credential faults (some s) = .ok (some c))
    (h : check P faults now s guess c = .ok (t, ok)) :
    t.credential = s.credential ∧
      (ok = true ∧ GoodGuess P job now (.store s) ∧ (SecretFile.store t).counter = (0, 0) ∨
        ok = false ∧ (SecretFile.store s).counter.2 ≤ now ∧ (SecretFile.store t).counter =
          ((countWrong (SecretFile.store s).counter.1 now).failures,
            (countWrong (SecretFile.store s).counter.1 now).lockedUntil)) := by
  obtain ⟨hrows, -, hunlocked, hcase⟩ := check_ok hs hseen.2 h
  refine ⟨hrows, ?_⟩
  rcases hcase with ⟨hok, hright, hcounter⟩ | ⟨hok, hcounter⟩
  · exact .inl ⟨hok, ⟨⟨guess, c, hguess, credential_some hc, hright⟩, hunlocked⟩, hcounter⟩
  · exact .inr ⟨hok, hunlocked, hcounter⟩

theorem kept_verifyBody (hs : s.attempts.isSome) (hseen : NotHidden (.store s) faults)
    (h : verifyBody P faults now candidate s = .ok (t, d)) :
    Kept P (.check candidate) now (.store s) (.store t) (.ok d) := by
  unfold verifyBody at h
  obtain ⟨c, hc, h⟩ := bind_eq_ok.mp h
  cases c with
  | none => contradiction
  | some c =>
    obtain ⟨⟨u, ok⟩, hcheck, h⟩ := bind_eq_ok.mp h
    cases h
    have hguess : (Job.check candidate).guess P = some candidate := rfl
    obtain ⟨hrows, hcase⟩ := kept_check hs hseen hguess hc hcheck
    rcases hcase with ⟨rfl, hgood, hcounter⟩ | ⟨rfl, hunlocked, hcounter⟩
    · exact .verified hgood hrows hcounter
    · exact .wrong _ (.inl rfl) hunlocked hrows hcounter

theorem putCredential_ok (h : putCredential P faults new proposed createdAt s = .ok t) :
    (SecretFile.store t).counter = (SecretFile.store s).counter := by
  unfold putCredential at h
  obtain ⟨_, _, h⟩ := bind_eq_ok.mp h
  obtain ⟨_, _, h⟩ := bind_eq_ok.mp h
  obtain ⟨_, _, h⟩ := bind_eq_ok.mp h
  cases h
  rfl

theorem kept_setBody (hs : s.attempts.isSome) (hseen : NotHidden (.store s) faults)
    (h : setBody P faults now new proposed current s = .ok (t, d)) :
    Kept P (.put proposed current) now (.store s) (.store t) (.ok d) := by
  unfold setBody at h
  obtain ⟨c, hc, h⟩ := bind_eq_ok.mp h
  cases c with
  | none =>
    obtain ⟨u, hput, h⟩ := bind_eq_ok.mp h
    cases h
    exact .provisioned (credential_none hseen.1 hc) (putCredential_ok hput)
  | some c =>
    obtain ⟨guess, hencoded, h⟩ := bind_eq_ok.mp h
    split at h
    · contradiction
    obtain ⟨⟨u, ok⟩, hcheck, h⟩ := bind_eq_ok.mp h
    have hguess : (Job.put proposed current).guess P = some guess := by
      simp only [Job.guess]
      rw [hencoded]
      simp [*]
    obtain ⟨hrows, hcase⟩ := kept_check hs hseen hguess hc hcheck
    rcases hcase with ⟨rfl, hgood, hcounter⟩ | ⟨rfl, hunlocked, hcounter⟩
    · simp only [if_true] at h
      obtain ⟨v, hput, h⟩ := bind_eq_ok.mp h
      cases h
      exact .changed hgood ((putCredential_ok hput).trans hcounter)
    · cases h
      exact .wrong _ (.inr rfl) hunlocked hrows hcounter

theorem kept_body (hs : s.attempts.isSome) (hseen : NotHidden (.store s) faults)
    (h : job.body P faults now new s = .ok (t, d)) :
    Kept P job now (.store s) (.store t) (.ok d) := by
  cases job with
  | check candidate => exact kept_verifyBody hs hseen h
  | put proposed current => exact kept_setBody hs hseen h

/-! Nothing but a missing credential is reported as one. -/

theorem run_storeError_ne :
    run faults storeError stmt ≠ .error .notConfigured := by
  unfold run
  cases faults stmt with
  | none => simp
  | some e =>
    cases e with
    | operational busy => cases busy <;> simp [storeError]
    | other => simp [storeError]

theorem run_asIs_ne :
    run faults asIs stmt ≠ .error .notConfigured := by
  unfold run
  cases faults stmt <;> simp [asIs]

theorem derive_ne {secret salt : ByteArray} {params : KdfParams} :
    derive P secret salt params ≠ .error .notConfigured := by
  unfold derive
  split <;> simp

theorem encoded_ne :
    encoded P secret ≠ .error .notConfigured := by
  unfold encoded
  split
  · simp only
    split
    · simp
    · split <;> simp
  · simp
  · simp

theorem ensureSchema_ne {write : Bool} :
    ensureSchema faults write file ≠ .error .notConfigured := by
  unfold ensureSchema
  refine bind_ne_error run_storeError_ne fun _ _ => ?_
  cases file with
  | missing | empty =>
    simp only
    split
    · refine bind_ne_error run_storeError_ne fun _ _ => ?_
      refine bind_ne_error run_storeError_ne fun _ _ => ?_
      refine bind_ne_error run_storeError_ne fun _ _ => ?_
      exact pure_ne_error
    · exact pure_ne_error
  | unrecognised => exact throw_ne_error (by simp)
  | store s =>
    refine bind_ne_error run_storeError_ne fun _ _ => ?_
    simp only
    split
    · exact bind_ne_error (throw_ne_error (by simp)) fun _ _ => by contradiction
    split
    · exact bind_ne_error (throw_ne_error (by simp)) fun _ _ => by contradiction
    refine bind_ne_error run_storeError_ne fun _ _ => ?_
    split
    · exact bind_ne_error (throw_ne_error (by simp)) fun _ _ => by contradiction
    exact pure_ne_error

theorem credential_ne {s : Option SecretStore} :
    credential faults s ≠ .error .notConfigured := by
  unfold credential
  split
  · simp
  · simp
  · split
    · simp
    · unfold readCredential
      split
      · simp
      · split
        · split
          · split <;> simp
          · simp
        · simp
      · simp

theorem attempts_ne {s : Option SecretStore} :
    attempts faults s ≠ .error .notConfigured := by
  unfold attempts
  split
  · simp
  · simp
  · split <;> simp

theorem check_ne :
    check P faults now s candidate c ≠ .error .notConfigured := by
  unfold check
  refine bind_ne_error attempts_ne fun _ _ => ?_
  simp only
  split
  · exact bind_ne_error (throw_ne_error (by simp)) fun _ _ => by contradiction
  refine bind_ne_error derive_ne fun _ _ => ?_
  refine bind_ne_error run_asIs_ne fun _ _ => ?_
  split <;> exact pure_ne_error

theorem putCredential_ne :
    putCredential P faults new proposed createdAt s ≠ .error .notConfigured := by
  unfold putCredential
  refine bind_ne_error derive_ne fun _ _ => ?_
  refine bind_ne_error run_asIs_ne fun _ _ => ?_
  refine bind_ne_error run_asIs_ne fun _ _ => ?_
  exact pure_ne_error

/-- `set_secret` never finds the secret missing. -/
theorem setBody_ne :
    setBody P faults now new proposed current s ≠ .error .notConfigured := by
  unfold setBody
  refine bind_ne_error credential_ne fun c _ => ?_
  cases c with
  | none =>
    refine bind_ne_error putCredential_ne fun _ _ => ?_
    exact pure_ne_error
  | some c =>
    refine bind_ne_error encoded_ne fun _ _ => ?_
    split
    · exact bind_ne_error (throw_ne_error (by simp)) fun _ _ => by contradiction
    refine bind_ne_error check_ne fun _ _ => ?_
    simp only
    split
    · refine bind_ne_error putCredential_ne fun _ _ => ?_
      exact pure_ne_error
    · exact pure_ne_error

theorem rows_of_notConfigured (hseen : NotHidden (.store s) faults)
    (h : job.body P faults now new s = .error .notConfigured) : s.credential = [] := by
  cases job with
  | put proposed current => exact absurd h setBody_ne
  | check candidate =>
    by_contra hne
    refine absurd h (bind_ne_error credential_ne fun c hc => ?_)
    cases c with
    | none => exact absurd (credential_none hseen.1 hc) hne
    | some c =>
      refine bind_ne_error check_ne fun _ _ => ?_
      exact pure_ne_error

theorem NotHidden.of_same (h : NotHidden file faults) (hrows : file'.rows = file.rows)
    (hcounter : file'.counter = file.counter) :
    NotHidden file' faults := by
  unfold NotHidden
  rw [hrows, hcounter]
  exact h

theorem Kept.of_same {after : SecretFile} {result : Except SecretFailure Decision}
    (h : Kept P job now file after result) (hrows : file.rows = file'.rows)
    (hcounter : file.counter = file'.counter) :
    Kept P job now file' after result := by
  have hgood (hg : GoodGuess P job now file) : GoodGuess P job now file' :=
    ⟨hrows ▸ hg.right, hcounter ▸ hg.unlocked⟩
  cases h with
  | refused e hr hc hnone =>
    exact .refused e (hr.trans hrows) (hc.trans hcounter) fun he => hrows ▸ hnone he
  | verified hg hr hc => exact .verified (hgood hg) (hr.trans hrows) hc
  | changed hg hc => exact .changed (hgood hg) hc
  | wrong d hd hu hr hc => exact .wrong d hd (hcounter ▸ hu) (hr.trans hrows) (hcounter ▸ hc)
  | provisioned hnone hc => exact .provisioned (hrows ▸ hnone) (hc.trans hcounter)

theorem kept_writeTransaction (hseen : NotHidden file faults) :
    Kept P job now file (writeTransaction faults (job.body P faults now new) file).1
      (writeTransaction faults (job.body P faults now new) file).2 := by
  unfold writeTransaction
  split
  · exact .refused _ rfl rfl (by simp)
  · simp only
    split
    · rename_i t d hresult
      obtain ⟨_, _, hresult⟩ := bind_eq_ok.mp hresult
      obtain ⟨o, hschema, hresult⟩ := bind_eq_ok.mp hresult
      obtain ⟨s, rfl, hs, hrows, hcounter⟩ := ensureSchema_write hschema
      rw [SecretFile.rows_opened] at hrows
      rw [SecretFile.counter_opened] at hcounter
      obtain ⟨⟨t, d⟩, hbody, hresult⟩ := bind_eq_ok.mp hresult
      obtain ⟨_, _, hresult⟩ := bind_eq_ok.mp hresult
      cases hresult
      exact (kept_body hs (hseen.of_same hrows hcounter) hbody).of_same hrows hcounter
    · rename_i e hresult
      refine .refused e (by simp) (by simp) ?_
      rintro rfl
      by_contra hne
      refine absurd hresult (bind_ne_error run_storeError_ne fun _ _ => ?_)
      refine bind_ne_error ensureSchema_ne fun o hschema => ?_
      obtain ⟨s, rfl, hs, hrows, hcounter⟩ := ensureSchema_write hschema
      rw [SecretFile.rows_opened] at hrows
      rw [SecretFile.counter_opened] at hcounter
      refine bind_ne_error (fun hbody => hne ?_) fun _ _ => ?_
      · exact hrows ▸ rows_of_notConfigured (hseen.of_same hrows hcounter) hbody
      · refine bind_ne_error run_storeError_ne fun _ _ => ?_
        exact pure_ne_error

/-- A guess is compared only when no lockout is in force. -/
theorem unlocked_of_compared (hseen : NotHidden file faults)
    (h : compared P faults now job file = some ok) : file.counter.2 ≤ now := by
  unfold compared at h
  split at h
  · contradiction
  obtain ⟨o, ho, h⟩ := Option.bind_eq_some_iff.mp h
  obtain ⟨s, hs, h⟩ := Option.bind_eq_some_iff.mp h
  obtain ⟨_, _, h⟩ := Option.bind_eq_some_iff.mp h
  obtain ⟨c, _, h⟩ := Option.bind_eq_some_iff.mp h
  obtain ⟨guess, _, h⟩ := Option.bind_eq_some_iff.mp h
  obtain ⟨⟨failures, lockedUntil⟩, ha, h⟩ := Option.bind_eq_some_iff.mp h
  obtain ⟨_, _, hschema⟩ := bind_eq_ok.mp (toOption_eq_some.mp ho)
  rw [hs] at hschema
  obtain ⟨u, hu, _, _, hcounter⟩ := ensureSchema_write hschema
  cases hu
  rw [SecretFile.counter_opened] at hcounter
  have ha := attempts_ok (hcounter ▸ hseen.2) (toOption_eq_some.mp ha)
  simp only at h
  split at h
  · contradiction
  rw [← hcounter, ← ha]
  exact not_lt.mp ‹_›

theorem compared_of_check (hconnect : faults .connect = none) (hbegin : faults .begin = none)
    (hschema : ensureSchema faults true file.opened = .ok (some s))
    (hc : credential faults (some s) = .ok (some c)) (hguess : job.guess P = some guess)
    (hcheck : check P faults now s guess c = .ok (t, ok)) :
    compared P faults now job file = some ok := by
  unfold check at hcheck
  obtain ⟨⟨failures, lockedUntil⟩, ha, hcheck⟩ := bind_eq_ok.mp hcheck
  simp only at hcheck
  split at hcheck
  · contradiction
  obtain ⟨submitted, hsub, hcheck⟩ := bind_eq_ok.mp hcheck
  obtain ⟨_, _, hcheck⟩ := bind_eq_ok.mp hcheck
  have hok : decide (submitted = c.digest) = ok := by
    split at hcheck <;> cases hcheck <;> simpa
  unfold compared
  rw [hconnect, if_neg (by simp)]
  have hopen : (do run faults storeError .begin; ensureSchema faults true file.opened :
      Except SecretFailure (Option SecretStore)).toOption = some (some s) := by
    rw [toOption_eq_some]
    exact bind_eq_ok.mpr ⟨(), run_eq_ok.mpr hbegin, hschema⟩
  rw [hopen]
  simp [toOption_eq_some.mpr hc, hguess, toOption_eq_some.mpr ha, toOption_eq_some.mpr hsub]
  exact ⟨not_lt.mp ‹_›, hok⟩

def Decision.answers : Decision → Option Bool
  | .verified ok => some ok
  | .changed => some true
  | .notChanged => some false
  | .provisioned => none

theorem compared_of_answers
    (h : (writeTransaction faults (job.body P faults now new) file).2 = .ok d)
    (hd : d.answers = some ok) : compared P faults now job file = some ok := by
  unfold writeTransaction at h
  split at h
  · contradiction
  simp only at h
  split at h
  · rename_i hconnect _ t d' hresult
    cases h
    obtain ⟨_, hbegin, hresult⟩ := bind_eq_ok.mp hresult
    obtain ⟨o, hschema, hresult⟩ := bind_eq_ok.mp hresult
    obtain ⟨s, rfl, -⟩ := ensureSchema_write hschema
    obtain ⟨⟨t, d⟩, hbody, hresult⟩ := bind_eq_ok.mp hresult
    obtain ⟨_, _, hresult⟩ := bind_eq_ok.mp hresult
    cases hresult
    cases job with
    | check candidate =>
      obtain ⟨c, hc, hbody⟩ := bind_eq_ok.mp hbody
      cases c with
      | none => contradiction
      | some c =>
        obtain ⟨⟨u, b⟩, hcheck, hbody⟩ := bind_eq_ok.mp hbody
        cases hbody
        cases hd
        exact compared_of_check hconnect (run_eq_ok.mp hbegin) hschema hc rfl hcheck
    | put proposed current =>
      obtain ⟨c, hc, hbody⟩ := bind_eq_ok.mp hbody
      cases c with
      | none =>
        obtain ⟨u, _, hbody⟩ := bind_eq_ok.mp hbody
        cases hbody
        contradiction
      | some c =>
        obtain ⟨guess, hencoded, hbody⟩ := bind_eq_ok.mp hbody
        split at hbody
        · contradiction
        obtain ⟨⟨u, b⟩, hcheck, hbody⟩ := bind_eq_ok.mp hbody
        have hguess : (Job.put proposed current).guess P = some guess := by
          simp only [Job.guess]
          rw [hencoded]
          simp [*]
        have hb : b = ok := by
          cases b with
          | true =>
            obtain ⟨v, _, hbody⟩ := bind_eq_ok.mp hbody
            cases hbody
            exact Option.some.inj hd
          | false =>
            cases hbody
            exact Option.some.inj hd
        exact hb ▸ compared_of_check hconnect (run_eq_ok.mp hbegin) hschema hc hguess hcheck
  · contradiction

theorem ensureSchema_read (h : ensureSchema faults false file = .ok o) :
    o = none ∧ file.rows = [] ∧ file.counter = (0, 0) ∨ ∃ s, o = some s ∧ file = .store s := by
  unfold ensureSchema at h
  obtain ⟨_, _, h⟩ := bind_eq_ok.mp h
  cases file with
  | missing | empty => exact .inl ⟨(Except.ok.inj h).symm, rfl, rfl⟩
  | unrecognised => contradiction
  | store s =>
    obtain ⟨_, _, h⟩ := bind_eq_ok.mp h
    simp only at h
    split at h
    · contradiction
    split at h
    · contradiction
    obtain ⟨_, _, h⟩ := bind_eq_ok.mp h
    split at h
    · contradiction
    exact .inr ⟨s, (Except.ok.inj h).symm, rfl⟩

/-- What `status` reads is what is stored. -/
theorem readTransaction_ok {configured : Bool} {failures : ℕ} {lockedUntil : Seconds}
    (hseen : NotHidden file faults)
    (h : (readTransaction faults file).2 = .ok (configured, failures, lockedUntil)) :
    (configured = false → file.rows = []) ∧ (failures, lockedUntil) = file.counter := by
  unfold readTransaction at h
  split at h
  · contradiction
  obtain ⟨_, _, h⟩ := bind_eq_ok.mp h
  obtain ⟨o, hschema, h⟩ := bind_eq_ok.mp h
  obtain ⟨c, hc, h⟩ := bind_eq_ok.mp h
  obtain ⟨⟨f, l⟩, ha, h⟩ := bind_eq_ok.mp h
  obtain ⟨_, _, h⟩ := bind_eq_ok.mp h
  cases h
  rw [← SecretFile.rows_opened, ← SecretFile.counter_opened]
  have hseen' := hseen.of_same (SecretFile.rows_opened file) (SecretFile.counter_opened file)
  rcases ensureSchema_read hschema with ⟨rfl, hrows, hcounter⟩ | ⟨s, rfl, hs⟩
  · refine ⟨fun _ => hrows, ?_⟩
    unfold attempts at ha
    rw [hcounter]
    split at ha
    · exact (Except.ok.inj ha).symm
    · contradiction
    · exact (Except.ok.inj ha).symm
  · rw [hs] at hseen' ⊢
    refine ⟨?_, attempts_ok hseen'.2 ha⟩
    intro hnone
    cases c with
    | none => exact credential_none hseen'.1 hc
    | some c => simp at hnone

theorem readTransaction_ne :
    (readTransaction faults file).2 ≠ .error .notConfigured := by
  unfold readTransaction
  split
  · simp
  · refine bind_ne_error run_storeError_ne fun _ _ => ?_
    refine bind_ne_error ensureSchema_ne fun _ _ => ?_
    refine bind_ne_error credential_ne fun _ _ => ?_
    refine bind_ne_error attempts_ne fun _ _ => ?_
    refine bind_ne_error run_storeError_ne fun _ _ => ?_
    exact pure_ne_error

@[simp] theorem readTransaction_counter (faults : Faults) (file : SecretFile) :
    (readTransaction faults file).1.counter = file.counter := by
  unfold readTransaction
  split <;> simp

theorem proposedSecret_ne :
    proposedSecret P secret ≠ .error .notConfigured := by
  unfold proposedSecret
  refine bind_ne_error encoded_ne fun proposed _ => ?_
  cases PyStr.decodeUtf8 proposed with
  | none => exact throw_ne_error (by simp)
  | some text =>
    simp only
    split
    · exact bind_ne_error (throw_ne_error (by simp)) fun _ _ => by contradiction
    split
    · exact bind_ne_error (throw_ne_error (by simp)) fun _ _ => by contradiction
    exact pure_ne_error

end QronosAgent.Secret

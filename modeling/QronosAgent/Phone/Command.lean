import QronosAgent.Lib.Framed
import QronosAgent.Lib.Retry

/-! What the two link clients share: `mobile/android/linkcore/.../LinkClient.kt` and
`core/link_client.py`. -/
namespace QronosAgent.Phone
open Lib

structure Request (P : Type) where
  id : ℕ
  op : PyStr
  params : P
  commandId : Option PyStr

structure Response (V : Type) where
  id : ℤ
  ok : Bool
  result : Option V
  error : PyStr
  code : PyStr

/-- `MAX_FRAME_BYTES` -/
def maxFrameBytes : ℕ := 2 ^ 20

/-- `RETRYABLE`, `_RETRYABLE_CODES` -/
def retryable : List PyStr := [py "command_in_progress", py "rate_limited"]

/-- The answer is not one that means "ask again later". -/
def Response.final {V : Type} (r : Response V) : Bool := r.ok || decide (r.code ∉ retryable)

def isHexDigit : PyChar → Bool
  | .scalar c => c.isDigit || ('a' ≤ c && c ≤ 'f')
  | .surrogate _ => false

/-- `^[0-9a-f]{32}$`, on the whole text. -/
def isCommandId (s : PyStr) : Bool := s.length = 32 && s.all isHexDigit

/-- `newCommandId`, `new_command_id`: the hex digits of sixteen random bytes. -/
def newCommandId (random : { bytes : Bytes // bytes.length = 16 }) : PyStr :=
  random.1.flatMap fun b => [Json.hexDigit (b.toNat / 16), Json.hexDigit (b.toNat % 16)]

theorem isHexDigit_hexDigit {n : ℕ} (h : n < 16) : isHexDigit (Json.hexDigit n) = true := by
  have hall : ∀ m : Fin 16, isHexDigit (Json.hexDigit m.val) = true := by decide
  exact hall ⟨n, h⟩

theorem isCommandId_new (random : { bytes : Bytes // bytes.length = 16 }) :
    isCommandId (newCommandId random) = true := by
  obtain ⟨bytes, hlength⟩ := random
  have hdigits : (newCommandId ⟨bytes, hlength⟩).length = 2 * bytes.length := by
    simp only [newCommandId]
    induction bytes with
    | nil => rfl
    | cons b bs ih => simp_all [List.flatMap_cons]
  rw [isCommandId, hdigits, hlength]
  simp only [Nat.reduceMul, decide_true, Bool.true_and, List.all_eq_true, newCommandId,
    List.mem_flatMap, forall_exists_index, and_imp]
  intro c b _ hc
  have hb : b.toNat < 256 := b.toNat_lt
  rcases List.mem_pair.mp hc with rfl | rfl
  · exact isHexDigit_hexDigit (by omega)
  · exact isHexDigit_hexDigit (by omega)

section
variable {σ ι ε V P : Type}

/-- What one call with its retries is to keep, for a client whose sessions and own errors are told
by `connected` and `own`. -/
structure OneCommand (connected : σ → Bool) (own : ε → Bool) (commandId : PyStr) (attempts : ℤ)
    (r : Retried σ ι ε (Response V) (Request P)) : Prop where
  sameId : ∀ m ∈ r.made, ∀ q, m.sent = some q → q.commandId = some commandId
  /-- There are at most `max(1, attempts)` attempts, and each sends at most one request. -/
  few : (r.made.length : ℤ) ≤ max 1 attempts
  /-- An answer is that of the last attempt, to its own request, and not one to ask again for. -/
  answered : ∀ a, r.result = .ok a → a.final = true ∧
    ∃ m q, r.made.getLast? = some m ∧ m.result = .ok a ∧ m.sent = some q ∧ (q.id : ℤ) = a.id
  failed : ∀ e, r.result = .error e → own e = true ∧ (r.made.length : ℤ) = max 1 attempts
  /-- An attempt without a response leaves no session. -/
  dropped : ∀ m ∈ r.made, ∀ e, m.result = .error e → connected m.after = false

end

section
variable {σ ι ε V P : Type} {p : RetryPlan σ ι ε (Response V) (Request P)} {connected : σ → Bool}
  {commandId : PyStr} {attempts : ℤ} {inputs : ℕ → ι} {s : σ}

theorem oneCommand_iff {call : σ → ι → Attempted σ ε (Response V) (Request P)}
    (hcases : ∀ s i, (∃ s', p.attempt s i = call s' i) ∨
      connected s = false ∧ ∃ e, p.attempt s i = ⟨.error e, none, s⟩)
    (hfinal : p.final = Response.final)
    (hexhausted : ∀ last, (∀ e, last = some e → p.caught e = true) →
      p.caught (p.exhausted last) = true)
    (hsent : ∀ s i q, (call s i).sent = some q → q.commandId = some commandId)
    (hanswer : ∀ s i a, (call s i).result = .ok a →
      ∃ q, (call s i).sent = some q ∧ (q.id : ℤ) = a.id)
    (hdropped : ∀ s i e, (call s i).result = .error e → p.caught e = true →
      connected (call s i).after = false) :
    OneCommand connected p.caught commandId attempts
        (p.run inputs (max 1 attempts).toNat 0 none s) ↔
      ∀ m ∈ (p.run inputs (max 1 attempts).toNat 0 none s).made, p.Caught m := by
  generalize hr : p.run inputs (max 1 attempts).toNat 0 none s = r
  have hgenuine : ∀ m ∈ r.made, p.Genuine m := hr ▸ RetryPlan.made_genuine
  constructor
  · intro h m hm e he
    by_contra hnot
    have hresult : r.result = .error e := by
      subst hr
      exact RetryPlan.result_of_not_caught hm he (Bool.eq_false_iff.mpr hnot)
    exact hnot (h.failed e hresult).1
  · intro hcaught
    have hending : p.Ending (max 1 attempts).toNat r := hr ▸ RetryPlan.run_ending (by simp)
    have hcount : ((max 1 attempts).toNat : ℤ) = max 1 attempts :=
      Int.toNat_of_nonneg (by omega)
    have hlength : r.made.length ≤ (max 1 attempts).toNat := hr ▸ RetryPlan.made_length_le
    exact {
      sameId := by
        intro m hm q hq
        have hmade : m.toAttempted = p.attempt m.before m.input := hgenuine m hm
        rcases hcases m.before m.input with ⟨s', hcall⟩ | ⟨-, e, herror⟩
        · apply hsent s' m.input q
          rw [← hcall, ← hmade]
          exact hq
        · have hnone := congrArg Attempted.sent (hmade.trans herror)
          rw [hq] at hnone
          cases hnone
      few := by omega
      answered := by
        intro a ha
        cases hending with
        | answered m hm b hok hb hresult =>
          rw [hresult] at ha
          have hab : b = a := Except.ok.inj ha
          subst hab
          have hmade : m.toAttempted = p.attempt m.before m.input :=
            hgenuine m (List.mem_of_getLast? hm)
          rcases hcases m.before m.input with ⟨s', hcall⟩ | ⟨-, e, herror⟩
          · rw [hcall] at hmade
            obtain ⟨q, hq, hid⟩ := hanswer s' m.input b (by rw [← hmade]; exact hok)
            rw [← hmade] at hq
            exact ⟨hfinal ▸ hb, m, q, hm, hok, hq, hid⟩
          · have hfailed := congrArg Attempted.result (hmade.trans herror)
            rw [hok] at hfailed
            cases hfailed
        | escaped m hm e he hnot hresult =>
          rw [hresult] at ha
          cases ha
        | exhausted hall hothers last hlast hresult =>
          rw [hresult] at ha
          cases ha
      failed := by
        intro e he
        cases hending with
        | answered m hm b hok hb hresult =>
          rw [hresult] at he
          cases he
        | escaped m hm e' he' hnot hresult =>
          have hyes := hcaught m hm e' he'
          rw [hnot] at hyes
          cases hyes
        | exhausted hall hothers last hlast hresult =>
          rw [hresult] at he
          cases he
          exact ⟨hexhausted last hlast, by rw [hall, hcount]⟩
      dropped := by
        intro m hm e he
        have hmade : m.toAttempted = p.attempt m.before m.input := hgenuine m hm
        rcases hcases m.before m.input with ⟨s', hcall⟩ | ⟨hnot, e', herror⟩
        · rw [hcall] at hmade
          have hafter := hdropped s' m.input e (by rw [← hmade]; exact he) (hcaught m hm e he)
          rw [← hmade] at hafter
          exact hafter
        · have hafter := congrArg Attempted.after (hmade.trans herror)
          rw [hafter]
          exact hnot }

end
end QronosAgent.Phone

import QronosAgent.Phone.KotlinRetry
import QronosAgent.Phone.Python

/-! The Python client's retries: one command exactly when no attempt meets something that the
handlers do not catch. -/
namespace QronosAgent.Phone.Python
open Lib Framed

section
variable {F P α β : Type}

/-- A `ProtocolError`, or an exception that no handler names. -/
def Refusing (x : Except Raised α) : Prop :=
  ∀ e, x = .error e → e = .other ∨ (badFrame e).isLink = true

theorem Refusing.ok (a : α) : Refusing (.ok a : Except Raised α) := fun _ h => by cases h

theorem Refusing.protocolError (fault detail : PyStr) :
    Refusing (.error (protocolError fault detail) : Except Raised α) := by
  intro e h
  cases h
  exact .inr rfl

theorem Refusing.bind {x : Except Raised α} {f : α → Except Raised β} (hx : Refusing x)
    (hf : ∀ a, Refusing (f a)) : Refusing (x >>= f) := by
  intro e h
  cases x with
  | error e' =>
    cases h
    exact hx _ rfl
  | ok a => exact hf a e h

theorem Refusing.require (ms : Members F) (name expected : PyStr) (read : Json F → Option α) :
    Refusing (require ms name expected read) := by
  unfold Python.require
  split
  · exact .protocolError _ _
  · split
    · exact .ok _
    · exact .protocolError _ _

theorem Refusing.requireInt (ms : Members F) (name : PyStr) : Refusing (requireInt ms name) := by
  unfold Python.requireInt
  split
  · exact .protocolError _ _
  · exact .require _ _ _ _

theorem Refusing.dictOf (ms : Members F) (name : PyStr) : Refusing (dictOf ms name) := by
  unfold Python.dictOf
  split
  · exact .ok _
  · exact .ok _
  · exact .protocolError _ _

theorem Refusing.checkCommandId (ms : Members F) : Refusing (checkCommandId ms) := by
  unfold Python.checkCommandId
  simp only
  split
  · exact .ok _
  · exact .ok _
  · split
    · exact .ok _
    · exact .protocolError _ _
  · exact .protocolError _ _

variable (interp : Interpreter F P)

theorem Refusing.textOf (ms : Members F) (name : PyStr) : Refusing (textOf interp ms name) := by
  unfold Python.textOf
  split
  · exact .ok _
  · split
    · exact .ok _
    · intro e h
      cases h
      exact .inl rfl

theorem Refusing.parseFrame (ms : Members F) : Refusing (parseFrame interp ms) := by
  unfold Python.parseFrame
  split
  · split
    · unfold parseRequest
      apply Refusing.bind (.dictOf _ _)
      intro _
      apply Refusing.bind (.checkCommandId _)
      intro _
      apply Refusing.bind (.requireInt _ _)
      intro _
      exact Refusing.bind (.require _ _ _ _) fun _ => .ok _
    · split
      · unfold parseResponse
        apply Refusing.bind (.require _ _ _ _)
        intro _
        apply Refusing.bind (.requireInt _ _)
        intro _
        apply Refusing.bind (.textOf interp _ _)
        intro _
        exact Refusing.bind (.textOf interp _ _) fun _ => .ok _
      · split
        · unfold parseEvent
          apply Refusing.bind (.dictOf _ _)
          intro _
          exact Refusing.bind (.require _ _ _ _) fun _ => .ok _
        · exact .protocolError _ _
  · exact .protocolError _ _

variable [PyFloat F]

theorem Refusing.decodePayload (body : Bytes) : Refusing (decodePayload interp body) := by
  unfold Python.decodePayload
  split
  · exact .protocolError _ _
  · split
    · exact .ok _
    · exact .protocolError _ _
    · exact .protocolError _ _
    · intro e h
      cases h
      exact .inl rfl

/-- What `decode_payload` lets through is a text that nests too deep, or that holds an integer
literal that is too long. -/
theorem decodePayload_other {body : Bytes} : decodePayload interp body = .error .other ↔
    ∃ text, PyStr.decodeUtf8 ⟨body.toArray⟩ = some text ∧
      (Json.loads (F := F) interp.limits text = .error .recursion ∨
        Json.loads (F := F) interp.limits text = .error .intTooLong) := by
  unfold decodePayload
  cases hdecode : PyStr.decodeUtf8 ⟨body.toArray⟩ with
  | none => simp [protocolError]
  | some text =>
    have hfuel : Json.loads (F := F) interp.limits text ≠ .error .outOfFuel := Json.loads_fuel _ _
    simp only [Option.some.injEq, exists_eq_left']
    cases hloads : Json.loads (F := F) interp.limits text with
    | ok v => cases v <;> simp [protocolError]
    | error e =>
      cases e with
      | decode => simp [protocolError]
      | recursion => simp
      | intTooLong => simp
      | outOfFuel => exact absurd hloads hfuel

end

section
variable {F P : Type} [PyFloat F] {interp : Interpreter F P} {cmd : Command F P} {route : Route}

/-- The handlers catch what connecting raises. -/
def Dial.Caught (route : Route) : Dial → Prop
  | .refused (.relayRefused _) => route.isRelay = true
  | .refused (.os _) | .refused (.link _) => True
  | .refused _ => False
  | .handshake (.os _) | .handshake (.link _) => True
  | .handshake _ => False
  | .opened => True

/-- The decoder, `str` or the caller's `on_event` raises something on the frame that is neither a
`ProtocolError` nor a `LinkClientError`. -/
def Breaks (interp : Interpreter F P) (cmd : Command F P) (body : Bytes) : Prop :=
  decodePayload interp body = .error .other ∨
    ∃ ms, decodePayload interp body = .ok ms ∧ (parseFrame interp ms = .error .other ∨
      ∃ topic data e, parseFrame interp ms = .ok (.event topic data) ∧
        cmd.onEvent topic data = some e ∧ e.isLink = false)

/-- The condition on sending a request and reading until it is answered. -/
def ExchangeMeets (interp : Interpreter F P) (cmd : Command F P) (id : ℕ) (pending : Bytes)
    (a : Attempt) : Prop :=
  ∃ body, interp.dumps (request cmd id) = .text body ∧ body.length ≤ maxFrameBytes ∧
    (∀ e, a.write = some e → (∃ text, e = .os text) ∨ e.isLink = true) ∧
    (a.write = none → ∀ b,
      endingFrame maxFrameBytes (judge interp cmd id) (pending ++ a.arrives) = some b →
        ¬ Breaks interp cmd b)

def Meets (interp : Interpreter F P) (cmd : Command F P) (route : Route) (c : Client)
    (a : Attempt) : Prop :=
  (c.connected = false → a.dial.Caught route) ∧
    (c.connected = true ∨ a.dial = .opened →
      ExchangeMeets interp cmd c.nextId (c.connection.getD []) a)

variable {id : ℕ} {pending : Bytes} {a : Attempt} {c : Client} {dial : Dial}
  {r : Response (Json F)}

theorem judge_breaks {body : Bytes} :
    (∃ e, judge interp cmd id body = some (.error e) ∧ e.isLink = false) ↔
      Breaks interp cmd body := by
  unfold judge Breaks
  cases hdecode : decodePayload interp body with
  | error e =>
    simp only [Option.some.injEq, Except.error.injEq, exists_eq_left', reduceCtorEq, false_and,
      exists_const, or_false]
    rcases Refusing.decodePayload interp body e hdecode with rfl | hlink
    · simp [badFrame, Raised.isLink]
    · constructor
      · intro h
        rw [hlink] at h
        cases h
      · rintro rfl
        cases hlink
  | ok ms =>
    simp only [reduceCtorEq, Except.ok.injEq, exists_eq_left', false_or]
    cases hparse : parseFrame interp ms with
    | error e =>
      simp only [Option.some.injEq, Except.error.injEq, exists_eq_left', reduceCtorEq, false_and,
        exists_false, or_false]
      rcases Refusing.parseFrame interp ms e hparse with rfl | hlink
      · simp [badFrame, Raised.isLink]
      · constructor
        · intro h
          rw [hlink] at h
          cases h
        · rintro rfl
          cases hlink
    | ok frame =>
      cases frame with
      | request => simp [Raised.isLink]
      | event topic data => simp
      | response r =>
        simp only [reduceCtorEq, Except.ok.injEq, false_and, exists_const]
        split <;> simp [Raised.isLink]

omit [PyFloat F] in
theorem stopped_isLink {stop : Stop} {x : Except Raised (Response (Json F))}
    (h : stopped stop = x) : ∃ e, x = .error e ∧ e.isLink = true := by
  cases stop <;> exact ⟨_, h.symm, rfl⟩

theorem exchange_caught :
    (∀ e, (exchange interp cmd id pending a).1 = .error e → e.isLink = true) ↔
      ExchangeMeets interp cmd id pending a := by
  unfold exchange encodeFrame ExchangeMeets
  cases hdumps : interp.dumps (request cmd id) with
  | refused => simp [protocolError, Raised.isLink]
  | raises => simp [Raised.isLink]
  | text body =>
    simp only [Dumped.text.injEq, exists_eq_left']
    by_cases hlength : maxFrameBytes < body.length
    · rw [if_pos hlength]
      simp [protocolError, Raised.isLink, not_le.mpr hlength]
    · rw [if_neg hlength]
      simp only [not_lt.mp hlength, true_and]
      cases hwrite : a.write with
      | some e =>
        cases e <;> simp [Raised.isLink]
      | none =>
        simp only [reduceCtorEq, false_implies, implies_true, true_and, true_implies]
        constructor
        · intro h b hb hbreaks
          obtain ⟨e, hjudge, he⟩ := judge_breaks.mpr hbreaks
          have hlink := h e (readUntil_eq_iff.mpr (.inl ⟨b, hb, hjudge⟩))
          rw [he] at hlink
          cases hlink
        · intro h e he
          rcases readUntil_eq_iff.mp he with ⟨b, hb, hjudge⟩ | ⟨-, hstop⟩
          · by_contra hnot
            exact h b hb (judge_breaks.mp ⟨e, hjudge, Bool.eq_false_iff.mpr hnot⟩)
          · obtain ⟨e', he', hlink⟩ := stopped_isLink hstop
            cases he'
            exact hlink

theorem call_caught (hconnected : c.connected = true) :
    (∀ e, (call interp cmd c a).result = .error e → e.isLink = true) ↔
      ExchangeMeets interp cmd c.nextId (c.connection.getD []) a := by
  obtain ⟨pending, hconnection⟩ := Option.isSome_iff_exists.mp hconnected
  rw [call, hconnection]
  exact exchange_caught

theorem connect_caught (hc : c.connected = false) :
    (∀ e, (connect route c dial).1 = .error e → e.isLink = true) ↔ dial.Caught route := by
  unfold connect
  rw [if_neg (by simp [hc])]
  cases dial with
  | refused e =>
    cases e with
    | relayRefused text => cases hrelay : route.isRelay <;> simp [Dial.Caught, Raised.isLink, hrelay]
    | _ => simp [Dial.Caught, Raised.isLink]
  | handshake e => cases e <;> simp [Dial.Caught, Raised.isLink]
  | opened => simp [Dial.Caught]

theorem connect_ok {r : Except Raised Unit × Client} (hr : connect route c dial = r) :
    (r.1 = .ok () ∧ dial = .opened ∧ r.2 = { c with connection := some [] }) ∨
      ((∃ e, r.1 = .error e) ∧ r.2 = c) := by
  subst hr
  unfold connect
  split
  · exact .inr ⟨⟨_, rfl⟩, rfl⟩
  · cases dial with
    | refused e =>
      cases e with
      | relayRefused text => cases route <;> exact .inr ⟨⟨_, rfl⟩, rfl⟩
      | _ => exact .inr ⟨⟨_, rfl⟩, rfl⟩
    | opened => exact .inl ⟨rfl, rfl, rfl⟩
    | handshake e => cases e <;> exact .inr ⟨⟨_, rfl⟩, rfl⟩

theorem attempt_caught :
    (∀ e, (attempt interp cmd route c a).result = .error e → e.isLink = true) ↔
      Meets interp cmd route c a := by
  unfold attempt Meets
  cases hc : c.connected with
  | true =>
    simp only [if_true, reduceCtorEq, false_implies, true_and, true_or, true_implies]
    exact call_caught hc
  | false =>
    simp only [Bool.false_eq_true, if_false, true_implies, false_or]
    have hcaught : (∀ e, (connect route c a.dial).1 = .error e → e.isLink = true) ↔ _ :=
      connect_caught hc
    generalize hr : connect route c a.dial = r at hcaught
    rcases connect_ok hr with ⟨hok, hopened, hafter⟩ | ⟨⟨e, he⟩, hafter⟩
    · obtain ⟨r1, r2⟩ := r
      simp only at hok hafter
      subst hok hafter
      have hdial := hcaught.mp (by simp)
      have hconnection : c.connection = none := by simpa [Client.connected] using hc
      have hcall : (∀ e, (call interp cmd { c with connection := some [] } a).result = .error e →
          e.isLink = true) ↔ _ := call_caught rfl
      rw [hconnection]
      exact hcall.trans ⟨fun h => ⟨hdial, fun _ => h⟩, fun h => h.2 hopened⟩
    · obtain ⟨r1, r2⟩ := r
      simp only at he hafter
      subst he hafter
      simp only [Except.error.injEq, forall_eq'] at hcaught ⊢
      rw [hcaught]
      constructor
      · intro h
        refine ⟨h, fun hopened => ?_⟩
        simp [connect, hopened, hc] at hr
      · exact fun h => h.1

theorem exchange_ok (h : (exchange interp cmd id pending a).1 = .ok r) :
    (exchange interp cmd id pending a).2.1 = true ∧ r.id = id := by
  unfold exchange at h ⊢
  cases hencode : encodeFrame interp (request cmd id) with
  | error e => cases e <;> simp [hencode] at h
  | ok body =>
    cases hwrite : a.write with
    | some e => cases e <;> simp [hencode, hwrite] at h
    | none =>
      simp only [hencode, hwrite] at h ⊢
      refine ⟨trivial, ?_⟩
      rcases readUntil_eq_iff.mp h with ⟨b, -, hb⟩ | ⟨-, hstop⟩
      · unfold judge at hb
        split at hb
        · cases hb
        · split at hb
          · cases hb
          · simp at hb
          · split at hb
            · cases hb
              assumption
            · cases hb
          · cases hb
      · obtain ⟨e, he, -⟩ := stopped_isLink hstop
        cases he

theorem call_sent {q : Request P} (h : (call interp cmd c a).sent = some q) :
    q.commandId = some cmd.commandId := by
  unfold call at h
  split at h
  · cases h
  · simp only at h
    split at h
    · cases h
      rfl
    · cases h

theorem call_answer (h : (call interp cmd c a).result = .ok r) :
    ∃ q, (call interp cmd c a).sent = some q ∧ (q.id : ℤ) = r.id := by
  unfold call at h ⊢
  cases hconnection : c.connection with
  | none => simp [hconnection] at h
  | some pending =>
    simp only [hconnection] at h ⊢
    obtain ⟨hsent, hid⟩ := exchange_ok h
    exact ⟨request cmd c.nextId, by rw [if_pos hsent], hid.symm⟩

theorem call_dropped {e : Raised} (h : (call interp cmd c a).result = .error e)
    (he : e.isLink = true) :
    (call interp cmd c a).after.connected = false := by
  unfold call at h ⊢
  cases hconnection : c.connection with
  | none => simp [Client.connected, hconnection]
  | some pending =>
    simp only [hconnection] at h ⊢
    rw [h]
    cases e with
    | link message => rfl
    | _ => cases he

theorem attempt_cases (interp : Interpreter F P) (cmd : Command F P) (route : Route) (c : Client)
    (a : Attempt) : (∃ c', attempt interp cmd route c a = call interp cmd c' a) ∨
      c.connected = false ∧ ∃ e, attempt interp cmd route c a = ⟨.error e, none, c⟩ := by
  unfold attempt
  cases hc : c.connected with
  | true => exact .inl ⟨c, by simp⟩
  | false =>
    simp only [Bool.false_eq_true, if_false]
    generalize hr : connect route c a.dial = r
    obtain ⟨r1, r2⟩ := r
    rcases connect_ok hr with ⟨hok, -, -⟩ | ⟨⟨e, he⟩, hafter⟩
    · simp only at hok
      subst hok
      exact .inl ⟨r2, rfl⟩
    · simp only at he hafter
      subst he hafter
      exact .inr ⟨trivial, e, rfl⟩

/-- `call_with_retry` is one command exactly when every attempt that is made meets the condition. -/
theorem callWithRetry_iff (interp : Interpreter F P) (cmd : Command F P) (route : Route)
    (attempts : ℤ) (inputs : ℕ → Attempt) (c : Client) :
    OneCommand Client.connected Raised.isLink cmd.commandId attempts
        (callWithRetry interp cmd route attempts inputs c) ↔
      ∀ m ∈ (callWithRetry interp cmd route attempts inputs c).made,
        Meets interp cmd route m.before m.input := by
  have hiff : ∀ m ∈ (callWithRetry interp cmd route attempts inputs c).made,
      ((plan interp cmd route).Caught m ↔ Meets interp cmd route m.before m.input) := by
    intro m hm
    have hgenuine := RetryPlan.made_genuine m hm
    rw [RetryPlan.Caught, ← attempt_caught]
    have hresult : m.result = (attempt interp cmd route m.before m.input).result :=
      congrArg Attempted.result hgenuine
    rw [hresult]
    rfl
  rw [← forall₂_congr hiff]
  apply oneCommand_iff (p := plan interp cmd route) (attempt_cases interp cmd route) rfl
  · intro last hlast
    cases last with
    | none => rfl
    | some e => exact hlast e rfl
  · exact fun c a q hq => call_sent hq
  · exact fun c a r hr => call_answer hr
  · exact fun c a e he hcaught => call_dropped he hcaught

end
end QronosAgent.Phone.Python

/-! A retried command of the phone is one command, in both clients. -/
namespace QronosAgent.Phone
open Lib

/-- For every pattern of outcomes of the attempts, each client keeps a retried command one command
exactly when every attempt that is made meets the condition in the state before it. -/
theorem one_command (op : PyStr) (random : { bytes : Bytes // bytes.length = 16 })
    (attempts : ℤ) :
    (∀ {J V P : Type} (lib : Kotlin.OrgJson J V P) (params : P)
      (onEvent : PyStr → J → Option Kotlin.Thrown) (inputs : ℕ → Kotlin.Attempt)
      (c : Kotlin.Client),
      let cmd : Kotlin.Command P J := ⟨op, params, newCommandId random, onEvent⟩
      let r := Kotlin.callWithRetry lib cmd attempts inputs c
      OneCommand Kotlin.Client.connected Kotlin.Thrown.isLink (newCommandId random) attempts r ↔
        ∀ m ∈ r.made, Kotlin.Meets lib cmd m.before m.input) ∧
    (∀ {F P : Type} [PyFloat F] (interp : Python.Interpreter F P) (params : P)
      (onEvent : PyStr → Python.Members F → Option Python.Raised) (route : Python.Route)
      (inputs : ℕ → Python.Attempt) (c : Python.Client),
      let cmd : Python.Command F P := ⟨op, params, newCommandId random, onEvent⟩
      let r := Python.callWithRetry interp cmd route attempts inputs c
      OneCommand Python.Client.connected Python.Raised.isLink (newCommandId random) attempts r ↔
        ∀ m ∈ r.made, Python.Meets interp cmd route m.before m.input) := by
  constructor
  · intro J V P lib params onEvent inputs c cmd r
    exact Kotlin.callWithRetry_iff lib cmd (isCommandId_new random) attempts inputs c
  · intro F P _ interp params onEvent route inputs c cmd r
    exact Python.callWithRetry_iff interp cmd route attempts inputs c

/-! A relay that has no computer for the phone. -/

def refusingJson : Kotlin.OrgJson Unit Unit Unit where
  parse _ := .error (.json none)
  optString _ _ default := default
  has _ _ := false
  getBoolean _ _ := none
  getLong _ _ := none
  get _ _ := ()
  optJSONObject _ _ := none
  empty := ()
  encode _ := some []

/-- `NO_HOST`, at every attempt. -/
def noHost : Kotlin.Attempt where
  dial := Kotlin.RelayDial.dial ⟨none, none, [0x10], none⟩
  write := none
  arrives := []
  ending := none

def sampleCommand : Kotlin.Command Unit Unit :=
  ⟨py "ask", (), newCommandId ⟨List.replicate 16 0, by simp⟩, fun _ _ => none⟩

/-- The relay's refusal escapes from the first of four attempts. -/
theorem refusal_escapes :
    ¬ ∀ (attempts : ℤ) (inputs : ℕ → Kotlin.Attempt) (c : Kotlin.Client),
      OneCommand Kotlin.Client.connected Kotlin.Thrown.isLink sampleCommand.commandId attempts
        (Kotlin.callWithRetry refusingJson sampleCommand attempts inputs c) := by
  intro h
  have hfailed := (h 4 (fun _ => noHost) ⟨none, 1, false⟩).failed
    (.io (py "the relay refused")) rfl
  exact Bool.false_ne_true hfailed.1

end QronosAgent.Phone

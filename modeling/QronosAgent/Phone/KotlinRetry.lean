import QronosAgent.Phone.Kotlin

/-! The Kotlin client's retries: one command exactly when no attempt meets something that the
handlers do not catch. -/
namespace QronosAgent.Phone.Kotlin
open Lib Framed

section
variable {J V P : Type} {lib : OrgJson J V P} {cmd : Command P J}

/-- The handlers catch what connecting throws. -/
def Dial.Caught : Dial → Prop
  | .refused e => e.isLink = true
  | .handshake (.io _) close => ∀ e, close = some e → e.isLink = true
  | .handshake e _ => e.isLink = true
  | .opened => True

/-- `org.json` or the caller's `onEvent` throws something on the frame that is neither an
`IOException` nor a `LinkException`. -/
def Breaks (lib : OrgJson J V P) (cmd : Command P J) (body : Bytes) : Prop :=
  parse lib body = .error .other ∨
    ∃ topic data, parse lib body = .ok (.event topic data) ∧ cmd.onEvent topic data = some .other

/-- The condition on sending a request and reading until it is answered. -/
def ExchangeMeets (lib : OrgJson J V P) (cmd : Command P J) (id : ℕ) (pending : Bytes)
    (a : Attempt) : Prop :=
  ∃ body, lib.encode (request cmd id) = some body ∧ (body.length ≤ maxFrameBytes →
    a.write ≠ some .other ∧ (a.write = none →
      match endingFrame maxFrameBytes (judge lib cmd id) (pending ++ a.arrives) with
      | some b => ¬ Breaks lib cmd b
      | none => stopped (V := V) a.ending (frames maxFrameBytes (pending ++ a.arrives)).2 ≠
          .error .other))

def Meets (lib : OrgJson J V P) (cmd : Command P J) (c : Client) (a : Attempt) : Prop :=
  (c.connected = false → c.destroyed = false ∧ a.dial.Caught) ∧
    (c.connected = true ∨ a.dial = .opened →
      ExchangeMeets lib cmd c.nextId (c.session.getD []) a)

variable {id : ℕ} {pending : Bytes} {a : Attempt} {c : Client} {dial : Dial} {r : Response V}

theorem judge_other {body : Bytes} :
    judge lib cmd id body = some (.error .other) ↔ Breaks lib cmd body := by
  unfold judge Breaks
  cases hparse : parse lib body with
  | error e => simp
  | ok frame =>
    cases frame with
    | event topic data => simp
    | response r =>
      simp only [reduceCtorEq, Except.ok.injEq, false_and, exists_const]
      split <;> simp

theorem exchange_other (hid : isCommandId cmd.commandId = true) :
    (exchange lib cmd id pending a).1 ≠ .error .other ↔
      ExchangeMeets lib cmd id pending a := by
  have hread : (readUntil maxFrameBytes (judge lib cmd id) (stopped a.ending)
      (pending ++ a.arrives)).1 ≠ .error .other ↔
        match endingFrame maxFrameBytes (judge lib cmd id) (pending ++ a.arrives) with
        | some b => ¬ Breaks lib cmd b
        | none => stopped (V := V) a.ending (frames maxFrameBytes (pending ++ a.arrives)).2 ≠
            .error .other := by
    rw [ne_eq, readUntil_eq_iff]
    cases endingFrame maxFrameBytes (judge lib cmd id) (pending ++ a.arrives) with
    | none => simp
    | some b => simp [judge_other]
  unfold exchange encodeRequest ExchangeMeets
  have hall : (request cmd id).commandId.all isCommandId = true := hid
  rw [if_neg (not_not.mpr hall)]
  cases hencode : lib.encode (request cmd id) with
  | none => simp
  | some body =>
    simp only [Option.some.injEq, exists_eq_left']
    by_cases hlength : maxFrameBytes < body.length
    · rw [if_pos hlength]
      simp [protocolException, not_le.mpr hlength]
    · rw [if_neg hlength]
      simp only [not_lt.mp hlength, true_implies]
      cases hwrite : a.write with
      | some e => simp
      | none => simpa using hread

theorem handled_caught {x : Except Thrown (Response V)} {rest : Bytes} :
    (∀ e, (handled c x rest).1 = .error e → e.isLink = true) ↔ x ≠ .error .other := by
  cases x with
  | ok r => simp [handled]
  | error e => cases e <;> simp [handled, Thrown.isLink]

theorem call_caught (hid : isCommandId cmd.commandId = true) (hconnected : c.connected = true) :
    (∀ e, (call lib cmd c a).result = .error e → e.isLink = true) ↔
      ExchangeMeets lib cmd c.nextId (c.session.getD []) a := by
  obtain ⟨pending, hsession⟩ := Option.isSome_iff_exists.mp hconnected
  rw [call, hsession]
  exact handled_caught.trans (exchange_other hid)

theorem connect_caught (hc : c.connected = false) :
    (∀ e, (connect c dial).1 = .error e → e.isLink = true) ↔ c.destroyed = false ∧ dial.Caught := by
  unfold connect
  cases hdestroyed : c.destroyed with
  | true => simp [Thrown.isLink]
  | false =>
    rw [if_neg (by simp [hc])]
    cases dial with
    | refused e => simp [Dial.Caught]
    | opened => simp [Dial.Caught]
    | handshake e close =>
      cases e with
      | io message =>
        cases close with
        | none => simp [Dial.Caught, Thrown.isLink]
        | some e => simp [Dial.Caught]
      | link message => simp [Dial.Caught, Thrown.isLink]
      | other => simp [Dial.Caught, Thrown.isLink]

theorem connect_ok {r : Except Thrown Unit × Client} (hr : connect c dial = r) :
    (r.1 = .ok () ∧ dial = .opened ∧ r.2 = { c with session := some [] }) ∨
      ((∃ e, r.1 = .error e) ∧ r.2 = c) := by
  subst hr
  unfold connect
  split
  · exact .inr ⟨⟨_, rfl⟩, rfl⟩
  · cases dial with
    | refused e => exact .inr ⟨⟨_, rfl⟩, rfl⟩
    | opened => exact .inl ⟨rfl, rfl, rfl⟩
    | handshake e close => cases e <;> exact .inr ⟨⟨_, rfl⟩, rfl⟩

theorem attempt_caught (hid : isCommandId cmd.commandId = true) :
    (∀ e, (attempt lib cmd c a).result = .error e → e.isLink = true) ↔ Meets lib cmd c a := by
  unfold attempt Meets
  cases hc : c.connected with
  | true =>
    simp only [if_true, reduceCtorEq, false_implies, true_and, true_or, true_implies]
    exact call_caught hid hc
  | false =>
    simp only [Bool.false_eq_true, if_false, true_implies, false_or]
    have hcaught : (∀ e, (connect c a.dial).1 = .error e → e.isLink = true) ↔ _ :=
      connect_caught hc
    generalize hr : connect c a.dial = r at hcaught
    rcases connect_ok hr with ⟨hok, hopened, hafter⟩ | ⟨⟨e, he⟩, hafter⟩
    · obtain ⟨r1, r2⟩ := r
      simp only at hok hafter
      subst hok hafter
      have hdial := hcaught.mp (by simp)
      have hsession : c.session = none := by simpa [Client.connected] using hc
      have hcall : (∀ e, (call lib cmd { c with session := some [] } a).result = .error e →
          e.isLink = true) ↔ _ := call_caught hid rfl
      rw [hsession]
      exact hcall.trans ⟨fun h => ⟨hdial, fun _ => h⟩, fun h => h.2 hopened⟩
    · obtain ⟨r1, r2⟩ := r
      simp only at he hafter
      subst he hafter
      simp only [Except.error.injEq, forall_eq'] at hcaught ⊢
      rw [hcaught]
      constructor
      · intro h
        refine ⟨h, fun hopened => ?_⟩
        simp [connect, hopened, hc, h.1] at hr
      · exact fun h => h.1

theorem exchange_ok (h : (exchange lib cmd id pending a).1 = .ok r) :
    (exchange lib cmd id pending a).2.1 = true ∧ r.id = id := by
  unfold exchange at h ⊢
  cases hencode : encodeRequest lib (request cmd id) with
  | error e => simp [hencode] at h
  | ok body =>
    cases hwrite : a.write with
    | some e => simp [hencode, hwrite] at h
    | none =>
      simp only [hencode, hwrite] at h ⊢
      refine ⟨trivial, ?_⟩
      rcases readUntil_eq_iff.mp h with ⟨b, -, hb⟩ | ⟨-, hstop⟩
      · unfold judge at hb
        split at hb
        · cases hb
        · simp at hb
        · split at hb
          · cases hb
            assumption
          · cases hb
      · cases hend : (frames maxFrameBytes (pending ++ a.arrives)).2 <;>
          simp [hend, stopped] at hstop

theorem call_sent {q : Request P} (h : (call lib cmd c a).sent = some q) :
    q.commandId = some cmd.commandId := by
  unfold call at h
  split at h
  · cases h
  · simp only at h
    split at h
    · cases h
      rfl
    · cases h

theorem call_answer (h : (call lib cmd c a).result = .ok r) :
    ∃ q, (call lib cmd c a).sent = some q ∧ (q.id : ℤ) = r.id := by
  unfold call at h ⊢
  cases hsession : c.session with
  | none => simp [hsession] at h
  | some pending =>
    simp only [hsession] at h ⊢
    have hok : (exchange lib cmd c.nextId pending a).1 = .ok r := by
      generalize (exchange lib cmd c.nextId pending a).1 = x at h
      cases x with
      | ok r' => simpa [handled] using h
      | error e => cases e <;> simp [handled] at h
    obtain ⟨hsent, hid⟩ := exchange_ok hok
    exact ⟨request cmd c.nextId, by rw [if_pos hsent], hid.symm⟩

theorem call_dropped {e : Thrown} (h : (call lib cmd c a).result = .error e)
    (he : e.isLink = true) :
    (call lib cmd c a).after.connected = false := by
  unfold call at h ⊢
  cases hsession : c.session with
  | none => simp [Client.connected, hsession]
  | some pending =>
    simp only [hsession] at h ⊢
    generalize (exchange lib cmd c.nextId pending a).1 = x at h
    cases x with
    | ok r => simp [handled] at h
    | error e' =>
      cases e' with
      | io message => rfl
      | link message => rfl
      | other =>
        simp only [handled] at h
        cases h
        cases he

theorem attempt_cases (lib : OrgJson J V P) (cmd : Command P J) (c : Client) (a : Attempt) :
    (∃ c', attempt lib cmd c a = call lib cmd c' a) ∨
      c.connected = false ∧ ∃ e, attempt lib cmd c a = ⟨.error e, none, c⟩ := by
  unfold attempt
  cases hc : c.connected with
  | true => exact .inl ⟨c, by simp⟩
  | false =>
    simp only [Bool.false_eq_true, if_false]
    generalize hr : connect c a.dial = r
    obtain ⟨r1, r2⟩ := r
    rcases connect_ok hr with ⟨hok, -, -⟩ | ⟨⟨e, he⟩, hafter⟩
    · simp only at hok
      subst hok
      exact .inl ⟨r2, rfl⟩
    · simp only at he hafter
      subst he hafter
      exact .inr ⟨trivial, e, rfl⟩

/-- `callWithRetry` is one command exactly when every attempt that is made meets the condition. -/
theorem callWithRetry_iff (lib : OrgJson J V P) (cmd : Command P J)
    (hid : isCommandId cmd.commandId = true) (attempts : ℤ) (inputs : ℕ → Attempt) (c : Client) :
    OneCommand Client.connected Thrown.isLink cmd.commandId attempts
        (callWithRetry lib cmd attempts inputs c) ↔
      ∀ m ∈ (callWithRetry lib cmd attempts inputs c).made, Meets lib cmd m.before m.input := by
  have hiff : ∀ m ∈ (callWithRetry lib cmd attempts inputs c).made,
      ((plan lib cmd).Caught m ↔ Meets lib cmd m.before m.input) := by
    intro m hm
    have hgenuine := RetryPlan.made_genuine m hm
    rw [RetryPlan.Caught, ← attempt_caught hid]
    have hresult : m.result = (attempt lib cmd m.before m.input).result :=
      congrArg Attempted.result hgenuine
    rw [hresult]
    rfl
  rw [← forall₂_congr hiff]
  apply oneCommand_iff (p := plan lib cmd) (attempt_cases lib cmd) rfl
  · intro last hlast
    cases last with
    | none => rfl
    | some e => exact hlast e rfl
  · exact fun c a q hq => call_sent hq
  · exact fun c a r hr => call_answer hr
  · exact fun c a e he hcaught => call_dropped he hcaught

end
end QronosAgent.Phone.Kotlin

import QronosAgent.Ipc.Channel

/-! Who owes the channel its close. The debt is made with `_closed`, by a call of `close` or by
the send whose write was cancelled; it passes to the send that is inside while there is one. -/
namespace QronosAgent.Ipc
open Lib

namespace Channel

inductive Fires (s : Channel) : ChannelMove → Channel → Prop
  | lock (id : CallId) : s.inside = none → Fires s (.send id .lock) (s.goTo id .locked)
  | lockTimesOut (id : CallId) : Fires s (.send id .lockTimesOut) (s.record (.wroteNothing id))
  | checkClosed (id : CallId) : s.inside = some (id, .locked) → s.closed = true →
      Fires s (.send id .check) ((s.goTo id .unlocking).record (.wroteNothing id))
  | checkOpen (id : CallId) : s.inside = some (id, .locked) → s.closed = false →
      Fires s (.send id .check) { s.goTo id .ready with sending := true }
  | noTime (id : CallId) : s.inside = some (id, .ready) →
      Fires s (.send id .noTime) ((s.goTo id .leaving).record (.wroteNothing id))
  | startFails (id : CallId) : s.inside = some (id, .ready) →
      Fires s (.send id .startFails) ((s.goTo id .leaving).record (.wroteNothing id))
  | start (id : CallId) (pending : Bool) (stage : SendStage) : s.inside = some (id, .ready) →
      stage.writes = true → Fires s (.send id (.start pending))
        ((s.goTo id stage).record (.started id))
  | startGone (id : CallId) (pending : Bool) : s.inside = some (id, .ready) →
      Fires s (.send id (.start pending)) ((s.goTo id .leaving).record (.wroteNothing id))
  | register (id : CallId) : s.inside = some (id, .register) →
      Fires s (.send id .register) { s.goTo id (.waiting true) with pending := some id }
  | registerLate (id : CallId) : s.inside = some (id, .register) →
      Fires s (.send id .register) ((s.goTo id (.waiting true)).record (.cancelled id))
  | finish (id : CallId) (pending : Bool) (outcome : Outcome) (stage : SendStage) :
      s.inside = some (id, .waiting pending) →
      (outcome = .timedOut ∧ stage = .marking ∨ outcome ≠ .timedOut ∧ stage = .leaving) →
      Fires s (.send id (.finish outcome)) ((s.goTo id stage).record (.ended id outcome))
  | mark (id : CallId) : s.inside = some (id, .marking) →
      Fires s (.send id .mark) { s.goTo id .leaving with closed := true }
  | leave (id : CallId) (stage : SendStage) : s.inside = some (id, .leaving) →
      (s.closed = true ∧ stage = .release ∨ s.closed = false ∧ stage = .unlocking) →
      Fires s (.send id .leave) { s.goTo id stage with sending := false, pending := none }
  | sendRelease (id : CallId) : s.inside = some (id, .release) →
      Fires s (.send id .release) { s.goTo id .unlocking with closes := s.closes + 1 }
  | unlock (id : CallId) : s.inside = some (id, .unlocking) →
      Fires s (.send id .unlock) { s with inside := none }
  | closeAgain (id : CallId) : s.closed = true → Fires s (.close id) (s.record (.closeCalled id))
  | closeCancels (id write : CallId) : s.closed = false → s.sending = true →
      Fires s (.close id)
        (record { s.record (.closeCalled id) with closed := true } (.cancelled write))
  | closeMarks (id : CallId) : s.closed = false → s.sending = true →
      Fires s (.close id) { s.record (.closeCalled id) with closed := true }
  | closeTakes (id : CallId) : s.closed = false → s.sending = false →
      Fires s (.close id) { s.record (.closeCalled id) with
        closed := true
        releasing := id :: s.releasing }
  | release (id : CallId) : id ∈ s.releasing →
      Fires s (.release id)
        { s with releasing := s.releasing.erase id, closes := s.closes + 1 }

variable {s t : Channel} {id : CallId} {stage : SendStage} {move : ChannelMove}
  {event : ChannelEvent}

theorem fires_check (hin : s.inside = some (id, .locked)) :
    s.Fires (.send id .check) (s.check id) := by
  cases hclosed : s.closed with
  | true =>
    rw [check, if_pos hclosed]
    exact .checkClosed id hin hclosed
  | false =>
    rw [check, if_neg (by simp [hclosed])]
    exact .checkOpen id hin hclosed

theorem fires_startWrite (hin : s.inside = some (id, .ready)) (pending : Bool) :
    s.Fires (.send id (.start pending)) (s.startWrite id pending) := by
  unfold startWrite
  split
  · apply Fires.start id pending _ hin
    cases pending <;> rfl
  · exact .startGone id pending hin

theorem fires_register (hin : s.inside = some (id, .register)) :
    s.Fires (.send id .register) (s.register id) := by
  unfold Channel.register
  split
  · exact .registerLate id hin
  · exact .register id hin

theorem fires_endWrite {pending : Bool} (hin : s.inside = some (id, .waiting pending))
    (outcome : Outcome) :
    s.Fires (.send id (.finish outcome)) (s.endWrite id outcome) := by
  unfold endWrite
  apply Fires.finish id pending outcome _ hin
  split
  · exact .inl ⟨‹_›, rfl⟩
  · exact .inr ⟨‹_›, rfl⟩

theorem fires_leave (hin : s.inside = some (id, .leaving)) :
    s.Fires (.send id .leave) (s.leave id) := by
  unfold Channel.leave
  apply Fires.leave id _ hin
  cases s.closed with
  | true => exact .inl ⟨rfl, rfl⟩
  | false => exact .inr ⟨rfl, rfl⟩

theorem fires_close (s : Channel) (id : CallId) : s.Fires (.close id) (s.close id) := by
  unfold Channel.close
  cases hclosed : s.closed with
  | true =>
    rw [if_pos (by exact hclosed)]
    exact .closeAgain id hclosed
  | false =>
    rw [if_neg (by simp [record, hclosed])]
    cases hsend : s.sending with
    | true =>
      rw [if_pos (by exact hsend)]
      split
      · exact .closeCancels id _ hclosed hsend
      · exact .closeMarks id hclosed hsend
    | false =>
      rw [if_neg (by simp [record, hsend])]
      exact .closeTakes id hclosed hsend

theorem fires_sendStep {move : SendMove} (hin : s.inside = some (id, stage))
    (h : s.sendStep id stage move = some t) :
    s.Fires (.send id move) t := by
  cases stage <;> cases move <;> simp only [sendStep, reduceCtorEq, Option.some.injEq] at h
  case locked.check => exact h ▸ fires_check hin
  case ready.noTime => exact h ▸ .noTime id hin
  case ready.startFails => exact h ▸ .startFails id hin
  case ready.start pending => exact h ▸ fires_startWrite hin pending
  case register.register => exact h ▸ fires_register hin
  case waiting.finish pending outcome =>
    split at h
    · contradiction
    · exact Option.some.inj h ▸ fires_endWrite hin outcome
  case marking.mark => exact h ▸ .mark id hin
  case leaving.leave => exact h ▸ fires_leave hin
  case release.release => exact h ▸ .sendRelease id hin
  case unlocking.unlock => exact h ▸ .unlock id hin

theorem fires (h : s.step move = some t) :
    s.Fires move t := by
  cases move with
  | close id =>
    simp only [step, Option.some.injEq] at h
    exact h ▸ fires_close s id
  | release id =>
    simp only [step] at h
    split at h
    · exact Option.some.inj h ▸ .release id ‹_›
    · contradiction
  | send id m =>
    have hinside (hm : s.step (.send id m) =
        s.inside.bind fun held => if held.1 = id then s.sendStep id held.2 m else none) :
        s.Fires (.send id m) t := by
      rw [hm] at h
      obtain ⟨⟨holder, stage⟩, hin, h⟩ := Option.bind_eq_some_iff.mp h
      simp only at h
      split at h
      · subst holder
        exact fires_sendStep hin h
      · contradiction
    cases m with
    | lock =>
      simp only [step] at h
      split at h
      · exact Option.some.inj h ▸ .lock id ‹_›
      · contradiction
    | lockTimesOut =>
      simp only [step] at h
      split at h
      · contradiction
      · exact Option.some.inj h ▸ .lockTimesOut id
    | _ => exact hinside rfl

def insideHas (s : Channel) (p : SendStage → Bool) : Bool := s.inside.any fun held => p held.2

theorem insideHas_of (hin : s.inside = some (id, stage)) (p : SendStage → Bool) :
    s.insideHas p = p stage := by
  simp [insideHas, hin]

/-- The closes that are certain to come, or under way. -/
def owed (s : Channel) : ℕ :=
  s.releasing.length + (s.insideHas (· = .release)).toNat + (s.closed && s.sending).toNat

structure Owner (s : Channel) : Prop where
  sending : s.sending = s.insideHas SendStage.sends
  debt : s.closes + s.owed = s.closed.toNat

theorem Owner.start : opened.Owner := ⟨rfl, rfl⟩

theorem Owner.record (h : s.Owner) (event : ChannelEvent) :
    (s.record event).Owner := ⟨h.sending, h.debt⟩

theorem Owner.goTo {next : SendStage} (h : s.Owner) (hin : s.inside = some (id, stage))
    (hsends : next.sends = stage.sends) (hrelease : next = .release ↔ stage = .release) :
    (s.goTo id next).Owner := by
  obtain ⟨hsending, hdebt⟩ := h
  rw [insideHas_of hin] at hsending
  simp only [owed, insideHas_of hin] at hdebt
  constructor
  · exact hsending.trans hsends.symm
  · simp only [owed, insideHas, Channel.goTo, Option.any_some, hrelease]
    exact hdebt

/-- A call of `close` leaves the debt to the send inside. -/
theorem Owner.closeUnder (h : s.Owner) (hclosed : s.closed = false) (hsend : s.sending = true) :
    Owner { s with closed := true } := by
  obtain ⟨hsending, hdebt⟩ := h
  constructor
  · exact hsending
  · simp only [owed, insideHas, hclosed, hsend, Bool.and_true, Bool.toNat_false,
      Bool.toNat_true] at hdebt ⊢
    omega

theorem Owner.step (h : s.Owner) (hf : s.Fires move t) :
    t.Owner := by
  have hat {id : CallId} {stage : SendStage} (hin : s.inside = some (id, stage)) :
      s.sending = stage.sends ∧ s.closes + (s.releasing.length +
        (decide (stage = .release)).toNat + (s.closed && stage.sends).toNat) =
          s.closed.toNat := by
    obtain ⟨hsending, hdebt⟩ := h
    rw [insideHas_of hin] at hsending
    simp only [owed, insideHas_of hin, hsending] at hdebt
    exact ⟨hsending, hdebt⟩
  cases hf with
  | lock id hin =>
    obtain ⟨hsending, hdebt⟩ := h
    simp only [owed, insideHas, hin, Option.any_none] at hsending hdebt
    exact ⟨hsending, hdebt⟩
  | lockTimesOut id => exact h.record _
  | checkClosed id hin _ | noTime id hin | startFails id hin | startGone id _ hin
  | registerLate id hin =>
    apply Owner.record
    exact h.goTo hin rfl (by simp)
  | checkOpen id hin hclosed =>
    have hdebt := (hat hin).2
    constructor
    · rfl
    · simp_all [owed, insideHas, Channel.goTo]
  | start id pending stage hin hwrites =>
    apply Owner.record
    apply h.goTo hin
    · cases stage <;> first | rfl | contradiction
    · cases stage <;> simp [SendStage.writes] at hwrites ⊢
  | register id hin =>
    obtain ⟨hsending, hdebt⟩ : (s.goTo id (.waiting true)).Owner := h.goTo hin rfl (by simp)
    exact ⟨hsending, hdebt⟩
  | finish id pending outcome stage hin hstage =>
    apply Owner.record
    obtain ⟨-, rfl⟩ | ⟨-, rfl⟩ := hstage <;> exact h.goTo hin rfl (by simp)
  | mark id hin =>
    obtain ⟨hsending, hdebt⟩ := hat hin
    constructor
    · exact hsending
    · cases hclosed : s.closed <;>
        simp_all [owed, insideHas, Channel.goTo, SendStage.sends]
  | leave id stage hin hstage =>
    have hdebt := (hat hin).2
    -- a debt with `_sending` becomes one of the release that follows
    obtain ⟨hclosed, rfl⟩ | ⟨hclosed, rfl⟩ := hstage
    · constructor
      · rfl
      · simp_all [owed, insideHas, Channel.goTo, SendStage.sends]
    · constructor
      · rfl
      · simp_all [owed, insideHas, Channel.goTo]
  | sendRelease id hin =>
    obtain ⟨hsending, hdebt⟩ := hat hin
    constructor
    · exact hsending
    · simp only [owed, insideHas, Channel.goTo, Option.any_some, hsending] at hdebt ⊢
      simp [SendStage.sends] at hdebt ⊢
      omega
  | unlock id hin =>
    obtain ⟨hsending, hdebt⟩ := hat hin
    constructor
    · exact hsending
    · simpa [owed, insideHas, hsending, SendStage.sends] using hdebt
  | closeAgain id hclosed => exact h.record _
  | closeCancels id write hclosed hsend =>
    apply Owner.record
    exact (h.record _).closeUnder hclosed hsend
  | closeMarks id hclosed hsend => exact (h.record _).closeUnder hclosed hsend
  | closeTakes id hclosed hsend =>
    obtain ⟨hsending, hdebt⟩ := h
    constructor
    · exact hsending
    · simp only [owed, insideHas, Channel.record, hclosed, hsend, List.length_cons, Bool.and_false,
        Bool.toNat_false, Bool.toNat_true] at hdebt ⊢
      omega
  | release id hid =>
    obtain ⟨hsending, hdebt⟩ := h
    have hlen := List.length_erase_of_mem hid
    have hpos := List.length_pos_of_mem hid
    constructor
    · exact hsending
    · simp only [owed, insideHas] at hdebt ⊢
      omega

theorem Owner.reach {ok : Channel → ChannelMove → Prop} (hr : channelMachine.Reach ok s) :
    s.Owner := by
  apply hr.invariant
  · rintro s rfl
    exact Owner.start
  · intro s move t h _ hstep
    exact h.step (fires hstep)

/-- `close` was called. -/
def closeCalled (s : Channel) : Prop := ∃ event ∈ s.log, event.closes = true

def tore (s : Channel) : Prop := ∃ event ∈ s.log, event.torn = true

def NoneAfterTorn (log : List ChannelEvent) : Prop :=
  log.Pairwise fun later earlier => earlier.torn = true → later.starts = false

structure Story (s : Channel) : Prop where
  called : s.closeCalled → s.closed = true
  tore : s.tore → s.closed = true ∨ s.insideHas (· = .marking) = true
  cause : s.closed = true → s.closeCalled ∨ s.tore
  marking : s.insideHas (· = .marking) = true → s.tore
  fresh : s.insideHas SendStage.mayWrite = true → ¬ s.tore
  order : NoneAfterTorn s.log

def NotTornOpen (s : Channel) : ChannelMove → Prop
  | .send _ (.finish outcome) => outcome = .failed ∨ outcome = .short → s.closed = true
  | _ => True

theorem Story.start : opened.Story := by
  constructor <;> simp [opened, closeCalled, Channel.tore, insideHas, NoneAfterTorn]

theorem noneAfterTorn_cons {log : List ChannelEvent} (h : NoneAfterTorn log)
    (hevent : event.starts = true → ∀ e ∈ log, e.torn = false) :
    NoneAfterTorn (event :: log) := by
  unfold NoneAfterTorn
  rw [List.pairwise_cons]
  refine ⟨?_, h⟩
  intro e he htorn
  by_contra hstarts
  have := hevent (by simpa using hstarts) e he
  simp_all

@[simp] theorem closeCalled_record (s : Channel) (event : ChannelEvent) :
    (s.record event).closeCalled ↔ event.closes = true ∨ s.closeCalled := by
  simp [closeCalled, record]

@[simp] theorem tore_record (s : Channel) (event : ChannelEvent) :
    (s.record event).tore ↔ event.torn = true ∨ s.tore := by
  simp [Channel.tore, record]

@[simp] theorem record_closed (s : Channel) (event : ChannelEvent) :
    (s.record event).closed = s.closed := rfl

@[simp] theorem insideHas_record (s : Channel) (event : ChannelEvent) (p : SendStage → Bool) :
    (s.record event).insideHas p = s.insideHas p := rfl

@[simp] theorem goTo_closed (s : Channel) (id : CallId) (stage : SendStage) :
    (s.goTo id stage).closed = s.closed := rfl

@[simp] theorem insideHas_goTo (s : Channel) (id : CallId) (stage : SendStage)
    (p : SendStage → Bool) : (s.goTo id stage).insideHas p = p stage := rfl

@[simp] theorem closeCalled_goTo (s : Channel) (id : CallId) (stage : SendStage) :
    (s.goTo id stage).closeCalled ↔ s.closeCalled := Iff.rfl

@[simp] theorem tore_goTo (s : Channel) (id : CallId) (stage : SendStage) :
    (s.goTo id stage).tore ↔ s.tore := Iff.rfl

/-- An event that is no torn write and no call of `close`. -/
theorem Story.record (h : s.Story) (hcloses : event.closes = false) (htorn : event.torn = false)
    (hstarts : event.starts = true → ¬ s.tore) : (s.record event).Story where
  called := by simpa [hcloses] using h.called
  tore := by simpa [htorn] using h.tore
  cause := by simpa [hcloses, htorn] using h.cause
  marking := by simpa [htorn] using h.marking
  fresh := by simpa [htorn] using h.fresh
  order := by
    apply noneAfterTorn_cons h.order
    intro hs e he
    by_contra hne
    exact hstarts hs ⟨e, he, by simpa using hne⟩

/-- A call of `close` is recorded with the channel closed after it. -/
theorem Story.close (h : s.Story) (id : CallId) (releasing : List CallId) :
    Story { s.record (.closeCalled id) with closed := true, releasing := releasing } where
  called _ := rfl
  tore _ := .inl rfl
  cause _ := .inl ⟨.closeCalled id, by simp [Channel.record], rfl⟩
  marking := fun hm => (tore_record s (.closeCalled id)).mpr (.inr (h.marking hm))
  fresh := fun hm ht => h.fresh hm (((tore_record s (.closeCalled id)).mp ht).resolve_left (by simp [ChannelEvent.torn]))
  order := noneAfterTorn_cons h.order (by simp [ChannelEvent.starts])

theorem Story.inside (h : s.Story) (hlog : t.log = s.log) (hclosed : t.closed = s.closed)
    (hmarking : s.insideHas (· = .marking) = false)
    (hmarking' : t.insideHas (· = .marking) = false)
    (hfresh : t.insideHas SendStage.mayWrite = true → ¬ s.tore) : t.Story where
  called := by simpa [closeCalled, hlog, hclosed] using h.called
  tore := by
    intro htore
    rw [Channel.tore, hlog] at htore
    have hclosed' : s.closed = true := by simpa [hmarking] using h.tore htore
    exact .inl (hclosed.trans hclosed')
  cause := by
    intro hc
    rw [Channel.tore, closeCalled, hlog]
    exact h.cause (hclosed ▸ hc)
  marking := by simp [hmarking']
  fresh := by simpa [Channel.tore, hlog] using hfresh
  order := by simpa [hlog] using h.order

theorem Story.step (h : s.Story) (hok : s.NotTornOpen move) (hf : s.Fires move t) : t.Story := by
  cases hf with
  | lock id hin =>
    exact h.inside rfl rfl (by simp [insideHas, hin]) rfl
      fun hm => absurd hm Bool.false_ne_true
  | lockTimesOut id => exact h.record rfl rfl (by simp [ChannelEvent.starts])
  | checkClosed id hin _ | noTime id hin | startFails id hin | startGone id _ hin =>
    apply Story.record _ rfl rfl (by simp [ChannelEvent.starts])
    exact h.inside rfl rfl (by simp [insideHas, hin]) rfl
      fun hm => absurd hm Bool.false_ne_true
  | registerLate id hin =>
    apply Story.record _ rfl rfl (by simp [ChannelEvent.starts])
    refine h.inside rfl rfl (by simp [insideHas, hin]) rfl ?_
    intro _
    exact h.fresh (by simp [insideHas, hin, SendStage.mayWrite])
  | checkOpen id hin hclosed =>
    refine h.inside rfl rfl (by simp [insideHas, hin]) rfl ?_
    intro _ htore
    have := h.tore htore
    simp [hclosed, insideHas, hin] at this
  | start id pending stage hin hwrites =>
    have hnot : ¬ s.tore := h.fresh (by simp [insideHas, hin, SendStage.mayWrite])
    refine Story.record ?_ rfl rfl fun _ => hnot
    refine h.inside rfl rfl (by simp [insideHas, hin]) ?_ fun _ => hnot
    cases stage <;> first | rfl | contradiction
  | register id hin =>
    refine h.inside rfl rfl (by simp [insideHas, hin]) rfl ?_
    intro _
    exact h.fresh (by simp [insideHas, hin, SendStage.mayWrite])
  | finish id pending outcome stage hin hstage =>
    by_cases hwhole : outcome = .whole
    · subst outcome
      obtain ⟨htimed, -⟩ | ⟨-, rfl⟩ := hstage
      · contradiction
      · apply Story.record _ rfl rfl (by simp [ChannelEvent.starts])
        exact h.inside rfl rfl (by simp [insideHas, hin]) rfl
          fun hm => absurd hm Bool.false_ne_true
    · have htore : ((s.goTo id stage).record (.ended id outcome)).tore :=
        (tore_record _ _).mpr (.inl (by simpa [ChannelEvent.torn] using hwhole))
      have hmark : s.closed = true ∨ stage = .marking := by
        obtain ⟨-, rfl⟩ | ⟨htimed, rfl⟩ := hstage
        · exact .inr rfl
        · left
          apply hok
          cases outcome <;> simp_all
      have hnot : stage.mayWrite = false := by
        obtain ⟨-, rfl⟩ | ⟨-, rfl⟩ := hstage <;> rfl
      constructor
      · intro hcalled
        exact h.called (by simpa [ChannelEvent.closes] using hcalled)
      · intro _
        simpa using hmark
      · exact fun _ => .inr htore
      · exact fun _ => htore
      · simp [hnot]
      · exact noneAfterTorn_cons h.order (by simp [ChannelEvent.starts])
  | mark id hin =>
    have htore := h.marking (by simp [insideHas, hin])
    exact ⟨fun _ => rfl, fun _ => .inl rfl, fun _ => .inr htore, by simp [insideHas, Channel.goTo],
      by simp [insideHas, Channel.goTo, SendStage.mayWrite], h.order⟩
  | leave id stage hin hstage =>
    obtain ⟨-, rfl⟩ | ⟨-, rfl⟩ := hstage <;>
    exact h.inside rfl rfl (by simp [insideHas, hin]) rfl
      fun hm => absurd hm Bool.false_ne_true
  | sendRelease id hin =>
    exact h.inside rfl rfl (by simp [insideHas, hin]) rfl
      fun hm => absurd hm Bool.false_ne_true
  | unlock id hin =>
    exact h.inside rfl rfl (by simp [insideHas, hin]) rfl
      fun hm => absurd hm Bool.false_ne_true
  | closeAgain id hclosed =>
    have hc := h.close id s.releasing
    exact ⟨fun _ => hclosed, fun _ => .inl hclosed, fun _ => hc.cause rfl, hc.marking, hc.fresh,
      hc.order⟩
  | closeCancels id write hclosed hsend =>
    apply Story.record _ rfl rfl (by simp [ChannelEvent.starts])
    exact h.close id s.releasing
  | closeMarks id hclosed hsend => exact h.close id s.releasing
  | closeTakes id hclosed hsend => exact h.close id _
  | release id hid => exact { h with }

theorem Story.reach (hr : channelMachine.Reach NotTornOpen s) : s.Story := by
  apply hr.invariant
  · rintro s rfl
    exact Story.start
  · intro s move t h hok hstep
    exact h.step hok (fires hstep)

/-- Every call has returned. -/
def Quiet (s : Channel) : Prop := s.inside = none ∧ s.releasing = []

def CanSend (s : Channel) : Prop :=
  ∀ id pending, ∃ t, channelMachine.exec s
    [.send id .lock, .send id .check, .send id (.start pending)] = some t ∧
      t.log = .started id :: s.log

theorem canSend (hin : s.inside = none) (hclosed : s.closed = false) (hcloses : s.closes = 0) :
    s.CanSend := by
  intro id pending
  simp [channelMachine, Machine.exec, step, sendStep, hin, goTo, check, hclosed, startWrite,
    hcloses, record]

end Channel

structure ClosedOnce (s : Channel) : Prop where
  atMost : s.closes ≤ 1
  exactly : s.Quiet → s.closeCalled ∨ s.tore → s.closes = 1
  unasked : ¬ s.closeCalled → ¬ s.tore → s.closes = 0
  notUnderWrite : s.insideHas SendStage.writes = true → s.closes = 0 ∧ s.releasing = []
  nothingAfterTorn : Channel.NoneAfterTorn s.log
  usable : ¬ s.closeCalled → ¬ s.tore → s.inside = none → s.CanSend
  wroteNothing : ∀ id move t, s.step (.send id move) = some t →
    t.log = .wroteNothing id :: s.log → ¬ s.closeCalled → ¬ s.tore →
      t = s.record (.wroteNothing id) ∨
      ∃ u, channelMachine.exec t [.send id .leave, .send id .unlock] = some u ∧ u.CanSend
  returns : ∀ id, ∃ t, s.step (.close id) = some t ∧
    (id ∈ t.releasing → ∃ u, t.step (.release id) = some u)

open Channel in
/-- While no write fails on an open channel, the channel is closed once and never written after
a torn message. -/
theorem closed_once {s : Channel} (hr : channelMachine.Reach NotTornOpen s) : ClosedOnce s := by
  have howner := Owner.reach hr
  have hstory := Story.reach hr
  have hdebt := howner.debt
  have hquietOpen (hcalled : ¬ s.closeCalled) (htore : ¬ s.tore) : s.closed = false := by
    by_contra hclosed
    have := hstory.cause (by simpa using hclosed)
    tauto
  have hnone (hclosed : s.closed = false) : s.closes = 0 := by
    rw [hclosed, Bool.toNat_false] at hdebt
    omega
  constructor
  · have := Bool.toNat_le s.closed
    omega
  · rintro ⟨hin, hreleasing⟩ hcause
    have hclosed : s.closed = true := by
      obtain hcalled | htore := hcause
      · exact hstory.called hcalled
      · simpa [insideHas, hin] using hstory.tore htore
    have hsending : s.sending = false := by simpa [insideHas, hin] using howner.sending
    simpa [owed, insideHas, hin, hreleasing, hsending, hclosed] using hdebt
  · intro hcalled htore
    exact hnone (hquietOpen hcalled htore)
  · intro hwrites
    have hsending : s.sending = true := by
      rw [howner.sending]
      obtain ⟨held, hin, hw⟩ := (Option.any_eq_true _ _).mp hwrites
      rw [insideHas, hin, Option.any_some]
      revert hw
      cases held.2 <;> simp [SendStage.writes, SendStage.sends]
    simp only [owed, hsending, Bool.and_true] at hdebt
    constructor
    · omega
    · exact List.eq_nil_of_length_eq_zero (by omega)
  · exact hstory.order
  · intro hcalled htore hin
    have hclosed := hquietOpen hcalled htore
    exact canSend hin hclosed (hnone hclosed)
  · intro id move t hstep hlog hcalled htore
    have hclosed := hquietOpen hcalled htore
    have hleaves (u : Channel) (hu : u = (s.goTo id .leaving).record (.wroteNothing id)) :
        ∃ v, channelMachine.exec u [.send id .leave, .send id .unlock] = some v ∧ v.CanSend := by
      subst hu
      refine ⟨{ (s.goTo id .leaving).record (.wroteNothing id) with
        sending := false, pending := none, inside := none }, ?_, ?_⟩
      · simp [channelMachine, Machine.exec, Channel.step, sendStep, Channel.leave, goTo, record,
          hclosed]
      · exact canSend rfl hclosed (hnone hclosed)
    cases fires hstep with
    | lockTimesOut => exact .inl rfl
    | noTime | startFails | startGone => exact .inr (hleaves _ rfl)
    | checkClosed _ hin hc => exact absurd hc (by simp [hclosed])
    | _ => simp [record, goTo] at hlog
  · intro id
    refine ⟨_, rfl, ?_⟩
    intro hid
    exact ⟨_, if_pos hid⟩

instance (s : Channel) (move : ChannelMove) : Decidable (s.NotTornOpen move) := by
  unfold Channel.NotTornOpen
  split <;> infer_instance

instance (s : Channel) : Decidable s.Quiet := inferInstanceAs (Decidable (_ ∧ _))

/-- A send is cancelled at its deadline, the next finds the channel closed, and `close` is
called last. -/
def timedOutMoves : List ChannelMove :=
  [.send 0 .lock, .send 0 .check, .send 0 (.start true), .send 0 .register,
    .send 0 (.finish .timedOut), .send 0 .mark, .send 0 .leave, .send 0 .release, .send 0 .unlock,
    .send 1 .lock, .send 1 .check, .send 1 .unlock, .close 2]

def shortMoves : List ChannelMove :=
  [.send 0 .lock, .send 0 .check, .send 0 (.start false), .send 0 (.finish .short),
    .send 0 .leave, .send 0 .unlock,
    .send 1 .lock, .send 1 .check, .send 1 (.start false), .send 1 (.finish .whole),
    .send 1 .leave, .send 1 .unlock]

theorem closed_once_timed_out : ∃ s, channelMachine.execChecked
    (fun s move => decide (s.NotTornOpen move)) .opened timedOutMoves = some s ∧
      s.Quiet ∧ ClosedOnce s := by
  have hrun : (channelMachine.execChecked (fun s move => decide (s.NotTornOpen move)) .opened
      timedOutMoves).any (fun s => decide s.Quiet) = true := by
    decide +kernel
  obtain ⟨s, hs, hquiet⟩ := (Option.any_eq_true _ _).mp hrun
  have hr : channelMachine.Reach Channel.NotTornOpen s :=
    Machine.Reach.execChecked (fun _ _ => of_decide_eq_true) (.start rfl) hs
  exact ⟨s, hs, of_decide_eq_true hquiet, closed_once hr⟩

/-- The short write leaves the channel open. -/
theorem written_after_short : ∃ s, channelMachine.Reachable s ∧ s.Quiet ∧ s.tore ∧
    s.closes = 0 ∧ ¬ Channel.NoneAfterTorn s.log := by
  have hrun : channelMachine.exec .opened shortMoves = some ⟨false, false, none, none, [], 0,
      [.ended 1 .whole, .started 1, .ended 0 .short, .started 0]⟩ := rfl
  refine ⟨_, Machine.reachable_exec rfl hrun, ⟨rfl, rfl⟩, ?_, rfl, ?_⟩
  · exact ⟨.ended 0 .short, by simp, rfl⟩
  · simp [Channel.NoneAfterTorn, ChannelEvent.torn, ChannelEvent.starts]

end QronosAgent.Ipc

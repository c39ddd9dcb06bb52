import QronosAgent.Lib.JsonRoundTrip
import QronosAgent.View.Steps

/-! Each answer is shown once, and the composer does not stay locked, as long as no step meets a bubble
that a canonical message does not replace. -/
namespace QronosAgent.View
open Lib

section
variable {F : Type}

def queuePhases : List PyStr :=
  [py "queued", py "deferred", py "running", py "paused", py "interrupted", py "failed",
    py "cancelled", py "answered"]

def Unlocks [PyFloat F] (browser : Browser F) (r : PyStr) : Action F → Prop
  | .sendFailed requestId _ => requestId = r
  | .event _ (.messageAdded (some (.obj ms))) => ∃ c, parseCanonicalMessage ms = some c ∧
      c.role = .qronos ∧ c.requestId = some r
  | .event _ (.queueConversationUpdate (some (.obj ms))) => (queuePayload ms).requestId = r ∧
      (queuePayload ms).phase ∈ queuePhases
  | .event _ (.textDeferred (some (.obj ms))) => (queuePayload ms).requestId = r
  | .event _ (.queueChanged (some (.obj ms))) => ∃ task ∈ arrayOf (prop ms "recent") ++
      arrayOf (prop ms "tasks"), ∃ payload, taskUpdate task = some payload ∧ payload.requestId = r
  | .event _ (.textResponse (some (.obj ms))) => textOf (prop ms "requestId") = r ∧
      responseTextOf browser false ms ≠ []
  | .event _ (.textError _ (some (.obj ms))) => textOf (prop ms "requestId") = r
  | _ => False

/-- What holds in a state, and for as long as the steps go on to meet the condition. -/
structure ShownOnce [PyFloat F] (browser : Browser F) (ok : Snapshot F → Action F → Prop)
    (s : Snapshot F) : Prop where
  merged : ∀ now ms c, ok s (.event now (.messageAdded (some (.obj ms)))) →
    parseCanonicalMessage ms = some c → (∀ m ∈ s.messages, m.id ≠ c.id) →
      Shown (viewStep browser s (.event now (.messageAdded (some (.obj ms))))) c
  stays : ∀ c ∈ s.messages, c.canonical = true → ∀ as s',
    (viewMachine browser).allOk (fun s a => ok s a ∧ a.replaces = false) s as →
      (viewMachine browser).exec s as = some s' → Shown s' c
  answered : ∀ r, ∀ a ∈ s.messages, answerOf r a = true → ∀ m ∈ s.messages, bubbleOf r m = false
  oneBubble : ∀ r, s.messages.countP (bubbleOf r) ≤ 1
  oneUser : (∀ r, s.messages.countP (userOf r) ≤ 1) ∧ (canonicalIds s.messages).Nodup ∧
    ∀ m ∈ s.messages, m.requestId = none → m.canonical = true
  pending : ∀ r, s.pendingRequestId = some r ↔ ∃ m ∈ s.messages, waitsFor r m = true
  unlocks : ∀ a r, r ≠ [] → ok s a → Unlocks browser r a →
    (viewStep browser s a).pendingRequestId ≠ some r
  /-- A history snapshot keeps the bubbles that the queue manages, of requests it does not answer. -/
  kept : ∀ now payload, ∀ m ∈ s.messages, m.role = .qronos → m.queuePhase.isSome = true →
    (∀ ms items, payload = some (.obj ms) → prop ms "messages" = some (.arr items) →
      ∀ a ∈ historyMessages items, ∀ r, m.requestId = some r → answerOf r a = false) →
        m ∈ (viewStep browser s (.event now (.historySnapshot payload))).messages

end

section
variable {F : Type} {browser : Browser F} {s : Snapshot F} {r : PyStr} {now : F}

theorem applyUpdates_pending {updates : List QueuePayload} :
    (s.pendingRequestId ≠ some r ∨ ∃ payload ∈ updates, payload.requestId = r) →
      (updates.foldl (applyUpdate browser now) s).pendingRequestId ≠ some r := by
  induction updates generalizing s with
  | nil =>
    intro h
    simpa using h
  | cons payload rest ih =>
    intro h
    apply ih
    by_cases hr : s.pendingRequestId = some r
    · rcases h with h | ⟨p, hp, hpr⟩
      · exact absurd hr h
      · rcases List.mem_cons.mp hp with rfl | hp
        · left
          simp [applyUpdate, hr, hpr]
        · exact .inr ⟨p, hp, hpr⟩
    · left
      simp only [applyUpdate]
      split
      · simp
      · exact hr

theorem tells_of_phase {payload : QueuePayload} (hid : payload.requestId ≠ [])
    (hphase : payload.phase ∈ queuePhases) : payload.tells browser = true := by
  have hshown : (queueBubbleFor browser payload).isSome = true ∨ payload.retires = true := by
    unfold queueBubbleFor
    simp only
    split
    · exact .inl rfl
    rename_i hwaiting
    rw [Option.or_eq_none_iff] at hwaiting
    split
    · exact .inl rfl
    rename_i hheld
    split
    · exact .inl rfl
    rename_i hfailed
    split
    · exact .inl rfl
    rename_i hended
    split
    · exact .inl rfl
    rename_i htext
    right
    have hne : ∀ (key : PyStr) {table : List (PyStr × PyStr)}, (table.lookup key).isSome = true →
        table.lookup payload.phase = none → payload.phase ≠ key := by
      intro key table hkey hnone heq
      rw [heq] at hnone
      rw [hnone] at hkey
      cases hkey
    have hpaused : payload.phase ≠ py "paused" := by
      intro heq
      rw [heldText, if_pos (.inl heq)] at hheld
      exact hne (py "paused") (by decide) hheld heq
    have hqueued := hne (py "queued") (by decide) hwaiting.1
    have hdeferred := hne (py "deferred") (by decide) hwaiting.1
    have hrunning := hne (py "running") (by decide) hwaiting.1
    have hinterrupted := hne (py "interrupted") (by decide) hended
    have hcancelled := hne (py "cancelled") (by decide) hended
    simp only [queuePhases, List.mem_cons, List.not_mem_nil, or_false, hqueued, hdeferred, hrunning,
      hpaused, hinterrupted, hfailed, hcancelled, false_or] at hphase
    simp only [hphase, true_and, not_not] at htext
    simp [QueuePayload.retires, hphase, htext]
  simpa [QueuePayload.tells, hid] using hshown

theorem taskPhase_mem {task : List (PyStr × Json F)} :
    taskPhase task = [] ∨ taskPhase task ∈ queuePhases := by
  have hchoice : ∀ {p : Prop} [Decidable p] {x y : PyStr}, (x = [] ∨ x ∈ queuePhases) →
      (y = [] ∨ y ∈ queuePhases) → (if p then x else y) = [] ∨ (if p then x else y) ∈ queuePhases := by
    intro p _ x y hx hy
    split
    · exact hx
    · exact hy
  unfold taskPhase
  apply hchoice
  · apply hchoice <;> simp [queuePhases]
  · apply hchoice
    · simp [queuePhases]
    · by_cases hstate : textOf (prop task "state") ∈
          [py "paused", py "interrupted", py "failed", py "cancelled"]
      · rw [if_pos hstate]
        right
        revert hstate
        apply List.Sublist.subset
        decide
      · rw [if_neg hstate]
        exact .inl rfl

theorem taskUpdate_tells {task : Json F} {payload : QueuePayload}
    (h : taskUpdate task = some payload) : payload.tells browser = true := by
  unfold taskUpdate at h
  simp only at h
  split at h
  · cases h
  · rename_i hkept
    simp only [not_or, not_not] at hkept
    obtain ⟨hid, -, hphase⟩ := hkept
    cases h
    exact tells_of_phase hid (taskPhase_mem.resolve_left hphase)

end

section
variable {F : Type} [PyFloat F] {browser : Browser F} {s : Snapshot F} {r : PyStr} {a : Action F}
  {c m : Message F} {now : F}

theorem queue_pending {payloads : List QueuePayload} {payload : QueuePayload}
    (hin : payload ∈ payloads) (htells : payload.tells browser = true) :
    (applyQueueConversationUpdates browser now payloads s).pendingRequestId ≠
      some payload.requestId := by
  have hupdates : payload ∈ payloads.filter (QueuePayload.tells browser) :=
    List.mem_filter.mpr ⟨hin, htells⟩
  unfold applyQueueConversationUpdates
  simp only
  rw [if_neg (List.ne_nil_of_mem hupdates)]
  exact applyUpdates_pending (.inr ⟨payload, hupdates, rfl⟩)

theorem Inv.merge_pending (hs : Inv s) (hfits : Fits s c) (hcanonical : c.canonical = true)
    (hplain : c.pending = false ∧ c.queuePhase = none) (hrole : c.role = .qronos)
    (hrequest : c.requestId = some r) :
    (mergeCanonicalMessage browser c s).pendingRequestId ≠ some r := by
  have hanswered : ∃ m ∈ (mergeCanonicalMessage browser c s).messages, answerOf r m = true := by
    by_cases hseen : ∃ m ∈ s.messages, m.id = c.id
    · rw [mergeCanonicalMessage_seen hseen]
      obtain ⟨m, hm, hid⟩ := hseen
      obtain ⟨hc, hrole', hrequest'⟩ := hfits.1 m hm hid
      exact ⟨m, hm, by simp [answerOf, hc, hrole', hrole, hrequest', hrequest]⟩
    · have hmerges : Merges s c := hfits.merges hcanonical hplain fun x hx hid => hseen ⟨x, hx, hid⟩
      refine ⟨c, (hmerges.perm hs.tidy).mem_iff.mpr List.mem_cons_self, ?_⟩
      simp [answerOf, hcanonical, hrole, hrequest]
  have hnext : Inv (mergeCanonicalMessage browser c s) := hs.merge hfits hcanonical hplain
  intro hpending
  obtain ⟨m, hm, hw⟩ := (hnext.pending r).mp hpending
  obtain ⟨answer, hin, hanswer⟩ := hanswered
  have hnone := hnext.tidy.answered r answer hin hanswer
  rw [List.countP_eq_zero] at hnone
  exact hnone m hm (hnext.tidy.bubbleOf_of_waitsFor hm hw)

theorem Inv.unlocks (hs : Inv s) (hr : r ≠ []) (hmeets : Meets browser s a)
    (hunlocks : Unlocks browser r a) : (viewStep browser s a).pendingRequestId ≠ some r := by
  cases a with
  | send => cases hunlocks
  | sendFailed requestId errorText =>
    obtain rfl : requestId = r := hunlocks
    exact fallback_pending
  | event now event =>
    cases event with
    | runtimeReady | other | historySnapshot => cases hunlocks
    | messageAdded payload =>
      obtain _ | ⟨_ | _ | _ | _ | _ | _ | ms⟩ := payload
      case some.obj =>
        obtain ⟨c, hparse, hrole, hrequest⟩ := hunlocks
        obtain ⟨hcanonical, hplain⟩ := parse_canonical hparse
        have hpending : (mergeCanonicalMessage browser c s).pendingRequestId ≠ some r :=
          hs.merge_pending (hmeets c hparse) hcanonical hplain hrole hrequest
        simpa [viewStep, handleRuntimeEvent, properties, hparse] using hpending
      all_goals cases hunlocks
    | queueChanged payload =>
      obtain _ | ⟨_ | _ | _ | _ | _ | _ | ms⟩ := payload
      case some.obj =>
        obtain ⟨task, htask, payload, hupdate, rfl⟩ := hunlocks
        exact queue_pending (List.mem_filterMap.mpr ⟨task, htask, hupdate⟩)
          (taskUpdate_tells hupdate)
      all_goals cases hunlocks
    | queueConversationUpdate payload =>
      obtain _ | ⟨_ | _ | _ | _ | _ | _ | ms⟩ := payload
      case some.obj =>
        obtain ⟨rfl, hphase⟩ := hunlocks
        exact queue_pending (List.mem_singleton.mpr rfl) (tells_of_phase hr hphase)
      all_goals cases hunlocks
    | textDeferred payload =>
      obtain _ | ⟨_ | _ | _ | _ | _ | _ | ms⟩ := payload
      case some.obj =>
        obtain rfl : (queuePayload ms).requestId = r := hunlocks
        set deferred : QueuePayload := { queuePayload ms with phase := py "queued" } with hdeferred
        have htells : deferred.tells browser = true := tells_of_phase hr (by simp [queuePhases, hdeferred])
        have hpending : (applyQueueConversationUpdates browser now [deferred] s).pendingRequestId ≠
            some deferred.requestId := queue_pending (List.mem_singleton.mpr rfl) htells
        exact hpending
      all_goals cases hunlocks
    | textResponse payload =>
      obtain _ | ⟨_ | _ | _ | _ | _ | _ | ms⟩ := payload
      case some.obj =>
        obtain ⟨rfl, htext⟩ := hunlocks
        have happlies : applyTextResult browser none ms s = replacePendingFallback
            (textOf (prop ms "requestId")) (responseTextOf browser false ms) false false s := by
          simp [applyTextResult, hr, htext]
        simpa [viewStep, handleRuntimeEvent, properties, happlies] using fallback_pending
      all_goals cases hunlocks
    | textError status payload =>
      obtain _ | ⟨_ | _ | _ | _ | _ | _ | ms⟩ := payload
      case some.obj =>
        obtain rfl : textOf (prop ms "requestId") = r := hunlocks
        have hpending : (applyTextResult browser (some status) ms s).pendingRequestId ≠
            some (textOf (prop ms "requestId")) := by
          simp only [applyTextResult, if_neg hr, Option.any_some]
          split
          · exact fallback_pending
          · rename_i hcancelled
            have htext := hmeets.resolve_left hcancelled
            simp only [Option.isSome_some, if_neg htext]
            exact fallback_pending
        simpa [viewStep, handleRuntimeEvent, properties] using hpending
      all_goals cases hunlocks

theorem history_keeps {ms : List (PyStr × Json F)} (hm : m ∈ s.messages) (hrole : m.role = .qronos)
    (hphase : m.queuePhase.isSome = true) (hrequest : m.requestId = some r)
    (hunanswered : ∀ items, prop ms "messages" = some (.arr items) →
      ∀ a ∈ historyMessages items, answerOf r a = false) :
    m ∈ (applyHistorySnapshot browser ms s).messages := by
  unfold applyHistorySnapshot
  split
  · exact hm
  · split
    · rename_i items hitems
      rw [mem_sortMessages]
      apply List.mem_append_right
      rw [List.mem_filter]
      refine ⟨hm, ?_⟩
      simp only [keptBubble, hrole, hphase, hrequest, decide_true, Option.isSome_some,
        Bool.true_and, Bool.not_eq_true', List.any_eq_false]
      intro a ha hanswer
      have hnot := hunanswered items hitems a ha
      simp only [answerOf, (historyMessages_canonical a ha).1, Bool.and_true] at hnot
      rw [hnot] at hanswer
      cases hanswer
    · exact hm

/-- Each answer is shown once, and what ends the wait for a request unlocks the composer. -/
theorem shown_once (hr : (viewMachine browser).Reach (Meets browser) s) :
    ShownOnce browser (Meets browser) s := by
  have h := inv_of_reach hr
  constructor
  case merged =>
    intro now ms c hmeets hparse hfresh
    obtain ⟨hcanonical, hplain⟩ := parse_canonical hparse
    have hfits : Fits s c := hmeets c hparse
    have hmerges : Merges s c := hfits.merges hcanonical hplain hfresh
    have hnext : Inv (mergeCanonicalMessage browser c s) := h.merge hfits hcanonical hplain
    have hshown : Shown (mergeCanonicalMessage browser c s) c :=
      hnext.shown ((hmerges.perm h.tidy).mem_iff.mpr List.mem_cons_self) hcanonical
    simpa [viewStep, handleRuntimeEvent, properties, hparse] using hshown
  case stays =>
    intro c hc hcanonical as s' hok he
    exact h.exec_shown hc hcanonical hok he
  case answered =>
    intro r a ha hanswer m hm
    have hnone := h.tidy.answered r a ha hanswer
    rw [List.countP_eq_zero] at hnone
    simpa using hnone m hm
  case oneBubble => exact h.tidy.oneBubble
  case oneUser =>
    refine ⟨h.tidy.oneUser, h.tidy.ids, fun m hm hnone => ?_⟩
    by_contra hcanonical
    have howned := h.tidy.owned m hm (by simpa using hcanonical)
    rw [hnone] at howned
    cases howned
  case pending => exact h.pending
  case unlocks =>
    intro a r hne hmeets hunlocks
    exact h.unlocks hne hmeets hunlocks
  case kept =>
    intro now payload m hm hrole hphase hunanswered
    have hrequest : m.requestId.isSome = true := by
      apply h.tidy.owned m hm
      by_contra hcanonical
      rw [(h.tidy.plain m hm (.inl (by simpa using hcanonical))).2] at hphase
      cases hphase
    obtain ⟨r, hrequest⟩ := Option.isSome_iff_exists.mp hrequest
    apply reading_keeps (P := fun t => m ∈ t.messages) hm history_empty
    intro ms hobj
    exact history_keeps hm hrole hphase hrequest fun items hitems a ha =>
      hunanswered ms items hobj hitems a ha r hrequest

end

/-- A browser for texts of small letters, and for times so late that `timestamp + 0.000001` is
`timestamp`. -/
def sampleBrowser : Browser WholeFloat where
  toLowerCase := id
  localeBefore left right := decide (left.map PyChar.code < right.map PyChar.code)
  next := id
  inherited _ := none

def sampleTime : WholeFloat := ⟨8640000000000⟩

def sampleSend : Action WholeFloat := .send (py "a") (py "1") sampleTime

/-- What Qronos says of the request of `sampleSend`. -/
def samplePayload (members : List (PyStr × Json WholeFloat)) : Option (Json WholeFloat) :=
  some (.obj ((py "requestId", .str (py "text-1")) :: members))

/-- The canonical answer to `sampleSend`. -/
def sampleAnswer : Action WholeFloat :=
  .event sampleTime (.messageAdded (samplePayload [(py "id", .str (py "m")),
    (py "role", .str (py "qronos")), (py "text", .str (py "b")),
    (py "timestamp", .int 8640000000000)]))

def sampleResponse : Action WholeFloat :=
  .event sampleTime (.textResponse (samplePayload [(py "text", .str (py "b"))]))

def sampleError : Action WholeFloat :=
  .event sampleTime (.textError (py "error") (samplePayload [(py "error", .str (py " "))]))

def sampleView : Snapshot WholeFloat := ⟨[], none⟩

def sampleCheck (s : Snapshot WholeFloat) : Action WholeFloat → Bool
  | .send _ stamp _ => s.messages.all fun m => m.requestId ≠ some (sentId stamp)
  | .event _ (.messageAdded (some (.obj ms))) => (parseCanonicalMessage ms).all fun c =>
      c.role = .qronos && s.messages.all fun m => m.id ≠ c.id && (m.role = .user || m.pending)
  | _ => false

theorem meets_of_sampleCheck (s : Snapshot WholeFloat) (a : Action WholeFloat)
    (h : sampleCheck s a = true) : Meets sampleBrowser s a := by
  unfold sampleCheck at h
  split at h
  · simpa [Meets] using h
  · intro c hparse
    rw [hparse] at h
    simp only [Option.all_some, Bool.and_eq_true, decide_eq_true_eq, List.all_eq_true,
      Bool.or_eq_true] at h
    obtain ⟨hrole, hall⟩ := h
    constructor
    · intro m hm hid
      exact absurd hid (hall m hm).1
    · intro _ r _ m hm
      constructor
      · intro huser
        rw [hrole] at huser
        cases huser
      · intro _ hbubble
        simp only [bubbleOf, Bool.and_eq_true, decide_eq_true_eq] at hbubble
        rcases (hall m hm).2 with huser | hpending
        · rw [hbubble.1.1] at huser
          cases huser
        · exact hpending
  · cases h

/-- A request is sent and answered. -/
theorem shown_once_sample : ∃ s : Snapshot WholeFloat,
    (s.messages.length = 2 ∧ s.pendingRequestId = none ∧
      s.messages.any (answerOf (py "text-1")) = true) ∧
      ShownOnce sampleBrowser (Meets sampleBrowser) s := by
  have hexec : (((viewMachine sampleBrowser).execChecked sampleCheck sampleView
      [sampleSend, sampleAnswer]).any fun s => s.messages.length = 2 && s.pendingRequestId = none &&
        s.messages.any (answerOf (py "text-1"))) = true := by decide +kernel
  obtain ⟨s, hs, hall⟩ := (Option.any_eq_true _ _).mp hexec
  simp only [Bool.and_eq_true, decide_eq_true_eq] at hall
  have hr : (viewMachine sampleBrowser).Reach (Meets sampleBrowser) s :=
    Machine.Reach.execChecked meets_of_sampleCheck (.start ⟨rfl, rfl⟩) hs
  exact ⟨s, ⟨hall.1.1, hall.1.2, hall.2⟩, shown_once hr⟩

/-- A response is shown, and then the canonical answer beside it; and an error whose text is blank
does not end the wait. -/
theorem shown_twice_and_locked :
    (∃ s : Snapshot WholeFloat, (viewMachine sampleBrowser).Reachable s ∧
      ∃ r, s.messages.any (answerOf r) = true ∧ s.messages.any (bubbleOf r) = true) ∧
    (∃ s : Snapshot WholeFloat, (viewMachine sampleBrowser).Reachable s ∧ ∃ a r, r ≠ [] ∧
      Unlocks sampleBrowser r a ∧ (viewStep sampleBrowser s a).pendingRequestId = some r) ∧
    ¬ ∀ s : Snapshot WholeFloat, (viewMachine sampleBrowser).Reachable s →
      ShownOnce sampleBrowser (fun _ _ => True) s := by
  have htwice : ∃ s : Snapshot WholeFloat, (viewMachine sampleBrowser).Reachable s ∧
      ∃ r, s.messages.any (answerOf r) = true ∧ s.messages.any (bubbleOf r) = true := by
    have hexec : (((viewMachine sampleBrowser).exec sampleView
        [sampleSend, sampleResponse, sampleAnswer]).any fun s =>
          s.messages.any (answerOf (py "text-1")) && s.messages.any (bubbleOf (py "text-1"))) =
        true := by decide +kernel
    obtain ⟨s, hs, hall⟩ := (Option.any_eq_true _ _).mp hexec
    exact ⟨s, Machine.reachable_exec ⟨rfl, rfl⟩ hs, py "text-1", by simpa using hall⟩
  refine ⟨htwice, ?_, ?_⟩
  · have hexec : (((viewMachine sampleBrowser).exec sampleView [sampleSend]).any fun s =>
        (viewStep sampleBrowser s sampleError).pendingRequestId = some (py "text-1")) =
        true := by decide +kernel
    obtain ⟨s, hs, hlocked⟩ := (Option.any_eq_true _ _).mp hexec
    have hunlocks : Unlocks sampleBrowser (py "text-1") sampleError := by
      unfold Unlocks sampleError samplePayload
      decide +kernel
    exact ⟨s, Machine.reachable_exec ⟨rfl, rfl⟩ hs, sampleError, py "text-1", by decide, hunlocks,
      of_decide_eq_true hlocked⟩
  · intro h
    obtain ⟨s, hr, r, hanswer, hbubble⟩ := htwice
    obtain ⟨answer, hin, hanswer⟩ := List.any_eq_true.mp hanswer
    obtain ⟨bubble, hin', hbubble⟩ := List.any_eq_true.mp hbubble
    rw [(h s hr).answered r answer hin hanswer bubble hin'] at hbubble
    cases hbubble

end QronosAgent.View

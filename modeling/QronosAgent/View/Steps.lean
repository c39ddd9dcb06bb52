import QronosAgent.View.Updates

/-! What a step keeps, and what canonical messages come to. -/
namespace QronosAgent.View
open Lib

section
variable {F : Type}

def Shown (s : Snapshot F) (c : Message F) : Prop :=
  s.messages.filter (fun m => m.canonical && m.id = c.id) = [c]

def Action.replaces : Action F → Bool
  | .event _ (.historySnapshot _) => true
  | _ => false

end

section
variable {F : Type} {browser : Browser F} {s : Snapshot F} {r : PyStr} {c m : Message F} {now : F}

theorem fallback_keeps {requestId responseText : PyStr} {isError cancelled : Bool}
    (hm : m ∈ s.messages) (hplain : m.pending = false) :
    m ∈ (replacePendingFallback requestId responseText isError cancelled s).messages := by
  unfold replacePendingFallback
  split
  · exact hm
  · exact List.mem_map.mpr ⟨m, hm, by simp [hplain]⟩

theorem applyUpdate_keeps {payload : QueuePayload} (hm : m ∈ s.messages)
    (hplain : m.pending = false ∧ m.queuePhase = none) :
    m ∈ (applyUpdate browser now s payload).messages := by
  have hnot : ∀ r, movable r m = false := by
    intro r
    simp [movable, hplain.1, hplain.2]
  have hmoved : ∀ b : Bubble, m ∈ s.messages.map fun x =>
      if movable payload.requestId x then b.on x else x := by
    intro b
    exact List.mem_map.mpr ⟨m, hm, by simp [hnot]⟩
  unfold applyUpdate
  simp only
  split
  · exact List.mem_filter.mpr ⟨hm, by simp [hnot]⟩
  · split
    · exact hmoved _
    · exact List.mem_append_left _ (hmoved _)

theorem textResult_keeps {error : Option PyStr} {ms : List (PyStr × Json F)} (hm : m ∈ s.messages)
    (hplain : m.pending = false) : m ∈ (applyTextResult browser error ms s).messages := by
  unfold applyTextResult
  simp only
  split
  · exact hm
  · split
    · exact fallback_keeps hm hplain
    · split
      · exact hm
      · exact fallback_keeps hm hplain

theorem Inv.shown (hs : Inv s) (hc : c ∈ s.messages) (hcanonical : c.canonical = true) :
    Shown s c := by
  have hids : ((s.messages.filter Message.canonical).map Message.id).Nodup := hs.tidy.ids
  have hin : c ∈ s.messages.filter Message.canonical := List.mem_filter.mpr ⟨hc, hcanonical⟩
  have hsplit : s.messages.filter (fun m => m.canonical && m.id = c.id) =
      (s.messages.filter Message.canonical).filter fun m => m.id = c.id := by
    rw [List.filter_filter]
    simp only [Bool.and_comm]
  rw [Shown, hsplit]
  generalize s.messages.filter Message.canonical = l at hids hin
  induction l with
  | nil => cases hin
  | cons x l ih =>
    rw [List.map_cons, List.nodup_cons] at hids
    rcases List.mem_cons.mp hin with rfl | hin
    · have hrest : l.filter (fun m => m.id = c.id) = [] := by
        rw [List.filter_eq_nil_iff]
        intro m hm hid
        exact hids.1 (List.mem_map.mpr ⟨m, hm, by simpa using hid⟩)
      rw [List.filter_cons_of_pos (by simp), hrest]
    · have hne : x.id ≠ c.id := by
        intro hid
        exact hids.1 (hid ▸ List.mem_map_of_mem hin)
      rw [List.filter_cons_of_neg (by simpa using hne)]
      exact ih hids.2 hin

theorem reading_keeps {P : Snapshot F → Prop} {payload : Option (Json F)}
    {f : List (PyStr × Json F) → Snapshot F} (hs : P s) (hempty : f [] = s)
    (hobj : ∀ ms, payload = some (.obj ms) → P (f ms)) :
    P (((payload.bind properties).map f).getD s) := by
  cases payload with
  | none => exact hs
  | some v =>
    cases v with
    | obj ms => exact hobj ms rfl
    | null => exact hs
    | bool | int | float | str | arr =>
      simp only [properties, Option.bind_some, Option.map_some, Option.getD_some, hempty]
      exact hs

theorem textResult_empty {error : Option PyStr} : applyTextResult browser error [] s = s := by
  simp [applyTextResult, prop, Json.member?, textOf]

theorem Inv.textResult {error : Option PyStr} {ms : List (PyStr × Json F)} (hs : Inv s) :
    Inv (applyTextResult browser error ms s) := by
  unfold applyTextResult
  simp only
  split
  · exact hs
  · split
    · exact hs.fallback
    · split
      · exact hs
      · exact hs.fallback

theorem Fits.merges (h : Fits s c) (hcanonical : c.canonical = true)
    (hplain : c.pending = false ∧ c.queuePhase = none) (hfresh : ∀ m ∈ s.messages, m.id ≠ c.id) :
    Merges s c := ⟨hcanonical, hplain, hfresh, h.2 hfresh⟩

end

section
variable {F : Type} [PyFloat F] {browser : Browser F} {s s' : Snapshot F} {r : PyStr}
  {c m : Message F} {now : F} {a : Action F}

/-! Events whose payload has no properties change nothing. -/

theorem queue_empty {payload : QueuePayload} (h : payload.requestId = []) :
    applyQueueConversationUpdates browser now [payload] s = s := by
  simp [applyQueueConversationUpdates, QueuePayload.tells, h]

theorem queueSnapshot_empty : applyQueueSnapshot browser now [] s = s := by
  simp [applyQueueSnapshot, applyQueueConversationUpdates, prop, Json.member?, arrayOf]

theorem history_empty : applyHistorySnapshot browser [] s = s := by
  simp [applyHistorySnapshot, prop, Json.member?]

theorem parse_empty : parseCanonicalMessage ([] : List (PyStr × Json F)) = none := by
  simp [parseCanonicalMessage, prop, Json.member?]

theorem Inv.merge (hs : Inv s) (hfits : Fits s c) (hcanonical : c.canonical = true)
    (hplain : c.pending = false ∧ c.queuePhase = none) :
    Inv (mergeCanonicalMessage browser c s) := by
  by_cases hseen : ∃ m ∈ s.messages, m.id = c.id
  · rw [mergeCanonicalMessage_seen hseen]
    exact hs
  · apply Merges.inv _ hs
    apply hfits.merges hcanonical hplain
    intro m hm hid
    exact hseen ⟨m, hm, hid⟩

theorem Inv.step (hs : Inv s) (hmeets : Meets browser s a) : Inv (viewStep browser s a) := by
  cases a with
  | send rawText stamp now => exact hs.send hmeets
  | sendFailed requestId errorText => exact hs.fallback
  | event now event =>
    cases event with
    | runtimeReady => exact hs
    | other => exact hs
    | historySnapshot payload =>
      apply reading_keeps hs history_empty
      rintro ms rfl
      exact hs.history hmeets
    | messageAdded payload =>
      apply reading_keeps hs
      · rw [parse_empty]
      · rintro ms rfl
        cases hparse : parseCanonicalMessage ms with
        | none => exact hs
        | some c =>
          obtain ⟨hcanonical, hplain⟩ := parse_canonical hparse
          exact hs.merge (hmeets c hparse) hcanonical hplain
    | queueChanged payload =>
      apply reading_keeps hs queueSnapshot_empty
      intro ms _
      exact hs.queue
    | queueConversationUpdate payload =>
      apply reading_keeps hs (queue_empty rfl)
      intro ms _
      exact hs.queue
    | textDeferred payload =>
      apply reading_keeps hs (queue_empty rfl)
      intro ms _
      exact hs.queue
    | textResponse payload =>
      apply reading_keeps hs textResult_empty
      intro ms _
      exact hs.textResult
    | textError status payload =>
      apply reading_keeps hs textResult_empty
      intro ms _
      exact hs.textResult

theorem inv_of_reach (hr : (viewMachine browser).Reach (Meets browser) s) : Inv s := by
  apply hr.invariant
  · rintro s₀ ⟨hmessages, hpending⟩
    constructor
    · rw [hmessages]
      exact Tidy.nil
    · simp [hmessages, hpending]
  · intro s₁ a s₂ h hmeets hs
    cases hs
    exact h.step hmeets

/-! Canonical messages stay under every step but a history snapshot. -/

theorem queue_keeps {payloads : List QueuePayload} (hm : m ∈ s.messages)
    (hplain : m.pending = false ∧ m.queuePhase = none) :
    m ∈ (applyQueueConversationUpdates browser now payloads s).messages := by
  unfold applyQueueConversationUpdates
  simp only
  split
  · exact hm
  · rw [mem_sortMessages]
    have hfold : ∀ (updates : List QueuePayload) (t : Snapshot F), m ∈ t.messages →
        m ∈ (updates.foldl (applyUpdate browser now) t).messages := by
      intro updates
      induction updates with
      | nil => exact fun t ht => ht
      | cons payload rest ih => exact fun t ht => ih _ (applyUpdate_keeps ht hplain)
    exact hfold _ s hm

theorem merge_keeps (hs : Inv s) (hfits : Fits s c) (hcanonical : c.canonical = true)
    (hplain : c.pending = false ∧ c.queuePhase = none) (hm : m ∈ s.messages)
    (hm' : m.canonical = true) : m ∈ (mergeCanonicalMessage browser c s).messages := by
  by_cases hseen : ∃ x ∈ s.messages, x.id = c.id
  · rw [mergeCanonicalMessage_seen hseen]
    exact hm
  · have hmerges : Merges s c := hfits.merges hcanonical hplain fun x hx hid => hseen ⟨x, hx, hid⟩
    rw [(hmerges.perm hs.tidy).mem_iff]
    apply List.mem_cons_of_mem
    rw [List.mem_filter]
    refine ⟨hm, ?_⟩
    by_contra hreplaced
    rw [hmerges.replaced hs.tidy hm (by simpa using hreplaced)] at hm'
    cases hm'

theorem Inv.step_keeps (hs : Inv s) (hmeets : Meets browser s a) (hreplaces : a.replaces = false)
    (hm : m ∈ s.messages) (hcanonical : m.canonical = true) :
    m ∈ (viewStep browser s a).messages := by
  have hplain := hs.tidy.plain m hm (.inl hcanonical)
  cases a with
  | send rawText stamp now =>
    simp only [viewStep, sendConversationMessage]
    split
    · exact hm
    · exact List.mem_append_left _ hm
  | sendFailed requestId errorText => exact fallback_keeps hm hplain.1
  | event now event =>
    cases event with
    | runtimeReady => exact hm
    | other => exact hm
    | historySnapshot payload => cases hreplaces
    | messageAdded payload =>
      apply reading_keeps (P := fun t => m ∈ t.messages) hm
      · rw [parse_empty]
      · rintro ms rfl
        cases hparse : parseCanonicalMessage ms with
        | none => exact hm
        | some c =>
          obtain ⟨hc, hplain'⟩ := parse_canonical hparse
          exact merge_keeps hs (hmeets c hparse) hc hplain' hm hcanonical
    | queueChanged payload =>
      apply reading_keeps (P := fun t => m ∈ t.messages) hm queueSnapshot_empty
      intro ms _
      exact queue_keeps hm hplain
    | queueConversationUpdate payload =>
      apply reading_keeps (P := fun t => m ∈ t.messages) hm (queue_empty rfl)
      intro ms _
      exact queue_keeps hm hplain
    | textDeferred payload =>
      apply reading_keeps (P := fun t => m ∈ t.messages) hm (queue_empty rfl)
      intro ms _
      exact queue_keeps hm hplain
    | textResponse payload =>
      apply reading_keeps (P := fun t => m ∈ t.messages) hm textResult_empty
      intro ms _
      exact textResult_keeps hm hplain.1
    | textError status payload =>
      apply reading_keeps (P := fun t => m ∈ t.messages) hm textResult_empty
      intro ms _
      exact textResult_keeps hm hplain.1

theorem Inv.exec_shown {as : List (Action F)} (hs : Inv s) (hc : c ∈ s.messages)
    (hcanonical : c.canonical = true)
    (hok : (viewMachine browser).allOk (fun s a => Meets browser s a ∧ a.replaces = false) s as)
    (he : (viewMachine browser).exec s as = some s') : Shown s' c := by
  induction as generalizing s with
  | nil =>
    cases he
    exact hs.shown hc hcanonical
  | cons a as ih =>
    exact ih (hs.step hok.1.1) (hs.step_keeps hok.1.1 hok.1.2 hc hcanonical) (hok.2 _ rfl) he

end
end QronosAgent.View

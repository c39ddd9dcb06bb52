import QronosAgent.View.Runs

/-! What fallbacks, queue updates, history snapshots and sends keep. -/
namespace QronosAgent.View
open Lib

section
variable {F : Type} {browser : Browser F} {s : Snapshot F} {r r' : PyStr} {m : Message F} {now : F}

variable {messages : List (Message F)} {requestId responseText : PyStr} {isError cancelled : Bool}
  {payload : QueuePayload} {b : Bubble}

theorem exists_waitsFor_map {f : Message F → Message F}
    (hother : ∀ x, x.requestId ≠ some r → f x = x) (hrequest : ∀ x, (f x).requestId = x.requestId)
    (hne : r' ≠ r) :
    (∃ x ∈ messages.map f, waitsFor r' x = true) ↔ ∃ x ∈ messages, waitsFor r' x = true := by
  have hstays : ∀ x, waitsFor r' (f x) = waitsFor r' x := by
    intro x
    by_cases hx : x.requestId = some r
    · have hx' : (f x).requestId = some r := (hrequest x).trans hx
      simp [waitsFor, hx, hx', hne.symm]
    · rw [hother x hx]
  constructor
  · rintro ⟨y, hy, hw⟩
    obtain ⟨x, hx, rfl⟩ := List.mem_map.mp hy
    exact ⟨x, hx, hstays x ▸ hw⟩
  · rintro ⟨x, hx, hw⟩
    exact ⟨f x, List.mem_map_of_mem hx, (hstays x).trans hw⟩

theorem Inv.fallback (hs : Inv s) :
    Inv (replacePendingFallback requestId responseText isError cancelled s) := by
  unfold replacePendingFallback
  split
  · exact hs
  · rename_i hpending
    have hpending : s.pendingRequestId = some requestId := not_not.mp hpending
    set next := s.messages.map fun m =>
      if m.requestId ≠ some requestId ∨ ¬ m.pending then m
      else { m with
        text := if isError then failedText responseText else responseText
        pending := false
        error := isError
        cancelled := cancelled }
    have hclear : Inv ⟨next, if s.pendingRequestId = some requestId then none
        else s.pendingRequestId⟩ := by
      apply hs.clear ?tidy ?none ?same
      case tidy =>
        apply hs.tidy.map
        · intro m _
          split <;> exact ⟨rfl, rfl, rfl, rfl⟩
        · intro m hm hkind
          simp [(hs.tidy.plain m hm hkind).1]
      case none =>
        intro y hy
        obtain ⟨x, -, rfl⟩ := List.mem_map.mp hy
        split
        · rename_i hx
          rcases hx with hx | hx
          · simp [waitsFor, hx]
          · simp [waitsFor, hx]
        · simp [waitsFor]
      case same =>
        intro r' hne
        apply exists_waitsFor_map _ _ hne
        · intro x hx
          rw [if_pos (.inl hx)]
        · intro x
          split <;> rfl
    rw [if_pos hpending] at hclear
    exact hclear

theorem fallback_pending :
    (replacePendingFallback requestId responseText isError cancelled s).pendingRequestId ≠
      some requestId := by
  unfold replacePendingFallback
  split
  · assumption
  · simp

theorem queueBubbleFor_managed (h : queueBubbleFor browser payload = some b)
    (hpending : b.pending = true) :
    b.queuePhase.isSome = true := by
  unfold queueBubbleFor at h
  simp only at h
  split at h
  · cases h
    rfl
  · split at h
    · cases h
      cases hpending
    · split at h
      · cases h
        cases hpending
      · split at h
        · cases h
          cases hpending
        · split at h
          · cases h
            cases hpending
          · cases h

theorem Bubble.on_fields (b : Bubble) (m : Message F) :
    (b.on m).id = m.id ∧ (b.on m).role = m.role ∧ (b.on m).requestId = m.requestId ∧
      (b.on m).canonical = m.canonical := ⟨rfl, rfl, rfl, rfl⟩

theorem Bubble.on_waits (hb : b.pending = true → b.queuePhase.isSome = true) :
    waitsFor r (b.on m) = false := by
  cases hp : b.pending with
  | false => simp [waitsFor, Bubble.on, hp]
  | true =>
    obtain ⟨phase, hphase⟩ := Option.isSome_iff_exists.mp (hb hp)
    simp [waitsFor, Bubble.on, hphase]

/-- The messages after an update, before it places a bubble. -/
theorem Tidy.moved (h : Tidy messages) :
    Tidy (messages.map fun m => if movable r m then b.on m else m) := by
  apply h.map
  · intro m _
    split
    · exact b.on_fields m
    · exact ⟨rfl, rfl, rfl, rfl⟩
  · intro m hm hkind
    have hplain := h.plain m hm hkind
    simp [movable, hplain.1, hplain.2]

theorem Tidy.movable_of_waitsFor (h : Tidy messages) (hm : m ∈ messages)
    (hw : waitsFor r m = true) : movable r m = true := by
  have hbubble := h.bubbleOf_of_waitsFor hm hw
  simp only [bubbleOf, waitsFor, Bool.and_eq_true, decide_eq_true_eq] at hbubble hw
  simp [movable, hbubble.1.1, hbubble.1.2, hw.1.2]

theorem movable_request (h : movable r m = true) : m.requestId = some r := by
  simp only [movable, Bool.and_eq_true, decide_eq_true_eq] at h
  exact h.1.1

theorem Tidy.moved_waitsFor (h : Tidy messages)
    (hb : b.pending = true → b.queuePhase.isSome = true) :
    ∀ m ∈ messages.map fun m => if movable r m then b.on m else m, waitsFor r m = false := by
  intro y hy
  obtain ⟨x, hx, rfl⟩ := List.mem_map.mp hy
  by_cases hmove : movable r x = true
  · rw [if_pos hmove]
    exact Bubble.on_waits hb
  · rw [if_neg hmove]
    by_contra hw
    exact hmove (h.movable_of_waitsFor hx (by simpa using hw))

theorem exists_waitsFor_moved (hne : r' ≠ r) :
    (∃ x ∈ messages.map fun m => if movable r m then b.on m else m, waitsFor r' x = true) ↔
      ∃ x ∈ messages, waitsFor r' x = true := by
  apply exists_waitsFor_map _ _ hne
  · intro x hx
    rw [if_neg]
    exact fun hmove => hx (movable_request hmove)
  · intro x
    split <;> rfl

theorem moved_none (hmove : messages.any (movable r) = false)
    (hsettled : (messages.map fun m => if movable r m then b.on m else m).any
      (settledFor r) = false) :
    ∀ x ∈ messages.map fun m => if movable r m then b.on m else m,
      x.role = .qronos → x.requestId ≠ some r := by
  rw [List.any_eq_false] at hmove hsettled
  intro y hy hrole hrequest
  have hstays := hsettled y hy
  obtain ⟨x, hx, rfl⟩ := List.mem_map.mp hy
  have hnot := hmove x hx
  rw [if_neg hnot] at hrole hrequest hstays
  simp only [movable, settledFor, hrole, hrequest, decide_true, Bool.true_and, Bool.and_eq_true,
    Bool.or_eq_true, Bool.not_eq_true', Option.isNone_iff_eq_none] at hnot hstays
  apply hstays
  constructor
  · cases hp : x.pending with
    | false => rfl
    | true => exact absurd (.inl hp) hnot
  · cases hq : x.queuePhase with
    | none => rfl
    | some _ => exact absurd (.inr (by rw [hq]; rfl)) hnot

theorem Inv.applyUpdate (hs : Inv s) :
    Inv (applyUpdate browser now s payload) := by
  unfold View.applyUpdate
  simp only
  split
  · apply hs.clear
    · exact hs.tidy.sublist List.filter_sublist
    · intro m hm
      obtain ⟨hm, hkept⟩ := List.mem_filter.mp hm
      by_contra hw
      rw [hs.tidy.movable_of_waitsFor hm (by simpa using hw)] at hkept
      cases hkept
    · intro r' hne
      constructor
      · rintro ⟨m, hm, hw⟩
        exact ⟨m, List.mem_of_mem_filter hm, hw⟩
      · rintro ⟨m, hm, hw⟩
        refine ⟨m, List.mem_filter.mpr ⟨hm, ?_⟩, hw⟩
        by_contra hmove
        have hrequest := movable_request (r := payload.requestId) (m := m) (by simpa using hmove)
        simp only [waitsFor, hrequest, Bool.and_eq_true, decide_eq_true_eq, Option.some.injEq] at hw
        exact hne hw.1.1.symm
  · rename_i b hb
    have hmanaged := queueBubbleFor_managed hb
    have hmoved := hs.tidy.moved (r := payload.requestId) (b := b)
    have hwaits := hs.tidy.moved_waitsFor (r := payload.requestId) hmanaged
    split
    · exact hs.clear hmoved hwaits fun r' hne => exists_waitsFor_moved hne
    · rename_i hplaces
      simp only [Bool.or_eq_true, not_or, Bool.not_eq_true] at hplaces
      obtain ⟨⟨hmove, hsettled⟩, -⟩ := hplaces
      set moved := s.messages.map fun m => if movable payload.requestId m then b.on m else m
      have hbubble : ∀ r', waitsFor r' (placed browser now payload.requestId b moved) = false :=
        fun r' => Bubble.on_waits hmanaged
      apply hs.clear
      · apply Tidy.perm _ List.perm_append_comm
        apply hmoved.cons_bubble rfl rfl rfl
        exact moved_none hmove hsettled
      · intro m hm
        rcases List.mem_append.mp hm with hm | hm
        · exact hwaits m hm
        · rw [List.mem_singleton.mp hm]
          exact hbubble _
      · intro r' hne
        have hsame : (∃ m ∈ moved, waitsFor r' m = true) ↔ ∃ m ∈ s.messages, waitsFor r' m = true :=
          exists_waitsFor_moved hne
        rw [← hsame]
        constructor
        · rintro ⟨m, hm, hw⟩
          rcases List.mem_append.mp hm with hm | hm
          · exact ⟨m, hm, hw⟩
          · rw [List.mem_singleton.mp hm, hbubble] at hw
            cases hw
        · rintro ⟨m, hm, hw⟩
          exact ⟨m, List.mem_append_left _ hm, hw⟩

theorem Inv.applyUpdates {updates : List QueuePayload} (hs : Inv s) :
    Inv (updates.foldl (View.applyUpdate browser now) s) := by
  induction updates generalizing s with
  | nil => exact hs
  | cons payload rest ih => exact ih hs.applyUpdate

theorem keptBubble_plain {history : List (Message F)} (h : keptBubble history m = true) :
    m.role = .qronos ∧ m.queuePhase.isSome = true ∧
      ∀ a ∈ history, a.role = .qronos → a.requestId ≠ m.requestId := by
  simp only [keptBubble, Bool.and_eq_true, decide_eq_true_eq, Bool.not_eq_true',
    List.any_eq_false, not_and] at h
  exact ⟨h.1.1.1, h.1.1.2, h.2⟩

theorem Tidy.history {history : List (Message F)} (h : Tidy messages)
    (hcanonical : ∀ m ∈ history, m.canonical = true ∧ m.pending = false ∧ m.queuePhase = none)
    (hdistinct : Distinct history) :
    Tidy (history ++ messages.filter (keptBubble history)) := by
  have hkept : Tidy (messages.filter (keptBubble history)) := h.sublist List.filter_sublist
  have hbubble : ∀ m ∈ messages.filter (keptBubble history), m.role = .qronos ∧
      m.canonical = false := by
    intro m hm
    obtain ⟨hm, hk⟩ := List.mem_filter.mp hm
    obtain ⟨hrole, hphase, -⟩ := keptBubble_plain hk
    refine ⟨hrole, ?_⟩
    by_contra hc
    rw [(h.plain m hm (.inl (by simpa using hc))).2] at hphase
    cases hphase
  have hnoBubble : ∀ r, history.countP (bubbleOf r) = 0 := by
    intro r
    apply countP_zero
    intro m hm
    simp [bubbleOf, (hcanonical m hm).1]
  constructor
  case plain =>
    intro m hm hkind
    rcases List.mem_append.mp hm with hm | hm
    · exact (hcanonical m hm).2
    · exact hkept.plain m hm hkind
  case owned =>
    intro m hm hnot
    rcases List.mem_append.mp hm with hm | hm
    · rw [(hcanonical m hm).1] at hnot
      cases hnot
    · exact hkept.owned m hm hnot
  case ids =>
    have hhistory : history.filter Message.canonical = history :=
      List.filter_eq_self.mpr fun m hm => (hcanonical m hm).1
    have hrest : (messages.filter (keptBubble history)).filter Message.canonical = [] := by
      rw [List.filter_eq_nil_iff]
      intro m hm
      simp [(hbubble m hm).2]
    rw [canonicalIds, List.filter_append, hhistory, hrest, List.append_nil]
    exact hdistinct.1
  case oneUser =>
    intro r
    have hzero : (messages.filter (keptBubble history)).countP (userOf r) = 0 :=
      countP_zero fun m hm => by simp [userOf, (hbubble m hm).1]
    rw [List.countP_append, hzero]
    exact hdistinct.2 r
  case oneBubble =>
    intro r
    rw [List.countP_append, hnoBubble r, Nat.zero_add]
    exact hkept.oneBubble r
  case answered =>
    intro r a ha hanswer
    simp only [answerOf, Bool.and_eq_true, decide_eq_true_eq] at hanswer
    rw [List.countP_append, hnoBubble r, Nat.zero_add]
    apply countP_zero
    intro m hm
    have hin := (List.mem_filter.mp hm).2
    rcases List.mem_append.mp ha with ha | ha
    · have hother := (keptBubble_plain hin).2.2 a ha hanswer.1.1
      rw [hanswer.1.2] at hother
      simp [bubbleOf, Ne.symm hother]
    · rw [(hbubble a ha).2] at hanswer
      cases hanswer.2

theorem Inv.send {rawText : PyStr} (hs : Inv s)
    (hfresh : ∀ m ∈ s.messages, m.requestId ≠ some requestId) :
    Inv (sendConversationMessage browser rawText requestId now s) := by
  unfold sendConversationMessage
  split
  · exact hs
  · rename_i hidle
    have hnone : s.pendingRequestId = none := by
      rw [not_or, Bool.not_eq_true, Option.isSome_eq_false_iff, Option.isNone_iff_eq_none] at hidle
      exact hidle.2
    have hnoWait : ∀ r, ∀ m ∈ s.messages, waitsFor r m = false := by
      intro r m hm
      by_contra hw
      have hpending := (hs.pending r).mpr ⟨m, hm, by simpa using hw⟩
      rw [hnone] at hpending
      cases hpending
    unfold optimistic
    set user : Message F := ⟨py "optimistic-user-" ++ requestId, .user, trim rawText,
      some (py "text"), now, some requestId, false, false, false, none, none, false⟩
    set bubble : Message F := ⟨py "pending-" ++ requestId, .qronos, thinkingText,
      some (py "text"), browser.next now, some requestId, true, false, false, none, none, false⟩
    constructor
    · have huser : Tidy (user :: s.messages) := hs.tidy.cons_user rfl rfl rfl ⟨rfl, rfl⟩ hfresh
      have hboth : Tidy (bubble :: user :: s.messages) := by
        apply huser.cons_bubble rfl rfl rfl
        intro x hx hrole
        rcases List.mem_cons.mp hx with rfl | hx
        · cases hrole
        · exact hfresh x hx
      have hmoved : (s.messages ++ [user, bubble]).Perm ([user, bubble] ++ s.messages) :=
        List.perm_append_comm
      exact hboth.perm (hmoved.trans (List.Perm.swap bubble user s.messages))
    · intro r
      have hwaits : (∃ m ∈ s.messages ++ [user, bubble], waitsFor r m = true) ↔
          waitsFor r bubble = true := by
        constructor
        · rintro ⟨m, hm, hw⟩
          rcases List.mem_append.mp hm with hm | hm
          · rw [hnoWait r m hm] at hw
            cases hw
          · rcases List.mem_cons.mp hm with rfl | hm
            · simp [waitsFor, user] at hw
            · exact List.mem_singleton.mp hm ▸ hw
        · intro hw
          exact ⟨bubble, by simp, hw⟩
      rw [hwaits]
      simp [waitsFor, bubble]

end

section
variable {F : Type} [PyFloat F] {browser : Browser F} {s : Snapshot F} {now : F}

theorem Inv.queue {payloads : List QueuePayload} (hs : Inv s) :
    Inv (applyQueueConversationUpdates browser now payloads s) := by
  unfold applyQueueConversationUpdates
  simp only
  split
  · exact hs
  · have hfold : Inv ((payloads.filter (QueuePayload.tells browser)).foldl
        (View.applyUpdate browser now) s) := hs.applyUpdates
    constructor
    · exact hfold.tidy.perm (sortMessages_perm _)
    · intro r
      simp only [mem_sortMessages]
      exact hfold.pending r

theorem historyMessages_canonical {items : List (Json F)} :
    ∀ m ∈ historyMessages items,
      m.canonical = true ∧ m.pending = false ∧ m.queuePhase = none := by
  intro m hm
  obtain ⟨item, -, hparse⟩ := List.mem_filterMap.mp hm
  exact parse_canonical hparse

theorem Inv.history {ms : List (PyStr × Json F)} (hs : Inv s)
    (hdistinct : ∀ items, prop ms "messages" = some (.arr items) →
      Distinct (historyMessages items)) :
    Inv (applyHistorySnapshot browser ms s) := by
  unfold applyHistorySnapshot
  split
  · exact hs
  · split
    · rename_i items hitems
      constructor
      · apply Tidy.perm _ (sortMessages_perm _)
        exact hs.tidy.history historyMessages_canonical (hdistinct items hitems)
      · intro r
        simp only [mem_sortMessages]
        constructor
        · intro h
          cases h
        · rintro ⟨m, hm, hw⟩
          simp only [waitsFor, Bool.and_eq_true] at hw
          rcases List.mem_append.mp hm with hm | hm
          · rw [(historyMessages_canonical m hm).2.1] at hw
            cases hw.1.2
          · have hphase := (keptBubble_plain (List.mem_filter.mp hm).2).2.1
            rw [Option.isSome_iff_ne_none] at hphase
            exact absurd (Option.isNone_iff_eq_none.mp hw.2) hphase
    · exact hs

end
end QronosAgent.View

import QronosAgent.Lib.Machine
import QronosAgent.View.Store

/-! A list of messages in which each request has one place, and what the store does to such a
list. -/
namespace QronosAgent.View
open Lib

section
variable {α : Type*}

/-- Where one element at most is replaced, the new one stands for it, or at the end. -/
theorem replace_perm {p : α → Bool} {c : α} {l : List α} (h : l.countP p ≤ 1) :
    (if l.any p then l.map fun a => if p a then c else a
      else (l.map fun a => if p a then c else a) ++ [c]).Perm (c :: l.filter fun a => !p a) := by
  have hnone : ∀ {l : List α}, l.any p = false → (l.map fun a => if p a then c else a) = l ∧
      (l.filter fun a => !p a) = l := by
    intro l hl
    rw [List.any_eq_false] at hl
    constructor
    · calc (l.map fun a => if p a then c else a) = l.map id :=
            List.map_congr_left fun a ha => if_neg (hl a ha)
        _ = l := List.map_id l
    · rw [List.filter_eq_self]
      intro a ha
      simp [hl a ha]
  induction l with
  | nil => simp
  | cons a l ih =>
    by_cases ha : p a = true
    · have hrest : l.any p = false := by
        rw [List.countP_cons_of_pos ha] at h
        have hzero : l.countP p = 0 := by omega
        rw [List.countP_eq_zero] at hzero
        rw [List.any_eq_false]
        exact hzero
      obtain ⟨hmap, hfilter⟩ := hnone hrest
      simp [ha, hmap, hfilter]
    · rw [List.countP_cons_of_neg ha] at h
      have hrest := ih h
      have hcons : (c :: (a :: l).filter fun a => !p a).Perm (a :: c :: l.filter fun a => !p a) := by
        simp only [ha, Bool.not_false, List.filter_cons_of_pos]
        exact List.Perm.swap a c _
      refine List.Perm.trans ?_ hcons.symm
      simp only [List.any_cons, ha, Bool.false_or, List.map_cons, Bool.false_eq_true, if_false]
      split
      · rename_i hany
        rw [if_pos hany] at hrest
        exact hrest.cons a
      · rename_i hany
        rw [if_neg hany] at hrest
        exact hrest.cons a

end

section
variable {F : Type}

def userOf (r : PyStr) (m : Message F) : Bool := m.role = .user && m.requestId = some r

def bubbleOf (r : PyStr) (m : Message F) : Bool :=
  m.role = .qronos && m.requestId = some r && !m.canonical

def answerOf (r : PyStr) (m : Message F) : Bool :=
  m.role = .qronos && m.requestId = some r && m.canonical

/-- A pending message of this request that the queue does not manage. -/
def waitsFor (r : PyStr) (m : Message F) : Bool :=
  m.requestId = some r && m.pending && m.queuePhase.isNone

def canonicalIds (messages : List (Message F)) : List PyStr :=
  (messages.filter Message.canonical).map Message.id

structure Tidy (messages : List (Message F)) : Prop where
  plain : ∀ m ∈ messages, m.canonical = true ∨ m.role = .user →
    m.pending = false ∧ m.queuePhase = none
  owned : ∀ m ∈ messages, m.canonical = false → m.requestId.isSome = true
  ids : (canonicalIds messages).Nodup
  oneUser : ∀ r, messages.countP (userOf r) ≤ 1
  oneBubble : ∀ r, messages.countP (bubbleOf r) ≤ 1
  answered : ∀ r, ∀ a ∈ messages, answerOf r a = true → messages.countP (bubbleOf r) = 0

variable {messages rest : List (Message F)} {c m : Message F} {r : PyStr}

theorem Tidy.nil : Tidy ([] : List (Message F)) where
  plain := by simp
  owned := by simp
  ids := by simp [canonicalIds]
  oneUser := by simp
  oneBubble := by simp
  answered := by simp

theorem Tidy.perm (h : Tidy messages) (hp : rest.Perm messages) : Tidy rest where
  plain := fun m hm => h.plain m (hp.mem_iff.mp hm)
  owned := fun m hm => h.owned m (hp.mem_iff.mp hm)
  ids := (((hp.filter _).map _).nodup_iff).mpr h.ids
  oneUser := fun r => (hp.countP_eq _).trans_le (h.oneUser r)
  oneBubble := fun r => (hp.countP_eq _).trans_le (h.oneBubble r)
  answered := fun r a ha hanswer =>
    (hp.countP_eq _).trans (h.answered r a (hp.mem_iff.mp ha) hanswer)

theorem Tidy.sublist (h : Tidy messages) (hs : rest.Sublist messages) : Tidy rest where
  plain := fun m hm => h.plain m (hs.subset hm)
  owned := fun m hm => h.owned m (hs.subset hm)
  ids := h.ids.sublist ((hs.filter _).map _)
  oneUser := fun r => (hs.countP_le).trans (h.oneUser r)
  oneBubble := fun r => (hs.countP_le).trans (h.oneBubble r)
  answered := by
    intro r a ha hanswer
    have hzero := h.answered r a (hs.subset ha) hanswer
    have hle : rest.countP (bubbleOf r) ≤ messages.countP (bubbleOf r) := hs.countP_le
    omega

theorem countP_zero {p : Message F → Bool} (h : ∀ m ∈ rest, p m = false) : rest.countP p = 0 := by
  rw [List.countP_eq_zero]
  intro m hm
  simp [h m hm]

/-- A canonical message comes to messages that hold no other one of it. -/
theorem Tidy.cons_canonical (h : Tidy rest) (hcanonical : c.canonical = true)
    (hplain : c.pending = false ∧ c.queuePhase = none) (hid : c.id ∉ canonicalIds rest)
    (huser : ∀ r, userOf r c = true → ∀ m ∈ rest, userOf r m = false)
    (hanswer : ∀ r, answerOf r c = true → ∀ m ∈ rest, bubbleOf r m = false) :
    Tidy (c :: rest) := by
  have hnoBubble : ∀ r, bubbleOf r c = false := by
    intro r
    simp [bubbleOf, hcanonical]
  constructor
  case plain =>
    intro m hm hkind
    rcases List.mem_cons.mp hm with rfl | hm
    · exact hplain
    · exact h.plain m hm hkind
  case owned =>
    intro m hm hnot
    rcases List.mem_cons.mp hm with rfl | hm
    · rw [hcanonical] at hnot
      cases hnot
    · exact h.owned m hm hnot
  case ids =>
    have hsplit : canonicalIds (c :: rest) = c.id :: canonicalIds rest := by
      simp [canonicalIds, hcanonical]
    rw [hsplit]
    exact List.nodup_cons.mpr ⟨hid, h.ids⟩
  case oneUser =>
    intro r
    rw [List.countP_cons]
    by_cases hc : userOf r c = true
    · rw [countP_zero (huser r hc), if_pos hc]
    · rw [if_neg hc]
      exact h.oneUser r
  case oneBubble =>
    intro r
    rw [List.countP_cons, hnoBubble r]
    exact h.oneBubble r
  case answered =>
    intro r a ha hr
    rw [List.countP_cons, hnoBubble r]
    rcases List.mem_cons.mp ha with rfl | ha
    · simp [countP_zero (hanswer r hr)]
    · simpa using h.answered r a ha hr

theorem Tidy.cons_bubble (h : Tidy rest) (hrole : m.role = .qronos) (hrequest : m.requestId = some r)
    (hcanonical : m.canonical = false)
    (hnone : ∀ x ∈ rest, x.role = .qronos → x.requestId ≠ some r) : Tidy (m :: rest) := by
  have huser : ∀ r', userOf r' m = false := by
    intro r'
    simp [userOf, hrole]
  have hanswer : ∀ r', answerOf r' m = false := by
    intro r'
    simp [answerOf, hcanonical]
  have hbubble : ∀ r', bubbleOf r' m = true → r' = r := by
    intro r' hb
    simp only [bubbleOf, hrequest, Bool.and_eq_true, decide_eq_true_eq, Option.some.injEq] at hb
    exact hb.1.2.symm
  have hfree : ∀ x ∈ rest, bubbleOf r x = false := by
    intro x hx
    by_cases hx' : x.role = .qronos
    · simp [bubbleOf, hnone x hx hx']
    · simp [bubbleOf, hx']
  constructor
  case plain =>
    intro x hx hkind
    rcases List.mem_cons.mp hx with rfl | hx
    · rw [hcanonical, hrole] at hkind
      simp at hkind
    · exact h.plain x hx hkind
  case owned =>
    intro x hx hnot
    rcases List.mem_cons.mp hx with rfl | hx
    · simp [hrequest]
    · exact h.owned x hx hnot
  case ids =>
    have hsame : canonicalIds (m :: rest) = canonicalIds rest := by
      simp [canonicalIds, hcanonical]
    rw [hsame]
    exact h.ids
  case oneUser =>
    intro r'
    rw [List.countP_cons, huser r']
    exact h.oneUser r'
  case oneBubble =>
    intro r'
    rw [List.countP_cons]
    by_cases hm : bubbleOf r' m = true
    · obtain rfl := hbubble r' hm
      rw [countP_zero hfree, if_pos hm]
    · rw [if_neg hm]
      exact h.oneBubble r'
  case answered =>
    intro r' a ha hr
    rcases List.mem_cons.mp ha with rfl | ha
    · rw [hanswer r'] at hr
      cases hr
    · rw [List.countP_cons, h.answered r' a ha hr]
      have hne : bubbleOf r' m = false := by
        by_contra hm
        obtain rfl := hbubble r' (by simpa using hm)
        simp only [answerOf, Bool.and_eq_true, decide_eq_true_eq] at hr
        exact hnone a ha hr.1.1 hr.1.2
      simp [hne]

theorem Tidy.cons_user (h : Tidy rest) (hrole : m.role = .user) (hrequest : m.requestId = some r)
    (hcanonical : m.canonical = false) (hplain : m.pending = false ∧ m.queuePhase = none)
    (hnone : ∀ x ∈ rest, x.requestId ≠ some r) : Tidy (m :: rest) := by
  have hbubble : ∀ r', bubbleOf r' m = false := by
    intro r'
    simp [bubbleOf, hrole]
  have hanswer : ∀ r', answerOf r' m = false := by
    intro r'
    simp [answerOf, hcanonical]
  constructor
  case plain =>
    intro x hx hkind
    rcases List.mem_cons.mp hx with rfl | hx
    · exact hplain
    · exact h.plain x hx hkind
  case owned =>
    intro x hx hnot
    rcases List.mem_cons.mp hx with rfl | hx
    · simp [hrequest]
    · exact h.owned x hx hnot
  case ids =>
    have hsame : canonicalIds (m :: rest) = canonicalIds rest := by
      simp [canonicalIds, hcanonical]
    rw [hsame]
    exact h.ids
  case oneUser =>
    intro r'
    rw [List.countP_cons]
    by_cases hm : userOf r' m = true
    · simp only [userOf, hrequest, Bool.and_eq_true, decide_eq_true_eq, Option.some.injEq] at hm
      obtain rfl := hm.2
      rw [countP_zero fun x hx => by simp [userOf, hnone x hx]]
      split <;> simp
    · rw [if_neg hm]
      exact h.oneUser r'
  case oneBubble =>
    intro r'
    rw [List.countP_cons, hbubble r']
    exact h.oneBubble r'
  case answered =>
    intro r' a ha hr
    rcases List.mem_cons.mp ha with rfl | ha
    · rw [hanswer r'] at hr
      cases hr
    · rw [List.countP_cons, hbubble r', h.answered r' a ha hr]
      rfl

/-- Bubbles change, but not whose they are. -/
theorem Tidy.map {f : Message F → Message F} (h : Tidy messages)
    (hf : ∀ m ∈ messages, (f m).id = m.id ∧ (f m).role = m.role ∧ (f m).requestId = m.requestId ∧
      (f m).canonical = m.canonical)
    (hkeep : ∀ m ∈ messages, m.canonical = true ∨ m.role = .user → f m = m) :
    Tidy (messages.map f) := by
  have hcount : ∀ (p : Message F → Bool), (∀ m ∈ messages, p (f m) = p m) →
      (messages.map f).countP p = messages.countP p := by
    intro p hp
    rw [List.countP_map]
    apply List.countP_congr
    intro m hm
    simp [hp m hm]
  have huser : ∀ r, ∀ m ∈ messages, userOf r (f m) = userOf r m := by
    intro r m hm
    obtain ⟨-, hrole, hrequest, -⟩ := hf m hm
    simp [userOf, hrole, hrequest]
  have hbubble : ∀ r, ∀ m ∈ messages, bubbleOf r (f m) = bubbleOf r m := by
    intro r m hm
    obtain ⟨-, hrole, hrequest, hcanonical⟩ := hf m hm
    simp [bubbleOf, hrole, hrequest, hcanonical]
  constructor
  case plain =>
    intro x hx hkind
    obtain ⟨m, hm, rfl⟩ := List.mem_map.mp hx
    obtain ⟨-, hrole, -, hcanonical⟩ := hf m hm
    rw [hcanonical, hrole] at hkind
    rw [hkeep m hm hkind]
    exact h.plain m hm hkind
  case owned =>
    intro x hx hnot
    obtain ⟨m, hm, rfl⟩ := List.mem_map.mp hx
    obtain ⟨-, -, hrequest, hcanonical⟩ := hf m hm
    rw [hrequest]
    exact h.owned m hm (hcanonical ▸ hnot)
  case ids =>
    have hsame : canonicalIds (messages.map f) = canonicalIds messages := by
      unfold canonicalIds
      rw [List.filter_map, List.map_map]
      have hfilter : messages.filter (Message.canonical ∘ f) = messages.filter Message.canonical :=
        List.filter_congr fun m hm => (hf m hm).2.2.2
      rw [hfilter]
      apply List.map_congr_left
      intro m hm
      exact (hf m (List.mem_of_mem_filter hm)).1
    rw [hsame]
    exact h.ids
  case oneUser =>
    intro r
    rw [hcount _ (huser r)]
    exact h.oneUser r
  case oneBubble =>
    intro r
    rw [hcount _ (hbubble r)]
    exact h.oneBubble r
  case answered =>
    intro r a ha hr
    obtain ⟨m, hm, rfl⟩ := List.mem_map.mp ha
    obtain ⟨-, hrole, hrequest, hcanonical⟩ := hf m hm
    rw [hcount _ (hbubble r)]
    apply h.answered r m hm
    simpa [answerOf, hrole, hrequest, hcanonical] using hr

end

/-! The view under any order of sends and runtime events. -/

section
variable {F : Type}

inductive Action (F : Type) where
  /-- `stamp` is what the send makes of the time and of `Math.random`. -/
  | send (rawText stamp : PyStr) (now : F)
  | sendFailed (requestId errorText : PyStr)
  | event (now : F) (event : RuntimeEvent F)

def sentId (stamp : PyStr) : PyStr := py "text-" ++ stamp

def Fits (s : Snapshot F) (c : Message F) : Prop :=
  (∀ m ∈ s.messages, m.id = c.id →
    m.canonical = true ∧ m.role = c.role ∧ m.requestId = c.requestId) ∧
  ((∀ m ∈ s.messages, m.id ≠ c.id) → ∀ r, c.requestId = some r → ∀ m ∈ s.messages,
    (c.role = .user → userOf r m = true → m.canonical = false) ∧
    (c.role = .qronos → bubbleOf r m = true → m.pending = true))

variable [PyFloat F] (browser : Browser F)

def Distinct (history : List (Message F)) : Prop :=
  (history.map Message.id).Nodup ∧ ∀ r, history.countP (userOf r) ≤ 1

/-- The condition on a step. -/
def Meets (s : Snapshot F) : Action F → Prop
  | .send _ stamp _ => ∀ m ∈ s.messages, m.requestId ≠ some (sentId stamp)
  | .event _ (.messageAdded (some (.obj ms))) => ∀ c, parseCanonicalMessage ms = some c → Fits s c
  | .event _ (.historySnapshot (some (.obj ms))) => ∀ items, prop ms "messages" = some (.arr items) →
      Distinct (historyMessages items)
  | .event _ (.textError status (some (.obj ms))) =>
      isCancellation status ms = true ∨ responseTextOf browser true ms ≠ []
  | _ => True

def viewStep (s : Snapshot F) : Action F → Snapshot F
  | .send rawText stamp now => sendConversationMessage browser rawText (sentId stamp) now s
  | .sendFailed requestId errorText => sendFailed browser requestId errorText s
  | .event now event => handleRuntimeEvent browser now event s

def viewMachine : Machine (Snapshot F) (Action F) where
  start s := s.messages = [] ∧ s.pendingRequestId = none
  step s a := some (viewStep browser s a)

/-- The messages are tidy, and the composer waits for the one pending bubble that the queue does not
manage. -/
structure Inv (s : Snapshot F) : Prop where
  tidy : Tidy s.messages
  pending : ∀ r, s.pendingRequestId = some r ↔ ∃ m ∈ s.messages, waitsFor r m = true

end

section
variable {F : Type} {s : Snapshot F} {r : PyStr} {c m : Message F}

theorem Tidy.bubbleOf_of_waitsFor {messages : List (Message F)} (h : Tidy messages)
    (hm : m ∈ messages) (hw : waitsFor r m = true) : bubbleOf r m = true := by
  simp only [waitsFor, Bool.and_eq_true, decide_eq_true_eq] at hw
  obtain ⟨⟨hrequest, hpending⟩, -⟩ := hw
  have hplain := h.plain m hm
  rw [hpending] at hplain
  have hcanonical : m.canonical = false := by
    by_contra hc
    exact Bool.noConfusion (hplain (.inl (by simpa using hc))).1
  have hrole : m.role = .qronos := by
    cases hr : m.role with
    | user => exact Bool.noConfusion (hplain (.inr hr)).1
    | qronos => rfl
  simp [bubbleOf, hrequest, hcanonical, hrole]

theorem Inv.clear {next : List (Message F)} (hs : Inv s) (ht : Tidy next)
    (hnone : ∀ m ∈ next, waitsFor r m = false)
    (hsame : ∀ r', r' ≠ r → ((∃ m ∈ next, waitsFor r' m = true) ↔
      ∃ m ∈ s.messages, waitsFor r' m = true)) :
    Inv ⟨next, if s.pendingRequestId = some r then none else s.pendingRequestId⟩ := by
  refine ⟨ht, fun r' => ?_⟩
  simp only
  by_cases hr : r' = r
  · subst hr
    constructor
    · intro hpending
      split at hpending
      · cases hpending
      · contradiction
    · rintro ⟨m, hm, hw⟩
      rw [hnone m hm] at hw
      cases hw
  · rw [hsame r' hr, ← hs.pending r']
    constructor
    · intro hpending
      split at hpending
      · cases hpending
      · exact hpending
    · intro hpending
      rw [if_neg, hpending]
      rw [hpending, Option.some.injEq]
      exact hr

structure Merges (s : Snapshot F) (c : Message F) : Prop where
  canonical : c.canonical = true
  plain : c.pending = false ∧ c.queuePhase = none
  fresh : ∀ m ∈ s.messages, m.id ≠ c.id
  replaces : ∀ r, c.requestId = some r → ∀ m ∈ s.messages,
    (c.role = .user → userOf r m = true → m.canonical = false) ∧
    (c.role = .qronos → bubbleOf r m = true → m.pending = true)

/-- A message that a canonical one takes the place of is not canonical. -/
theorem Merges.replaced (h : Merges s c) (ht : Tidy s.messages) (hm : m ∈ s.messages)
    (hr : replacedBy c m = true) : m.canonical = false := by
  simp only [replacedBy, Bool.and_eq_true, decide_eq_true_eq, Bool.or_eq_true] at hr
  obtain ⟨⟨⟨hsome, hrequest⟩, hrole⟩, hkind⟩ := hr
  obtain ⟨r, hc⟩ := Option.isSome_iff_exists.mp hsome
  rcases hkind with huser | hpending
  · apply (h.replaces r hc m hm).1 huser
    simp [userOf, hrole, huser, hrequest, hc]
  · by_contra hcanonical
    have hplain := (ht.plain m hm (.inl (by simpa using hcanonical))).1
    rw [hplain] at hpending
    cases hpending

theorem Merges.count (h : Merges s c) (ht : Tidy s.messages) :
    s.messages.countP (replacedBy c) ≤ 1 := by
  cases hc : c.requestId with
  | none =>
    have hzero : s.messages.countP (replacedBy c) = 0 :=
      countP_zero fun m _ => by simp [replacedBy, hc]
    omega
  | some r =>
    cases hrole : c.role with
    | user =>
      refine le_trans (List.countP_mono_left fun m _ hr => ?_) (ht.oneUser r)
      simp_all [replacedBy, userOf]
    | qronos =>
      refine le_trans (List.countP_mono_left fun m hm hr => ?_) (ht.oneBubble r)
      have hnot := h.replaced ht hm hr
      simp_all [replacedBy, bubbleOf]

end

section
variable {F : Type} [PyFloat F] {browser : Browser F} {s : Snapshot F} {r : PyStr} {c m : Message F}

theorem sortMessages_perm (messages : List (Message F)) :
    (sortMessages browser messages).Perm messages := sortedBy_perm messages

theorem mem_sortMessages {messages : List (Message F)} :
    m ∈ sortMessages browser messages ↔ m ∈ messages := mem_sortedBy

theorem parse_canonical {ms : List (PyStr × Json F)} (h : parseCanonicalMessage ms = some c) :
    c.canonical = true ∧ c.pending = false ∧ c.queuePhase = none := by
  unfold parseCanonicalMessage at h
  simp only at h
  split at h
  · split at h
    · cases h
    · cases h
      exact ⟨rfl, rfl, rfl⟩
  · cases h

theorem Merges.perm (h : Merges s c) (ht : Tidy s.messages) :
    (mergeCanonicalMessage browser c s).messages.Perm
      (c :: s.messages.filter fun m => !replacedBy c m) := by
  unfold mergeCanonicalMessage
  rw [if_neg]
  · exact (sortMessages_perm _).trans (replace_perm (h.count ht))
  · simp only [List.any_eq_true, decide_eq_true_eq, not_exists, not_and]
    exact h.fresh

theorem Merges.tidy (h : Merges s c) (ht : Tidy s.messages) :
    Tidy (mergeCanonicalMessage browser c s).messages := by
  refine Tidy.perm ?_ (h.perm ht)
  apply (ht.sublist List.filter_sublist).cons_canonical h.canonical h.plain
  · intro hid
    obtain ⟨m, hm, hsame⟩ := List.mem_map.mp hid
    exact h.fresh m (List.mem_of_mem_filter (List.mem_of_mem_filter hm)) hsame
  · intro r huser m hm
    simp only [userOf, Bool.and_eq_true, decide_eq_true_eq] at huser
    obtain ⟨hm, hkept⟩ := List.mem_filter.mp hm
    by_contra hm'
    simp_all [replacedBy, userOf]
  · intro r hanswer m hm
    simp only [answerOf, Bool.and_eq_true, decide_eq_true_eq] at hanswer
    obtain ⟨hm, hkept⟩ := List.mem_filter.mp hm
    by_contra hm'
    have hbubble : bubbleOf r m = true := by simpa using hm'
    have hpending := (h.replaces r hanswer.1.2 m hm).2 hanswer.1.1 hbubble
    simp_all [replacedBy, bubbleOf]

theorem Merges.inv (h : Merges s c) (hs : Inv s) : Inv (mergeCanonicalMessage browser c s) := by
  refine ⟨h.tidy hs.tidy, fun r => ?_⟩
  have hnotWaiting : waitsFor r c = false := by simp [waitsFor, h.plain.1]
  have hwaiting : (∃ m ∈ (mergeCanonicalMessage browser c s).messages, waitsFor r m = true) ↔
      ∃ m ∈ s.messages, waitsFor r m = true ∧ replacedBy c m = false := by
    constructor
    · rintro ⟨m, hm, hw⟩
      rcases List.mem_cons.mp ((h.perm hs.tidy).mem_iff.mp hm) with rfl | hm
      · rw [hnotWaiting] at hw
        cases hw
      · obtain ⟨hm, hkept⟩ := List.mem_filter.mp hm
        exact ⟨m, hm, hw, by simpa using hkept⟩
    · rintro ⟨m, hm, hw, hkept⟩
      refine ⟨m, (h.perm hs.tidy).mem_iff.mpr (List.mem_cons_of_mem _ ?_), hw⟩
      exact List.mem_filter.mpr ⟨hm, by simp [hkept]⟩
  have hreplaced : ∀ m ∈ s.messages, waitsFor r m = true →
      (replacedBy c m = true ↔ c.role = .qronos ∧ c.requestId = some r) := by
    intro m hm hw
    have hbubble := hs.tidy.bubbleOf_of_waitsFor hm hw
    simp only [bubbleOf, waitsFor, Bool.and_eq_true, decide_eq_true_eq] at hbubble hw
    simp only [replacedBy, hbubble.1.1, hbubble.1.2, hw.1.2, Bool.and_eq_true, decide_eq_true_eq,
      Bool.or_true, and_true]
    constructor
    · rintro ⟨⟨-, hrequest⟩, hrole⟩
      exact ⟨hrole.symm, hrequest.symm⟩
    · rintro ⟨hrole, hrequest⟩
      simp [hrole, hrequest]
  rw [hwaiting]
  unfold mergeCanonicalMessage
  rw [if_neg (by simpa using h.fresh)]
  simp only
  by_cases hanswer : c.role = .qronos ∧ c.requestId = some r
  · constructor
    · intro hpending
      split at hpending
      · cases hpending
      · rename_i hne
        exact absurd ⟨hanswer.1, by simp [hanswer.2], hanswer.2.trans hpending.symm⟩ hne
    · rintro ⟨m, hm, hw, hkept⟩
      rw [(hreplaced m hm hw).mpr hanswer] at hkept
      cases hkept
  · have hsame : (if c.role = .qronos ∧ c.requestId.isSome = true ∧
        c.requestId = s.pendingRequestId then none else s.pendingRequestId) = some r ↔
          s.pendingRequestId = some r := by
      split
      · rename_i hc
        constructor
        · intro hnone
          cases hnone
        · intro hpending
          exact absurd ⟨hc.1, hc.2.2.trans hpending⟩ hanswer
      · exact Iff.rfl
    rw [hsame, hs.pending r]
    constructor
    · rintro ⟨m, hm, hw⟩
      refine ⟨m, hm, hw, ?_⟩
      by_contra hr
      exact hanswer ((hreplaced m hm hw).mp (by simpa using hr))
    · rintro ⟨m, hm, hw, -⟩
      exact ⟨m, hm, hw⟩

theorem mergeCanonicalMessage_seen (h : ∃ m ∈ s.messages, m.id = c.id) :
    mergeCanonicalMessage browser c s = s := by
  unfold mergeCanonicalMessage
  rw [if_pos]
  simpa using h

end
end QronosAgent.View

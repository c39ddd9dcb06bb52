import QronosAgent.Desktop.Moves

/-! Where the desktop's lines are: every command that the reader has begun is waiting, owed a
count, written or counted. -/
namespace QronosAgent.Desktop
open Lib

def Reader.lines : Reader → List (ℕ × Bytes)
  | .submitting n line => [(n, line)]
  | _ => []

def Reader.kinds : Reader → List (ℕ × Notice)
  | .noticing n kind => [(n, kind)]
  | _ => []

def Deliverer.lines : Deliverer → List (ℕ × Bytes)
  | .holding n line _ => [(n, line)]
  | _ => []

def Deliverer.kinds : Deliverer → List (ℕ × Notice)
  | .noticing n kind => [(n, kind)]
  | _ => []

def Event.line? : Event → Option (ℕ × Bytes)
  | .wrote n _ line => some (n, line)
  | _ => none

def Event.kind? : Event → Option (ℕ × Notice)
  | .counted n kind => some (n, kind)
  | _ => none

namespace DesktopRelay
variable {F : Type} [PyFloat F] {limits : RelayLimits} {python : JsonLimits} {input : Bytes}
  {s s' : DesktopRelay} {m : RelayMove}

/-- The lines on their way to a bridge, in order. -/
def waiting (s : DesktopRelay) : List (ℕ × Bytes) :=
  s.deliverer.lines ++ s.pending ++ s.reader.lines

/-- The lines that are about to be counted. -/
def owed (s : DesktopRelay) : List (ℕ × Notice) :=
  s.deliverer.kinds ++ s.dropped.map (·, .notDelivered) ++ s.reader.kinds

def written (s : DesktopRelay) : List (ℕ × Bytes) := s.log.filterMap Event.line?

def counted (s : DesktopRelay) : List (ℕ × Notice) := s.log.filterMap Event.kind?

/-! How the reader works through the input. -/

structure ReadInv (limits : RelayLimits) (input : Bytes) (s : DesktopRelay) : Prop where
  stream : s.done.flatten ++ s.part ++ s.rest = input
  lines : ∀ line ∈ s.done, WholeLine line
  part : newline ∉ s.part
  long : s.oversized = true → limits.maxCommandBytes < s.part.length
  small : s.oversized = false →
    s.part.length ≤ limits.maxCommandBytes ∧ (s.part ≠ [] → s.rest = [])

namespace ReadInv

theorem part_nil (hs : ReadInv limits input s) (hover : s.oversized = false) {chunk rest : Bytes}
    (hrest : s.rest = chunk ++ rest) (hne : chunk ≠ []) : s.part = [] := by
  by_contra hpart
  have hnil := (hs.small hover).2 hpart
  rw [hrest] at hnil
  exact hne (List.append_eq_nil_iff.mp hnil).1

theorem push (hs : ReadInv limits input s) {line rest : Bytes} (hrest : s.rest = line ++ rest)
    (hover : s.oversized = false) (hline : WholeLine line) {reader : Reader} :
    ReadInv limits input { s with rest := rest, done := s.done ++ [line], reader := reader } := by
  have hne : line ≠ [] := by
    obtain ⟨body, -, rfl⟩ := hline
    simp
  have hpart := hs.part_nil hover hrest hne
  constructor
  · have hstream := hs.stream
    rw [hrest, hpart] at hstream
    simpa [hpart] using hstream
  · intro l hl
    rcases List.mem_append.mp hl with hl | hl
    · exact hs.lines l hl
    · exact List.mem_singleton.mp hl ▸ hline
  · exact hs.part
  · exact hs.long
  · intro _
    simp [hpart]

theorem step (hs : ReadInv limits input s) (h : Fires F limits python s m s') :
    ReadInv limits input s' := by
  cases h with
  | readMore hr hrest hover hno =>
    constructor
    · have hstream := hs.stream
      rw [hrest] at hstream
      simpa using hstream
    · exact hs.lines
    · simp only [List.mem_append, not_or]
      exact ⟨hs.part, hno⟩
    · intro h
      have := hs.long h
      simp only [List.length_append]
      omega
    · intro h
      rw [hover] at h
      contradiction
  | readLast hr hrest hover hwhole =>
    obtain ⟨body, hbody, rfl⟩ := hwhole
    constructor
    · have hstream := hs.stream
      rw [hrest] at hstream
      simpa using hstream
    · intro l hl
      rcases List.mem_append.mp hl with hl | hl
      · exact hs.lines l hl
      · refine ⟨s.part ++ body, ?_, ?_⟩
        · simp only [List.mem_append, not_or]
          exact ⟨hs.part, hbody⟩
        · rw [List.mem_singleton.mp hl, List.append_assoc]
    · simp
    · simp
    · simp
  | readTooLarge hr hrest hover hno hlong =>
    have hpart := hs.part_nil hover hrest (by intro h; simp [h] at hlong)
    constructor
    · have hstream := hs.stream
      rw [hrest, hpart] at hstream
      simpa using hstream
    · exact hs.lines
    · exact hno
    · exact fun _ => hlong
    · simp
  | readIncomplete hr hrest hover hne hno hlen =>
    have hpart := hs.part_nil hover (hrest.trans (List.append_nil _).symm) hne
    constructor
    · have hstream := hs.stream
      rw [hrest, hpart] at hstream
      simpa using hstream
    · exact hs.lines
    · exact hno
    · intro h
      rw [hover] at h
      contradiction
    · exact fun _ => ⟨hlen, fun _ => rfl⟩
  | readBlank hr hrest hover hwhole => exact hs.push hrest hover hwhole
  | readDies hr hrest hover hwhole => exact hs.push hrest hover hwhole
  | readShutdown hr hrest hover hwhole => exact hs.push hrest hover hwhole
  | readCommand hr hrest hover hwhole => exact hs.push hrest hover hwhole
  | _ => exact { hs with }

theorem start (limits : RelayLimits) (input : Bytes) : ReadInv limits input (.start input) where
  stream := rfl
  lines := by simp [DesktopRelay.start]
  part := by simp [DesktopRelay.start]
  long := by simp [DesktopRelay.start]
  small := by simp [DesktopRelay.start]

end ReadInv

/-! What is known of a line once the reader has begun it. -/

def Fits (limits : RelayLimits) (s : DesktopRelay) (n : ℕ) (line : Bytes) : Prop :=
  s.done[n]? = some line ∧ line.length ≤ limits.maxCommandBytes + 1

def Reason (limits : RelayLimits) (s : DesktopRelay) (n : ℕ) : Notice → Prop
  | .tooLarge => (∃ line, s.done[n]? = some line ∧ limits.maxCommandBytes + 1 < line.length) ∨
      n = s.done.length ∧ limits.maxCommandBytes < s.part.length
  | .incomplete => n = s.done.length ∧ s.part ≠ [] ∧ s.part.length ≤ limits.maxCommandBytes
  | .busy | .notDelivered | .unconfirmed => ∃ line, Fits limits s n line

structure Grows (limits : RelayLimits) (s s' : DesktopRelay) : Prop where
  length : s.done.length ≤ s'.done.length
  fits : ∀ n line, Fits limits s n line → Fits limits s' n line
  reason : ∀ n kind, Reason limits s n kind → Reason limits s' n kind

theorem getElem?_push {done : List Bytes} {n : ℕ} {line : Bytes} (h : done[n]? = some line)
    (more : Bytes) : (done ++ [more])[n]? = some line := by
  obtain ⟨hlt, -⟩ := List.getElem?_eq_some_iff.mp h
  rw [List.getElem?_append_left hlt, h]

/-- Nothing that was read is forgotten; a line that was cut off at the end of the input stays the
last one. -/
theorem grows_of {line : Bytes} (hdone : s'.done = s.done ++ [line])
    (hlast : limits.maxCommandBytes < s.part.length → limits.maxCommandBytes + 1 < line.length)
    (hsmall : s.part.length ≤ limits.maxCommandBytes → s.part = []) : Grows limits s s' := by
  have hfits : ∀ n l, Fits limits s n l → Fits limits s' n l := by
    rintro n l ⟨hl, hlen⟩
    exact ⟨hdone ▸ getElem?_push hl line, hlen⟩
  refine ⟨by simp [hdone], hfits, ?_⟩
  intro n kind h
  cases kind with
  | tooLarge =>
    rcases h with ⟨l, hl, hlen⟩ | ⟨rfl, hlen⟩
    · exact .inl ⟨l, hdone ▸ getElem?_push hl line, hlen⟩
    · exact .inl ⟨line, by simp [hdone], hlast hlen⟩
  | incomplete => exact absurd (hsmall h.2.2) h.2.1
  | busy | notDelivered | unconfirmed =>
    obtain ⟨l, hl⟩ := h
    exact ⟨l, hfits n l hl⟩

theorem Grows.of_eq (hdone : s'.done = s.done) (hpart : s'.part = s.part) :
    Grows limits s s' := by
  refine ⟨by rw [hdone], ?_, ?_⟩
  · intro n line h
    rw [Fits, hdone]
    exact h
  · intro n kind h
    cases kind <;> simpa only [Reason, Fits, hdone, hpart] using h

theorem grows (hs : ReadInv limits input s) (h : Fires F limits python s m s') :
    Grows limits s s' := by
  cases h with
  | readMore hr hrest hover hno =>
    refine ⟨le_refl _, fun _ _ h => h, ?_⟩
    intro n kind h
    cases kind with
    | tooLarge =>
      rcases h with h | ⟨rfl, hlen⟩
      · exact .inl h
      · refine .inr ⟨rfl, ?_⟩
        simp only [List.length_append]
        omega
    | incomplete =>
      have := hs.long hover
      have := h.2.2
      omega
    | busy | notDelivered | unconfirmed => exact h
  | readLast hr hrest hover hwhole =>
    apply grows_of rfl
    · intro hlen
      obtain ⟨body, -, rfl⟩ := hwhole
      simp only [List.length_append, List.length_singleton]
      omega
    · intro hlen
      have := hs.long hover
      omega
  | readTooLarge hr hrest hover hno hlong =>
    have hpart := hs.part_nil hover hrest (by intro h; simp [h] at hlong)
    refine ⟨le_refl _, fun _ _ h => h, ?_⟩
    intro n kind h
    cases kind with
    | tooLarge => exact h.imp id fun h => ⟨h.1, hlong⟩
    | incomplete => exact absurd hpart h.2.1
    | busy | notDelivered | unconfirmed => exact h
  | readIncomplete hr hrest hover hne hno hlen =>
    have hpart := hs.part_nil hover (hrest.trans (List.append_nil _).symm) hne
    refine ⟨le_refl _, fun _ _ h => h, ?_⟩
    intro n kind h
    cases kind with
    | tooLarge =>
      rcases h with h | ⟨-, hlen⟩
      · exact .inl h
      · simp [hpart] at hlen
    | incomplete => exact absurd hpart h.2.1
    | busy | notDelivered | unconfirmed => exact h
  | readBlank hr hrest hover hwhole | readDies hr hrest hover hwhole
  | readShutdown hr hrest hover hwhole | readCommand hr hrest hover hwhole =>
    have hpart := hs.part_nil hover hrest (by
      obtain ⟨body, -, rfl⟩ := hwhole
      simp)
    exact grows_of rfl (by simp [hpart]) fun _ => hpart
  | _ => exact .of_eq rfl rfl

/-! Which lines are commands, and how they move. -/

def isCommand (F : Type) [PyFloat F] (limits : RelayLimits) (python : JsonLimits) (line : Bytes) :
    Bool :=
  decide (limits.maxCommandBytes + 1 < line.length) ||
    (!blank line && isShutdownCommand F python line == some false)

/-- Line `n` has been begun and must have a fate. -/
def begun (F : Type) [PyFloat F] (limits : RelayLimits) (python : JsonLimits)
    (s : DesktopRelay) (n : ℕ) : Bool :=
  if n = s.done.length then !s.part.isEmpty
  else
    match s.done[n]? with
    | some line => isCommand F limits python line
    | none => false

inductive Moved (F : Type) [PyFloat F] (limits : RelayLimits) (python : JsonLimits)
    (s s' : DesktopRelay) : Prop
  | still : (∀ n, begun F limits python s' n = begun F limits python s n) →
      s'.waiting = s.waiting → s'.owed.Perm s.owed → s'.written = s.written →
      s'.counted = s.counted → Moved F limits python s s'
  | enters {line : Bytes} :
      (∀ n, begun F limits python s' n =
        (begun F limits python s n || decide (n = s.done.length))) →
      begun F limits python s s.done.length = false →
      s'.done.length = s.done.length + 1 → Fits limits s' s.done.length line →
      s'.waiting = s.waiting ++ [(s.done.length, line)] → s'.owed.Perm s.owed →
      s'.written = s.written → s'.counted = s.counted → Moved F limits python s s'
  | owes {kind : Notice} :
      (∀ n, begun F limits python s' n =
        (begun F limits python s n || decide (n = s.done.length))) →
      begun F limits python s s.done.length = false → Reason limits s' s.done.length kind →
      s'.waiting = s.waiting → s'.owed.Perm ((s.done.length, kind) :: s.owed) →
      s'.written = s.written → s'.counted = s.counted → Moved F limits python s s'
  | gives {front given back : List (ℕ × Bytes)} {kind : Notice} :
      (∀ n, begun F limits python s' n = begun F limits python s n) →
      kind = .busy ∨ kind = .notDelivered ∨ kind = .unconfirmed →
      s.waiting = front ++ given ++ back → s'.waiting = front ++ back →
      s'.owed.Perm (given.map (fun p => (p.1, kind)) ++ s.owed) → s'.written = s.written →
      s'.counted = s.counted → Moved F limits python s s'
  | writes {p : ℕ × Bytes} :
      (∀ n, begun F limits python s' n = begun F limits python s n) →
      s.waiting = p :: s'.waiting → s'.owed.Perm s.owed → s'.written = p :: s.written →
      s'.counted = s.counted → Moved F limits python s s'
  | counts {p : ℕ × Notice} :
      (∀ n, begun F limits python s' n = begun F limits python s n) →
      s'.waiting = s.waiting → s.owed.Perm (p :: s'.owed) → s'.written = s.written →
      s'.counted = p :: s.counted → Moved F limits python s s'

theorem begun_push (hpart : s.part = []) (hpart' : s'.part = []) {line : Bytes}
    (hdone : s'.done = s.done ++ [line]) (n : ℕ) :
    begun F limits python s' n =
      (begun F limits python s n || decide (n = s.done.length) && isCommand F limits python line) := by
  rw [begun, begun, hdone, hpart, hpart']
  simp only [List.length_append, List.length_singleton, List.isEmpty_nil, Bool.not_true]
  by_cases hn : n = s.done.length
  · subst hn
    simp
  · by_cases hn' : n = s.done.length + 1
    · subst hn'
      simp
    · rw [if_neg hn', if_neg hn]
      rcases Nat.lt_or_ge n s.done.length with hlt | hge
      · rw [List.getElem?_append_left hlt]
        simp [hn]
      · rw [List.getElem?_eq_none (by simp; omega), List.getElem?_eq_none (by omega)]
        simp [hn]

theorem begun_last (hpart : s.part ≠ []) (hpart' : s'.part = []) {line : Bytes}
    (hdone : s'.done = s.done ++ [line]) (hlong : limits.maxCommandBytes + 1 < line.length)
    (n : ℕ) : begun F limits python s' n = begun F limits python s n := by
  rw [begun, begun, hdone, hpart']
  simp only [List.length_append, List.length_singleton]
  by_cases hn : n = s.done.length
  · subst hn
    simp [isCommand, hlong, hpart]
  · by_cases hn' : n = s.done.length + 1
    · subst hn'
      simp
    · rw [if_neg hn', if_neg hn]
      rcases Nat.lt_or_ge n s.done.length with hlt | hge
      · rw [List.getElem?_append_left hlt]
      · rw [List.getElem?_eq_none (by simp; omega), List.getElem?_eq_none (by omega)]

theorem begun_cut (hpart : s.part = []) (hpart' : s'.part ≠ []) (hdone : s'.done = s.done)
    (n : ℕ) : begun F limits python s' n =
      (begun F limits python s n || decide (n = s.done.length)) := by
  rw [begun, begun, hdone, hpart]
  by_cases hn : n = s.done.length
  · subst hn
    simp [hpart']
  · simp [hn]

theorem begun_of_eq (hdone : s'.done = s.done) (hpart : s'.part = s.part) (n : ℕ) :
    begun F limits python s' n = begun F limits python s n := by
  rw [begun, begun, hdone, hpart]

theorem begun_next (hpart : s.part = []) : begun F limits python s s.done.length = false := by
  simp [begun, hpart]

theorem isCommand_eq_false {line : Bytes} (hlen : line.length ≤ limits.maxCommandBytes + 1)
    (h : blank line = true ∨ isShutdownCommand F python line ≠ some false) :
    isCommand F limits python line = false := by
  rw [isCommand, decide_eq_false (by omega), Bool.false_or, Bool.and_eq_false_iff]
  rcases h with h | h
  · exact .inl (by simp [h])
  · exact .inr (by simpa using h)

theorem Moved.ofPush (hs : ReadInv limits input s) {line rest : Bytes}
    (hrest : s.rest = line ++ rest) (hover : s.oversized = false) (hline : WholeLine line)
    (hcommand : isCommand F limits python line = false) {reader : Reader}
    (hr : s.reader = .reading) (hlines : reader.lines = []) (hkinds : reader.kinds = []) :
    Moved F limits python s
      { s with rest := rest, done := s.done ++ [line], reader := reader } := by
  have hne : line ≠ [] := by
    obtain ⟨body, -, rfl⟩ := hline
    simp
  have hpart := hs.part_nil hover hrest hne
  have hbegun : ∀ t : DesktopRelay, t.done = s.done ++ [line] → t.part = [] →
      ∀ n, begun F limits python t n = begun F limits python s n := by
    intro t hdone ht n
    rw [begun_push hpart ht hdone, hcommand, Bool.and_false, Bool.or_false]
  refine .still (hbegun _ rfl hpart) ?_ ?_ rfl rfl
  · rw [waiting, waiting, hlines, hr]
    rfl
  · rw [owed, owed, hkinds, hr]
    exact .refl _

theorem filterMap_refused {α : Type} (f : Event → Option α) (hf : ∀ n, f (.refused n) = none)
    (pending : List (ℕ × Bytes)) :
    (pending.map fun p => Event.refused p.1).filterMap f = [] := by
  rw [List.filterMap_eq_nil_iff]
  intro e he
  obtain ⟨p, -, rfl⟩ := List.mem_map.mp he
  exact hf p.1

theorem moved (hs : ReadInv limits input s) (h : Fires F limits python s m s') :
    Moved F limits python s s' := by
  have hstill : ∀ t : DesktopRelay, t.done = s.done → t.part = s.part →
      t.waiting = s.waiting → t.owed = s.owed → t.written = s.written →
      t.counted = s.counted → Moved F limits python s t := fun t h1 h2 h3 h4 h5 h6 =>
    .still (begun_of_eq h1 h2) h3 (h4 ▸ .refl _) h5 h6
  cases h with
  | readFails hr | readEnd hr =>
    apply hstill <;> first | rfl | simp [waiting, owed, hr, Reader.lines, Reader.kinds]
  | readMore hr hrest hover hno =>
    have hpart : s.part ≠ [] := by
      intro h
      have := hs.long hover
      simp [h] at this
    refine .still (fun n => ?_) rfl (.refl _) rfl rfl
    have hempty : ∀ chunk : Bytes, (s.part ++ chunk).isEmpty = s.part.isEmpty := by
      intro chunk
      cases hp : s.part with
      | nil => exact absurd hp hpart
      | cons b part => rfl
    rw [begun, begun, hempty]
  | readLast hr hrest hover hwhole =>
    have hlong := hs.long hover
    obtain ⟨body, -, rfl⟩ := hwhole
    refine .still (fun n => begun_last ?_ rfl rfl ?_ n) rfl (.refl _) rfl rfl
    · intro h
      simp [h] at hlong
    · simp only [List.length_append, List.length_singleton]
      omega
  | readTooLarge hr hrest hover hno hlong =>
    have hne : ∀ chunk : Bytes, limits.maxCommandBytes < chunk.length → chunk ≠ [] := by
      rintro chunk h rfl
      simp at h
    have hpart := hs.part_nil hover hrest (hne _ hlong)
    refine @Moved.owes _ _ _ _ _ _ .tooLarge (begun_cut hpart (hne _ hlong) rfl)
      (begun_next hpart) (.inr ⟨rfl, hlong⟩) ?_ ?_ rfl rfl
    · simp [waiting, hr, Reader.lines]
    · simp [owed, hr, Reader.kinds, -List.append_assoc]
  | readIncomplete hr hrest hover hne hno hlen =>
    have hpart := hs.part_nil hover (hrest.trans (List.append_nil _).symm) hne
    refine @Moved.owes _ _ _ _ _ _ .incomplete (begun_cut hpart hne rfl) (begun_next hpart)
      ⟨rfl, hne, hlen⟩ ?_ ?_ rfl rfl
    · simp [waiting, hr, Reader.lines]
    · simp [owed, hr, Reader.kinds, -List.append_assoc]
  | readBlank hr hrest hover hwhole hlen hblank =>
    exact .ofPush hs hrest hover hwhole
      (isCommand_eq_false hlen (.inl hblank)) hr (by rw [hr]; rfl) (by rw [hr]; rfl)
  | readDies hr hrest hover hwhole hlen hdies =>
    exact .ofPush hs hrest hover hwhole
      (isCommand_eq_false hlen (.inr (by simp [hdies]))) hr rfl rfl
  | readShutdown hr hrest hover hwhole hlen hshut =>
    exact .ofPush hs hrest hover hwhole
      (isCommand_eq_false hlen (.inr (by simp [hshut]))) hr rfl rfl
  | @readCommand line rest hr hrest hover hwhole hlen hblank hshut =>
    have hpart := hs.part_nil hover hrest (by
      obtain ⟨body, -, rfl⟩ := hwhole
      simp)
    have hcommand : isCommand F limits python line = true := by
      simp [isCommand, hblank, hshut]
    have hbegun : ∀ t : DesktopRelay, t.done = s.done ++ [line] → t.part = [] →
        ∀ n, begun F limits python t n =
          (begun F limits python s n || decide (n = s.done.length)) := by
      intro t hdone ht n
      rw [begun_push hpart ht hdone, hcommand, Bool.and_true]
    refine .enters (hbegun _ rfl hpart) (begun_next hpart) (by simp) ⟨by simp, hlen⟩ ?_ ?_ rfl rfl
    · simp [waiting, hr, Reader.lines]
    · simp [owed, hr, Reader.kinds]
  | queue hr =>
    apply hstill <;> first | rfl | simp [waiting, owed, hr, Reader.lines, Reader.kinds]
  | @refuse n line kind hr hkind =>
    refine @Moved.gives _ _ _ _ _ _ (s.deliverer.lines ++ s.pending) [(n, line)] [] kind
      (begun_of_eq rfl rfl) (hkind.imp id .inl) ?_ ?_ ?_ rfl rfl
    · simp [waiting, hr, Reader.lines]
    · simp [waiting, Reader.lines]
    · simp [owed, hr, Reader.kinds, -List.append_assoc]
  | @readerNotice n kind hr =>
    refine .counts (p := (n, kind)) (begun_of_eq rfl rfl) ?_ ?_ rfl rfl
    · simp [waiting, notice, hr, Reader.lines]
    · simp [owed, notice, hr, Reader.kinds, -List.append_assoc]
  | readerEnds hr | readerAsks hr =>
    apply hstill <;>
      first | rfl | simp [waiting, owed, requestStop, hr, Reader.lines, Reader.kinds]
  | pop hd hp =>
    apply hstill <;>
      first | rfl | simp [waiting, owed, hd, hp, Deliverer.lines, Deliverer.kinds]
  | write hd hc =>
    refine .writes (begun_of_eq rfl rfl) ?_ ?_ rfl rfl
    · simp [waiting, hd, Deliverer.lines]
    · simp [owed, hd, Deliverer.kinds]
  | @undelivered n line target works kind children hd hkind =>
    refine @Moved.gives _ _ _ _ _ _ [] [(n, line)] (s.pending ++ s.reader.lines) kind
      (begun_of_eq rfl rfl) (.inr hkind.symm) ?_ ?_ ?_ rfl rfl
    · simp [waiting, hd, Deliverer.lines]
    · simp [waiting, Deliverer.lines]
    · simp [owed, hd, Deliverer.kinds]
  | @delivererNotice n kind hd =>
    refine .counts (p := (n, kind)) (begun_of_eq rfl rfl) ?_ ?_ rfl rfl
    · simp [waiting, notice, hd, Deliverer.lines]
    · simp [owed, notice, hd, Deliverer.kinds]
  | attach | accept | finish | finishes | take | close | broken =>
    apply hstill <;> rfl
  | fence =>
    refine @Moved.gives _ _ _ _ _ _ s.deliverer.lines s.pending s.reader.lines .notDelivered
      (begun_of_eq rfl rfl) (.inr (.inl rfl)) rfl ?_ ?_ ?_ ?_
    · simp [waiting, setAccepting]
    · have hdropped : (s.setAccepting false).dropped.map (·, Notice.notDelivered) =
          s.dropped.map (·, .notDelivered) ++ s.pending.map fun p => (p.1, .notDelivered) := by
        simp [setAccepting, Function.comp_def]
      rw [owed, owed, hdropped]
      rw [← List.append_assoc, List.append_assoc]
      refine .trans (List.perm_append_comm_assoc _ _ _) ?_
      simp [setAccepting]
    · simp [written, setAccepting, filterMap_refused Event.line? fun _ => rfl]
    · simp [counted, setAccepting, filterMap_refused Event.kind? fun _ => rfl]
  | @droppedNotice n rest hd =>
    refine .counts (p := (n, .notDelivered)) (begun_of_eq rfl rfl) rfl ?_ rfl rfl
    simp [owed, notice, hd]

end DesktopRelay
end QronosAgent.Desktop

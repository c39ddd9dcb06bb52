import QronosAgent.Desktop.Bridges
import QronosAgent.Lib.JsonRoundTrip

/-! Every command of the desktop has one fate: it is written whole to one bridge, or counted
once. This needs an input without a line that `json.loads` gives up on: on such a line the reading
thread ends without a word. -/
namespace QronosAgent.Desktop
open Lib

inductive Fate where
  | written (child : ℕ)
  | counted (kind : Notice)

def Event.fate? (n : ℕ) : Event → Option Fate
  | .wrote k child _ => if k = n then some (.written child) else none
  | .counted k kind => if k = n then some (.counted kind) else none
  | _ => none

/-- What was written to a bridge. -/
def Event.bytesTo (child : ℕ) : Event → Option Bytes
  | .wrote _ c line => if c = child then some line else none
  | .finished c lastLine => if c = child then some lastLine else none
  | _ => none

def LineOf (input line : Bytes) : Prop :=
  WholeLine line ∧ ∃ before after, input = before ++ line ++ after ∧
    (before = [] ∨ before.getLast? = some newline)

/-- `json.loads` comes to an end on every line of the input that it is given. -/
def Parses (F : Type) [PyFloat F] (limits : RelayLimits) (python : JsonLimits) (input : Bytes) :
    Prop :=
  ∀ line, LineOf input line → line.length ≤ limits.maxCommandBytes + 1 →
    isShutdownCommand F python line ≠ none

namespace Outbound

theorem total_notice {o : Outbound} (ho : o.closed = false) (kind k : Notice) :
    (o.notice kind).total k = o.total k + if kind = k then 1 else 0 := by
  rw [notice, if_neg (by simp [ho]), total, total]
  dsimp only
  by_cases hk : k = kind
  · subst hk
    rw [Function.update_self, if_pos rfl]
    omega
  · rw [Function.update_of_ne hk, if_neg fun h => hk h.symm, Nat.add_zero]

theorem total_take (o : Outbound) (kind k : Notice) : (o.take kind).total k = o.total k := by
  rw [take, total, total]
  by_cases hk : k = kind
  · subst hk
    simp
  · have hk' : ¬kind = k := fun h => hk h.symm
    simp [Function.update_of_ne hk, hk']

end Outbound

namespace DesktopRelay
variable {F : Type} [PyFloat F] {limits : RelayLimits} {python : JsonLimits} {input : Bytes}
  {s s' : DesktopRelay} {m : RelayMove}

/-- What each bridge was given, the last write first. -/
def Streams (s : DesktopRelay) : Prop :=
  ∀ child wrote, (s.children.map ChildInput.wrote)[child]? = some wrote →
    wrote = s.log.filterMap (Event.bytesTo child)

theorem Streams.of_eq (hs : Streams s)
    (hwrote : s'.children.map ChildInput.wrote = s.children.map ChildInput.wrote)
    (hlog : ∀ child, s'.log.filterMap (Event.bytesTo child) =
      s.log.filterMap (Event.bytesTo child)) : Streams s' := by
  intro child wrote h
  rw [hwrote] at h
  rw [hlog]
  exact hs child wrote h

theorem Streams.set (hs : Streams s) {child : ℕ} {c c' : ChildInput} {line : Bytes} {e : Event}
    (hc : s.children[child]? = some c) (hc' : c'.wrote = line :: c.wrote)
    (he : ∀ k, e.bytesTo k = if child = k then some line else none)
    (hchildren : s'.children = s.children.set child c') (hlog : s'.log = e :: s.log) :
    Streams s' := by
  have hlt : child < s.children.length := (List.getElem?_eq_some_iff.mp hc).1
  intro k wrote h
  rw [hchildren, List.map_set] at h
  rw [hlog, List.filterMap_cons, he]
  by_cases hk : child = k
  · subst hk
    rw [List.getElem?_set_self (by simpa using hlt), Option.some.injEq] at h
    rw [if_pos rfl, ← h, hc', hs child c.wrote]
    rw [List.getElem?_map, hc]
    rfl
  · rw [List.getElem?_set_ne hk] at h
    rw [if_neg hk]
    exact hs k wrote h

theorem Streams.step (hs : Streams s) (hb : Bridges s) (h : Fires F limits python s m s') :
    Streams s' := by
  cases h with
  | write hd hc => exact hs.set hc rfl (fun k => rfl) rfl rfl
  | finish hc => exact hs.set hc rfl (fun k => rfl) rfl rfl
  | undelivered _ _ hwrote | finishes hwrote => exact hs.of_eq hwrote fun _ => rfl
  | attach generation =>
    have hnone : s.log.filterMap (Event.bytesTo s.children.length) = [] := by
      rw [List.filterMap_eq_nil_iff]
      intro e he
      cases e with
      | wrote n c line =>
        have := (hb.wrote n c line he).1
        rw [Event.bytesTo, if_neg (by omega)]
      | finished c lastLine =>
        have := hb.finished c lastLine he
        rw [Event.bytesTo, if_neg (by omega)]
      | _ => rfl
    intro child wrote h
    rw [attach, List.map_append, List.getElem?_append] at h
    change wrote = s.log.filterMap _
    split at h
    · exact hs child wrote h
    · rename_i hge
      rw [List.length_map] at h hge
      have hlt := (List.getElem?_eq_some_iff.mp h).1
      simp only [List.length_map, List.length_singleton] at hlt
      obtain rfl : child = s.children.length := by omega
      rw [Nat.sub_self] at h
      rw [hnone]
      exact (Option.some.inj h).symm
  | fence =>
    refine hs.of_eq rfl fun child => ?_
    simp [setAccepting, filterMap_refused (Event.bytesTo child) fun _ => rfl]
  | _ => exact hs.of_eq rfl fun _ => rfl

def Tally (s : DesktopRelay) : Prop :=
  s.out.closed = false →
    ∀ kind, s.out.total kind = s.counted.countP fun p => p.2 = kind

theorem Tally.notice (hs : Tally s) (n : ℕ) (kind : Notice) : Tally (s.notice n kind) := by
  intro hopen k
  have ho : s.out.closed = false := by
    cases hc : s.out.closed with
    | false => rfl
    | true => simp [DesktopRelay.notice, Outbound.notice, hc] at hopen
  rw [DesktopRelay.notice, Outbound.total_notice ho, hs ho]
  simp [counted, Event.kind?, List.countP_cons]

theorem Tally.step (hs : Tally s) (h : Fires F limits python s m s') : Tally s' := by
  cases h with
  | readerNotice | delivererNotice | droppedNotice => exact hs.notice _ _
  | take hopen =>
    intro _ k
    rw [Outbound.total_take]
    exact hs hopen k
  | close =>
    intro h
    contradiction
  | fence =>
    intro h k
    simp only [counted, setAccepting, Bool.false_eq_true, if_false, List.filterMap_append,
      filterMap_refused Event.kind? fun _ => rfl, List.nil_append]
    exact hs h k
  | _ => exact hs

structure Stops (s : DesktopRelay) : Prop where
  alive : s.reader ≠ .died
  asked : s.reader = .ended → s.stopReason.isSome ∧ .stopRequested ∈ s.log
  last : s.reader = .stopping true ∨ s.reader = .ended → s.rest = [] ∨ .readFailed ∈ s.log

theorem Stops.of_eq (hs : Stops s) (hreader : s'.reader = s.reader) (hrest : s'.rest = s.rest)
    (hstop : s.stopReason.isSome → s'.stopReason.isSome) (hlog : s.log ⊆ s'.log) : Stops s' := by
  refine ⟨hreader ▸ hs.alive, fun h => ?_, fun h => ?_⟩
  · have hasked := hs.asked (hreader ▸ h)
    exact ⟨hstop hasked.1, hlog hasked.2⟩
  · rw [hrest]
    exact (hs.last (hreader ▸ h)).imp id fun h => hlog h

theorem Stops.of_going (halive : s'.reader ≠ .died) (hended : s'.reader ≠ .ended)
    (hstopping : s'.reader ≠ .stopping true) : Stops s' :=
  ⟨halive, fun h => absurd h hended, fun h => absurd h (not_or.mpr ⟨hstopping, hended⟩)⟩

theorem before_whole {lines : List Bytes} (h : ∀ line ∈ lines, WholeLine line) :
    lines.flatten = [] ∨ lines.flatten.getLast? = some newline := by
  rcases List.eq_nil_or_concat lines with hnil | ⟨front, last, hlast⟩
  · exact .inl (by rw [hnil]; rfl)
  · right
    obtain ⟨body, -, hbody⟩ := h last (by simp [hlast])
    simp [hlast, hbody, ← List.append_assoc]

theorem lineOf_next (hs : ReadInv limits input s) (hover : s.oversized = false)
    {line rest : Bytes} (hrest : s.rest = line ++ rest) (hline : WholeLine line) :
    LineOf input line := by
  have hpart := hs.part_nil hover hrest (by
    obtain ⟨body, -, rfl⟩ := hline
    simp)
  refine ⟨hline, s.done.flatten, rest, ?_, ?_⟩
  · rw [← hs.stream, hrest, hpart, List.append_nil, List.append_assoc]
  · exact before_whole hs.lines

theorem lineOf_done (hs : ReadInv limits input s) {n : ℕ} {line : Bytes}
    (h : s.done[n]? = some line) : LineOf input line := by
  obtain ⟨hlt, hget⟩ := List.getElem?_eq_some_iff.mp h
  have hsplit : s.done = s.done.take n ++ line :: s.done.drop (n + 1) := by
    rw [← hget, List.getElem_cons_drop, List.take_append_drop]
  refine ⟨hs.lines line (List.mem_of_getElem? h), (s.done.take n).flatten,
    (s.done.drop (n + 1)).flatten ++ s.part ++ s.rest, ?_,
    before_whole fun l hl => hs.lines l (List.mem_of_mem_take hl)⟩
  rw [← hs.stream]
  conv_lhs => rw [hsplit]
  simp

theorem Stops.step (hs : Stops s) (hr : ReadInv limits input s)
    (hparses : Parses F limits python input) (h : Fires F limits python s m s') : Stops s' := by
  cases h with
  | readFails => exact ⟨by simp, by simp, fun _ => .inr List.mem_cons_self⟩
  | readEnd _ hrest => exact ⟨by simp, by simp, fun _ => .inl hrest⟩
  | readMore hreader | readLast hreader | readBlank hreader =>
    apply Stops.of_going <;> simp [hreader]
  | readDies _ hrest hover hwhole hlen hnone =>
    exact absurd hnone (hparses _ (lineOf_next hr hover hrest hwhole) hlen)
  | readerEnds hreader =>
    refine ⟨by simp, fun _ => ⟨?_, List.mem_cons_self⟩, fun _ => ?_⟩
    · cases hstop : s.stopReason <;> simp [requestStop, hstop]
    · exact (hs.last (.inl hreader)).imp id (List.mem_cons_of_mem _)
  | readTooLarge | readIncomplete | readShutdown | readCommand | queue | refuse | readerNotice
  | readerAsks =>
    apply Stops.of_going <;> simp
  | pop | write | attach | finish => exact hs.of_eq rfl rfl id (List.subset_cons_self _ _)
  | delivererNotice | droppedNotice => exact hs.of_eq rfl rfl id (List.subset_cons_self _ _)
  | undelivered | accept | finishes | take | close => exact hs.of_eq rfl rfl id (List.Subset.refl _)
  | fence => exact hs.of_eq rfl rfl id (List.subset_append_right _ _)
  | broken =>
    refine hs.of_eq rfl rfl (fun h => ?_) (List.subset_cons_self _ _)
    cases hstop : s.stopReason <;> simp [requestStop, hstop]

structure Inv (F : Type) [PyFloat F] (limits : RelayLimits) (python : JsonLimits)
    (input : Bytes) (s : DesktopRelay) : Prop where
  reading : ReadInv limits input s
  placed : ∀ n, s.places n = (begun F limits python s n).toNat
  facts : Facts limits s
  order : InOrder s
  room : Room limits s
  bridges : Bridges s
  streams : Streams s
  tally : Tally s
  stops : Stops s

theorem Inv.step (hparses : Parses F limits python input) (hs : Inv F limits python input s)
    (h : Fires F limits python s m s') : Inv F limits python input s' := by
  have hm := moved hs.reading h
  constructor
  · exact hs.reading.step h
  · exact fun n => places_step hm n (hs.placed n)
  · exact hs.facts.step (grows hs.reading h) hm
  · exact hs.order.step hs.facts hm
  · exact hs.room.step h
  · exact hs.bridges.step hs.facts hs.order h
  · exact hs.streams.step hs.bridges h
  · exact hs.tally.step h
  · exact hs.stops.step hs.reading hparses h

theorem Inv.start (F : Type) [PyFloat F] (limits : RelayLimits) (python : JsonLimits)
    (input : Bytes) : Inv F limits python input (.start input) where
  reading := .start limits input
  placed n := by cases n <;> rfl
  facts := ⟨by simp [waiting, written, DesktopRelay.start, Deliverer.lines, Reader.lines],
    by simp [owed, counted, DesktopRelay.start, Deliverer.kinds, Reader.kinds]⟩
  order := by
    constructor <;> simp [waiting, written, DesktopRelay.start, Deliverer.lines, Reader.lines]
  room := by constructor <;> simp [DesktopRelay.start]
  bridges := by
    constructor <;> simp [DesktopRelay.start, LetGo, Reader.lines]
  streams := by simp [Streams, DesktopRelay.start]
  tally := by simp [Tally, DesktopRelay.start, Outbound.total, counted]
  stops := by constructor <;> simp [DesktopRelay.start]

theorem Inv.reach (hparses : Parses F limits python input)
    (hr : (relayMachine F limits python input).Reachable s) : Inv F limits python input s :=
  hr.invariant (fun _ h => h ▸ .start F limits python input)
    fun _ _ _ hs _ h => hs.step hparses (fires h)

/-- The fates of line `n`. -/
def fates (s : DesktopRelay) (n : ℕ) : List Fate := s.log.filterMap (Event.fate? n)

/-- In how many hands line `n` is: on its way to a bridge, or about to be counted. -/
def inHand (s : DesktopRelay) (n : ℕ) : ℕ :=
  (s.waiting.map Prod.fst).count n + (s.owed.map Prod.fst).count n

theorem length_fates (s : DesktopRelay) (n : ℕ) :
    (s.fates n).length =
      (s.written.map Prod.fst).count n + (s.counted.map Prod.fst).count n := by
  rw [fates, written, counted]
  induction s.log with
  | nil => rfl
  | cons e log ih =>
    cases e with
    | wrote k child line =>
      simp only [List.filterMap_cons, Event.fate?, Event.line?, Event.kind?, List.map_cons,
        List.count_cons, beq_iff_eq]
      by_cases hk : k = n
      · simp only [if_pos hk, List.length_cons, ih]
        omega
      · simp only [if_neg hk, ih]
        omega
    | counted k kind =>
      simp only [List.filterMap_cons, Event.fate?, Event.line?, Event.kind?, List.map_cons,
        List.count_cons, beq_iff_eq]
      by_cases hk : k = n
      · simp only [if_pos hk, List.length_cons, ih]
        omega
      · simp only [if_neg hk, ih]
        omega
    | _ => exact ih

theorem inHand_add_fates (hs : Inv F limits python input s) (n : ℕ) :
    s.inHand n + (s.fates n).length = (begun F limits python s n).toNat := by
  have hplaced := hs.placed n
  rw [places] at hplaced
  rw [length_fates, inHand, ← hplaced]
  omega

theorem mem_fates_written {n child : ℕ} (h : .written child ∈ s.fates n) :
    ∃ line, .wrote n child line ∈ s.log := by
  obtain ⟨e, he, hfate⟩ := List.mem_filterMap.mp h
  cases e with
  | wrote k c line =>
    rw [Event.fate?] at hfate
    split at hfate
    · rename_i hk
      obtain rfl := Fate.written.inj (Option.some.inj hfate)
      exact ⟨line, hk ▸ he⟩
    · contradiction
  | counted k kind =>
    rw [Event.fate?] at hfate
    split at hfate <;> simp at hfate
  | _ => contradiction

theorem mem_fates_counted {n : ℕ} {kind : Notice} (h : .counted kind ∈ s.fates n) :
    (n, kind) ∈ s.counted := by
  obtain ⟨e, he, hfate⟩ := List.mem_filterMap.mp h
  refine List.mem_filterMap.mpr ⟨e, he, ?_⟩
  cases e with
  | wrote k c line =>
    rw [Event.fate?] at hfate
    split at hfate <;> simp at hfate
  | counted k kind' =>
    rw [Event.fate?] at hfate
    split at hfate
    · rename_i hk
      obtain rfl := Fate.counted.inj (Option.some.inj hfate)
      rw [Event.kind?, hk]
    · contradiction
  | _ => contradiction

theorem fits_of_wrote (hs : Inv F limits python input s) {n child : ℕ} {line : Bytes}
    (h : .wrote n child line ∈ s.log) : Fits limits s n line :=
  hs.facts.lines (n, line) (.inr (List.mem_filterMap.mpr ⟨_, h, rfl⟩))

structure Quiet (s : DesktopRelay) : Prop where
  reader : s.reader = .reading ∨ s.reader = .ended
  deliverer : s.deliverer = .waiting
  pending : s.pending = []
  dropped : s.dropped = []

/-- What holds of the desktop's commands. The lines read to their end are `done`, `part` is what
was read of the next one, and a line is named by its number. -/
structure OneFate (F : Type) [PyFloat F] (limits : RelayLimits) (python : JsonLimits)
    (input : Bytes) (s : DesktopRelay) : Prop where
  stream : s.done.flatten ++ s.part ++ s.rest = input
  lines : ∀ line ∈ s.done, WholeLine line
  part : newline ∉ s.part
  command : ∀ n line, s.done[n]? = some line → blank line = false →
    isShutdownCommand F python line ≠ some true → s.inHand n + (s.fates n).length = 1
  quiet : s.Quiet → ∀ n, s.inHand n = 0
  whole : ∀ n child, .written child ∈ s.fates n →
    ∃ line, s.done[n]? = some line ∧ .wrote n child line ∈ s.log
  streams : ∀ child c, s.children[child]? = some c →
    c.wrote = s.log.filterMap (Event.bytesTo child)
  kinds : ∀ n line kind, s.done[n]? = some line → .counted kind ∈ s.fates n → kind ≠ .incomplete
  /-- A line that the end of the input cut off is counted once and never written. -/
  cutOff : s.part ≠ [] → s.inHand s.done.length + (s.fates s.done.length).length = 1 ∧
    ∀ fate ∈ s.fates s.done.length, fate =
      .counted (if s.part.length ≤ limits.maxCommandBytes then .incomplete else .tooLarge)
  bridge : ∀ n child line, .wrote n child line ∈ s.log → ¬AttachedAfter n child s.log
  order : (s.written.map Prod.fst).Pairwise (· > ·)
  pending : s.pendingBytes = (s.pending.map fun p => p.2.length).sum ∧
    s.pendingBytes ≤ limits.pendingBudget ∧ s.pending.length ≤ limits.maxPending
  reader : s.reader ≠ .died ∧ (s.reader = .ended → s.stopReason.isSome ∧
    .stopRequested ∈ s.log ∧ (s.rest = [] ∨ .readFailed ∈ s.log))
  counts : s.out.closed = false →
    ∀ kind, s.out.total kind = s.counted.countP fun p => p.2 = kind

end DesktopRelay

open DesktopRelay

theorem command_one_fate {F : Type} [PyFloat F] {limits : RelayLimits} {python : JsonLimits}
    {input : Bytes} (hparses : Parses F limits python input) {s : DesktopRelay}
    (hr : (relayMachine F limits python input).Reachable s) :
    OneFate F limits python input s := by
  have hs := Inv.reach hparses hr
  have hnot : ∀ n line, s.done[n]? = some line → n ≠ s.done.length := by
    intro n line h
    have := (List.getElem?_eq_some_iff.mp h).1
    omega
  constructor
  · exact hs.reading.stream
  · exact hs.reading.lines
  · exact hs.reading.part
  · intro n line hline hblank hshut
    rw [inHand_add_fates hs, begun, if_neg (hnot n line hline), hline]
    suffices h : isCommand F limits python line = true by simp [h]
    rw [isCommand, Bool.or_eq_true, decide_eq_true_eq]
    rcases Nat.lt_or_ge (limits.maxCommandBytes + 1) line.length with hlong | hlen
    · exact .inl hlong
    · right
      have hsome := hparses line (lineOf_done hs.reading hline) hlen
      have hfalse : isShutdownCommand F python line = some false := by
        cases hcommand : isShutdownCommand F python line with
        | none => exact absurd hcommand hsome
        | some shutdown => cases shutdown <;> simp_all
      simp [hblank, hfalse]
  · intro hquiet n
    have hreader : s.reader.lines = [] ∧ s.reader.kinds = [] := by
      rcases hquiet.reader with h | h <;> rw [h] <;> exact ⟨rfl, rfl⟩
    simp [inHand, waiting, owed, hquiet.deliverer, hquiet.pending, hquiet.dropped, hreader,
      Deliverer.lines, Deliverer.kinds]
  · intro n child h
    obtain ⟨line, hwrote⟩ := mem_fates_written h
    exact ⟨line, (fits_of_wrote hs hwrote).1, hwrote⟩
  · intro child c hc
    apply hs.streams child c.wrote
    rw [List.getElem?_map, hc]
    rfl
  · rintro n line kind hline h rfl
    exact hnot n line hline (hs.facts.kinds _ (.inr (mem_fates_counted h))).1
  · intro hpart
    refine ⟨?_, ?_⟩
    · rw [inHand_add_fates hs, begun, if_pos rfl]
      simp [hpart]
    · intro fate h
      cases fate with
      | written child =>
        obtain ⟨line, hwrote⟩ := mem_fates_written h
        exact absurd rfl (hnot _ line (fits_of_wrote hs hwrote).1)
      | counted kind =>
        have hreason := hs.facts.kinds _ (.inr (mem_fates_counted h))
        cases kind with
        | tooLarge =>
          rcases hreason with ⟨line, hline, -⟩ | ⟨-, hlong⟩
          · exact absurd rfl (hnot _ line hline)
          · rw [if_neg (by omega)]
        | incomplete => rw [if_pos hreason.2.2]
        | busy | notDelivered | unconfirmed =>
          obtain ⟨line, hline⟩ := hreason
          exact absurd rfl (hnot _ line hline.1)
  · exact fun n child line h => (hs.bridges.wrote n child line h).2
  · exact hs.order.written
  · exact ⟨hs.room.bytes, hs.room.budget, hs.room.items⟩
  · refine ⟨hs.stops.alive, fun h => ?_⟩
    have hasked := hs.stops.asked h
    exact ⟨hasked.1, hasked.2, hs.stops.last (.inr h)⟩
  · exact hs.tally

def usualPython : JsonLimits := ⟨1000, 4300⟩

/-- `hi` and a newline. -/
def sampleInput : Bytes := [104, 105, 10]

theorem lineOf_sampleInput {line : Bytes} (h : LineOf sampleInput line) : line = sampleInput := by
  obtain ⟨⟨body, hbody, rfl⟩, before, after, heq, hbefore⟩ := h
  rw [sampleInput] at heq ⊢
  rcases hbefore with rfl | hbefore
  · rcases body with _ | ⟨a, _ | ⟨b, _ | ⟨c, t⟩⟩⟩
    · simp [newline] at heq
    · simp [newline] at heq
    · simp only [List.nil_append, List.cons_append, List.cons.injEq] at heq
      simp [heq.1, heq.2.1, newline]
    · simp only [List.nil_append, List.cons_append, List.cons.injEq] at heq
      simp [newline, ← heq.2.2.1] at hbody
  · rcases before with _ | ⟨a, _ | ⟨b, _ | ⟨c, t⟩⟩⟩
    · contradiction
    · simp_all [newline]
    · simp_all [newline]
    · simp at heq

def sampleMoves : List RelayMove := [.attach 1, .read false, .submit, .pop, .deliver true]

def sampleRun : Option DesktopRelay :=
  (relayMachine WholeFloat desktopLimits usualPython sampleInput).exec (.start sampleInput)
    sampleMoves

theorem command_one_fate_sample : ∃ s, sampleRun = some s ∧ s.done = [sampleInput] ∧
    OneFate WholeFloat desktopLimits usualPython sampleInput s := by
  have hrun : sampleRun.any (fun s => decide (s.done = [sampleInput])) = true := by
    decide +kernel
  obtain ⟨s, hs, hdone⟩ := (Option.any_eq_true _ _).mp hrun
  refine ⟨s, hs, of_decide_eq_true hdone, command_one_fate ?_ (Machine.reachable_exec rfl hs)⟩
  intro line hline _
  rw [lineOf_sampleInput hline]
  decide +kernel

theorem readline_no_newline {s : Bytes} (h : newline ∉ s) : readline s.length s = (s, []) := by
  induction s with
  | nil => rfl
  | cons b s ih =>
    simp only [List.mem_cons, not_or] at h
    rw [List.length_cons, readline, if_neg fun hb => h.1 hb.symm, ih h.2]

/-- The end of the input cuts off a line that is already too large: it is counted as too large
and not as incomplete. -/
theorem too_large_cut_off (F : Type) [PyFloat F] (limits : RelayLimits) (python : JsonLimits)
    {input : Bytes} (hno : newline ∉ input) (hlen : input.length = limits.maxCommandBytes + 1) :
    ∃ s, (relayMachine F limits python input).Reachable s ∧ s.reader = .ended ∧ s.rest = [] ∧
      s.part = input ∧ s.log = [.stopRequested, .counted 0 .tooLarge] := by
  have hne : input ≠ [] := by
    intro h
    simp [h] at hlen
  have hread : readline (limits.maxCommandBytes + 1) input = (input, []) := by
    rw [← hlen]
    exact readline_no_newline hno
  let cut : DesktopRelay := { DesktopRelay.start [] with
    oversized := true
    part := input
    reader := .noticing 0 .tooLarge }
  have hfirst : (relayMachine F limits python input).step (.start input) (.read false) =
      some cut := by
    simp only [relayMachine, DesktopRelay.step, DesktopRelay.start, Bool.false_eq_true, if_false, hread,
      DesktopRelay.takeLine, if_neg hne, if_pos (endsLine_eq_false hno), hlen,
      if_pos (Nat.lt_succ_self _)]
    rfl
  have hlast : (relayMachine F limits python input).exec cut
      [.readerNotice, .read false, .readerStop] =
      some { cut with
        reader := .ended
        out := cut.out.notice .tooLarge
        stopReason := some .inputClosed
        log := [.stopRequested, .counted 0 .tooLarge] } := rfl
  have hcut : (relayMachine F limits python input).Reachable cut :=
    .step (.start rfl) trivial hfirst
  exact ⟨_, hcut.exec (Machine.allOk_true _ _) hlast, rfl, rfl, rfl, rfl⟩

def longInput : Bytes := List.replicate (desktopLimits.maxCommandBytes + 1) 120

theorem cut_off_not_incomplete :
    ∃ s, (relayMachine WholeFloat desktopLimits usualPython longInput).Reachable s ∧
      s.reader = .ended ∧ s.rest = [] ∧ s.part = longInput ∧ newline ∉ longInput ∧
      ∀ n, .counted n .incomplete ∉ s.log := by
  have hno : newline ∉ longInput := by
    intro h
    exact absurd (List.eq_of_mem_replicate h) (by decide)
  obtain ⟨s, hr, hreader, hrest, hpart, hlog⟩ := too_large_cut_off WholeFloat
    desktopLimits usualPython hno List.length_replicate
  exact ⟨s, hr, hreader, hrest, hpart, hno, by simp [hlog]⟩

end QronosAgent.Desktop

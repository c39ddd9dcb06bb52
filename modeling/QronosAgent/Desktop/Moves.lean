import Mathlib.Data.List.Basic
import QronosAgent.Desktop.Relay

/-! The moves of the desktop's relay, each with what it finds and what it leaves. -/
namespace QronosAgent.Desktop
open Lib

def WholeLine (line : Bytes) : Prop := ∃ body, newline ∉ body ∧ line = body ++ [newline]

theorem readline_append (n : ℕ) (s : Bytes) : (readline n s).1 ++ (readline n s).2 = s := by
  induction n generalizing s with
  | zero => rfl
  | succ n ih =>
    cases s with
    | nil => rfl
    | cons b s =>
      rw [readline]
      split
      · rfl
      · simp only [List.cons_append, ih]

theorem readline_length_le (n : ℕ) (s : Bytes) : (readline n s).1.length ≤ n := by
  induction n generalizing s with
  | zero => simp [readline]
  | succ n ih =>
    cases s with
    | nil => simp [readline]
    | cons b s =>
      rw [readline]
      split
      · simp
      · simpa using ih s

theorem readline_eq_nil {n : ℕ} {s : Bytes} (h : (readline (n + 1) s).1 = []) : s = [] := by
  cases s with
  | nil => rfl
  | cons b s =>
    rw [readline] at h
    split at h <;> simp at h

/-- What `readline` returns is a whole line, or holds no newline and is as long as it may be or
the last of the stream. -/
theorem readline_cases (n : ℕ) (s : Bytes) :
    WholeLine (readline n s).1 ∨
      newline ∉ (readline n s).1 ∧ (n ≤ (readline n s).1.length ∨ (readline n s).2 = []) := by
  induction n generalizing s with
  | zero => exact .inr ⟨by simp [readline], .inl (by simp)⟩
  | succ n ih =>
    cases s with
    | nil => exact .inr ⟨by simp [readline], .inr rfl⟩
    | cons b s =>
      rw [readline]
      split
      · rename_i hb
        exact .inl ⟨[], by simp, by simp [hb]⟩
      · rename_i hb
        rcases ih s with ⟨body, hbody, hline⟩ | ⟨hno, hend⟩
        · refine .inl ⟨b :: body, ?_, by simp [hline]⟩
          simp only [List.mem_cons, not_or]
          exact ⟨fun h => hb h.symm, hbody⟩
        · refine .inr ⟨?_, ?_⟩
          · simp only [List.mem_cons, not_or]
            exact ⟨fun h => hb h.symm, hno⟩
          · simpa using hend

theorem endsLine_of_wholeLine {line : Bytes} (h : WholeLine line) : endsLine line = true := by
  obtain ⟨body, -, rfl⟩ := h
  simp [endsLine]

theorem endsLine_eq_false {line : Bytes} (h : newline ∉ line) : endsLine line = false := by
  rw [endsLine, beq_eq_false_iff_ne]
  exact fun hl => h (List.mem_of_getLast? hl)

namespace DesktopRelay
variable {F : Type} [PyFloat F] {limits : RelayLimits} {python : JsonLimits}
  {s s' : DesktopRelay} {m : RelayMove}

inductive Fires (F : Type) [PyFloat F] (limits : RelayLimits) (python : JsonLimits)
    (s : DesktopRelay) : RelayMove → DesktopRelay → Prop
  | readFails : s.reader = .reading →
      Fires F limits python s (.read true)
        { s with reader := .stopping true, log := .readFailed :: s.log }
  | readEnd : s.reader = .reading → s.rest = [] →
      Fires F limits python s (.read false) { s with reader := .stopping true }
  | readMore {chunk rest : Bytes} : s.reader = .reading → s.rest = chunk ++ rest →
      s.oversized = true → newline ∉ chunk →
      Fires F limits python s (.read false) { s with rest := rest, part := s.part ++ chunk }
  | readLast {chunk rest : Bytes} : s.reader = .reading → s.rest = chunk ++ rest →
      s.oversized = true → WholeLine chunk →
      Fires F limits python s (.read false)
        { s with
          rest := rest
          oversized := false
          done := s.done ++ [s.part ++ chunk]
          part := [] }
  | readTooLarge {chunk rest : Bytes} : s.reader = .reading → s.rest = chunk ++ rest →
      s.oversized = false → newline ∉ chunk → limits.maxCommandBytes < chunk.length →
      Fires F limits python s (.read false)
        { s with
          rest := rest
          oversized := true
          part := chunk
          reader := .noticing s.done.length .tooLarge }
  | readIncomplete {chunk : Bytes} : s.reader = .reading → s.rest = chunk →
      s.oversized = false → chunk ≠ [] → newline ∉ chunk →
      chunk.length ≤ limits.maxCommandBytes →
      Fires F limits python s (.read false)
        { s with
          rest := []
          part := chunk
          reader := .noticing s.done.length .incomplete }
  | readBlank {line rest : Bytes} : s.reader = .reading → s.rest = line ++ rest →
      s.oversized = false → WholeLine line → line.length ≤ limits.maxCommandBytes + 1 →
      blank line = true →
      Fires F limits python s (.read false) { s with rest := rest, done := s.done ++ [line] }
  | readDies {line rest : Bytes} : s.reader = .reading → s.rest = line ++ rest →
      s.oversized = false → WholeLine line → line.length ≤ limits.maxCommandBytes + 1 →
      isShutdownCommand F python line = none →
      Fires F limits python s (.read false)
        { s with rest := rest, done := s.done ++ [line], reader := .died }
  | readShutdown {line rest : Bytes} : s.reader = .reading → s.rest = line ++ rest →
      s.oversized = false → WholeLine line → line.length ≤ limits.maxCommandBytes + 1 →
      isShutdownCommand F python line = some true →
      Fires F limits python s (.read false)
        { s with rest := rest, done := s.done ++ [line], reader := .stopping false }
  | readCommand {line rest : Bytes} : s.reader = .reading → s.rest = line ++ rest →
      s.oversized = false → WholeLine line → line.length ≤ limits.maxCommandBytes + 1 →
      blank line = false → isShutdownCommand F python line = some false →
      Fires F limits python s (.read false)
        { s with
          rest := rest
          done := s.done ++ [line]
          reader := .submitting s.done.length line }
  | queue {n : ℕ} {line : Bytes} : s.reader = .submitting n line → s.accepting = true →
      s.pending.length < limits.maxPending →
      s.pendingBytes + line.length ≤ limits.pendingBudget →
      Fires F limits python s .submit
        { s with
          pending := s.pending ++ [(n, line)]
          pendingBytes := s.pendingBytes + line.length
          reader := .reading }
  | refuse {n : ℕ} {line : Bytes} {kind : Notice} : s.reader = .submitting n line →
      kind = .busy ∨ kind = .notDelivered →
      Fires F limits python s .submit
        { s with reader := .noticing n kind, log := .refused n :: s.log }
  | readerNotice {n : ℕ} {kind : Notice} : s.reader = .noticing n kind →
      Fires F limits python s .readerNotice { s.notice n kind with reader := .reading }
  | readerEnds : s.reader = .stopping true →
      Fires F limits python s .readerStop { s.requestStop .inputClosed with reader := .ended }
  | readerAsks : s.reader = .stopping false →
      Fires F limits python s .readerStop { s.requestStop .asked with reader := .reading }
  | pop {n : ℕ} {line : Bytes} {rest : List (ℕ × Bytes)} {target : Option ℕ} :
      s.deliverer = .waiting → s.pending = (n, line) :: rest →
      (∀ child, target = some child → s.input = some child) →
      Fires F limits python s .pop
        { s with
          pending := rest
          pendingBytes := s.pendingBytes - line.length
          deliverer := .holding n line target
          log := .popped n target :: s.log }
  | write {n child : ℕ} {line : Bytes} {c : ChildInput} :
      s.deliverer = .holding n line (some child) → s.children[child]? = some c →
      Fires F limits python s (.deliver true)
        { s with
          children := s.children.set child { c with wrote := line :: c.wrote }
          deliverer := .waiting
          log := .wrote n child line :: s.log }
  | undelivered {n : ℕ} {line : Bytes} {target : Option ℕ} {works : Bool} {kind : Notice}
      {children : List ChildInput} : s.deliverer = .holding n line target →
      kind = .unconfirmed ∨ kind = .notDelivered →
      children.map ChildInput.wrote = s.children.map ChildInput.wrote →
      Fires F limits python s (.deliver works)
        { s with children := children, deliverer := .noticing n kind }
  | delivererNotice {n : ℕ} {kind : Notice} : s.deliverer = .noticing n kind →
      Fires F limits python s .delivererNotice { s.notice n kind with deliverer := .waiting }
  | attach (generation : ℕ) : Fires F limits python s (.attach generation) (s.attach generation)
  | accept : Fires F limits python s (.setAccepting true) { s with accepting := true }
  | fence : Fires F limits python s (.setAccepting false) (s.setAccepting false)
  | droppedNotice {n : ℕ} {rest : List ℕ} : s.dropped = n :: rest →
      Fires F limits python s .droppedNotice { s.notice n .notDelivered with dropped := rest }
  | finish {child : ℕ} {lastLine : Bytes} {c : ChildInput} : s.children[child]? = some c →
      Fires F limits python s (.finish child lastLine true)
        { s with
          children := s.children.set child ⟨true, lastLine :: c.wrote⟩
          log := .finished child lastLine :: s.log }
  | finishes {child : ℕ} {lastLine : Bytes} {works : Bool} {children : List ChildInput} :
      children.map ChildInput.wrote = s.children.map ChildInput.wrote →
      Fires F limits python s (.finish child lastLine works) { s with children := children }
  | take {kind : Notice} : s.out.closed = false →
      Fires F limits python s (.take kind) { s with out := s.out.take kind }
  | close : Fires F limits python s .close { s with out := s.out.close }
  | broken : Fires F limits python s .broken (s.requestStop .stoppedReading)

/-- Reading, by what `readline` returned. -/
theorem fires_takeLine (hr : s.reader = .reading) {r : Bytes × Bytes}
    (hline : r = readline (limits.maxCommandBytes + 1) s.rest) :
    Fires F limits python s (.read false)
      ({ s with rest := r.2 }.takeLine F limits python r.1) := by
  have happ : s.rest = r.1 ++ r.2 := by rw [hline, readline_append]
  have hlen : r.1.length ≤ limits.maxCommandBytes + 1 := by
    rw [hline]
    exact readline_length_le _ _
  have hcases := readline_cases (limits.maxCommandBytes + 1) s.rest
  rw [← hline] at hcases
  rw [takeLine]
  split
  · rename_i hnil
    have hrest : s.rest = [] := by
      rw [hline] at hnil
      exact readline_eq_nil hnil
    have hr2 : r.2 = [] := by
      rw [hrest, hnil] at happ
      exact happ.symm
    have hs : { s with rest := r.2, reader := Reader.stopping true } =
        { s with reader := .stopping true } := by rw [hr2, ← hrest]
    exact hs ▸ .readEnd hr hrest
  · rename_i hne
    split
    · rename_i hover
      rcases hcases with hwhole | ⟨hno, -⟩
      · rw [if_pos (endsLine_of_wholeLine hwhole)]
        exact .readLast hr happ hover hwhole
      · rw [if_neg (by rw [endsLine_eq_false hno]; simp)]
        exact .readMore hr happ hover hno
    · rename_i hover
      have hover : s.oversized = false := Bool.eq_false_iff.mpr hover
      rcases hcases with hwhole | ⟨hno, hend⟩
      · rw [if_neg (by rw [endsLine_of_wholeLine hwhole]; simp)]
        by_cases hblank : blank r.1 = true
        · rw [if_pos hblank]
          exact .readBlank hr happ hover hwhole hlen hblank
        · rw [if_neg hblank]
          split
          · exact .readDies hr happ hover hwhole hlen ‹_›
          · exact .readShutdown hr happ hover hwhole hlen ‹_›
          · exact .readCommand hr happ hover hwhole hlen (Bool.eq_false_iff.mpr hblank) ‹_›
      · rw [if_pos (endsLine_eq_false hno)]
        by_cases hlong : limits.maxCommandBytes < r.1.length
        · rw [if_pos hlong]
          exact .readTooLarge hr happ hover hno hlong
        · rw [if_neg hlong]
          have hr2 : r.2 = [] := hend.resolve_left (by omega)
          rw [hr2, List.append_nil] at happ
          rw [hr2]
          exact .readIncomplete hr happ hover hne hno (by omega)

theorem map_wrote_set {children : List ChildInput} {child : ℕ} {c c' : ChildInput}
    (hc : children[child]? = some c) (hw : c'.wrote = c.wrote) :
    (children.set child c').map ChildInput.wrote = children.map ChildInput.wrote := by
  have hget : (children.map ChildInput.wrote)[child]? = some c.wrote := by
    rw [List.getElem?_map, hc]
    rfl
  obtain ⟨_, hself⟩ := List.getElem?_eq_some_iff.mp hget
  rw [List.map_set, hw, ← hself, List.set_getElem_self]

theorem fires_deliver {n : ℕ} {line : Bytes} {target : Option ℕ}
    (hd : s.deliverer = .holding n line target) (works : Bool) :
    Fires F limits python s (.deliver works) (s.deliver n line target works) := by
  have hnot : Fires F limits python s (.deliver works)
      { s with deliverer := .noticing n .notDelivered } := .undelivered hd (.inr rfl) rfl
  cases target with
  | none => exact hnot
  | some child =>
    rw [deliver]
    split
    · exact hnot
    · rename_i c hc
      by_cases hclosed : c.closed = true
      · simp only [ChildInput.write, if_pos hclosed]
        exact .undelivered hd (.inr rfl) (map_wrote_set hc rfl)
      · cases works with
        | true =>
          simp only [ChildInput.write, if_neg hclosed, if_true]
          exact .write hd hc
        | false =>
          simp only [ChildInput.write, if_neg hclosed]
          exact .undelivered hd (.inl rfl) (map_wrote_set hc rfl)

theorem fires (h : s.step F limits python m = some s') : Fires F limits python s m s' := by
  cases m with
  | read fails =>
    rw [step] at h
    split at h
    · rename_i hr
      cases fails with
      | true => exact Option.some.inj h ▸ .readFails hr
      | false => exact Option.some.inj h ▸ fires_takeLine hr rfl
    · contradiction
  | submit =>
    rw [step] at h
    split at h
    · rename_i n line hr
      cases h
      rw [submit]
      split
      · rename_i hok
        exact .queue hr hok.1 hok.2.1 hok.2.2
      · apply Fires.refuse hr
        split
        · exact .inl rfl
        · exact .inr rfl
    · contradiction
  | readerNotice =>
    rw [step] at h
    split at h
    · exact Option.some.inj h ▸ .readerNotice ‹_›
    · contradiction
  | readerStop =>
    rw [step] at h
    split at h
    · exact Option.some.inj h ▸ .readerEnds ‹_›
    · exact Option.some.inj h ▸ .readerAsks ‹_›
    · contradiction
  | pop =>
    rw [step] at h
    split at h
    · rename_i hd
      rw [DesktopRelay.pop] at h
      split at h
      · contradiction
      · rename_i n line rest hp
        split at h
        · contradiction
        · refine Option.some.inj h ▸ .pop hd hp ?_
          intro child hchild
          split at hchild
          · exact hchild
          · contradiction
    · contradiction
  | deliver works =>
    rw [step] at h
    split at h
    · exact Option.some.inj h ▸ fires_deliver ‹_› works
    · contradiction
  | delivererNotice =>
    rw [step] at h
    split at h
    · exact Option.some.inj h ▸ .delivererNotice ‹_›
    · contradiction
  | attach generation => exact Option.some.inj h ▸ .attach generation
  | setAccepting accepting =>
    cases h
    cases accepting with
    | true => exact .accept
    | false => exact .fence
  | droppedNotice =>
    rw [step] at h
    split at h
    · exact Option.some.inj h ▸ .droppedNotice ‹_›
    · contradiction
  | finish child lastLine works =>
    rw [step] at h
    split at h
    · rename_i c hc
      cases h
      by_cases hok : c.closed = false ∧ works = true
      · obtain ⟨hclosed, rfl⟩ := hok
        rw [if_pos ⟨hclosed, rfl⟩, ChildInput.finish, if_neg (by simp [hclosed]), if_pos rfl]
        exact .finish hc
      · rw [if_neg hok]
        apply Fires.finishes
        apply map_wrote_set hc
        rw [ChildInput.finish]
        split
        · rfl
        · rename_i hclosed
          rw [if_neg fun hw => hok ⟨Bool.eq_false_iff.mpr hclosed, hw⟩]
    · contradiction
  | take kind =>
    rw [step] at h
    split at h
    · contradiction
    · rename_i hopen
      exact Option.some.inj h ▸ .take (Bool.eq_false_iff.mpr fun hc => hopen (.inl hc))
  | close => exact Option.some.inj h ▸ .close
  | broken => exact Option.some.inj h ▸ .broken

end DesktopRelay
end QronosAgent.Desktop

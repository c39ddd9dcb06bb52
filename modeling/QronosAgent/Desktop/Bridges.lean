import QronosAgent.Desktop.Flow

/-! In how many places a line is, what is known of it there, the order of the lines and the room
that they take. -/
namespace QronosAgent.Desktop
open Lib

namespace DesktopRelay
variable {F : Type} [PyFloat F] {limits : RelayLimits} {python : JsonLimits} {input : Bytes}
  {s s' : DesktopRelay} {m : RelayMove}

/-- In how many places line `n` is. -/
def places (s : DesktopRelay) (n : ℕ) : ℕ :=
  (s.waiting.map Prod.fst).count n + (s.owed.map Prod.fst).count n +
    (s.written.map Prod.fst).count n + (s.counted.map Prod.fst).count n

theorem count_of_perm {owed owed' : List (ℕ × Notice)} (h : owed'.Perm owed) (n : ℕ) :
    (owed'.map Prod.fst).count n = (owed.map Prod.fst).count n :=
  (h.map _).count_eq n

theorem toNat_begins {b : Bool} {n k : ℕ} (h : n = k → b = false) :
    (b || decide (n = k)).toNat = b.toNat + if n = k then 1 else 0 := by
  by_cases hn : n = k
  · simp [hn, h hn]
  · simp [hn]

theorem places_step (hm : Moved F limits python s s') (n : ℕ)
    (hs : s.places n = (begun F limits python s n).toNat) :
    s'.places n = (begun F limits python s' n).toNat := by
  rw [places] at hs ⊢
  cases hm with
  | still hb hw ho hwr hc => rw [hb, hw, hwr, hc, count_of_perm ho, hs]
  | enters hb hnext _ _ hw ho hwr hc =>
    rw [hb, hw, hwr, hc, count_of_perm ho, toNat_begins fun h => h ▸ hnext, ← hs]
    simp only [List.map_append, List.map_cons, List.map_nil, List.count_append,
      List.count_singleton, beq_iff_eq, eq_comm (a := n)]
    omega
  | owes hb hnext _ hw ho hwr hc =>
    rw [hb, hw, hwr, hc, count_of_perm ho, toNat_begins fun h => h ▸ hnext, ← hs]
    simp only [List.map_cons, List.count_cons, beq_iff_eq, eq_comm (a := n)]
    omega
  | @gives front given back kind hb _ hw hw' ho hwr hc =>
    have hgiven : (given.map fun p => (p.1, kind)).map Prod.fst = given.map Prod.fst := by
      rw [List.map_map]
      rfl
    rw [hw] at hs
    rw [hb, hw', hwr, hc, count_of_perm ho, ← hs]
    simp only [List.map_append, hgiven, List.count_append]
    omega
  | writes hb hw ho hwr hc =>
    rw [hw] at hs
    rw [hb, hwr, hc, count_of_perm ho, ← hs]
    simp only [List.map_cons, List.count_cons]
    omega
  | counts hb hw ho hwr hc =>
    rw [count_of_perm ho] at hs
    rw [hb, hw, hwr, hc, ← hs]
    simp only [List.map_cons, List.count_cons]
    omega

structure Facts (limits : RelayLimits) (s : DesktopRelay) : Prop where
  lines : ∀ p, p ∈ s.waiting ∨ p ∈ s.written → Fits limits s p.1 p.2
  kinds : ∀ p, p ∈ s.owed ∨ p ∈ s.counted → Reason limits s p.1 p.2

theorem Facts.step (hs : Facts limits s) (hg : Grows limits s s')
    (hm : Moved F limits python s s') : Facts limits s' := by
  have hlines : ∀ p, p ∈ s.waiting ∨ p ∈ s.written → Fits limits s' p.1 p.2 :=
    fun p hp => hg.fits _ _ (hs.lines p hp)
  have hkinds : ∀ p, p ∈ s.owed ∨ p ∈ s.counted → Reason limits s' p.1 p.2 :=
    fun p hp => hg.reason _ _ (hs.kinds p hp)
  cases hm with
  | still _ hw ho hwr hc =>
    refine ⟨fun p hp => hlines p ?_, fun p hp => hkinds p ?_⟩
    · rwa [hw, hwr] at hp
    · rwa [ho.mem_iff, hc] at hp
  | enters _ _ _ hfits hw ho hwr hc =>
    refine ⟨fun p hp => ?_, fun p hp => hkinds p ?_⟩
    · rw [hw, hwr, List.mem_append, List.mem_singleton] at hp
      rcases hp with (hp | rfl) | hp
      · exact hlines p (.inl hp)
      · exact hfits
      · exact hlines p (.inr hp)
    · rwa [ho.mem_iff, hc] at hp
  | owes _ _ hreason hw ho hwr hc =>
    refine ⟨fun p hp => hlines p ?_, fun p hp => ?_⟩
    · rwa [hw, hwr] at hp
    · rw [ho.mem_iff, hc, List.mem_cons] at hp
      rcases hp with (rfl | hp) | hp
      · exact hreason
      · exact hkinds p (.inl hp)
      · exact hkinds p (.inr hp)
  | @gives front given back kind _ hkind hw hw' ho hwr hc =>
    refine ⟨fun p hp => hlines p ?_, fun p hp => ?_⟩
    · rw [hw', hwr] at hp
      rw [hw]
      simp only [List.mem_append] at hp ⊢
      tauto
    · rw [ho.mem_iff, hc, List.mem_append] at hp
      rcases hp with (hp | hp) | hp
      · obtain ⟨q, hq, rfl⟩ := List.mem_map.mp hp
        have hfits : Fits limits s' q.1 q.2 := by
          apply hlines q
          rw [hw]
          simp [hq]
        rcases hkind with rfl | rfl | rfl <;> exact ⟨_, hfits⟩
      · exact hkinds p (.inl hp)
      · exact hkinds p (.inr hp)
  | writes _ hw ho hwr hc =>
    refine ⟨fun p hp => hlines p ?_, fun p hp => hkinds p ?_⟩
    · rw [hwr, List.mem_cons] at hp
      rw [hw, List.mem_cons]
      tauto
    · rwa [ho.mem_iff, hc] at hp
  | counts _ hw ho hwr hc =>
    refine ⟨fun p hp => hlines p ?_, fun p hp => hkinds p ?_⟩
    · rwa [hw, hwr] at hp
    · rw [hc, List.mem_cons] at hp
      rw [ho.mem_iff, List.mem_cons]
      tauto

theorem Fits.lt {n : ℕ} {line : Bytes} (h : Fits limits s n line) : n < s.done.length :=
  (List.getElem?_eq_some_iff.mp h.1).1

structure InOrder (s : DesktopRelay) : Prop where
  waiting : (s.waiting.map Prod.fst).Pairwise (· < ·)
  behind : ∀ p ∈ s.written, ∀ q ∈ s.waiting, p.1 < q.1
  written : (s.written.map Prod.fst).Pairwise (· > ·)

theorem InOrder.step (hs : InOrder s) (hf : Facts limits s)
    (hm : Moved F limits python s s') : InOrder s' := by
  cases hm with
  | still _ hw _ hwr _ | owes _ _ _ hw _ hwr _ | counts _ hw _ hwr _ =>
    exact ⟨hw ▸ hs.waiting, by rw [hw, hwr]; exact hs.behind, hwr ▸ hs.written⟩
  | enters _ _ _ _ hw _ hwr _ =>
    have hlt : ∀ p, p ∈ s.waiting ∨ p ∈ s.written → p.1 < s.done.length :=
      fun p hp => (hf.lines p hp).lt
    refine ⟨?_, ?_, hwr ▸ hs.written⟩
    · rw [hw, List.map_append, List.pairwise_append]
      refine ⟨hs.waiting, by simp, ?_⟩
      intro a ha b hb
      obtain ⟨p, hp, rfl⟩ := List.mem_map.mp ha
      cases List.mem_singleton.mp hb
      exact hlt p (.inl hp)
    · rw [hw, hwr]
      intro p hp q hq
      rcases List.mem_append.mp hq with hq | hq
      · exact hs.behind p hp q hq
      · cases List.mem_singleton.mp hq
        exact hlt p (.inr hp)
  | @gives front given back _ _ _ hw hw' _ hwr _ =>
    have hsub : s'.waiting.Sublist s.waiting := by
      rw [hw, hw', List.append_assoc]
      exact (List.sublist_append_right given back).append_left front
    exact ⟨hs.waiting.sublist (hsub.map _),
      hwr ▸ fun p hp q hq => hs.behind p hp q (hsub.subset hq), hwr ▸ hs.written⟩
  | @writes p _ hw _ hwr _ =>
    have hwaiting := hs.waiting
    rw [hw, List.map_cons, List.pairwise_cons] at hwaiting
    have hbehind := hs.behind
    refine ⟨hwaiting.2, ?_, ?_⟩
    · rw [hwr]
      intro a ha q hq
      rcases List.mem_cons.mp ha with rfl | ha
      · exact hwaiting.1 _ (List.mem_map_of_mem hq)
      · exact hbehind a ha q (by rw [hw]; exact List.mem_cons_of_mem _ hq)
    · rw [hwr, List.map_cons, List.pairwise_cons]
      refine ⟨?_, hs.written⟩
      intro b hb
      obtain ⟨q, hq, rfl⟩ := List.mem_map.mp hb
      exact hbehind q hq p (by rw [hw]; exact List.mem_cons_self)

structure Room (limits : RelayLimits) (s : DesktopRelay) : Prop where
  bytes : s.pendingBytes = (s.pending.map fun p => p.2.length).sum
  budget : s.pendingBytes ≤ limits.pendingBudget
  items : s.pending.length ≤ limits.maxPending

theorem Room.step (hs : Room limits s) (h : Fires F limits python s m s') : Room limits s' := by
  obtain ⟨hbytes, hbudget, hitems⟩ := hs
  cases h with
  | queue hr ha hroom hfits =>
    refine ⟨?_, hfits, ?_⟩
    · simp [hbytes]
    · simp only [List.length_append, List.length_singleton]
      omega
  | pop hd hp =>
    rw [hp] at hbytes hitems
    simp only [List.map_cons, List.sum_cons] at hbytes
    simp only [List.length_cons] at hitems
    refine ⟨?_, ?_, ?_⟩ <;> dsimp only <;> omega
  | fence => exact ⟨rfl, by simp [setAccepting], by simp [setAccepting]⟩
  | _ => exact ⟨hbytes, hbudget, hitems⟩

end DesktopRelay

def LetGo (n : ℕ) (log : List Event) : Prop := .refused n ∈ log ∨ ∃ target, .popped n target ∈ log

def AttachedAfter (n child : ℕ) (log : List Event) : Prop :=
  ∃ later earlier, log = later ++ .attached child :: earlier ∧ LetGo n earlier

variable {n child : ℕ} {e : Event} {log : List Event} {lines : List (ℕ × Bytes)}

theorem letGo_cons :
    LetGo n (e :: log) ↔ (e = .refused n ∨ ∃ target, e = .popped n target) ∨ LetGo n log := by
  simp only [LetGo, List.mem_cons, eq_comm (a := e), exists_or]
  tauto

theorem attachedAfter_cons :
    AttachedAfter n child (e :: log) ↔
      e = .attached child ∧ LetGo n log ∨ AttachedAfter n child log := by
  constructor
  · rintro ⟨later, earlier, heq, hgo⟩
    cases later with
    | nil =>
      cases heq
      exact .inl ⟨rfl, hgo⟩
    | cons e' later =>
      cases heq
      exact .inr ⟨later, earlier, rfl, hgo⟩
  · rintro (⟨rfl, hgo⟩ | ⟨later, earlier, rfl, hgo⟩)
    · exact ⟨[], log, rfl, hgo⟩
    · exact ⟨e :: later, earlier, rfl, hgo⟩

theorem AttachedAfter.letGo (h : AttachedAfter n child log) :
    LetGo n log := by
  obtain ⟨later, earlier, rfl, hgo⟩ := h
  rcases hgo with hgo | ⟨target, hgo⟩
  · exact .inl (by simp [hgo])
  · exact .inr ⟨target, by simp [hgo]⟩

theorem letGo_refused :
    LetGo n ((lines.map fun p => .refused p.1) ++ log) ↔
      n ∈ lines.map Prod.fst ∨ LetGo n log := by
  induction lines with
  | nil => simp
  | cons p lines ih =>
    rw [List.map_cons, List.cons_append, letGo_cons, ih]
    simp [eq_comm (a := n), or_assoc]

theorem attachedAfter_refused :
    AttachedAfter n child ((lines.map fun p => .refused p.1) ++ log) ↔
      AttachedAfter n child log := by
  induction lines with
  | nil => rfl
  | cons p lines ih =>
    rw [List.map_cons, List.cons_append, attachedAfter_cons, ih]
    simp

def Event.passing : Event → Bool
  | .refused _ | .popped _ _ | .attached _ => false
  | _ => true

theorem letGo_passing (he : e.passing = true) :
    LetGo n (e :: log) ↔ LetGo n log := by
  rw [letGo_cons]
  cases e <;> simp_all [Event.passing]

theorem attachedAfter_passing (he : e.passing = true) :
    AttachedAfter n child (e :: log) ↔ AttachedAfter n child log := by
  rw [attachedAfter_cons]
  cases e <;> simp_all [Event.passing]

namespace DesktopRelay
variable {F : Type} [PyFloat F] {limits : RelayLimits} {python : JsonLimits}
  {s s' : DesktopRelay} {m : RelayMove}

/-- The bridge exists, and was there when the line was let go. -/
def Meets (s : DesktopRelay) (n child : ℕ) : Prop :=
  child < s.children.length ∧ ¬AttachedAfter n child s.log

structure Bridges (s : DesktopRelay) : Prop where
  input : ∀ child, s.input = some child → child < s.children.length
  target : ∀ n line child, s.deliverer = .holding n line (some child) → s.Meets n child
  wrote : ∀ n child line, .wrote n child line ∈ s.log → s.Meets n child
  finished : ∀ child lastLine, .finished child lastLine ∈ s.log → child < s.children.length
  queued : ∀ p ∈ s.pending ++ s.reader.lines, ¬LetGo p.1 s.log
  gone : ∀ n, LetGo n s.log → n < s.done.length

namespace Bridges

/-- A move that lets nothing go, attaches nothing and writes nothing. -/
theorem of_passing (hs : Bridges s) (hinput : s'.input = s.input)
    (hchildren : s'.children.length = s.children.length) (hdone : s.done.length ≤ s'.done.length)
    (htarget : ∀ n line child, s'.deliverer = .holding n line (some child) →
      s.deliverer = .holding n line (some child))
    (hqueued : ∀ p ∈ s'.pending ++ s'.reader.lines,
      p ∈ s.pending ++ s.reader.lines ∨ s.done.length ≤ p.1)
    (hlog : s'.log = s.log ∨ ∃ e, s'.log = e :: s.log ∧ e.passing = true ∧
      e.line? = none ∧ ∀ child lastLine, e ≠ .finished child lastLine) : Bridges s' := by
  have hgo : ∀ n, LetGo n s'.log ↔ LetGo n s.log := by
    intro n
    rcases hlog with h | ⟨e, h, he, -⟩
    · rw [h]
    · rw [h, letGo_passing he]
  have hmeets : ∀ n child, s.Meets n child → s'.Meets n child := by
    intro n child h
    refine ⟨hchildren ▸ h.1, ?_⟩
    rcases hlog with heq | ⟨e, heq, he, -⟩
    · rw [heq]
      exact h.2
    · rw [heq, attachedAfter_passing he]
      exact h.2
  refine ⟨?_, ?_, ?_, ?_, ?_, ?_⟩
  · intro child h
    rw [hinput] at h
    exact hchildren ▸ hs.input child h
  · exact fun n line child h => hmeets n child (hs.target n line child (htarget n line child h))
  · intro n child line h
    apply hmeets n child
    apply hs.wrote n child line
    rcases hlog with heq | ⟨e, heq, -, hline, -⟩
    · exact heq ▸ h
    · rw [heq, List.mem_cons] at h
      rcases h with rfl | h
      · contradiction
      · exact h
  · intro child lastLine h
    rw [hchildren]
    apply hs.finished child lastLine
    rcases hlog with heq | ⟨e, heq, -, -, hfin⟩
    · exact heq ▸ h
    · rw [heq, List.mem_cons] at h
      rcases h with rfl | h
      · exact absurd rfl (hfin child lastLine)
      · exact h
  · intro p hp
    rw [hgo]
    rcases hqueued p hp with h | h
    · exact hs.queued p h
    · intro hl
      have := hs.gone p.1 hl
      omega
  · exact fun n h => (hs.gone n ((hgo n).mp h)).trans_le hdone

theorem step (hs : Bridges s) (hf : Facts limits s) (ho : InOrder s)
    (h : Fires F limits python s m s') : Bridges s' := by
  have hquiet : ∀ e : Event, e.passing = true → e.line? = none →
      (∀ child lastLine, e ≠ .finished child lastLine) →
      ∃ e', e :: s.log = e' :: s.log ∧ e'.passing = true ∧ e'.line? = none ∧
        ∀ child lastLine, e' ≠ .finished child lastLine := fun e h1 h2 h3 => ⟨e, rfl, h1, h2, h3⟩
  cases h with
  | readFails hr =>
    refine hs.of_passing rfl rfl (le_refl _) (fun _ _ _ h => h) ?_
      (.inr (hquiet .readFailed rfl rfl (by simp)))
    simp +contextual [Reader.lines]
  | readEnd hr | readTooLarge hr | readIncomplete hr =>
    refine hs.of_passing rfl rfl (le_refl _) (fun _ _ _ h => h) ?_ (.inl rfl)
    simp +contextual [Reader.lines]
  | readMore hr =>
    exact hs.of_passing rfl rfl (le_refl _) (fun _ _ _ h => h) (fun _ h => .inl h) (.inl rfl)
  | readLast hr | readBlank hr =>
    exact hs.of_passing rfl rfl (by simp) (fun _ _ _ h => h) (fun _ h => .inl h) (.inl rfl)
  | readDies hr | readShutdown hr =>
    refine hs.of_passing rfl rfl (by simp) (fun _ _ _ h => h) ?_ (.inl rfl)
    simp +contextual [Reader.lines]
  | readCommand hr =>
    refine hs.of_passing rfl rfl (by simp) (fun _ _ _ h => h) ?_ (.inl rfl)
    intro p hp
    rcases List.mem_append.mp hp with hp | hp
    · exact .inl (List.mem_append_left _ hp)
    · cases List.mem_singleton.mp hp
      exact .inr (le_refl _)
  | queue hr =>
    refine hs.of_passing rfl rfl (le_refl _) (fun _ _ _ h => h) (fun p hp => .inl ?_) (.inl rfl)
    simpa [Reader.lines, hr] using hp
  | @refuse n line kind hr =>
    have hmem : (n, line) ∈ s.waiting := by simp [waiting, hr, Reader.lines]
    have hlt := (hf.lines _ (.inl hmem)).lt
    have hother : ∀ p ∈ s.pending, p.1 ≠ n := by
      intro p hp
      have hsorted := ho.waiting
      rw [waiting, hr, List.map_append, List.pairwise_append] at hsorted
      have := hsorted.2.2 p.1 (List.mem_map_of_mem (List.mem_append_right _ hp)) n
        (by simp [Reader.lines])
      omega
    constructor
    · exact hs.input
    · intro n' line' child h
      refine ⟨(hs.target n' line' child h).1, ?_⟩
      rw [attachedAfter_cons]
      simpa using (hs.target n' line' child h).2
    · intro n' child line' h
      have hw := hs.wrote n' child line' (by simpa using h)
      refine ⟨hw.1, ?_⟩
      rw [attachedAfter_cons]
      simpa using hw.2
    · exact fun child lastLine h => hs.finished child lastLine (by simpa using h)
    · intro p hp hgo
      simp only [Reader.lines, List.append_nil] at hp
      rw [letGo_cons] at hgo
      have hne := hother p hp
      rcases hgo with (hgo | ⟨t, hgo⟩) | hgo
      · exact hne (Event.refused.inj hgo).symm
      · contradiction
      · exact hs.queued p (List.mem_append_left _ hp) hgo
    · intro n' hgo
      rw [letGo_cons] at hgo
      rcases hgo with (hgo | ⟨t, hgo⟩) | hgo
      · obtain rfl := Event.refused.inj hgo
        exact hlt
      · contradiction
      · exact hs.gone n' hgo
  | @readerNotice n kind hr =>
    refine hs.of_passing rfl rfl (le_refl _) (fun _ _ _ h => h) ?_
      (.inr (hquiet (.counted n kind) rfl rfl (by simp)))
    simp +contextual [Reader.lines, notice]
  | readerEnds hr | readerAsks hr =>
    refine hs.of_passing rfl rfl (le_refl _) (fun _ _ _ h => h) ?_
      (.inr (hquiet .stopRequested rfl rfl (by simp)))
    simp +contextual [Reader.lines, requestStop]
  | @pop n line rest target hd hp htarget =>
    have hmem : (n, line) ∈ s.waiting := by simp [waiting, hp]
    have hlt := (hf.lines _ (.inl hmem)).lt
    have hkeep : ¬LetGo n s.log := hs.queued (n, line) (by simp [hp])
    have hother : ∀ p ∈ rest ++ s.reader.lines, p.1 ≠ n := by
      intro p hp'
      have hsorted := ho.waiting
      rw [waiting, hd, hp] at hsorted
      simp only [Deliverer.lines, List.nil_append, List.cons_append, List.map_cons,
        List.pairwise_cons] at hsorted
      have := hsorted.1 p.1 (List.mem_map_of_mem hp')
      omega
    constructor
    · exact hs.input
    · intro n' line' child h
      obtain ⟨rfl, -, rfl⟩ := Deliverer.holding.inj h
      refine ⟨hs.input child (htarget child rfl), ?_⟩
      rw [attachedAfter_cons]
      simpa using fun h : AttachedAfter n child s.log => hkeep h.letGo
    · intro n' child line' h
      have hw := hs.wrote n' child line' (by simpa using h)
      refine ⟨hw.1, ?_⟩
      rw [attachedAfter_cons]
      simpa using hw.2
    · exact fun child lastLine h => hs.finished child lastLine (by simpa using h)
    · intro p hp' hgo
      rw [letGo_cons] at hgo
      have hne := hother p hp'
      rcases hgo with (hgo | ⟨t, hgo⟩) | hgo
      · contradiction
      · exact hne (Event.popped.inj hgo).1.symm
      · refine hs.queued p ?_ hgo
        rw [hp]
        exact List.mem_cons_of_mem _ hp'
    · intro n' hgo
      rw [letGo_cons] at hgo
      rcases hgo with (hgo | ⟨t, hgo⟩) | hgo
      · contradiction
      · obtain ⟨rfl, -⟩ := Event.popped.inj hgo
        exact hlt
      · exact hs.gone n' hgo
  | @write n child line c hd hc =>
    have hmeets : ∀ n' child', s.Meets n' child' → Meets { s with
        children := s.children.set child { c with wrote := line :: c.wrote }
        deliverer := .waiting
        log := .wrote n child line :: s.log } n' child' := by
      intro n' child' h
      refine ⟨by simpa using h.1, ?_⟩
      rw [attachedAfter_passing rfl]
      exact h.2
    constructor
    · simpa using hs.input
    · intro n' line' child' h
      contradiction
    · intro n' child' line' h
      apply hmeets
      rcases List.mem_cons.mp h with h | h
      · obtain ⟨rfl, rfl, rfl⟩ := Event.wrote.inj h
        exact hs.target _ _ _ hd
      · exact hs.wrote n' child' line' h
    · intro child' lastLine h
      simpa using hs.finished child' lastLine (by simpa using h)
    · intro p hp
      rw [letGo_passing rfl]
      exact hs.queued p hp
    · intro n' h
      rw [letGo_passing rfl] at h
      exact hs.gone n' h
  | undelivered hd _ hwrote =>
    have hlen := congrArg List.length hwrote
    simp only [List.length_map] at hlen
    exact hs.of_passing rfl hlen (le_refl _) (by simp) (fun _ h => .inl h) (.inl rfl)
  | @delivererNotice n kind hd =>
    exact hs.of_passing rfl rfl (le_refl _) (by simp) (fun _ h => .inl h)
      (.inr (hquiet (.counted n kind) rfl rfl (by simp)))
  | attach generation =>
    have hold : ∀ n child, s.Meets n child → (s.attach generation).Meets n child := by
      intro n child h
      refine ⟨?_, ?_⟩
      · simp only [attach, List.length_append, List.length_singleton]
        have := h.1
        omega
      · rw [attach, attachedAfter_cons]
        rintro (⟨heq, -⟩ | hafter)
        · have := h.1
          have := Event.attached.inj heq
          omega
        · exact h.2 hafter
    constructor
    · intro child h
      cases h
      simp [attach]
    · exact fun n line child h => hold n child (hs.target n line child h)
    · exact fun n child line h => hold n child (hs.wrote n child line (by simpa [attach] using h))
    · intro child lastLine h
      have := hs.finished child lastLine (by simpa [attach] using h)
      simp only [attach, List.length_append, List.length_singleton]
      omega
    · intro p hp
      rw [attach, letGo_cons]
      simpa using hs.queued p hp
    · intro n h
      rw [attach, letGo_cons] at h
      exact hs.gone n (by simpa using h)
  | accept | take | close =>
    exact hs.of_passing rfl rfl (le_refl _) (fun _ _ _ h => h) (fun _ h => .inl h) (.inl rfl)
  | fence =>
    have hmeets : ∀ n child, s.Meets n child → (s.setAccepting false).Meets n child :=
      fun n child h => ⟨h.1, fun ha => h.2 (attachedAfter_refused.mp ha)⟩
    constructor
    · intro child h
      contradiction
    · exact fun n line child h => hmeets n child (hs.target n line child h)
    · intro n child line h
      apply hmeets
      apply hs.wrote n child line
      simpa [setAccepting] using h
    · intro child lastLine h
      exact hs.finished child lastLine (by simpa [setAccepting] using h)
    · intro p hp hgo
      have hreader : p ∈ s.reader.lines := by simpa [setAccepting] using hp
      rcases letGo_refused.mp hgo with hgo | hgo
      · have hsorted := ho.waiting
        rw [waiting, List.map_append, List.pairwise_append] at hsorted
        have := hsorted.2.2 p.1 (by simp only [List.map_append, List.mem_append]; exact .inr hgo)
          p.1 (List.mem_map_of_mem hreader)
        omega
      · exact hs.queued p (List.mem_append_right _ hreader) hgo
    · intro n hgo
      rcases letGo_refused.mp hgo with hgo | hgo
      · obtain ⟨p, hp, rfl⟩ := List.mem_map.mp hgo
        refine (hf.lines p (.inl ?_)).lt
        simp [waiting, hp]
      · exact hs.gone n hgo
  | @droppedNotice n rest hd =>
    exact hs.of_passing rfl rfl (le_refl _) (fun _ _ _ h => h) (fun _ h => .inl h)
      (.inr (hquiet (.counted n .notDelivered) rfl rfl (by simp)))
  | @finish child lastLine c hc =>
    have hlt : child < s.children.length := (List.getElem?_eq_some_iff.mp hc).1
    have hmeets : ∀ n' child', s.Meets n' child' → Meets { s with
        children := s.children.set child ⟨true, lastLine :: c.wrote⟩
        log := .finished child lastLine :: s.log } n' child' := by
      intro n' child' h
      refine ⟨by simpa using h.1, ?_⟩
      rw [attachedAfter_passing rfl]
      exact h.2
    constructor
    · simpa using hs.input
    · exact fun n line child h => hmeets n child (hs.target n line child h)
    · exact fun n child line h => hmeets n child (hs.wrote n child line (by simpa using h))
    · intro child' lastLine' h
      rcases List.mem_cons.mp h with h | h
      · obtain ⟨rfl, rfl⟩ := Event.finished.inj h
        simpa using hlt
      · simpa using hs.finished child' lastLine' h
    · intro p hp
      rw [letGo_passing rfl]
      exact hs.queued p hp
    · intro n' h
      rw [letGo_passing rfl] at h
      exact hs.gone n' h
  | finishes hwrote =>
    have hlen := congrArg List.length hwrote
    simp only [List.length_map] at hlen
    exact hs.of_passing rfl hlen (le_refl _) (fun _ _ _ h => h) (fun _ h => .inl h) (.inl rfl)
  | broken =>
    exact hs.of_passing rfl rfl (le_refl _) (fun _ _ _ h => h) (fun _ h => .inl h)
      (.inr (hquiet .stopRequested rfl rfl (by simp)))

end Bridges

end DesktopRelay
end QronosAgent.Desktop

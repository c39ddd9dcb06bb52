import Mathlib.Data.List.Basic
import Mathlib.Logic.Relation

/-! What a memory of claimed ids is for, over any devices, ids and fingerprints: an id that was
claimed can be claimed again only after its device was forgotten, or after its command finished
and was then let go. -/
namespace QronosAgent.Link

/-- A claimed id: the run it was given to, what it is bound to, and whether the run has ended. -/
structure Slot (φ : Type*) where
  run : ℕ
  fingerprint : φ
  finished : Bool

inductive MemoryEvent (δ κ φ ο : Type*) where
  | new (device : δ) (command : κ) (run : ℕ) (fingerprint : φ)
  | finished (device : δ) (command : κ) (run : ℕ)
  | expired (device : δ) (command : κ) (run : ℕ)
  /-- Let go while the device's table held `held` entries. -/
  | evicted (device : δ) (command : κ) (run : ℕ) (held : ℕ)
  | forgotten (device : δ)
  | passed (run : ℕ) (outcome : ο)
  deriving DecidableEq

/-- The claimed ids, with the events that led here, the latest first. -/
structure Memory (δ κ φ ο : Type*) where
  slot : δ → κ → Option (Slot φ)
  log : List (MemoryEvent δ κ φ ο)

namespace Memory
variable {δ κ φ ο : Type*}

section Steps
variable [DecidableEq δ] [DecidableEq κ]

def put (slots : δ → κ → Option (Slot φ)) (device : δ) (command : κ) (x : Option (Slot φ)) :
    δ → κ → Option (Slot φ) :=
  fun d c => if d = device ∧ c = command then x else slots d c

@[simp] theorem put_self (slots : δ → κ → Option (Slot φ)) (device : δ) (command : κ)
    (x : Option (Slot φ)) : put slots device command x device command = x := by
  simp [put]

theorem put_ne {slots : δ → κ → Option (Slot φ)} {device d : δ} {command c : κ}
    {x : Option (Slot φ)} (h : ¬ (d = device ∧ c = command)) :
    put slots device command x d c = slots d c := by
  rw [put, if_neg h]

/-- One event of a memory whose tables hold at most `cap` entries a device. -/
inductive Step (cap : ℕ) : Memory δ κ φ ο → Memory δ κ φ ο → Prop
  | new {m : Memory δ κ φ ο} {d : δ} {c : κ} (run : ℕ) (fp : φ) (free : m.slot d c = none) :
      Step cap m ⟨put m.slot d c (some ⟨run, fp, false⟩), .new d c run fp :: m.log⟩
  | finish {m : Memory δ κ φ ο} {d : δ} {c : κ} {run : ℕ} {fp : φ}
      (held : m.slot d c = some ⟨run, fp, false⟩) :
      Step cap m ⟨put m.slot d c (some ⟨run, fp, true⟩), .finished d c run :: m.log⟩
  | expire {m : Memory δ κ φ ο} {d : δ} {c : κ} {run : ℕ} {fp : φ}
      (held : m.slot d c = some ⟨run, fp, true⟩) :
      Step cap m ⟨put m.slot d c none, .expired d c run :: m.log⟩
  | evict {m : Memory δ κ φ ο} {d : δ} {c : κ} {run : ℕ} {fp : φ} (size : ℕ) (full : cap ≤ size)
      (held : m.slot d c = some ⟨run, fp, true⟩) :
      Step cap m ⟨put m.slot d c none, .evicted d c run size :: m.log⟩
  | forget {m : Memory δ κ φ ο} (d : δ) :
      Step cap m ⟨fun d' c => if d' = d then none else m.slot d' c, .forgotten d :: m.log⟩
  | pass {m : Memory δ κ φ ο} (run : ℕ) (o : ο) : Step cap m ⟨m.slot, .passed run o :: m.log⟩

/-- Any number of events. -/
abbrev Steps (cap : ℕ) : Memory δ κ φ ο → Memory δ κ φ ο → Prop :=
  Relation.ReflTransGen (Step cap)

/-- Letting go of several finished slots of one device, in order. -/
theorem Steps.letGo {cap : ℕ} (m n : Memory δ κ φ ο) (d : δ)
    (es : List (κ × MemoryEvent δ κ φ ο)) (hn : (es.map Prod.fst).Nodup)
    (h : ∀ ce ∈ es, ∃ run fp, m.slot d ce.1 = some ⟨run, fp, true⟩ ∧
      (ce.2 = .expired d ce.1 run ∨ ∃ size, cap ≤ size ∧ ce.2 = .evicted d ce.1 run size))
    (hgone : ∀ c ∈ es.map Prod.fst, n.slot d c = none)
    (hkept : ∀ d' c', ¬ (d' = d ∧ c' ∈ es.map Prod.fst) → n.slot d' c' = m.slot d' c')
    (hlog : n.log = (es.map Prod.snd).reverse ++ m.log) : Steps cap m n := by
  induction es generalizing m with
  | nil =>
    have heq : n = m := by
      cases n
      cases m
      simp only [Memory.mk.injEq]
      exact ⟨funext fun d' => funext fun c' => hkept d' c' (by simp), by simpa using hlog⟩
    rw [heq]
  | cons ce es ih =>
    rw [List.map_cons, List.nodup_cons] at hn
    obtain ⟨run, fp, hs, he⟩ := h ce List.mem_cons_self
    have hstep : Step cap m ⟨put m.slot d ce.1 none, ce.2 :: m.log⟩ := by
      obtain he | ⟨size, hsize, he⟩ := he
      · rw [he]
        exact .expire hs
      · rw [he]
        exact .evict size hsize hs
    refine .head hstep (ih ⟨put m.slot d ce.1 none, ce.2 :: m.log⟩ hn.2 (fun ce' hce' => ?_)
      (fun c' hc' => hgone c' (List.mem_cons_of_mem _ hc')) (fun d' c' hnot => ?_) ?_)
    · obtain ⟨run', fp', hs', he'⟩ := h ce' (List.mem_cons_of_mem ce hce')
      have hne : ce'.1 ≠ ce.1 := fun heq => hn.1 (heq ▸ List.mem_map_of_mem hce')
      exact ⟨run', fp', (put_ne fun h => hne h.2).trans hs', he'⟩
    · by_cases hce : d' = d ∧ c' = ce.1
      · rw [hce.1, hce.2, hgone ce.1 List.mem_cons_self]
        exact (put_self _ _ _ _).symm
      · rw [hkept d' c']
        · exact (put_ne hce).symm
        · rintro ⟨hd, hc⟩
          obtain hc | hc := List.mem_cons.mp hc
          · exact hce ⟨hd, hc⟩
          · exact hnot ⟨hd, hc⟩
    · rw [hlog]
      simp

end Steps

def LetGo (cap : ℕ) (log : List (MemoryEvent δ κ φ ο)) (d : δ) (c : κ) (run : ℕ) : Prop :=
  .expired d c run ∈ log ∨ ∃ size, cap ≤ size ∧ .evicted d c run size ∈ log

def Ended (cap : ℕ) (newer : List (MemoryEvent δ κ φ ο)) (d : δ) (c : κ) (run : ℕ) : Prop :=
  .forgotten d ∈ newer ∨
    ∃ late early, newer = late ++ early ∧ LetGo cap late d c run ∧ .finished d c run ∈ early

variable {cap : ℕ} {m n : Memory δ κ φ ο} {d : δ} {c : κ} {run : ℕ} {fp : φ}

theorem Ended.cons {newer : List (MemoryEvent δ κ φ ο)} (h : Ended cap newer d c run)
    (e : MemoryEvent δ κ φ ο) : Ended cap (e :: newer) d c run := by
  obtain h | ⟨late, early, rfl, hl, hf⟩ := h
  · exact .inl (List.mem_cons_of_mem e h)
  · refine .inr ⟨e :: late, early, rfl, ?_, hf⟩
    obtain hl | ⟨size, hs, hl⟩ := hl
    · exact .inl (List.mem_cons_of_mem e hl)
    · exact .inr ⟨size, hs, List.mem_cons_of_mem e hl⟩

def Held (m : Memory δ κ φ ο) (newer : List (MemoryEvent δ κ φ ο)) (d : δ) (c : κ) (run : ℕ)
    (fp : φ) : Prop :=
  ∃ finished, m.slot d c = some ⟨run, fp, finished⟩ ∧
    (finished = true → .finished d c run ∈ newer)

structure Sound (cap : ℕ) (m : Memory δ κ φ ο) : Prop where
  past : ∀ newer older d c run fp, m.log = newer ++ .new d c run fp :: older →
    Ended cap newer d c run ∨ Held m newer d c run fp
  /-- Of two claims of one id the earlier one had ended. -/
  again : ∀ newer between older d c run run' fp fp',
    m.log = newer ++ .new d c run' fp' :: (between ++ .new d c run fp :: older) →
      Ended cap between d c run
  expired : ∀ newer older d c run, m.log = newer ++ .expired d c run :: older →
    .finished d c run ∈ older
  evicted : ∀ newer older d c run size, m.log = newer ++ .evicted d c run size :: older →
    .finished d c run ∈ older ∧ cap ≤ size
  claimed : ∀ d c s, m.slot d c = some s →
    ∃ newer older, m.log = newer ++ .new d c s.run s.fingerprint :: older ∧
      (s.finished = true → .finished d c s.run ∈ newer)

structure Push (cap : ℕ) (m n : Memory δ κ φ ο) (e : MemoryEvent δ κ φ ο) : Prop where
  log : n.log = e :: m.log
  notNew : ∀ d c run fp, e ≠ .new d c run fp
  expired : ∀ d c run, e = .expired d c run → .finished d c run ∈ m.log
  evicted : ∀ d c run size, e = .evicted d c run size → .finished d c run ∈ m.log ∧ cap ≤ size
  held : ∀ newer d c run fp, Held m newer d c run fp →
    Ended cap (e :: newer) d c run ∨ Held n (e :: newer) d c run fp
  slot : ∀ d c s, n.slot d c = some s → ∃ s₀, m.slot d c = some s₀ ∧ s.run = s₀.run ∧
    s.fingerprint = s₀.fingerprint ∧
    (s.finished = true → s₀.finished = true ∨ e = .finished d c s.run)

theorem Sound.push (h : Sound cap m) {e : MemoryEvent δ κ φ ο} (he : Push cap m n e) :
    Sound cap n where
  past newer older d c run fp hlog := by
    rw [he.log, List.cons_eq_append_iff] at hlog
    obtain ⟨rfl, hlog⟩ | ⟨newer, rfl, hlog⟩ := hlog
    · exact absurd (List.cons.inj hlog).1.symm (he.notNew d c run fp)
    · obtain hend | hheld := h.past newer older d c run fp hlog
      · exact .inl (hend.cons e)
      · exact he.held newer d c run fp hheld
  again newer between older d c run run' fp fp' hlog := by
    rw [he.log, List.cons_eq_append_iff] at hlog
    obtain ⟨rfl, hlog⟩ | ⟨newer, rfl, hlog⟩ := hlog
    · exact absurd (List.cons.inj hlog).1.symm (he.notNew d c run' fp')
    · exact h.again newer between older d c run run' fp fp' hlog
  expired newer older d c run hlog := by
    rw [he.log, List.cons_eq_append_iff] at hlog
    obtain ⟨rfl, hlog⟩ | ⟨newer, rfl, hlog⟩ := hlog
    · obtain ⟨heq, rfl⟩ := List.cons.inj hlog
      exact he.expired d c run heq.symm
    · exact h.expired newer older d c run hlog
  evicted newer older d c run size hlog := by
    rw [he.log, List.cons_eq_append_iff] at hlog
    obtain ⟨rfl, hlog⟩ | ⟨newer, rfl, hlog⟩ := hlog
    · obtain ⟨heq, rfl⟩ := List.cons.inj hlog
      exact he.evicted d c run size heq.symm
    · exact h.evicted newer older d c run size hlog
  claimed d c s hs := by
    obtain ⟨s₀, hs₀, hrun, hfp, hfin⟩ := he.slot d c s hs
    obtain ⟨newer, older, hlog, hnewer⟩ := h.claimed d c s₀ hs₀
    refine ⟨e :: newer, older, ?_, fun hf => ?_⟩
    · rw [he.log, hlog, hrun, hfp]
      rfl
    · obtain hf | rfl := hfin hf
      · rw [hrun]
        exact List.mem_cons_of_mem e (hnewer hf)
      · exact List.mem_cons_self

theorem Sound.finished_mem (h : Sound cap m) (hs : m.slot d c = some ⟨run, fp, true⟩) :
    .finished d c run ∈ m.log := by
  obtain ⟨newer, older, hlog, hfin⟩ := h.claimed d c _ hs
  rw [hlog]
  exact List.mem_append_left _ (hfin rfl)

section Preservation
variable [DecidableEq δ] [DecidableEq κ]

theorem held_letGo {newer : List (MemoryEvent δ κ φ ο)} {e : MemoryEvent δ κ φ ο} {d' : δ} {c' : κ}
    {run' : ℕ} {fp' : φ} (hs : m.slot d c = some ⟨run, fp, true⟩) (he : LetGo cap [e] d c run)
    (log : List (MemoryEvent δ κ φ ο)) (hheld : Held m newer d' c' run' fp') :
    Ended cap (e :: newer) d' c' run' ∨
      Held ⟨put m.slot d c none, log⟩ (e :: newer) d' c' run' fp' := by
  obtain ⟨f, hslot, hf⟩ := hheld
  by_cases heq : d' = d ∧ c' = c
  · obtain ⟨rfl, rfl⟩ := heq
    rw [hs] at hslot
    obtain ⟨rfl, rfl, rfl⟩ := Slot.mk.inj (Option.some.inj hslot)
    exact .inl (.inr ⟨[e], newer, rfl, he, hf rfl⟩)
  · exact .inr ⟨f, (put_ne heq).trans hslot, fun h => List.mem_cons_of_mem e (hf h)⟩

theorem slot_of_put_none {d' : δ} {c' : κ} {s : Slot φ}
    (h : put m.slot d c none d' c' = some s) : m.slot d' c' = some s := by
  by_cases heq : d' = d ∧ c' = c
  · rw [put, if_pos heq] at h
    contradiction
  · rwa [put_ne heq] at h

theorem Sound.step (h : Sound cap m) (hst : Step cap m n) : Sound cap n := by
  cases hst with
  | @new d c run fp free =>
    constructor
    · intro newer older d' c' run' fp' hlog
      rw [List.cons_eq_append_iff] at hlog
      obtain ⟨rfl, hlog⟩ | ⟨newer, rfl, hlog⟩ := hlog
      · obtain ⟨heq, rfl⟩ := List.cons.inj hlog
        obtain ⟨rfl, rfl, rfl, rfl⟩ := MemoryEvent.new.inj heq
        exact .inr ⟨false, put_self _ _ _ _, by simp⟩
      · obtain hend | ⟨f, hslot, hf⟩ := h.past newer older d' c' run' fp' hlog
        · exact .inl (hend.cons _)
        · refine .inr ⟨f, (put_ne ?_).trans hslot, fun h => List.mem_cons_of_mem _ (hf h)⟩
          rintro ⟨rfl, rfl⟩
          simp [free] at hslot
    · intro newer between older d' c' run' run'' fp' fp'' hlog
      rw [List.cons_eq_append_iff] at hlog
      obtain ⟨rfl, hlog⟩ | ⟨newer, rfl, hlog⟩ := hlog
      · obtain ⟨heq, htail⟩ := List.cons.inj hlog
        obtain ⟨rfl, rfl, rfl, rfl⟩ := MemoryEvent.new.inj heq
        -- The id was free, so the earlier claim cannot be held any more.
        obtain hend | ⟨f, hslot, _⟩ := h.past between older d' c' run' fp' htail.symm
        · exact hend
        · simp [free] at hslot
      · exact h.again newer between older d' c' run' run'' fp' fp'' hlog
    · intro newer older d' c' run' hlog
      rw [List.cons_eq_append_iff] at hlog
      obtain ⟨rfl, hlog⟩ | ⟨newer, rfl, hlog⟩ := hlog
      · simp at hlog
      · exact h.expired newer older d' c' run' hlog
    · intro newer older d' c' run' size hlog
      rw [List.cons_eq_append_iff] at hlog
      obtain ⟨rfl, hlog⟩ | ⟨newer, rfl, hlog⟩ := hlog
      · simp at hlog
      · exact h.evicted newer older d' c' run' size hlog
    · intro d' c' s hs
      dsimp only at hs
      by_cases heq : d' = d ∧ c' = c
      · obtain ⟨rfl, rfl⟩ := heq
        rw [put_self] at hs
        cases hs
        exact ⟨[], m.log, rfl, by simp⟩
      · rw [put_ne heq] at hs
        obtain ⟨newer, older, hlog, hfin⟩ := h.claimed d' c' s hs
        exact ⟨_ :: newer, older, by rw [hlog]; rfl, fun hf => List.mem_cons_of_mem _ (hfin hf)⟩
  | @finish d c run fp held =>
    refine h.push (e := .finished d c run)
      ⟨rfl, by simp, by simp, by simp, fun newer d' c' run' fp' hheld => ?_, fun d' c' s hs => ?_⟩
    · obtain ⟨f, hslot, hf⟩ := hheld
      right
      by_cases heq : d' = d ∧ c' = c
      · obtain ⟨rfl, rfl⟩ := heq
        rw [held] at hslot
        obtain ⟨rfl, rfl, rfl⟩ := Slot.mk.inj (Option.some.inj hslot)
        exact ⟨true, put_self _ _ _ _, fun _ => List.mem_cons_self⟩
      · exact ⟨f, (put_ne heq).trans hslot, fun h => List.mem_cons_of_mem _ (hf h)⟩
    · dsimp only at hs
      by_cases heq : d' = d ∧ c' = c
      · obtain ⟨rfl, rfl⟩ := heq
        rw [put_self] at hs
        cases hs
        exact ⟨_, held, rfl, rfl, fun _ => .inr rfl⟩
      · rw [put_ne heq] at hs
        exact ⟨s, hs, rfl, rfl, .inl⟩
  | @expire d c run fp held =>
    refine h.push (e := .expired d c run) ⟨rfl, by simp, fun d' c' run' heq => ?_, by simp,
      fun newer d' c' run' fp' hheld => held_letGo held (.inl (by simp)) _ hheld,
      fun d' c' s hs => ⟨s, slot_of_put_none hs, rfl, rfl, .inl⟩⟩
    obtain ⟨rfl, rfl, rfl⟩ := MemoryEvent.expired.inj heq
    exact h.finished_mem held
  | @evict d c run fp size full held =>
    refine h.push (e := .evicted d c run size) ⟨rfl, by simp, by simp,
      fun d' c' run' size' heq => ?_,
      fun newer d' c' run' fp' hheld => held_letGo held (.inr ⟨size, full, by simp⟩) _ hheld,
      fun d' c' s hs => ⟨s, slot_of_put_none hs, rfl, rfl, .inl⟩⟩
    obtain ⟨rfl, rfl, rfl, rfl⟩ := MemoryEvent.evicted.inj heq
    exact ⟨h.finished_mem held, full⟩
  | forget d =>
    refine h.push (e := .forgotten d) ⟨rfl, by simp, by simp, by simp,
      fun newer d' c' run' fp' hheld => ?_, fun d' c' s hs => ?_⟩
    · obtain ⟨f, hslot, hf⟩ := hheld
      by_cases heq : d' = d
      · rw [heq]
        exact .inl (.inl List.mem_cons_self)
      · exact .inr ⟨f, by simp [heq, hslot], fun h => List.mem_cons_of_mem _ (hf h)⟩
    · dsimp only at hs
      split at hs
      · contradiction
      · exact ⟨s, hs, rfl, rfl, .inl⟩
  | pass run o =>
    refine h.push (e := .passed run o) ⟨rfl, by simp, by simp, by simp,
      fun newer d' c' run' fp' hheld => ?_, fun d' c' s hs => ⟨s, hs, rfl, rfl, .inl⟩⟩
    obtain ⟨f, hslot, hf⟩ := hheld
    exact .inr ⟨f, hslot, fun h => List.mem_cons_of_mem _ (hf h)⟩

end Preservation

end Memory
end QronosAgent.Link

import Mathlib.Logic.Function.Basic
import QronosAgent.Lib.Machine

/-! `core/foreground_lifecycle.py`: one foreground turn at a time, with its publications ordered
against Stop by a re-entrant lock. Any number of threads call, wait for the lock and go on. -/
namespace QronosAgent.Foreground
open Lib

structure Turn where
  cancelled : Bool
  terminal : Bool
  reported : Bool

inductive Frame where
  /-- in `begin`, with what the context variable held before -/
  | begun (turn : ℕ) (previous : Option ℕ)
  | publishing (turn : Option ℕ) (actionOutcome terminal : Bool)
  | transition

inductive Op where
  | begin (paused busy : Bool)
  | publication (actionOutcome terminal : Bool)
  | transition
  | cancelCurrent (supported : Bool)
  | close
  | claim (turn : Option ℕ)
  /-- The innermost block ends, by an exception or not. -/
  | leave (raised : Bool)

def Op.isStop : Op → Bool
  | .cancelCurrent _ | .close => true
  | _ => false

structure Thread where
  frames : List Frame
  current : Option ℕ
  waiting : Option Op

inductive Event where
  | stopCalled (thread : ℕ)
  | stopped (turn : ℕ)
  | closed
  | began (turn : ℕ)
  | ended (turn : ℕ)
  /-- A publication that is no action outcome has begun, or is complete. -/
  | entered (turn : ℕ)
  | published (turn : ℕ)
  | finished (turn : ℕ)
  | claimed (turn : ℕ)
  deriving DecidableEq

structure Lifecycle where
  active : Option ℕ
  closed : Bool
  next : ℕ
  turns : ℕ → Turn
  owner : Option ℕ
  threads : ℕ → Thread
  log : List Event

inductive Action where
  | call (t : ℕ) (op : Op)
  /-- The thread gets the lock, or has it, and goes on. -/
  | go (t : ℕ)
  | bind (t : ℕ) (turn : Option ℕ)

def Frame.locks : Frame → Bool
  | .begun _ _ => false
  | _ => true

namespace Lifecycle

def note (s : Lifecycle) (e : Event) : Lifecycle := { s with log := e :: s.log }

def put (s : Lifecycle) (t : ℕ) (thread : Thread) : Lifecycle :=
  { s with threads := Function.update s.threads t thread }

def setTurn (s : Lifecycle) (k : ℕ) (turn : Turn) : Lifecycle :=
  { s with turns := Function.update s.turns k turn }

/-- `_active.token.cancel(reason)`, if there is an active turn and the token is not cancelled. -/
def cancel (s : Lifecycle) (supported : Bool) : Lifecycle :=
  match s.active with
  | none => s
  | some k =>
    if !supported || (s.turns k).cancelled then s
    else (s.setTurn k { s.turns k with cancelled := true }).note (.stopped k)

/-- Whether `turn.token.raise_if_cancelled()` raises. -/
def refuses (s : Lifecycle) (turn : Option ℕ) (actionOutcome : Bool) : Bool :=
  !actionOutcome && turn.any fun k => (s.turns k).cancelled

/-- The thread goes into a block that holds the lock. -/
def enter (s : Lifecycle) (t : ℕ) (f : Frame) : Lifecycle :=
  { s.put t { s.threads t with frames := f :: (s.threads t).frames } with owner := some t }

/-- The thread comes out of a block, and lets the lock go if it holds no other. -/
def pop (s : Lifecycle) (t : ℕ) (rest : List Frame) : Lifecycle :=
  { s.put t { s.threads t with frames := rest } with
    owner := if rest.any Frame.locks then some t else none }

def complete (s : Lifecycle) (turn : Option ℕ) (actionOutcome terminal : Bool) : Lifecycle :=
  match turn with
  | none => s
  | some k =>
    let s := if terminal then
      (s.setTurn k { s.turns k with terminal := true }).note (.finished k) else s
    if actionOutcome then s else s.note (.published k)

def leave (s : Lifecycle) (t : ℕ) (raised : Bool) : Lifecycle :=
  match (s.threads t).frames with
  | [] => s
  | .begun k previous :: rest =>
    { (s.put t { s.threads t with frames := rest, current := previous }).note (.ended k) with
      active := if s.active = some k then none else s.active }
  | .publishing turn actionOutcome terminal :: rest =>
    if raised || s.refuses turn actionOutcome then s.pop t rest
    else (s.complete turn actionOutcome terminal).pop t rest
  | .transition :: rest => s.pop t rest

/-- A call of the thread `t`, which has the lock. -/
def run (s : Lifecycle) (t : ℕ) : Op → Lifecycle
  | .begin paused busy =>
    if s.closed || paused || s.active.isSome || busy then s
    else { (s.put t { s.threads t with
        frames := .begun s.next (s.threads t).current :: (s.threads t).frames,
        current := some s.next }).note (.began s.next) with
      active := some s.next, next := s.next + 1 }
  | .publication actionOutcome terminal =>
    let turn := (s.threads t).current
    if s.refuses turn actionOutcome then s
    else
      let s' := s.enter t (.publishing turn actionOutcome terminal)
      match turn with
      | none => s'
      | some k => if actionOutcome then s' else s'.note (.entered k)
  | .transition => s.enter t .transition
  | .cancelCurrent supported => s.cancel supported
  | .close => (({ s with closed := true } : Lifecycle).note .closed).cancel true
  | .claim none => s
  | .claim (some k) =>
    if (s.turns k).terminal || (s.turns k).reported then s
    else (s.setTurn k { s.turns k with reported := true }).note (.claimed k)
  | .leave raised => s.leave t raised

def step (s : Lifecycle) : Action → Option Lifecycle
  | .call t op =>
    if (s.threads t).waiting.isSome then none
    else
      let s' := s.put t { s.threads t with waiting := some op }
      some (if op.isStop then s'.note (.stopCalled t) else s')
  | .go t =>
    (s.threads t).waiting.bind fun op =>
      if s.owner = none ∨ s.owner = some t then
        some ((s.put t { s.threads t with waiting := none }).run t op)
      else none
  | .bind t turn =>
    if turn.all (· < s.next) then some (s.put t { s.threads t with current := turn }) else none

end Lifecycle

def lifecycleMachine : Machine Lifecycle Action where
  start s := s.active = none ∧ s.closed = false ∧ s.next = 0 ∧ s.owner = none ∧ s.log = [] ∧
    (∀ k, s.turns k = ⟨false, false, false⟩) ∧ ∀ t, s.threads t = ⟨[], none, none⟩
  step := Lifecycle.step

/-- Whether `later` may come at any time after `earlier`. -/
def Event.mayFollow : Event → Event → Prop
  | .entered k, .stopped j => k ≠ j
  | .published k, .stopped j => k ≠ j
  | .claimed k, .finished j => k ≠ j
  | .claimed k, .claimed j => k ≠ j
  | .began _, .closed => False
  | .began k, .stopped j => k ≠ j
  | _, _ => True

structure Lifecycle.Orderly (s : Lifecycle) : Prop where
  order : s.log.Pairwise Event.mayFollow
  active : ∀ t k previous, .begun k previous ∈ (s.threads t).frames → s.active = some k
  one : ∀ t t' k k' previous previous', .begun k previous ∈ (s.threads t).frames →
    .begun k' previous' ∈ (s.threads t').frames → t = t'
  ended : ∀ k, .ended k ∈ s.log → s.active ≠ some k

def Event.Kept (s : Lifecycle) : Event → Prop
  | .stopped k => k < s.next ∧ (s.turns k).cancelled = true
  | .finished k => (s.turns k).terminal = true
  | .claimed k => (s.turns k).reported = true
  | .closed => s.closed = true
  | .ended k => k < s.next ∧ s.active ≠ some k
  | _ => True

def Event.Free (s : Lifecycle) : Event → Prop
  | .entered k | .published k => (s.turns k).cancelled = false
  | .claimed k => (s.turns k).terminal = false ∧ (s.turns k).reported = false
  | .began k => s.closed = false ∧ s.next ≤ k
  | _ => True

theorem mayFollow_of {s : Lifecycle} {e e' : Event} (he : e.Free s) (he' : e'.Kept s) :
    e.mayFollow e' := by
  cases e <;> cases e' <;> simp only [Event.mayFollow, Event.Free, Event.Kept] at * <;> grind

theorem Event.Kept.mono {s s' : Lifecycle} {e : Event} (h : e.Kept s) (hnext : s.next ≤ s'.next)
    (hturns : ∀ k, ((s.turns k).cancelled → (s'.turns k).cancelled) ∧
      ((s.turns k).terminal → (s'.turns k).terminal) ∧
      ((s.turns k).reported → (s'.turns k).reported))
    (hclosed : s.closed → s'.closed)
    (hactive : ∀ k < s.next, s.active ≠ some k → s'.active ≠ some k) : e.Kept s' := by
  cases e with
  | stopped k => exact ⟨Nat.lt_of_lt_of_le h.1 hnext, (hturns k).1 h.2⟩
  | finished k => exact (hturns k).2.1 h
  | claimed k => exact (hturns k).2.2 h
  | closed => exact hclosed h
  | ended k => exact ⟨Nat.lt_of_lt_of_le h.1 hnext, hactive k h.1 h.2⟩
  | _ => trivial

def Thread.blocks (thread : Thread) : List Frame := thread.frames.filter fun f => !f.locks

structure Inv (s : Lifecycle) : Prop where
  kept : ∀ e ∈ s.log, e.Kept s
  order : s.log.Pairwise Event.mayFollow
  next : ∀ k, s.active = some k → k < s.next
  blocks : ∀ t k previous, .begun k previous ∈ (s.threads t).blocks → s.active = some k
  one : ∀ t t', (s.threads t).blocks ≠ [] → (s.threads t').blocks ≠ [] → t = t'
  single : ∀ t, (s.threads t).blocks.length ≤ 1

namespace Inv
variable {s : Lifecycle} (h : Inv s)
include h

theorem note (e : Event) (hfree : e.Free s) (hkept : e.Kept s) : Inv (s.note e) where
  kept := List.forall_mem_cons.mpr ⟨hkept, h.kept⟩
  order := List.pairwise_cons.mpr ⟨fun e' he' => mayFollow_of hfree (h.kept e' he'), h.order⟩
  next := h.next
  blocks := h.blocks
  one := h.one
  single := h.single

theorem setTurn {k : ℕ} {turn : Turn} (hc : (s.turns k).cancelled → turn.cancelled)
    (ht : (s.turns k).terminal → turn.terminal) (hr : (s.turns k).reported → turn.reported) :
    Inv (s.setTurn k turn) where
  kept e he := by
    refine (h.kept e he).mono (Nat.le_refl _) ?_ id fun _ _ => id
    intro j
    rcases eq_or_ne j k with rfl | hj
    · simp only [Lifecycle.setTurn, Function.update_self]
      exact ⟨hc, ht, hr⟩
    · simp only [Lifecycle.setTurn, Function.update_of_ne hj]
      exact ⟨id, id, id⟩
  order := h.order
  next := h.next
  blocks := h.blocks
  one := h.one
  single := h.single

theorem put (t : ℕ) (thread : Thread) (hsub : thread.blocks.Sublist (s.threads t).blocks) :
    Inv (s.put t thread) := by
  have hblocks : ∀ u, ((s.put t thread).threads u).blocks.Sublist (s.threads u).blocks := by
    intro u
    rcases eq_or_ne u t with rfl | hu
    · simpa only [Lifecycle.put, Function.update_self] using hsub
    · simp only [Lifecycle.put, Function.update_of_ne hu]
      exact List.Sublist.refl _
  constructor
  · exact h.kept
  · exact h.order
  · exact h.next
  · intro u k previous hmem
    exact h.blocks u k previous ((hblocks u).subset hmem)
  · intro u u' hu hu'
    apply h.one u u'
    · exact fun hnil => hu (List.sublist_nil.mp (hnil ▸ hblocks u))
    · exact fun hnil => hu' (List.sublist_nil.mp (hnil ▸ hblocks u'))
  · exact fun u => Nat.le_trans (hblocks u).length_le (h.single u)

theorem setOwner (owner : Option ℕ) : Inv { s with owner := owner } :=
  { h with }

theorem cancel (supported : Bool) : Inv (s.cancel supported) := by
  unfold Lifecycle.cancel
  split
  · exact h
  · rename_i k hk
    split
    · exact h
    · have hset : Inv (s.setTurn k { s.turns k with cancelled := true }) :=
        h.setTurn (fun _ => rfl) id id
      apply hset.note (.stopped k) trivial
      refine ⟨h.next k hk, ?_⟩
      simp [Lifecycle.setTurn]

theorem enter (t : ℕ) {f : Frame} (hf : f.locks = true) : Inv (s.enter t f) := by
  apply setOwner
  apply h.put t
  simp [Thread.blocks, hf]

theorem pop (t : ℕ) {f : Frame} {rest : List Frame} (hframes : (s.threads t).frames = f :: rest) :
    Inv (s.pop t rest) := by
  apply setOwner
  apply h.put t
  rw [Thread.blocks, Thread.blocks, hframes]
  exact (List.sublist_cons_self f rest).filter _

theorem complete {turn : Option ℕ} {actionOutcome terminal : Bool}
    (hgoes : s.refuses turn actionOutcome = false) :
    Inv (s.complete turn actionOutcome terminal) := by
  unfold Lifecycle.complete
  cases turn with
  | none => exact h
  | some k =>
    have hfinished : Inv ((s.setTurn k { s.turns k with terminal := true }).note (.finished k)) := by
      have hset : Inv (s.setTurn k { s.turns k with terminal := true }) :=
        h.setTurn id (fun _ => rfl) id
      apply hset.note (.finished k) trivial
      simp [Event.Kept, Lifecycle.setTurn]
    cases actionOutcome with
    | true => cases terminal <;> assumption
    | false =>
      have hlive : (s.turns k).cancelled = false := by
        simpa [Lifecycle.refuses] using hgoes
      cases terminal with
      | true =>
        refine hfinished.note (.published k) ?_ trivial
        simpa [Event.Free, Lifecycle.note, Lifecycle.setTurn] using hlive
      | false => exact h.note (.published k) hlive trivial

theorem solely {s' : Lifecycle} {e : Event} {t : ℕ} (hlog : s'.log = e :: s.log)
    (hfree : e.Free s) (hkept : e.Kept s') (hmono : ∀ e ∈ s.log, e.Kept s')
    (hnext : ∀ k, s'.active = some k → k < s'.next)
    (hothers : ∀ u, u ≠ t → (s'.threads u).blocks = [])
    (hown : (s'.threads t).blocks = [] ∨
      ∃ k previous, (s'.threads t).blocks = [.begun k previous] ∧ s'.active = some k) : Inv s' := by
  have hsame : ∀ u, (s'.threads u).blocks ≠ [] → u = t := by
    intro u hu
    by_contra hne
    exact hu (hothers u hne)
  constructor
  · rw [hlog]
    exact List.forall_mem_cons.mpr ⟨hkept, hmono⟩
  · rw [hlog]
    exact List.pairwise_cons.mpr ⟨fun e' he' => mayFollow_of hfree (h.kept e' he'), h.order⟩
  · exact hnext
  · intro u k previous hmem
    obtain rfl := hsame u (List.ne_nil_of_mem hmem)
    rcases hown with hnil | ⟨j, p, hblocks, hactive⟩
    · rw [hnil] at hmem
      contradiction
    · rw [hblocks, List.mem_singleton] at hmem
      cases hmem
      exact hactive
  · intro u u' hu hu'
    exact (hsame u hu).trans (hsame u' hu').symm
  · intro u
    rcases eq_or_ne u t with rfl | hu
    · rcases hown with hnil | ⟨j, p, hblocks, -⟩
      · simp [hnil]
      · simp [hblocks]
    · simp [hothers u hu]

theorem leave (t : ℕ) (raised : Bool) : Inv (s.leave t raised) := by
  unfold Lifecycle.leave
  split
  · exact h
  · rename_i k previous rest hframes
    have hblocks : (s.threads t).blocks = .begun k previous :: rest.filter fun f => !f.locks := by
      rw [Thread.blocks, hframes]
      rfl
    have hactive := h.blocks t k previous (by simp [hblocks])
    have hrest : rest.filter (fun f => !f.locks) = [] := by
      have := h.single t
      rw [hblocks, List.length_cons] at this
      exact List.length_eq_zero_iff.mp (by omega)
    rw [hactive, if_pos rfl]
    apply h.solely (e := .ended k) (t := t) rfl trivial
    · exact ⟨h.next k hactive, by simp⟩
    · intro e he
      exact (h.kept e he).mono (Nat.le_refl _) (fun _ => ⟨id, id, id⟩) id (by simp)
    · simp
    · intro u hu
      by_contra hne
      simp only [Lifecycle.note, Lifecycle.put, Function.update_of_ne hu] at hne
      exact hu (h.one u t hne (by simp [hblocks]))
    · left
      simp only [Lifecycle.note, Lifecycle.put, Function.update_self]
      exact hrest
  · rename_i turn actionOutcome terminal rest hframes
    split
    · exact h.pop t hframes
    · rename_i hgoes
      have hsame : ((s.complete turn actionOutcome terminal).threads t).frames =
          .publishing turn actionOutcome terminal :: rest := by
        rw [← hframes]
        unfold Lifecycle.complete
        cases turn <;> cases actionOutcome <;> cases terminal <;> rfl
      exact (h.complete (by simp_all)).pop t hsame
  · rename_i rest hframes
    exact h.pop t hframes

theorem blocks_nil (hactive : s.active = none) (t : ℕ) : (s.threads t).blocks = [] := by
  apply List.eq_nil_iff_forall_not_mem.mpr
  intro f hf
  have hlocks := (List.mem_filter.mp hf).2
  cases f with
  | begun k previous =>
    rw [h.blocks t k previous hf] at hactive
    contradiction
  | _ => contradiction

theorem begin (t : ℕ) (paused busy : Bool) : Inv (s.run t (.begin paused busy)) := by
  simp only [Lifecycle.run]
  split
  · exact h
  · rename_i hgoes
    simp only [Bool.or_eq_true, not_or, Bool.not_eq_true, Option.isSome_eq_false_iff,
      Option.isNone_iff_eq_none] at hgoes
    have hnone := h.blocks_nil hgoes.1.2
    apply h.solely (e := .began s.next) (t := t) rfl
    · exact ⟨hgoes.1.1.1, Nat.le_refl _⟩
    · trivial
    · intro e he
      refine (h.kept e he).mono (Nat.le_succ _) (fun _ => ⟨id, id, id⟩) id ?_
      intro k hk _ heq
      exact absurd (Option.some.inj heq) (Nat.ne_of_gt hk)
    · intro k hk
      exact (Option.some.inj hk) ▸ Nat.lt_succ_self _
    · intro u hu
      simp only [Lifecycle.note, Lifecycle.put, Function.update_of_ne hu, hnone u]
    · right
      refine ⟨s.next, (s.threads t).current, ?_, rfl⟩
      simp only [Lifecycle.note, Lifecycle.put, Function.update_self]
      exact congrArg (.begun s.next (s.threads t).current :: ·) (hnone t)

theorem run (t : ℕ) (op : Op) : Inv (s.run t op) := by
  cases op with
  | begin paused busy => exact h.begin t paused busy
  | publication actionOutcome terminal =>
    simp only [Lifecycle.run]
    split
    · exact h
    · rename_i hgoes
      have henter : Inv (s.enter t (.publishing (s.threads t).current actionOutcome terminal)) :=
        h.enter t rfl
      split
      · exact henter
      · rename_i k hk
        cases actionOutcome with
        | true => exact henter
        | false =>
          refine henter.note (.entered k) ?_ trivial
          change (s.turns k).cancelled = false
          simpa [Lifecycle.refuses, hk] using hgoes
  | transition => exact h.enter t rfl
  | cancelCurrent supported => exact h.cancel supported
  | close =>
    apply cancel
    have hclosed : Inv { s with closed := true } :=
      ⟨fun e he => (h.kept e he).mono (Nat.le_refl _) (fun _ => ⟨id, id, id⟩) (fun _ => rfl) fun _ _ => id,
        h.order, h.next, h.blocks, h.one, h.single⟩
    exact hclosed.note .closed trivial rfl
  | claim turn =>
    cases turn with
    | none => exact h
    | some k =>
      simp only [Lifecycle.run]
      split
      · exact h
      · rename_i hfresh
        simp only [Bool.or_eq_true, not_or, Bool.not_eq_true] at hfresh
        have hset : Inv (s.setTurn k { s.turns k with reported := true }) :=
          h.setTurn id id fun _ => rfl
        refine ⟨List.forall_mem_cons.mpr ⟨?_, hset.kept⟩, ?_, h.next, h.blocks, h.one, h.single⟩
        · simp [Event.Kept, Lifecycle.note, Lifecycle.setTurn]
        · exact List.pairwise_cons.mpr
            ⟨fun e' he' => mayFollow_of (e := .claimed k) hfresh (h.kept e' he'), h.order⟩
  | leave raised => exact h.leave t raised

theorem step {a : Action} {s' : Lifecycle} (hs : s.step a = some s') : Inv s' := by
  unfold Lifecycle.step at hs
  cases a with
  | call t op =>
    simp only at hs
    split at hs
    · contradiction
    · have hput := h.put t { s.threads t with waiting := some op } (List.Sublist.refl _)
      cases hs
      split
      · exact hput.note (.stopCalled t) trivial trivial
      · exact hput
  | go t =>
    obtain ⟨op, -, hs⟩ := Option.bind_eq_some_iff.mp hs
    split at hs
    · cases hs
      apply run
      exact h.put t _ (List.Sublist.refl _)
    · contradiction
  | bind t turn =>
    simp only at hs
    split at hs
    · cases hs
      exact h.put t _ (List.Sublist.refl _)
    · contradiction

end Inv

theorem Inv.start {s : Lifecycle} (h : lifecycleMachine.start s) : Inv s := by
  obtain ⟨hactive, -, -, -, hlog, -, hthreads⟩ := h
  constructor
  · simp [hlog]
  · simp [hlog]
  · simp [hactive]
  · simp [hthreads, Thread.blocks]
  · simp [hthreads, Thread.blocks]
  · simp [hthreads, Thread.blocks]

theorem stopped_turn_is_silent {s : Lifecycle} (h : lifecycleMachine.Reachable s) : s.Orderly := by
  have hi : Inv s := Machine.Reach.invariant (fun _ => Inv.start) (fun _ _ _ h _ => h.step) h
  constructor
  · exact hi.order
  · intro t k previous hmem
    exact hi.blocks t k previous (List.mem_filter.mpr ⟨hmem, rfl⟩)
  · intro t t' k k' previous previous' hmem hmem'
    apply hi.one t t'
    · exact List.ne_nil_of_mem (List.mem_filter.mpr ⟨hmem, rfl⟩)
    · exact List.ne_nil_of_mem (List.mem_filter.mpr ⟨hmem', rfl⟩)
  · intro k hk
    exact (hi.kept _ hk).2

def freshLifecycle : Lifecycle where
  active := none
  closed := false
  next := 0
  turns _ := ⟨false, false, false⟩
  owner := none
  threads _ := ⟨[], none, none⟩
  log := []

theorem freshLifecycle_start : lifecycleMachine.start freshLifecycle :=
  ⟨rfl, rfl, rfl, rfl, rfl, fun _ => rfl, fun _ => rfl⟩

theorem stopped_turn_is_silent_sample : ∃ s : Lifecycle,
    s.log = [.stopped 0, .published 0, .stopCalled 1, .entered 0, .began 0] ∧ s.Orderly := by
  have hrun : (lifecycleMachine.exec freshLifecycle
      [.call 0 (.begin false false), .go 0, .call 0 (.publication false false), .go 0,
        .call 1 (.cancelCurrent true), .call 0 (.leave false), .go 0, .go 1]).map Lifecycle.log =
      some [.stopped 0, .published 0, .stopCalled 1, .entered 0, .began 0] := by
    decide
  obtain ⟨s, hs, hlog⟩ := Option.map_eq_some_iff.mp hrun
  exact ⟨s, hlog, stopped_turn_is_silent (Machine.reachable_exec freshLifecycle_start hs)⟩

/-- Stop is called while a turn is about to begin, waits for the lock, and cancels it. -/
theorem stop_called_before : ∃ s : Lifecycle, lifecycleMachine.Reachable s ∧
    s.log = [.stopped 0, .began 0, .stopCalled 1] := by
  have hrun : (lifecycleMachine.exec freshLifecycle
      [.call 0 (.begin false false), .call 1 (.cancelCurrent true), .go 0, .go 1]).map
      Lifecycle.log = some [.stopped 0, .began 0, .stopCalled 1] := by
    decide
  obtain ⟨s, hs, hlog⟩ := Option.map_eq_some_iff.mp hrun
  exact ⟨s, Machine.reachable_exec freshLifecycle_start hs, hlog⟩

end QronosAgent.Foreground

import QronosAgent.Files.Executor
import QronosAgent.Lib.Machine

/-! `UndoJournal` of `core/undo_journal.py` as a stack: the top is found from the newest end, the
entry that is claimed or marked by its action id from the oldest. -/
namespace QronosAgent.Files
open Lib

/-- The change could be put back. -/
def UndoEntry.reversible (entry : UndoEntry) : Bool :=
  decide (entry.reversal ≠ .irreversible ∧ entry.reversal ≠ .nothingToUndo)

/-- Reversing it is both possible and still outstanding. -/
def UndoEntry.undoable (entry : UndoEntry) : Bool :=
  decide (entry.state = .pending) && entry.reversible

/-- What could be reversed, most recent first. -/
def undoable (entries : List UndoEntry) : List UndoEntry :=
  entries.reverse.filter UndoEntry.undoable

def nextUndoable (entries : List UndoEntry) : Option UndoEntry := (undoable entries).head?

def placeOf (entries : List UndoEntry) (actionId : PyStr) : Option ℕ :=
  entries.findIdx? fun entry => decide (entry.actionId = actionId)

structure WatchedJournal where
  entries : List UndoEntry
  left : List ℕ

inductive JournalCall where
  | record (request : ActionRequest) (reversal : Reversal) (restoration : List (PyStr × PyStr))
    (did : Left)
  | claim (actionId : PyStr)
  | mark (actionId : PyStr) (state : EntryState)

namespace WatchedJournal

def step (s : WatchedJournal) : JournalCall → Option WatchedJournal
  | .record request reversal restoration did =>
    match record request reversal restoration did with
    | .error _ => some s
    | .ok entry => some { s with entries := s.entries ++ [entry] }
  | .claim _ => some s
  | .mark actionId state => some {
      entries := mark actionId state s.entries
      left := match placeOf s.entries actionId with
        | some i => if state = .pending then s.left else i :: s.left
        | none => s.left }

end WatchedJournal

def undoJournal : Machine WatchedJournal JournalCall where
  start s := s.entries = [] ∧ s.left = []
  step := WatchedJournal.step

def InOrder (s : WatchedJournal) : JournalCall → Prop
  | .record request reversal restoration did => ∀ entry,
    record request reversal restoration did = .ok entry → entry.reversible = true →
      placeOf s.entries request.actionId = none
  | .mark actionId .pending => ∀ entry,
    s.entries.find? (fun entry => decide (entry.actionId = actionId)) = some entry →
      entry.reversible = true → entry.state = .pending
  | _ => True

structure IsTop (entries : List UndoEntry) (i : ℕ) (entry : UndoEntry) : Prop where
  at_ : entries[i]? = some entry
  undoable : entry.undoable = true
  newest : ∀ j e, i < j → entries[j]? = some e → e.undoable = false

/-- What a stack is: the next entry is its top, which is the one that its id claims and marks,
and what has left PENDING does not come back. -/
structure StackLaw (s : WatchedJournal) : Prop where
  top : ∀ entry, nextUndoable s.entries = some entry → ∃ i, IsTop s.entries i entry ∧
    claim s.entries entry.actionId = .ok entry ∧
    ∀ state, mark entry.actionId state s.entries =
      s.entries.set i { entry with state := state }
  gone : ∀ i ∈ s.left, ∀ entry, s.entries[i]? = some entry → entry.undoable = false

variable {entries : List UndoEntry} {entry e : UndoEntry} {i j : ℕ} {actionId : PyStr}
  {state : EntryState} {s s' : WatchedJournal}

theorem isTop_of_nextUndoable (h : nextUndoable entries = some entry) :
    ∃ i, IsTop entries i entry := by
  induction entries using List.reverseRecOn with
  | nil => cases h
  | append_singleton older newest ih =>
    unfold nextUndoable undoable at h ih
    rw [List.reverse_append, List.reverse_singleton, List.singleton_append,
      List.filter_cons] at h
    split_ifs at h with hnewest
    · cases h
      refine ⟨older.length, by simp, hnewest, ?_⟩
      intro j e hj he
      obtain ⟨hlt, -⟩ := List.getElem?_eq_some_iff.mp he
      simp only [List.length_append, List.length_singleton] at hlt
      omega
    · obtain ⟨i, hi⟩ := ih h
      have hlt : i < older.length := (List.getElem?_eq_some_iff.mp hi.at_).1
      refine ⟨i, by rw [List.getElem?_append_left hlt, hi.at_], hi.undoable, ?_⟩
      intro j e hj he
      rcases Nat.lt_or_ge j older.length with hjlt | hjge
      · rw [List.getElem?_append_left hjlt] at he
        exact hi.newest j e hj he
      · rw [List.getElem?_append_right hjge, List.getElem?_singleton] at he
        split_ifs at he
        cases he
        simpa using hnewest

theorem placeOf_eq_some : placeOf entries actionId = some i ↔
    ∃ e, entries[i]? = some e ∧ e.actionId = actionId ∧
      ∀ j < i, ∀ e', entries[j]? = some e' → e'.actionId ≠ actionId := by
  unfold placeOf
  rw [List.findIdx?_eq_some_iff_getElem]
  constructor
  · rintro ⟨hlt, hid, hbefore⟩
    refine ⟨entries[i], List.getElem?_eq_getElem hlt, of_decide_eq_true hid, ?_⟩
    intro j hj e' he'
    obtain ⟨hjlt, rfl⟩ := List.getElem?_eq_some_iff.mp he'
    simpa using hbefore j hj
  · rintro ⟨e, he, hid, hbefore⟩
    obtain ⟨hlt, rfl⟩ := List.getElem?_eq_some_iff.mp he
    refine ⟨hlt, decide_eq_true hid, fun j hj => ?_⟩
    have hjlt : j < entries.length := hj.trans hlt
    simpa using hbefore j hj _ (List.getElem?_eq_getElem hjlt)

theorem placeOf_eq_none : placeOf entries actionId = none ↔
    ∀ e ∈ entries, e.actionId ≠ actionId := by
  simp [placeOf, List.findIdx?_eq_none_iff]

theorem find?_of_placeOf (h : placeOf entries actionId = some i) (he : entries[i]? = some e) :
    entries.find? (fun entry => decide (entry.actionId = actionId)) = some e := by
  obtain ⟨e', he', hid, hbefore⟩ := placeOf_eq_some.mp h
  cases he.symm.trans he'
  obtain ⟨hlt, hget⟩ := List.getElem?_eq_some_iff.mp he
  rw [List.find?_eq_some_iff_getElem]
  refine ⟨decide_eq_true hid, i, hlt, hget, fun j hj => ?_⟩
  have hjlt : j < entries.length := hj.trans hlt
  simpa using hbefore j hj _ (List.getElem?_eq_getElem hjlt)

theorem mark_eq_set (h : placeOf entries actionId = some i) (he : entries[i]? = some e) :
    mark actionId state entries = entries.set i { e with state := state } := by
  induction entries generalizing i with
  | nil => cases he
  | cons first rest ih =>
    unfold placeOf at h ih
    rw [List.findIdx?_cons] at h
    unfold mark
    split_ifs at h with hid
    · cases h
      cases he
      rw [if_pos (of_decide_eq_true hid)]
      rfl
    · obtain ⟨k, hk, rfl⟩ := Option.map_eq_some_iff.mp h
      rw [if_neg (by simpa using hid), ih hk he]
      rfl

theorem mark_of_none (h : placeOf entries actionId = none) :
    mark actionId state entries = entries := by
  induction entries with
  | nil => rfl
  | cons first rest ih =>
    rw [placeOf_eq_none] at h
    unfold mark
    rw [if_neg (h first List.mem_cons_self),
      ih (placeOf_eq_none.mpr fun e he => h e (List.mem_cons_of_mem _ he))]

namespace WatchedJournal

/-- What keeps the stack in order: the id of a reversible entry names no older one, and one that
has left PENDING is not in it. -/
structure Inv (s : WatchedJournal) : Prop where
  named : ∀ i e, s.entries[i]? = some e → e.reversible = true →
    placeOf s.entries e.actionId = some i
  gone : ∀ i ∈ s.left, ∃ e, s.entries[i]? = some e ∧ e.undoable = false

theorem Inv.record (h : s.Inv) (hnew : entry.reversible = true →
    placeOf s.entries entry.actionId = none) :
    Inv { s with entries := s.entries ++ [entry] } := by
  constructor
  · intro i e he hreversible
    rcases Nat.lt_or_ge i s.entries.length with hlt | hge
    · rw [List.getElem?_append_left hlt] at he
      have hplace := h.named i e he hreversible
      unfold placeOf at hplace ⊢
      rw [List.findIdx?_append, hplace]
      rfl
    · rw [List.getElem?_append_right hge, List.getElem?_singleton] at he
      split_ifs at he with hzero
      cases he
      have hnone := hnew hreversible
      have hi : i = s.entries.length := by omega
      unfold placeOf at hnone ⊢
      rw [List.findIdx?_append, hnone]
      simp [hi, List.findIdx?_cons]
  · intro i hi
    obtain ⟨e, he, hgone⟩ := h.gone i hi
    have hlt : i < s.entries.length := (List.getElem?_eq_some_iff.mp he).1
    exact ⟨e, by rw [List.getElem?_append_left hlt, he], hgone⟩

theorem Inv.mark (h : s.Inv) {i : ℕ} (he : s.entries[i]? = some e)
    (hok : state = .pending → e.reversible = true → e.state = .pending) :
    Inv ⟨s.entries.set i { e with state := state },
      if state = .pending then s.left else i :: s.left⟩ := by
  have hlt : i < s.entries.length := (List.getElem?_eq_some_iff.mp he).1
  -- the ids stay, so they name the places they named
  have hids : ∀ a, placeOf (s.entries.set i { e with state := state }) a =
      placeOf s.entries a := by
    intro a
    unfold placeOf
    have hmap : (s.entries.set i { e with state := state }).map UndoEntry.actionId =
        s.entries.map UndoEntry.actionId := by
      rw [List.map_set]
      apply List.ext_getElem?
      intro j
      rw [List.getElem?_set]
      split_ifs with hj hjlt
      · subst hj
        rw [List.getElem?_map, he]
        rfl
      · subst hj
        simp at hjlt
        omega
      · rfl
    have hcongr := congrArg (List.findIdx? fun id => decide (id = a)) hmap
    rwa [List.findIdx?_map, List.findIdx?_map] at hcongr
  constructor
  · intro j x hx hreversible
    rw [hids]
    rw [List.getElem?_set] at hx
    split_ifs at hx with hj
    · cases hx
      subst hj
      exact h.named i e he hreversible
    · exact h.named j x hx hreversible
  · intro j hj
    by_cases heq : i = j
    · subst heq
      refine ⟨{ e with state := state }, by rw [List.getElem?_set_self hlt], ?_⟩
      cases hstate : decide (state = .pending) with
      | false => simp [UndoEntry.undoable, hstate]
      | true =>
        have hpending := of_decide_eq_true hstate
        rw [if_pos hpending] at hj
        obtain ⟨x, hx, hgone⟩ := h.gone i hj
        cases he.symm.trans hx
        cases hreversible : e.reversible with
        | false =>
          have : UndoEntry.reversible { e with state := state } = false := hreversible
          simp [UndoEntry.undoable, this]
        | true => simp [UndoEntry.undoable, hok hpending hreversible, hreversible] at hgone
    · have hold : j ∈ s.left := by
        split_ifs at hj
        · exact hj
        · exact (List.mem_cons.mp hj).resolve_left fun hji => heq hji.symm
      obtain ⟨x, hx, hgone⟩ := h.gone j hold
      exact ⟨x, by rw [List.getElem?_set_ne heq, hx], hgone⟩

theorem actionId_of_record {request : ActionRequest} {reversal : Reversal}
    {restoration : List (PyStr × PyStr)} {did : Left}
    (h : Files.record request reversal restoration did = .ok entry) :
    entry.actionId = request.actionId := by
  unfold Files.record at h
  split_ifs at h
  cases h
  rfl

theorem Inv.step (h : s.Inv) {call : JournalCall} (hok : InOrder s call)
    (hs : s.step call = some s') : s'.Inv := by
  cases call with
  | record request reversal restoration did =>
    unfold WatchedJournal.step at hs
    simp only at hs
    split at hs
    · cases hs
      exact h
    · rename_i entry hrecord
      cases hs
      apply h.record
      intro hreversible
      rw [actionId_of_record hrecord]
      exact hok entry hrecord hreversible
  | claim actionId =>
    cases hs
    exact h
  | mark actionId state =>
    cases hs
    cases hplace : placeOf s.entries actionId with
    | none =>
      rw [mark_of_none hplace]
      exact h
    | some i =>
      obtain ⟨e, he, -⟩ := placeOf_eq_some.mp hplace
      rw [mark_eq_set hplace he]
      apply h.mark he
      rintro rfl
      exact hok e (find?_of_placeOf hplace he)

theorem Inv.law (h : s.Inv) : StackLaw s := by
  constructor
  · intro entry hnext
    obtain ⟨i, htop⟩ := isTop_of_nextUndoable hnext
    have hundoable := htop.undoable
    simp only [UndoEntry.undoable, UndoEntry.reversible, Bool.and_eq_true, decide_eq_true_eq]
      at hundoable
    obtain ⟨hpending, hirreversible, hnothing⟩ := hundoable
    have hplace := h.named i entry htop.at_ (decide_eq_true ⟨hirreversible, hnothing⟩)
    refine ⟨i, htop, ?_, fun state => mark_eq_set hplace htop.at_⟩
    unfold claim
    rw [find?_of_placeOf hplace htop.at_]
    simp [hirreversible, hnothing, hpending]
  · intro i hi entry hentry
    obtain ⟨e, he, hgone⟩ := h.gone i hi
    rwa [Option.some.inj (hentry.symm.trans he)]

end WatchedJournal

/-- Where reversible entries have ids of their own and none is marked PENDING after it has left
it, the journal is a stack. -/
theorem undo_stack (s : WatchedJournal) (h : undoJournal.Reach InOrder s) : StackLaw s := by
  refine (h.invariant (I := WatchedJournal.Inv) ?_ fun _ _ _ hi hok hs => hi.step hok hs).law
  rintro s ⟨hentries, hleft⟩
  constructor
  · rw [hentries]
    intro i e he
    cases he
  · rw [hleft]
    simp

/-- A rename under the id `a` or `b`, which can be moved back. -/
def renamed (first : Bool) : JournalCall :=
  .record ⟨if first then py "a" else py "b", py "Rename", by cases first <;> decide⟩ .moveBack
    [(py "from", py "/b"), (py "to", py "/a")] ⟨.empty, .empty⟩

theorem undo_stack_sample : ∃ s, undoJournal.Reach InOrder s ∧
    (nextUndoable s.entries).map UndoEntry.actionId = some (py "b") ∧ StackLaw s := by
  have hrun : (undoJournal.exec ⟨[], []⟩
      [renamed true, .mark (py "a") .undone, renamed false]).map
        (fun s => (nextUndoable s.entries).map UndoEntry.actionId) = some (some (py "b")) := by
    decide +kernel
  obtain ⟨s, hs, hnext⟩ := Option.map_eq_some_iff.mp hrun
  have hstart : undoJournal.Reach InOrder ⟨[], []⟩ := .start ⟨rfl, rfl⟩
  have hreach : undoJournal.Reach InOrder s := by
    apply hstart.exec _ hs
    refine ⟨fun _ _ _ => rfl, fun s₁ h₁ => ⟨trivial, fun s₂ h₂ => ⟨?_, fun _ _ => trivial⟩⟩⟩
    cases h₁
    cases h₂
    exact fun _ _ _ => by decide +kernel
  exact ⟨s, hreach, hnext, undo_stack s hreach⟩

/-- A second rename under one id is the top of the stack, but its id claims the first, which is
undone; and an entry that has failed is marked PENDING and undoable again. -/
theorem stack_upset :
    (∃ s, undoJournal.Reachable s ∧ ∃ entry, nextUndoable s.entries = some entry ∧
      (claim s.entries entry.actionId).toOption.isNone) ∧
    ∃ s, undoJournal.Reachable s ∧ 0 ∈ s.left ∧ ∃ entry, s.entries[0]? = some entry ∧
      entry.undoable = true := by
  constructor
  · have hrun : (undoJournal.exec ⟨[], []⟩
        [renamed true, .mark (py "a") .undone, renamed true]).any (fun s =>
          (nextUndoable s.entries).any fun entry =>
            (claim s.entries entry.actionId).toOption.isNone) = true := by
      decide +kernel
    obtain ⟨s, hs, hnext⟩ := (Option.any_eq_true _ _).mp hrun
    obtain ⟨entry, hentry, hclaim⟩ := (Option.any_eq_true _ _).mp hnext
    exact ⟨s, Machine.reachable_exec ⟨rfl, rfl⟩ hs, entry, hentry, hclaim⟩
  · have hrun : (undoJournal.exec ⟨[], []⟩
        [renamed true, .mark (py "a") .failed, .mark (py "a") .pending]).any (fun s =>
          decide (0 ∈ s.left) && s.entries[0]?.any UndoEntry.undoable) = true := by
      decide +kernel
    obtain ⟨s, hs, hboth⟩ := (Option.any_eq_true _ _).mp hrun
    obtain ⟨hleft, hundoable⟩ := Bool.and_eq_true_iff.mp hboth
    obtain ⟨entry, hentry, hyes⟩ := (Option.any_eq_true _ _).mp hundoable
    exact ⟨s, Machine.reachable_exec ⟨rfl, rfl⟩ hs, of_decide_eq_true hleft, entry, hentry, hyes⟩

end QronosAgent.Files

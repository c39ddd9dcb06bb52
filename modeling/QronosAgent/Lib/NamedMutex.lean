import Mathlib.Logic.Function.Basic

/-! Named mutexes: one exists as long as it has an open handle, belongs to the thread that waited for
it with success, and is abandoned when that thread ends. -/
namespace QronosAgent.Lib

/-- `T` are the threads; each handle goes with the thread that has opened it. -/
structure NamedMutexes (N T : Type) where
  handles : List (N × T)
  owner : N → Option T
  abandoned : N → Bool

namespace NamedMutexes
variable {N T : Type} [DecidableEq N] [DecidableEq T] (m : NamedMutexes N T)

def exists? (name : N) : Bool := m.handles.any fun h => h.1 = name

/-- What has no handle left is gone. -/
def sweep : NamedMutexes N T where
  handles := m.handles
  owner name := if m.exists? name then m.owner name else none
  abandoned name := m.exists? name && m.abandoned name

def create (name : N) (t : T) : NamedMutexes N T := { m with handles := (name, t) :: m.handles }

/-- A wait would be granted. -/
def canAcquire (name : N) (t : T) : Bool := m.owner name = none || m.owner name = some t

def acquire (name : N) (t : T) : NamedMutexes N T where
  handles := m.handles
  owner := Function.update m.owner name (some t)
  abandoned := Function.update m.abandoned name false

def release (name : N) (t : T) : NamedMutexes N T :=
  if m.owner name = some t then { m with owner := Function.update m.owner name none } else m

def close (name : N) (t : T) : NamedMutexes N T :=
  { m with handles := m.handles.erase (name, t) }.sweep

def abandon (gone : T → Bool) : NamedMutexes N T where
  handles := m.handles
  owner name := (m.owner name).filter fun t => !gone t
  abandoned name := m.abandoned name || (m.owner name).any gone

/-- Some processes end: their threads end, and their handles are closed. -/
def leave (gone : T → Bool) : NamedMutexes N T :=
  { m.abandon gone with handles := m.handles.filter fun h => !gone h.2 }.sweep

structure Holds (name : N) (t : T) : Prop where
  owner : m.owner name = some t
  handle : (name, t) ∈ m.handles

section
variable {m} {name n : N} {t t' : T} {gone : T → Bool}

theorem exists?_iff : m.exists? name = true ↔ ∃ t, (name, t) ∈ m.handles := by
  unfold exists?
  rw [List.any_eq_true]
  constructor
  · rintro ⟨⟨n, t⟩, hmem, hname⟩
    obtain rfl := of_decide_eq_true hname
    exact ⟨t, hmem⟩
  · rintro ⟨t, hmem⟩
    exact ⟨(name, t), hmem, decide_eq_true rfl⟩

theorem Holds.unique (h : m.Holds name t) (h' : m.Holds name t') : t = t' :=
  Option.some.inj (h.owner.symm.trans h'.owner)

theorem Holds.sweep (h : m.Holds name t) : m.sweep.Holds name t := by
  refine ⟨?_, h.handle⟩
  have hexists : m.exists? name = true := exists?_iff.mpr ⟨t, h.handle⟩
  simp only [NamedMutexes.sweep, hexists, if_true, h.owner]

theorem owner_sweep (h : m.sweep.owner name = some t) : m.owner name = some t := by
  simp only [NamedMutexes.sweep] at h
  split at h
  · exact h
  · cases h

theorem Holds.create (h : m.Holds name t) (n : N) (t' : T) : (m.create n t').Holds name t :=
  ⟨h.owner, List.mem_cons_of_mem _ h.handle⟩

theorem Holds.acquire (h : m.Holds name t) (hcan : m.canAcquire n t' = true) (hne : t ≠ t') :
    (m.acquire n t').Holds name t := by
  refine ⟨?_, h.handle⟩
  have hname : name ≠ n := by
    rintro rfl
    simp only [canAcquire, Bool.or_eq_true, decide_eq_true_eq, h.owner, Option.some.injEq] at hcan
    rcases hcan with hcan | hcan
    · cases hcan
    · exact hne hcan
  simp only [NamedMutexes.acquire, Function.update_of_ne hname, h.owner]

theorem acquire_holds (hhandle : (name, t) ∈ m.handles) : (m.acquire name t).Holds name t :=
  ⟨by simp [NamedMutexes.acquire], hhandle⟩

theorem Holds.acquire_same (h : m.Holds name t) (n : N) : (m.acquire n t).Holds name t := by
  by_cases hname : name = n
  · subst hname
    exact acquire_holds h.handle
  · refine ⟨?_, h.handle⟩
    simp only [NamedMutexes.acquire, Function.update_of_ne hname, h.owner]

theorem owner_acquire (h : (m.acquire n t').owner name = some t) :
    m.owner name = some t ∨ name = n ∧ t = t' := by
  by_cases hname : name = n
  · subst hname
    simp only [NamedMutexes.acquire, Function.update_self, Option.some.injEq] at h
    exact .inr ⟨rfl, h.symm⟩
  · simp only [NamedMutexes.acquire, Function.update_of_ne hname] at h
    exact .inl h

theorem Holds.release (h : m.Holds name t) (n : N) (hne : t ≠ t') :
    (m.release n t').Holds name t := by
  unfold NamedMutexes.release
  split
  · rename_i howner
    have hname : name ≠ n := by
      rintro rfl
      rw [h.owner] at howner
      exact hne (Option.some.inj howner)
    refine ⟨?_, h.handle⟩
    simp only [Function.update_of_ne hname, h.owner]
  · exact h

theorem owner_release (h : (m.release n t').owner name = some t) : m.owner name = some t := by
  unfold NamedMutexes.release at h
  split at h
  · by_cases hname : name = n
    · subst hname
      simp at h
    · simpa only [Function.update_of_ne hname] using h
  · exact h

theorem handles_release : (m.release n t').handles = m.handles := by
  unfold NamedMutexes.release
  split <;> rfl

theorem Holds.close (h : m.Holds name t) (n : N) (hne : t ≠ t') : (m.close n t').Holds name t := by
  have hhandle : (name, t) ∈ m.handles.erase (n, t') :=
    (List.mem_erase_of_ne fun heq => hne (congrArg Prod.snd heq)).mpr h.handle
  exact Holds.sweep ⟨h.owner, hhandle⟩

theorem owner_close (h : (m.close n t').owner name = some t) : m.owner name = some t :=
  owner_sweep (m := { m with handles := m.handles.erase (n, t') }) h

theorem handles_close (h : (name, t) ∈ (m.close n t').handles) : (name, t) ∈ m.handles :=
  List.mem_of_mem_erase h

theorem mem_close (h : (name, t) ∈ m.handles) (hne : t ≠ t') :
    (name, t) ∈ (m.close n t').handles :=
  (List.mem_erase_of_ne fun heq => hne (congrArg Prod.snd heq)).mpr h

theorem Holds.abandon (h : m.Holds name t) (hgone : gone t = false) :
    (m.abandon gone).Holds name t := by
  refine ⟨?_, h.handle⟩
  simp only [NamedMutexes.abandon, h.owner, Option.filter, hgone, Bool.not_false, if_true]

theorem owner_abandon (h : (m.abandon gone).owner name = some t) :
    m.owner name = some t ∧ gone t = false := by
  simp only [NamedMutexes.abandon, Option.filter_eq_some_iff, Bool.not_eq_true'] at h
  exact h

theorem Holds.leave (h : m.Holds name t) (hgone : gone t = false) : (m.leave gone).Holds name t := by
  apply Holds.sweep
  refine ⟨(h.abandon hgone).owner, List.mem_filter.mpr ⟨h.handle, ?_⟩⟩
  rw [hgone]
  rfl

theorem owner_leave (h : (m.leave gone).owner name = some t) :
    m.owner name = some t ∧ gone t = false :=
  owner_abandon (owner_sweep
    (m := { m.abandon gone with handles := m.handles.filter fun h => !gone h.2 }) h)

theorem handles_leave (h : (name, t) ∈ (m.leave gone).handles) :
    (name, t) ∈ m.handles ∧ gone t = false := by
  obtain ⟨hmem, hgone⟩ := List.mem_filter.mp h
  exact ⟨hmem, Bool.not_eq_true' _ ▸ hgone⟩

structure Acts (acting : T → Prop) (m m' : NamedMutexes N T) : Prop where
  holds : ∀ name t, ¬ acting t → m.Holds name t → m'.Holds name t
  owner : ∀ name t, ¬ acting t → m'.owner name = some t → m.owner name = some t
  handles : ∀ name t, ¬ acting t → ((name, t) ∈ m'.handles ↔ (name, t) ∈ m.handles)

theorem acts_refl (acting : T → Prop) : Acts acting m m :=
  ⟨fun _ _ _ h => h, fun _ _ _ h => h, fun _ _ _ => Iff.rfl⟩

theorem acts_create (n : N) (t' : T) : Acts (· = t') m (m.create n t') where
  holds := fun _ _ _ h => h.create n t'
  owner := fun _ _ _ h => h
  handles := by
    intro name t hne
    unfold NamedMutexes.create
    rw [List.mem_cons, Prod.mk.injEq]
    exact or_iff_right fun h => hne h.2

theorem acts_acquire (hcan : m.canAcquire n t' = true) : Acts (· = t') m (m.acquire n t') where
  holds := fun _ _ hne h => h.acquire hcan hne
  owner := fun _ _ hne h => (owner_acquire h).resolve_right fun heq => hne heq.2
  handles := fun _ _ _ => Iff.rfl

theorem acts_release (n : N) (t' : T) : Acts (· = t') m (m.release n t') where
  holds := fun _ _ hne h => h.release n hne
  owner := fun _ _ _ h => owner_release h
  handles := fun _ _ _ => by rw [handles_release]

theorem acts_close (n : N) (t' : T) : Acts (· = t') m (m.close n t') where
  holds := fun _ _ hne h => h.close n hne
  owner := fun _ _ _ h => owner_close h
  handles := fun _ _ hne => ⟨handles_close, fun h => mem_close h hne⟩

theorem acts_abandon (gone : T → Bool) : Acts (gone · = true) m (m.abandon gone) where
  holds := fun _ _ hne h => h.abandon ((Bool.not_eq_true _).mp hne)
  owner := fun _ _ _ h => (owner_abandon h).1
  handles := fun _ _ _ => Iff.rfl

theorem acts_leave (gone : T → Bool) : Acts (gone · = true) m (m.leave gone) where
  holds := fun _ _ hne h => h.leave ((Bool.not_eq_true _).mp hne)
  owner := fun _ _ _ h => (owner_leave h).1
  handles := by
    intro name t hne
    refine ⟨fun h => (handles_leave h).1, fun h => List.mem_filter.mpr ⟨h, ?_⟩⟩
    rw [(Bool.not_eq_true _).mp hne]
    rfl

end
end NamedMutexes
end QronosAgent.Lib

import Mathlib.Data.List.Basic
import Mathlib.Data.List.Nodup
import Mathlib.Data.List.Perm.Basic

/-! Insertion-ordered dictionaries: finite maps whose keys keep the order of their first
insertion. An update in place keeps the position of its key, a new key goes to the end. -/
namespace QronosAgent.Lib

structure Dict (K V : Type*) where
  items : List (K × V)
  nodup : (items.map Prod.fst).Nodup

namespace Dict
variable {K V : Type*}

def empty : Dict K V := ⟨[], List.nodup_nil⟩

variable {d : Dict K V} {p : K → V → Bool} {k l : K} {v w : V} {α : Type*} {as : List α}
  {f : V → V}

theorem ext_items {e : Dict K V} (h : d.items = e.items) : d = e := by
  cases d
  cases e
  cases h
  rfl

def keys (d : Dict K V) : List K := d.items.map Prod.fst

def values (d : Dict K V) : List V := d.items.map Prod.snd

/-- Keep the items that satisfy `p`, in order. -/
def filter (d : Dict K V) (p : K → V → Bool) : Dict K V where
  items := d.items.filter fun kv => p kv.1 kv.2
  nodup := d.nodup.sublist (List.filter_sublist.map _)

theorem mem_filter :
    (k, v) ∈ (d.filter p).items ↔ (k, v) ∈ d.items ∧ p k v = true := by
  simp [filter]

theorem item_unique (hv : (k, v) ∈ d.items) (hw : (k, w) ∈ d.items) : v = w := by
  have hinj := List.inj_on_of_nodup_map d.nodup hv hw rfl
  exact (Prod.mk.inj hinj).2

/-- All but the first `n` items. -/
def drop (d : Dict K V) (n : ℕ) : Dict K V where
  items := d.items.drop n
  nodup := d.nodup.sublist ((List.drop_sublist n _).map _)

variable [DecidableEq K]

def get? (d : Dict K V) (k : K) : Option V := d.items.lookup k

theorem lookup_mem {l : List (K × V)} (h : l.lookup k = some v) :
    (k, v) ∈ l := by
  obtain ⟨l₁, l₂, hl, _⟩ := List.lookup_eq_some_iff.mp h
  simp [hl]

theorem get?_eq_some :
    d.get? k = some v ↔ (k, v) ∈ d.items := by
  refine ⟨lookup_mem, fun h => ?_⟩
  have hs : (d.items.lookup k).isSome := by
    rw [List.lookup_isSome_iff]
    exact ⟨(k, v), h, by simp⟩
  obtain ⟨w, hw⟩ := Option.isSome_iff_exists.mp hs
  rw [get?, hw, item_unique h (lookup_mem hw)]

theorem get?_eq_none : d.get? k = none ↔ k ∉ d.keys := by
  rw [Option.eq_none_iff_forall_ne_some]
  simp only [ne_eq, get?_eq_some, keys, List.mem_map, Prod.exists, exists_and_right,
    exists_eq_right, not_exists]

theorem isSome_get? : (d.get? k).isSome ↔ k ∈ d.keys := by
  rw [Option.isSome_iff_ne_none, ne_eq, get?_eq_none, not_not]

@[simp] theorem get?_empty (k : K) : (empty : Dict K V).get? k = none := rfl

theorem mem_values : v ∈ d.values ↔ ∃ k, d.get? k = some v := by
  simp [values, get?_eq_some]

theorem get?_filter :
    (d.filter p).get? k = (d.get? k).filter (p k) := by
  ext v
  rw [get?_eq_some, mem_filter, Option.filter_eq_some_iff, ← get?_eq_some]

/-- Assign `v` to `k`: in place when `k` is there, at the end otherwise. -/
def set (d : Dict K V) (k : K) (v : V) : Dict K V where
  items :=
    if k ∈ d.items.map Prod.fst then
      d.items.map fun kv => if kv.1 = k then (k, v) else kv
    else d.items ++ [(k, v)]
  nodup := by
    split
    · have hkeys : (d.items.map fun kv => if kv.1 = k then (k, v) else kv).map Prod.fst =
          d.items.map Prod.fst := by
        rw [List.map_map]
        refine List.map_congr_left fun kv _ => ?_
        by_cases h : kv.1 = k <;> simp [h]
      rw [hkeys]
      exact d.nodup
    · rename_i h
      rw [List.map_append, List.nodup_append]
      refine ⟨d.nodup, by simp, ?_⟩
      intro a ha b hb hab
      simp only [List.map_cons, List.map_nil, List.mem_singleton] at hb
      exact h (hb ▸ hab ▸ ha)

theorem mem_set :
    (l, w) ∈ (d.set k v).items ↔ (l = k ∧ w = v) ∨ (l ≠ k ∧ (l, w) ∈ d.items) := by
  unfold set
  by_cases hk : k ∈ d.items.map Prod.fst
  · simp only [hk, if_true, List.mem_map, Prod.exists]
    constructor
    · rintro ⟨a, b, hab, he⟩
      by_cases ha : a = k
      · simp only [ha, if_true, Prod.mk.injEq] at he
        exact .inl ⟨he.1.symm, he.2.symm⟩
      · simp only [ha, if_false, Prod.mk.injEq] at he
        obtain ⟨rfl, rfl⟩ := he
        exact .inr ⟨ha, hab⟩
    · rintro (⟨rfl, rfl⟩ | ⟨hl, hm⟩)
      · obtain ⟨⟨a, b⟩, hab, ha⟩ := List.mem_map.mp hk
        exact ⟨a, b, hab, by simp_all⟩
      · exact ⟨l, w, hm, by simp [hl]⟩
  · simp only [hk, if_false, List.mem_append, List.mem_singleton, Prod.mk.injEq]
    constructor
    · rintro (hm | h)
      · exact .inr ⟨fun h => hk (h ▸ List.mem_map.mpr ⟨_, hm, rfl⟩), hm⟩
      · exact .inl h
    · rintro (h | ⟨_, hm⟩)
      · exact .inr h
      · exact .inl hm

theorem get?_set :
    (d.set k v).get? l = if l = k then some v else d.get? l := by
  ext w
  rw [get?_eq_some, mem_set]
  by_cases h : l = k
  · simp [h, eq_comm]
  · simp only [h, false_and, not_false_eq_true, ne_eq, true_and, false_or, if_false]
    exact get?_eq_some.symm

@[simp] theorem get?_set_self : (d.set k v).get? k = some v := by
  rw [get?_set, if_pos rfl]

@[simp] theorem get?_set_ne (h : l ≠ k) :
    (d.set k v).get? l = d.get? l := by
  rw [get?_set, if_neg h]

/-- A new key goes to the end. -/
theorem items_set_of_notMem (h : k ∉ d.keys) :
    (d.set k v).items = d.items ++ [(k, v)] := if_neg h

/-- Assigning a key the value it has changes nothing, the order included. -/
theorem set_eq_self (h : d.get? k = some v) : d.set k v = d := by
  have hmem := get?_eq_some.mp h
  have hitems : (d.set k v).items = d.items := by
    refine (if_pos (List.mem_map.mpr ⟨(k, v), hmem, rfl⟩)).trans ?_
    refine (List.map_congr_left fun kv hkv => ?_).trans (List.map_id _)
    by_cases hk : kv.1 = k
    · rw [if_pos hk]
      cases hk
      rw [item_unique hmem hkv]
      rfl
    · rw [if_neg hk]
      rfl
  cases hset : d.set k v
  cases d
  simp_all

/-- What assigning one item after another leaves under a key. -/
theorem get?_foldl_set {key : α → K} {value : α → V}
    (h : (as.foldl (fun d a => d.set (key a) (value a)) d).get? k = some v) :
    (∃ a ∈ as, key a = k ∧ value a = v) ∨ d.get? k = some v := by
  induction as generalizing d with
  | nil => exact .inr h
  | cons a as ih =>
    rcases ih h with ⟨b, hb, hkv⟩ | h
    · exact .inl ⟨b, List.mem_cons_of_mem a hb, hkv⟩
    · rw [get?_set] at h
      split at h
      · rename_i hk
        exact .inl ⟨a, List.mem_cons_self, hk.symm, Option.some.inj h⟩
      · exact .inr h

theorem items_foldl_set (key : α → K) (value : α → V) (h : (d.keys ++ as.map key).Nodup) :
    (as.foldl (fun d a => d.set (key a) (value a)) d).items =
      d.items ++ as.map fun a => (key a, value a) := by
  induction as generalizing d with
  | nil => simp
  | cons a as ih =>
    have hnew : key a ∉ d.keys := by
      intro hm
      rw [List.nodup_append] at h
      exact h.2.2 _ hm (key a) (by simp) rfl
    have hset := items_set_of_notMem (v := value a) hnew
    rw [List.foldl_cons, ih (by simpa [keys, hset] using h), hset]
    simp

/-- Drop `k` and its value. -/
def erase (d : Dict K V) (k : K) : Dict K V := d.filter fun l _ => l ≠ k

theorem get?_erase :
    (d.erase k).get? l = if l = k then none else d.get? l := by
  rw [erase, get?_filter]
  by_cases h : l = k <;> cases hd : d.get? l <;> simp [h, Option.filter]

@[simp] theorem get?_erase_self : (d.erase k).get? k = none := by
  rw [get?_erase, if_pos rfl]

@[simp] theorem get?_erase_ne (h : l ≠ k) :
    (d.erase k).get? l = d.get? l := by
  rw [get?_erase, if_neg h]

/-- Replace the value under `k` by `f` of it; nothing when `k` is absent. -/
def modify (d : Dict K V) (k : K) (f : V → V) : Dict K V where
  items := d.items.map fun kv => if kv.1 = k then (kv.1, f kv.2) else kv
  nodup := by
    have hkeys : (d.items.map fun kv => if kv.1 = k then (kv.1, f kv.2) else kv).map Prod.fst =
        d.items.map Prod.fst := by
      rw [List.map_map]
      refine List.map_congr_left fun kv _ => ?_
      by_cases h : kv.1 = k <;> simp [h]
    rw [hkeys]
    exact d.nodup

theorem get?_modify :
    (d.modify k f).get? l = if l = k then (d.get? k).map f else d.get? l := by
  ext w
  rw [get?_eq_some]
  simp only [modify, List.mem_map, Prod.exists]
  by_cases h : l = k
  · subst h
    simp only [if_true, Option.map_eq_some_iff, get?_eq_some]
    constructor
    · rintro ⟨a, b, hab, he⟩
      by_cases ha : a = l
      · simp only [ha, if_true, Prod.mk.injEq, true_and] at he
        exact ⟨b, ha ▸ hab, he⟩
      · simp only [ha, if_false, Prod.mk.injEq, false_and] at he
    · rintro ⟨b, hb, hf⟩
      exact ⟨l, b, hb, by simp [hf]⟩
  · simp only [if_neg h, get?_eq_some]
    constructor
    · rintro ⟨a, b, hab, he⟩
      by_cases ha : a = k
      · simp only [ha, if_true, Prod.mk.injEq] at he
        exact absurd he.1.symm h
      · simp only [ha, if_false, Prod.mk.injEq] at he
        obtain ⟨rfl, rfl⟩ := he
        exact hab
    · intro hm
      exact ⟨l, w, hm, by simp [h]⟩

@[simp] theorem get?_modify_self :
    (d.modify k f).get? k = (d.get? k).map f := by
  rw [get?_modify, if_pos rfl]

@[simp] theorem get?_modify_ne (h : l ≠ k) :
    (d.modify k f).get? l = d.get? l := by
  rw [get?_modify, if_neg h]

/-- Modify the values under several keys. -/
theorem get?_foldl_modify {f : K → V → V} {ks : List K} (hks : ks.Nodup) :
    (ks.foldl (fun d k => d.modify k (f k)) d).get? l =
      if l ∈ ks then (d.get? l).map (f l) else d.get? l := by
  induction ks generalizing d with
  | nil => simp
  | cons k ks ih =>
    obtain ⟨hk, hks⟩ := List.nodup_cons.mp hks
    rw [List.foldl_cons, ih hks, get?_modify]
    by_cases hl : l = k
    · subst hl
      simp [hk]
    · simp [hl]

theorem modify_id (d : Dict K V) (k : K) : d.modify k id = d := by
  have hitems : (d.modify k id).items = d.items := by
    refine (List.map_congr_left fun kv _ => ?_).trans (List.map_id _)
    split <;> rfl
  cases hm : d.modify k id
  cases d
  simp_all

end Dict
end QronosAgent.Lib

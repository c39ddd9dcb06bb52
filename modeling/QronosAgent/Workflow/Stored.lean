import QronosAgent.Workflow.SideEffects

/-! What a section leaves on the disk, and what is read from there again. -/
namespace QronosAgent.Workflow
open Lib
open Journal (JsonStore Platform Members SaveFault SaveError LoadError)

structure Entry (F : Type) where
  contentKey : PyStr
  state : SideEffectState
  detail : PyStr
  updatedAt : F
  owner : PyStr

namespace Entry
variable {F : Type}

def members (e : Entry F) : Members F :=
  [(py "contentKey", .str e.contentKey), (py "state", .str e.state.value),
    (py "detail", .str e.detail), (py "updatedAt", .float e.updatedAt), (py "owner", .str e.owner)]

theorem stateOf?_members (e : Entry F) : stateOf? e.members = some e.state := by
  have hstate : Json.member? e.members (py "state") = some (.str e.state.value) := rfl
  rw [stateOf?, hstate]
  exact SideEffectState.of?_value e.state

theorem textOf_contentKey (e : Entry F) : textOf e.members (py "contentKey") = e.contentKey := rfl

theorem textOf_owner (e : Entry F) : textOf e.members (py "owner") = e.owner := rfl

theorem members_injective {e e' : Entry F} (h : e.members = e'.members) : e = e' := by
  have hstate := congrArg stateOf? h
  simp only [stateOf?_members, Option.some.injEq] at hstate
  cases e
  cases e'
  simp only [members, List.cons.injEq, Prod.mk.injEq, Json.str.injEq, Json.float.injEq, true_and,
    and_true] at h
  obtain ⟨hcontent, -, hdetail, hnow, howner⟩ := h
  rw [Entry.mk.injEq]
  exact ⟨hcontent, hstate, hdetail, hnow, howner⟩

theorem changeState_members (e : Entry F) (state : SideEffectState) (detail : PyStr) (now : F) :
    changeState e.members state detail now =
      (⟨e.contentKey, state, detail, now, e.owner⟩ : Entry F).members := rfl

theorem checkEntry_members (e : Entry F) {key : PyStr} (hkey : key ≠ [])
    (hcontent : e.contentKey ≠ []) : checkEntry key (.obj e.members) = .ok e.members := by
  have hstate : Json.member? e.members (py "state") = some (.str e.state.value) := rfl
  have hdetail : optionalText e.members (py "detail") = true := rfl
  have howner : optionalText e.members (py "owner") = true := rfl
  have hnumber : optionalNumber e.members = true := rfl
  rw [checkEntry, textOf_contentKey, if_neg (by simp [hkey, hcontent])]
  simp [hstate, stateOf?_members, hdetail, howner, hnumber]

theorem blocks_members {e : Entry F} {key : PyStr} :
    blocks key e.members = true ↔ e.contentKey = key ∧ e.state.unresolved = true := by
  rw [blocks, textOf_contentKey, stateOf?_members]
  simp

end Entry

section
variable {F : Type}

/-- Every entry is one that the operations write. -/
def Shaped (entries : Entries F) : Prop :=
  ∀ key ms, entries.get? key = some ms → key ≠ [] ∧ ∃ e : Entry F, ms = e.members ∧ e.contentKey ≠ []

variable {entries : Entries F} {d : Disk}

theorem Shaped.set (h : Shaped entries) {key : PyStr} (hkey : key ≠ []) {e : Entry F}
    (he : e.contentKey ≠ []) : Shaped (entries.set key e.members) := by
  intro k ms hget
  rw [Dict.get?_set] at hget
  split at hget
  · rename_i hk
    cases hget
    exact ⟨hk ▸ hkey, e, rfl, he⟩
  · exact h k ms hget

def stateIn (entries : Entries F) (key : PyStr) : Option SideEffectState :=
  (entries.get? key).bind stateOf?

theorem storable_payload (digits depth : ℕ) (h : Shaped entries) :
    Json.StorableMembers digits (depth + 2) (payload entries) := by
  have hentries : ∀ kvs : List (PyStr × Members F),
      (∀ kv ∈ kvs, ∃ e : Entry F, kv.2 = e.members) →
        Json.StorableMembers digits (depth + 1) (kvs.map fun kv => (kv.1, .obj kv.2)) := by
    intro kvs
    induction kvs with
    | nil => exact fun _ => trivial
    | cons kv kvs ih =>
      intro hall
      obtain ⟨⟨e, he⟩, hrest⟩ := List.forall_mem_cons.mp hall
      refine ⟨?_, ih hrest⟩
      rw [he]
      exact ⟨by simp only [Entry.members, List.map_cons, List.map_nil]; decide, trivial, trivial,
        trivial, trivial, trivial, trivial⟩
  refine ⟨⟨?_, hentries _ ?_⟩, trivial⟩
  · rw [List.map_map]
    exact entries.nodup
  · intro kv hkv
    obtain ⟨-, e, he, -⟩ := h kv.1 kv.2 (Dict.get?_eq_some.mpr hkv)
    exact ⟨e, he⟩

theorem mapM_readEntry {kvs : List (PyStr × Members F)}
    (h : ∀ kv ∈ kvs, kv.1 ≠ [] ∧ ∃ e : Entry F, kv.2 = e.members ∧ e.contentKey ≠ []) :
    (kvs.map fun kv => (kv.1, Json.obj kv.2)).mapM readEntry = .ok kvs := by
  induction kvs with
  | nil => rfl
  | cons kv kvs ih =>
    obtain ⟨⟨hkey, e, he, hcontent⟩, hrest⟩ := List.forall_mem_cons.mp h
    have hread : readEntry (kv.1, Json.obj kv.2) = .ok kv := by
      rw [readEntry, he, e.checkEntry_members hkey hcontent, ← he]
      rfl
    rw [List.map_cons, List.mapM_cons, hread, ih hrest]
    rfl

variable [PyFloat F] {plat : Platform}

/-- What was saved is read again. -/
theorem load_encode {bytes : ByteArray} {marker : Bool} (h : Shaped entries)
    (hb : (sideEffectStore F).encode plat (payload entries) = .ok bytes) :
    load plat false ⟨some bytes, marker⟩ = .ok entries := by
  have hstorable : ((sideEffectStore F).document (payload entries)).Storable plat.limits.intDigits
      plat.limits.depth := by
    obtain ⟨depth, hdepth⟩ := Nat.exists_eq_add_of_le' plat.deep
    have hversion := le_trans (by decide : (natText (1 : ℤ).natAbs).length ≤ 640) plat.digits
    rw [hdepth]
    exact ⟨by simp only [List.map_cons, List.map_nil]; decide, hversion,
      ⟨by simp only [payload, List.map_cons, List.map_nil]; decide, storable_payload _ _ h⟩, trivial⟩
  have hentries : Json.member? (payload entries) (py "entries") =
      some (.obj (entries.items.map fun kv => (kv.1, .obj kv.2))) := rfl
  unfold load
  simp only [JsonStore.load_encode hb hstorable, hentries, readEntries]
  rw [mapM_readEntry fun kv hkv => h kv.1 kv.2 (Dict.get?_eq_some.mpr hkv)]
  have hnodup : ((Dict.empty : Entries F).keys ++ entries.items.map Prod.fst).Nodup := by
    simpa [Dict.keys, Dict.empty] using entries.nodup
  have hitems := Dict.items_foldl_set Prod.fst Prod.snd hnodup
  simp only [Dict.empty, List.nil_append, Prod.mk.eta, List.map_id'] at hitems
  exact congrArg Except.ok (Dict.ext_items hitems)

inductive Section (plat : Platform) (d : Disk) (change : Entries F → Except Failure (Option (Entries F)))
    (r : Except Failure Unit × Disk) : Prop where
  | same (hdisk : r.2 = d) (hreturned : r.1 = .ok () → ∃ entries, load plat false d = .ok entries ∧
      change entries = .ok none)
  | saved (entries changed) (hload : load plat false d = .ok entries)
      (hchange : change entries = .ok (some changed)) (bytes)
      (hb : (sideEffectStore F).encode plat (payload changed) = .ok bytes)
      (hfile : r.2.file = some bytes) (hmarker : d.marker = true → r.2.marker = true)
      (hreturned : r.1 = .ok () → r.2.marker = true)

theorem load_of_unreadable {unreadable : Bool} (h : load plat unreadable d = .ok entries) :
    load plat false d = .ok entries := by
  cases unreadable with
  | false => exact h
  | true =>
    unfold load at h ⊢
    cases hfile : d.file with
    | none => simpa [hfile] using h
    | some bytes => simp [hfile, JsonStore.load, JsonStore.readRaw] at h

theorem saveEntries_section {fate : Fate} {changed : Entries F}
    {change : Entries F → Except Failure (Option (Entries F))}
    (hload : load plat false d = .ok entries) (hchange : change entries = .ok (some changed)) :
    Section plat d change (saveEntries plat fate changed d) := by
  have hatomic := (sideEffectStore F).save_atomic plat (payload changed) fate.save d.file
  have hreturned : ((sideEffectStore F).save plat (payload changed) fate.save d.file).1 = .ok () →
      ∃ bytes, (sideEffectStore F).encode plat (payload changed) = .ok bytes ∧
        ((sideEffectStore F).save plat (payload changed) fate.save d.file).2 = some bytes :=
    JsonStore.save_ok
  unfold saveEntries
  generalize hr : (sideEffectStore F).save plat (payload changed) fate.save d.file = r at *
  obtain ⟨result, file⟩ := r
  cases result with
  | error e =>
    rcases hatomic with hsame | ⟨bytes, hb, hfile⟩
    · obtain rfl : file = d.file := hsame
      exact .same rfl (fun h => by cases h)
    · exact .saved entries changed hload hchange bytes hb hfile (fun h => h) (fun h => by cases h)
  | ok u =>
    obtain ⟨bytes, hb, hfile⟩ := hreturned rfl
    by_cases hmarker : d.marker = true
    · simp only
      rw [if_pos hmarker]
      exact .saved entries changed hload hchange bytes hb hfile (fun h => h) (fun _ => hmarker)
    · simp only
      rw [if_neg hmarker]
      cases fate.marker with
      | none => exact .saved entries changed hload hchange bytes hb hfile (fun _ => rfl) (fun _ => rfl)
      | fails created =>
        exact .saved entries changed hload hchange bytes hb hfile (fun h => absurd h hmarker)
          (fun h => by cases h)

theorem locked_section (fate : Fate) (d : Disk)
    (change : Entries F → Except Failure (Option (Entries F))) :
    Section plat d change (locked plat fate d change) := by
  unfold locked
  split
  · cases hload : load (F := F) plat fate.unreadable d with
    | error e => exact .same rfl (fun h => by cases h)
    | ok entries =>
      have hread := load_of_unreadable hload
      simp only
      cases hchange : change entries with
      | error e => exact .same rfl (fun h => by cases h)
      | ok changed =>
        cases changed with
        | none => exact .same rfl (fun _ => ⟨entries, hread, hchange⟩)
        | some changed => exact saveEntries_section hread hchange
  · exact .same rfl (fun h => by cases h)

end

/-! What the operations make of the entries that they read: a new attempt, or other states of those
that are there. -/

open Journal (Members)

section
variable {F : Type}

/-- Some attempts get another state, as `allowed` has it; they keep their content and their owner. -/
def Altered (allowed : PyStr → Entry F → SideEffectState → Prop) (entries changed : Entries F) :
    Prop :=
  ∀ key, changed.get? key = entries.get? key ∨
    ∃ (e : Entry F) (state : SideEffectState) (detail : PyStr) (now : F),
      entries.get? key = some e.members ∧ allowed key e state ∧
        changed.get? key = some (⟨e.contentKey, state, detail, now, e.owner⟩ : Entry F).members

variable {allowed : PyStr → Entry F → SideEffectState → Prop} {entries changed : Entries F}

theorem Altered.shaped (h : Altered allowed entries changed) (hs : Shaped entries) :
    Shaped changed := by
  intro key ms hget
  rcases h key with hsame | ⟨e, state, detail, now, hold, -, hnew⟩
  · exact hs key ms (hsame ▸ hget)
  · obtain ⟨hkey, e', hmembers, hcontent⟩ := hs key _ hold
    have hsame : e.contentKey = e'.contentKey := by
      rw [← e.textOf_contentKey, hmembers, e'.textOf_contentKey]
    refine ⟨hkey, ⟨e.contentKey, state, detail, now, e.owner⟩, ?_, hsame ▸ hcontent⟩
    exact Option.some.inj (hget.symm.trans hnew)

variable {key detail operationKey contentKey owner : PyStr} {e : Entry F}
  {state : SideEffectState} {now : F} {change : Option (Entries F)}

/-- An entry is still there, with its content and its owner; it has kept its state, or got one that
`allowed` has. -/
theorem Altered.get? (h : Altered allowed entries changed)
    (hget : entries.get? key = some e.members) : ∃ e' : Entry F,
      changed.get? key = some e'.members ∧ e'.contentKey = e.contentKey ∧ e'.owner = e.owner ∧
        (e'.state = e.state ∨ allowed key e e'.state) := by
  rcases h key with hsame | ⟨e₁, state, detail, now, hold, hallowed, hnew⟩
  · exact ⟨e, hsame.trans hget, rfl, rfl, .inl rfl⟩
  · have hmembers : e₁.members = e.members := Option.some.inj (hold.symm.trans hget)
    obtain rfl : e₁ = e := Entry.members_injective hmembers
    exact ⟨_, hnew, rfl, rfl, .inr hallowed⟩

theorem Altered.known (h : Altered allowed entries changed) (hget : (changed.get? key).isSome) :
    (entries.get? key).isSome := by
  rcases h key with hsame | ⟨e, -, -, -, hold, -⟩
  · exact hsame ▸ hget
  · exact hold ▸ rfl

theorem altered_set (hget : entries.get? key = some e.members) (hallowed : allowed key e state) :
    Altered allowed entries (entries.set key (changeState e.members state detail now)) := by
  intro k
  by_cases hk : k = key
  · subst hk
    apply Or.inr
    exact ⟨e, state, detail, now, hget, hallowed, Dict.get?_set_self⟩
  · exact .inl (Dict.get?_set_ne hk)

theorem begun_eq_ok
    (h : begun operationKey contentKey detail owner now entries = .ok (some changed)) :
    entries.get? operationKey = none ∧
      (∀ key ms, entries.get? key = some ms → blocks contentKey ms = false) ∧
      changed = entries.set operationKey
        (⟨contentKey, .submitting, detail.take 500, now, owner⟩ : Entry F).members := by
  unfold begun at h
  split at h
  · cases h
  · rename_i hnew
    split at h
    · cases h
    · rename_i hblocked
      cases h
      refine ⟨by simpa using hnew, fun key ms hget => ?_, rfl⟩
      have hmem : ms ∈ entries.values := Dict.mem_values.mpr ⟨key, hget⟩
      simp only [List.any_eq_true, not_exists, not_and, Bool.not_eq_true] at hblocked
      exact hblocked ms hmem

theorem begun_ne_none :
    begun operationKey contentKey detail owner now entries ≠ .ok none := by
  unfold begun
  split
  · simp
  · split <;> simp

/-- What `settle` may do to an attempt. -/
def Settles (operationKey : PyStr) (state : SideEffectState) (key : PyStr) (e : Entry F)
    (new : SideEffectState) : Prop :=
  key = operationKey ∧ new = state ∧
    (e.state = .submitting ∨ e.state = .uncertain ∧ state = .confirmed)

theorem settled_eq_ok (hs : Shaped entries)
    (h : settled operationKey state detail now entries = .ok change) :
    ∃ changed, change = some changed ∧ Altered (Settles operationKey state) entries changed := by
  unfold settled at h
  cases hget : entries.get? operationKey with
  | none => simp [hget] at h
  | some ms =>
    obtain ⟨-, e, rfl, -⟩ := hs operationKey ms hget
    simp only [hget, e.stateOf?_members, Option.any_some] at h
    split at h
    · cases h
    · rename_i hunresolved
      split at h
      · cases h
      · rename_i huncertain
        cases h
        refine ⟨_, rfl, altered_set hget ⟨rfl, rfl, ?_⟩⟩
        cases hstate : e.state <;> simp_all [SideEffectState.unresolved]

/-- What `acknowledge` may do to an attempt. -/
def Releases (operationKey : PyStr) (key : PyStr) (e : Entry F) (new : SideEffectState) : Prop :=
  key = operationKey ∧ e.state = .uncertain ∧ new = .acknowledged

theorem released_eq_ok (hs : Shaped entries)
    (h : released operationKey detail now entries = .ok change) :
    ∃ changed, change = some changed ∧ Altered (Releases operationKey) entries changed := by
  unfold released at h
  cases hget : entries.get? operationKey with
  | none => simp [hget] at h
  | some ms =>
    obtain ⟨-, e, rfl, -⟩ := hs operationKey ms hget
    simp only [hget, e.stateOf?_members] at h
    split at h
    · rename_i huncertain
      cases h
      exact ⟨_, rfl, altered_set hget ⟨rfl, Option.some.inj huncertain, rfl⟩⟩
    · cases h

/-- What `reconcile_interrupted` may do to an attempt. -/
def Interrupts (alive : PyStr → PyStr → Bool) (key : PyStr) (e : Entry F)
    (new : SideEffectState) : Prop :=
  e.state = .submitting ∧ alive key e.owner = false ∧ new = .uncertain

theorem reconciled_eq_ok (hs : Shaped entries) {alive : PyStr → PyStr → Bool} {now : PyStr → F}
    (h : reconciled alive now entries = .ok (some changed)) :
    Altered (Interrupts alive) entries changed := by
  unfold reconciled at h
  simp only at h
  split at h
  · cases h
  · cases h
    intro key
    have hnodup : (entries.filter (interrupted alive)).keys.Nodup :=
      (entries.filter (interrupted alive)).nodup
    rw [Dict.get?_foldl_modify hnodup]
    by_cases hkey : key ∈ (entries.filter (interrupted alive)).keys
    · rw [if_pos hkey]
      obtain ⟨ms, hfilter⟩ := Option.isSome_iff_exists.mp (Dict.isSome_get?.mpr hkey)
      obtain ⟨hget, hinterrupted⟩ := Dict.mem_filter.mp (Dict.get?_eq_some.mp hfilter)
      rw [← Dict.get?_eq_some] at hget
      obtain ⟨-, e, rfl, -⟩ := hs key ms hget
      simp only [interrupted, e.stateOf?_members, e.textOf_owner, Bool.and_eq_true,
        decide_eq_true_eq, Option.some.injEq, Bool.not_eq_true'] at hinterrupted
      refine .inr ⟨e, .uncertain, interruptedDetail, now key, hget,
        ⟨hinterrupted.1, hinterrupted.2, rfl⟩, ?_⟩
      rw [hget]
      rfl
    · rw [if_neg hkey]
      exact .inl rfl

end
end QronosAgent.Workflow

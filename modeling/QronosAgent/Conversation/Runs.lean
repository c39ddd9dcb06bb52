import QronosAgent.Conversation.Store
import QronosAgent.Lib.Machine

/-! Runs of a conversation store whose saves may fail. Memory and file agree as long as no
operation changes the memory without saving it. -/
namespace QronosAgent.Conversation
open Lib
open Journal (JsonStore Platform Members SaveFault SaveError LoadError)

inductive Operation (F : Type) where
  | append (conversationId role text : PyStr) (now : F)
  | forget (conversationId : PyStr)
  | forgetAll
  | importConversations (items : List (Json F))

structure Call (F : Type) where
  operation : Operation F
  fault : SaveFault

section
variable {F : Type} [PyFloat F] [PyConvert F] (plat : Platform) (settings : Settings)

def succeeds {α : Type} : Except Failure α → Bool
  | .ok _ => true
  | .error _ => false

/-- `forget` as a call. -/
def forgetting (id : PyStr) (fault : SaveFault) : Call F := ⟨.forget id, fault⟩

def Call.run (call : Call F) (s : ConversationStore F) : Bool × ConversationStore F :=
  match call.operation with
  | .append conversationId role text now =>
    let r := append plat settings s conversationId role text now call.fault
    (succeeds r.1, r.2)
  | .forget conversationId =>
    let r := forget plat s conversationId call.fault
    (succeeds r.1, r.2)
  | .forgetAll =>
    let r := forgetAll plat s call.fault
    (succeeds r.1, r.2)
  | .importConversations items =>
    let r := importConversations plat settings s items call.fault
    (succeeds r.1, r.2)

/-- Each conversation is under its own id, and can be written. -/
def Sound (memory : Memory F) : Prop :=
  ∀ id c, memory.get? id = some c → c.conversationId = id ∧ id ≠ [] ∧ c.Encodable

def Holds (s : ConversationStore F) : Prop :=
  ∃ memory, load plat s.file = some memory ∧
    ∀ id, memory.get? id = (s.memory.get? id).map StoredConversation.rounded

def conversationMachine : Machine (ConversationStore F) (Call F) where
  start s := Sound s.memory ∧ Holds plat s
  step s call := some (call.run plat settings s).2

def SavesWell (s : ConversationStore F) (memory : Memory F) (fault : SaveFault) : Prop :=
  fault = .none ∨ memory = s.memory ∧ (fault.setup.isSome ∨ fault.disk.isSome)

/-- Every conversation of an import can be written. -/
def AllEncodable (items : List (Json F)) : Prop :=
  ∀ data ∈ items, ∀ c, StoredConversation.fromJson data = some c → c.conversationId ≠ [] →
    c.Encodable

/-- The condition on a call: what it makes of the memory is saved, it brings no lone surrogates,
and an import that breaks off has changed nothing yet. -/
def Meets (s : ConversationStore F) (call : Call F) : Prop :=
  match call.operation with
  | .append conversationId role text now =>
    settings.enabled → ¬ PyStr.blank conversationId →
      (PyStr.Encodable conversationId ∧ PyStr.Encodable role ∧ PyStr.Encodable text) ∧
      SavesWell s (trim settings (s.memory.set conversationId
        (extended settings s.memory conversationId role text now))) call.fault
  | .forget conversationId =>
    s.memory.get? conversationId ≠ none →
      SavesWell s (s.memory.erase conversationId) call.fault
  | .forgetAll => SavesWell s .empty call.fault
  | .importConversations items =>
    AllEncodable items ∧
      match takeAll s.memory 0 items with
      | (memory, none) => memory = s.memory
      | (memory, some _) => SavesWell s (trim settings memory) call.fault

def Call.Proper (call : Call F) : Prop :=
  call.fault = .none ∧
    match call.operation with
    | .append conversationId role text _ => ¬ PyStr.blank conversationId ∧
        PyStr.Encodable conversationId ∧ PyStr.Encodable role ∧ PyStr.Encodable text
    | .forget _ => True
    | .forgetAll => True
    | .importConversations items => ∀ data ∈ items, ∃ c, StoredConversation.fromJson data = some c ∧
        c.Encodable

end

section
variable {F : Type} {memory : Memory F} {settings : Settings}

theorem Sound.set (h : Sound memory) {c : StoredConversation F} (hid : c.conversationId ≠ [])
    (hc : c.Encodable) : Sound (memory.set c.conversationId c) := by
  intro k a ha
  rw [Dict.get?_set] at ha
  split at ha
  · rename_i hk
    cases ha
    exact ⟨hk.symm, hk ▸ hid, hc⟩
  · exact h k a ha

theorem Sound.erase (h : Sound memory) (id : PyStr) : Sound (memory.erase id) := by
  intro k a ha
  rw [Dict.get?_erase] at ha
  split at ha
  · contradiction
  · exact h k a ha

theorem mem_lastMessages {α : Type} {n : ℤ} {ms : List α} {m : α} (h : m ∈ lastMessages n ms) :
    m ∈ ms := by
  unfold lastMessages at h
  split at h <;> exact List.mem_of_mem_drop h

theorem Sound.extended (h : Sound memory) {id role text : PyStr} {now : F}
    (hid : PyStr.Encodable id) (hrole : PyStr.Encodable role) (htext : PyStr.Encodable text) :
    (extended settings memory id role text now).conversationId = id ∧
      (extended settings memory id role text now).Encodable := by
  unfold Conversation.extended
  cases hget : memory.get? id with
  | none => exact ⟨rfl, hid, by simpa using ⟨hrole, htext⟩⟩
  | some existing =>
    obtain ⟨hkey, -, hexisting⟩ := h id existing hget
    refine ⟨hkey, hexisting.1, fun m hm => ?_⟩
    rcases List.mem_append.mp (mem_lastMessages hm) with hm | hm
    · exact hexisting.2 m hm
    · cases List.mem_singleton.mp hm
      exact ⟨hrole, htext⟩

end

section
variable {F : Type} [PyConvert F]

theorem chars_toJson {c : StoredConversation F} (h : c.Encodable) :
    PyStr.Encodable c.toJson.chars := by
  have hitems : ∀ ms : List (StoredMessage F),
      (∀ m ∈ ms, PyStr.Encodable m.role ∧ PyStr.Encodable m.text) →
        PyStr.Encodable (Json.charsItems (ms.map StoredMessage.toJson)) := by
    intro ms hms
    induction ms with
    | nil => exact PyStr.encodable_nil
    | cons m ms ih =>
      obtain ⟨⟨hrole, htext⟩, hrest⟩ := List.forall_mem_cons.mp hms
      rw [List.map_cons, Json.charsItems, PyStr.encodable_append]
      refine ⟨?_, ih hrest⟩
      simp only [StoredMessage.toJson, Json.chars, Json.charsMembers, PyStr.encodable_append,
        PyStr.encodable_nil, PyStr.encodable_py, and_true, true_and]
      exact ⟨hrole, htext⟩
  simp only [StoredConversation.toJson, Json.chars, Json.charsMembers, PyStr.encodable_append,
    PyStr.encodable_nil, PyStr.encodable_py, and_true, true_and]
  exact ⟨h.1, hitems _ h.2⟩

theorem intsFit_toJson (digits : ℕ) (c : StoredConversation F) :
    c.toJson.intsFit digits = true := by
  have hitems : Json.intsFitItems digits (c.messages.map StoredMessage.toJson) = true := by
    induction c.messages with
    | nil => rfl
    | cons m ms ih =>
      rw [List.map_cons, Json.intsFitItems, ih]
      rfl
  simp [StoredConversation.toJson, Json.intsFit, Json.intsFitMembers, hitems]

theorem storable_toJson (digits depth : ℕ) (c : StoredConversation F) :
    c.toJson.Storable digits (depth + 3) := by
  have hitems : Json.StorableItems digits (depth + 1) (c.messages.map StoredMessage.toJson) := by
    rw [Json.storableItems_iff, List.forall_mem_map]
    intro m _
    exact ⟨by simp only [List.map_cons, List.map_nil]; decide, trivial, trivial, trivial, trivial⟩
  exact ⟨by simp only [List.map_cons, List.map_nil]; decide, trivial, trivial, hitems, trivial⟩

theorem charsItems_encodable {cs : List (StoredConversation F)} (h : ∀ c ∈ cs, c.Encodable) :
    PyStr.Encodable (Json.charsItems (cs.map StoredConversation.toJson)) := by
  induction cs with
  | nil => exact PyStr.encodable_nil
  | cons c cs ih =>
    obtain ⟨hc, hcs⟩ := List.forall_mem_cons.mp h
    rw [List.map_cons, Json.charsItems, PyStr.encodable_append]
    exact ⟨chars_toJson hc, ih hcs⟩

theorem intsFitItems_toJson (digits : ℕ) (cs : List (StoredConversation F)) :
    Json.intsFitItems digits (cs.map StoredConversation.toJson) = true := by
  induction cs with
  | nil => rfl
  | cons c cs ih => rw [List.map_cons, Json.intsFitItems, intsFit_toJson, ih, Bool.true_and]

theorem takeAll_toJson {cs : List (StoredConversation F)} (h : ∀ c ∈ cs, c.conversationId ≠ [])
    (memory : Memory F) (taken : ℕ) :
    takeAll memory taken (cs.map StoredConversation.toJson) =
      (cs.foldl (fun d c => d.set c.conversationId c.rounded) memory, some (taken + cs.length)) := by
  induction cs generalizing memory taken with
  | nil => rfl
  | cons c cs ih =>
    obtain ⟨hc, hcs⟩ := List.forall_mem_cons.mp h
    have hid : c.rounded.conversationId = c.conversationId := rfl
    rw [List.map_cons, takeAll, StoredConversation.fromJson_toJson]
    simp only [hid, if_neg hc]
    rw [ih hcs, List.foldl_cons, List.length_cons]
    congr 2
    omega

end

section
variable {F : Type} [PyFloat F] {memory : Memory F}

theorem mem_allConversations {c : StoredConversation F} :
    c ∈ allConversations memory ↔ ∃ id, memory.get? id = some c := by
  rw [allConversations, mem_sortedBy, Dict.mem_values]

theorem nodup_ids (h : Sound memory) :
    ((allConversations memory).map StoredConversation.conversationId).Nodup := by
  have hkeys : memory.values.map StoredConversation.conversationId =
      memory.items.map Prod.fst := by
    rw [Dict.values, List.map_map]
    refine List.map_congr_left fun kv hkv => ?_
    exact (h kv.1 kv.2 (Dict.get?_eq_some.mpr hkv)).1
  rw [allConversations, ((sortedBy_perm _).map _).nodup_iff, hkeys]
  exact memory.nodup

variable [PyConvert F] {plat : Platform} {settings : Settings} {s : ConversationStore F}

theorem loadPayload_payload (h : Sound memory) :
    ∃ loaded, loadPayload (payload memory) = some loaded ∧
      ∀ id, loaded.get? id = (memory.get? id).map StoredConversation.rounded := by
  have hne : ∀ c ∈ allConversations memory, c.conversationId ≠ [] := by
    intro c hc
    obtain ⟨id, hid⟩ := mem_allConversations.mp hc
    exact (h id c hid).1 ▸ (h id c hid).2.1
  have hmember : Json.member? (payload memory) (py "conversations") =
      some (.arr ((allConversations memory).map StoredConversation.toJson)) := rfl
  have hfilter : ((allConversations memory).map StoredConversation.toJson).filter
      (fun item => (members? item).isSome) =
        (allConversations memory).map StoredConversation.toJson := by
    rw [List.filter_eq_self, List.forall_mem_map]
    exact fun c _ => rfl
  unfold loadPayload
  simp only [hmember, hfilter, takeAll_toJson hne, Option.map_some, Option.some.injEq,
    exists_eq_left']
  intro id
  have hnodup : ((Dict.empty : Memory F).keys ++
      (allConversations memory).map StoredConversation.conversationId).Nodup := by
    simpa [Dict.keys, Dict.empty] using nodup_ids h
  have hitems := Dict.items_foldl_set StoredConversation.conversationId
    StoredConversation.rounded hnodup
  ext c
  rw [Dict.get?_eq_some, hitems, Option.map_eq_some_iff]
  simp only [Dict.empty, List.nil_append, List.mem_map, Prod.mk.injEq]
  constructor
  · rintro ⟨a, ha, rfl, rfl⟩
    obtain ⟨k, hk⟩ := mem_allConversations.mp ha
    exact ⟨a, (h k a hk).1.symm ▸ hk, rfl⟩
  · rintro ⟨a, ha, rfl⟩
    exact ⟨a, mem_allConversations.mpr ⟨id, ha⟩, (h id a ha).1, rfl⟩

theorem encode_payload (plat : Platform) (h : Sound memory) :
    ∃ bytes, (jsonStore F).encode plat (payload memory) = .ok bytes := by
  rw [JsonStore.encode_ok]
  constructor
  · have hdigits := plat.digits
    simp only [JsonStore.document, payload, jsonStore, Json.intsFit, Json.intsFitMembers,
      intsFitItems_toJson, Bool.and_true, decide_eq_true_eq]
    exact le_trans (by decide) hdigits
  · have hitems : PyStr.Encodable (Json.charsItems
        ((allConversations memory).map StoredConversation.toJson)) := by
      apply charsItems_encodable
      intro c hc
      obtain ⟨id, hid⟩ := mem_allConversations.mp hc
      exact (h id c hid).2.2
    simp only [JsonStore.document, payload, Json.chars, Json.charsMembers,
      PyStr.encodable_append, PyStr.encodable_nil, PyStr.encodable_py, and_true, true_and]
    exact hitems

theorem load_encode {bytes : ByteArray} (h : Sound memory)
    (hb : (jsonStore F).encode plat (payload memory) = .ok bytes) :
    Holds plat ⟨memory, some bytes⟩ := by
  have hstorable : ((jsonStore F).document (payload memory)).Storable plat.limits.intDigits
      plat.limits.depth := by
    obtain ⟨depth, hdepth⟩ := Nat.exists_eq_add_of_le' plat.deep
    have hitems : Json.StorableItems plat.limits.intDigits (depth + 3)
        ((allConversations memory).map StoredConversation.toJson) := by
      rw [Json.storableItems_iff, List.forall_mem_map]
      exact fun c _ => storable_toJson _ _ c
    have hversion := le_trans (by decide : (natText (1 : ℤ).natAbs).length ≤ 640) plat.digits
    rw [hdepth]
    exact ⟨by simp only [List.map_cons, List.map_nil]; decide, hversion,
      ⟨by simp only [payload, List.map_cons, List.map_nil]; decide, hitems, trivial⟩, trivial⟩
  obtain ⟨loaded, hloaded, hget⟩ := loadPayload_payload h
  refine ⟨loaded, ?_, hget⟩
  unfold load
  rw [JsonStore.load_encode hb hstorable]
  exact hloaded

omit [PyConvert F] in
theorem Sound.trim (h : Sound memory) : Sound (trim settings memory) := by
  have hfold : ∀ (cs : List (StoredConversation F)) (memory : Memory F), Sound memory →
      Sound (cs.foldl (fun d c => d.erase c.conversationId) memory) := by
    intro cs
    induction cs with
    | nil => exact fun _ h => h
    | cons c cs ih => exact fun memory h => ih _ (h.erase c.conversationId)
  unfold Conversation.trim
  split
  · exact h
  · exact hfold _ _ h

omit [PyFloat F] in
theorem Sound.takeAll {items : List (Json F)} (hitems : AllEncodable items) {memory : Memory F}
    (h : Sound memory) (taken : ℕ) : Sound (takeAll memory taken items).1 := by
  induction items generalizing memory taken with
  | nil => exact h
  | cons data rest ih =>
    have hrest : AllEncodable rest := fun d hd => hitems d (List.mem_cons_of_mem _ hd)
    rw [Conversation.takeAll]
    split
    · exact h
    · rename_i c hc
      split
      · exact ih hrest h taken
      · rename_i hne
        exact ih hrest (h.set hne (hitems data List.mem_cons_self c hc hne)) _

theorem not_blank_ne_nil {id : PyStr} (h : ¬ PyStr.blank id) : id ≠ [] := by
  rintro rfl
  exact h PyStr.blank_nil

/-- What every call should leave: after one that returned, the file holds the memory, and one that
raised has changed nothing. -/
def Leaves (plat : Platform) (s : ConversationStore F) (r : Bool × ConversationStore F) : Prop :=
  (r.1 = true → Sound r.2.memory ∧ Holds plat r.2) ∧ (r.1 = false → r.2 = s)

theorem Leaves.same (hsound : Sound s.memory) (hholds : Holds plat s) (returned : Bool) :
    Leaves plat s (returned, s) :=
  ⟨fun _ => ⟨hsound, hholds⟩, fun _ => rfl⟩

theorem leaves_persist {α : Type} {memory : Memory F} {fault : SaveFault} (hsound : Sound memory)
    (hwell : SavesWell s memory fault) (f : Unit → α) :
    Leaves plat s (succeeds ((persist plat memory fault s.file).1.map f),
      (persist plat memory fault s.file).2) := by
  obtain ⟨bytes, hb⟩ := encode_payload plat hsound
  unfold persist
  rcases hwell with rfl | ⟨rfl, hfault⟩
  · rw [JsonStore.save_none hb]
    exact ⟨fun _ => ⟨hsound, load_encode hsound hb⟩, fun h => by contradiction⟩
  · -- the file was not replaced
    have hsave : ((jsonStore F).save plat (payload s.memory) fault s.file).2 = s.file ∧
        ∃ e, ((jsonStore F).save plat (payload s.memory) fault s.file).1 = .error e := by
      unfold JsonStore.save JsonStore.replace
      rw [hb]
      cases hsetup : fault.setup with
      | some name => exact ⟨rfl, _, rfl⟩
      | none =>
        cases hdisk : fault.disk with
        | none => simp [hsetup, hdisk] at hfault
        | some name =>
          cases fault.cleanup with
          | none => exact ⟨rfl, _, rfl⟩
          | some cleanup => exact ⟨rfl, _, rfl⟩
    obtain ⟨hfile, e, herror⟩ := hsave
    simp only [hfile, herror]
    exact ⟨fun h => by contradiction, fun _ => rfl⟩

theorem Call.leaves {call : Call F} (hsound : Sound s.memory) (hholds : Holds plat s)
    (hmeets : Meets settings s call) : Leaves plat s (call.run plat settings s) := by
  obtain ⟨operation, fault⟩ := call
  cases operation with
  | append id role text now =>
    simp only [Call.run, append]
    by_cases henabled : settings.enabled = true
    · rw [if_neg (by simp [henabled])]
      by_cases hblank : PyStr.blank id = true
      · rw [if_pos hblank]
        exact .same hsound hholds _
      · rw [if_neg hblank]
        obtain ⟨⟨hid, hrole, htext⟩, hwell⟩ := hmeets henabled hblank
        obtain ⟨hkey, hencodable⟩ :
            (extended settings s.memory id role text now).conversationId = id ∧
              (extended settings s.memory id role text now).Encodable :=
          hsound.extended hid hrole htext
        apply leaves_persist _ hwell
        have hset := hsound.set (by rw [hkey]; exact not_blank_ne_nil hblank) hencodable
        rw [hkey] at hset
        exact hset.trim
    · rw [if_pos henabled]
      exact .same hsound hholds _
  | forget id =>
    simp only [Call.run, forget]
    split
    · exact .same hsound hholds _
    · rename_i hthere
      exact leaves_persist (hsound.erase id) (hmeets hthere) _
  | forgetAll =>
    exact leaves_persist (fun k a ha => by simp at ha) hmeets _
  | importConversations items =>
    obtain ⟨hitems, hwell⟩ := hmeets
    have htaken := hsound.takeAll hitems 0
    simp only [Call.run, importConversations]
    cases htake : takeAll s.memory 0 items with
    | mk memory taken =>
      rw [htake] at hwell htaken
      cases taken with
      | none =>
        have hmemory : memory = s.memory := hwell
        subst hmemory
        exact .same hsound hholds _
      | some taken => exact leaves_persist htaken.trim hwell _

theorem Call.returns {call : Call F} (hsound : Sound s.memory) (hproper : call.Proper) :
    (call.run plat settings s).1 = true := by
  obtain ⟨operation, fault⟩ := call
  obtain ⟨hfault, hproper⟩ := hproper
  have hfault : fault = .none := hfault
  subst hfault
  have hpersist : ∀ (memory : Memory F), Sound memory → ∀ {α : Type} (f : Unit → α),
      succeeds ((persist plat memory .none s.file).1.map f) = true := by
    intro memory hmemory α f
    obtain ⟨bytes, hb⟩ := encode_payload plat hmemory
    rw [persist, JsonStore.save_none hb]
    rfl
  cases operation with
  | append id role text now =>
    obtain ⟨hblank, hid, hrole, htext⟩ := hproper
    simp only [Call.run, append]
    by_cases henabled : settings.enabled = true
    · rw [if_neg (by simp [henabled]), if_neg hblank]
      obtain ⟨hkey, hencodable⟩ :
          (extended settings s.memory id role text now).conversationId = id ∧
            (extended settings s.memory id role text now).Encodable :=
        hsound.extended hid hrole htext
      have hset := hsound.set (by rw [hkey]; exact not_blank_ne_nil hblank) hencodable
      rw [hkey] at hset
      exact hpersist _ hset.trim _
    · rw [if_pos henabled]
      rfl
  | forget id =>
    simp only [Call.run, forget]
    split
    · rfl
    · exact hpersist _ (hsound.erase id) _
  | forgetAll => exact hpersist _ (fun k a ha => by simp at ha) _
  | importConversations items =>
    have hitems : AllEncodable items := by
      intro data hdata c hc _
      obtain ⟨a, ha, hencodable⟩ := hproper data hdata
      rw [hc, Option.some.injEq] at ha
      exact ha ▸ hencodable
    have htaken : ∀ (items : List (Json F)) (memory : Memory F) (taken : ℕ),
        (∀ data ∈ items, ∃ c, StoredConversation.fromJson data = some c ∧ c.Encodable) →
          ∃ taken', (takeAll memory taken items).2 = some taken' := by
      intro items
      induction items with
      | nil => exact fun _ taken _ => ⟨taken, rfl⟩
      | cons data rest ih =>
        intro memory taken hall
        obtain ⟨⟨c, hc, -⟩, hrest⟩ := List.forall_mem_cons.mp hall
        rw [takeAll, hc]
        simp only
        split <;> exact ih _ _ hrest
    obtain ⟨taken, htaken⟩ := htaken items s.memory 0 hproper
    have hsoundTaken := hsound.takeAll hitems 0
    simp only [Call.run, importConversations]
    cases htake : takeAll s.memory 0 items with
    | mk memory result =>
      rw [htake] at htaken hsoundTaken
      cases htaken
      exact hpersist _ hsoundTaken.trim _

theorem forget_gone {id : PyStr} {fault : SaveFault}
    (h : Leaves plat s ((forgetting id fault).run plat settings s))
    (hreturned : ((forgetting id fault).run plat settings s).1 = true) :
    ∃ loaded : Memory F, load plat ((forgetting id fault).run plat settings s).2.file = some loaded ∧
      loaded.get? id = none := by
  obtain ⟨loaded, hloaded, hget⟩ := (h.1 hreturned).2
  refine ⟨loaded, hloaded, ?_⟩
  have hmemory : ((forgetting id fault).run plat settings s).2.memory.get? id = none := by
    simp only [forgetting, Call.run, forget]
    split
    · assumption
    · simp [persist]
  rw [hget, hmemory]
  rfl

theorem sound_reach (hr : (conversationMachine plat settings).Reach (Meets settings) s) :
    Sound s.memory ∧ Holds plat s := by
  apply hr.invariant (I := fun s => Sound s.memory ∧ Holds plat s)
  · exact fun _ h => h
  · rintro s call s' ⟨hsound, hholds⟩ hmeets hs
    cases hs
    have hleaves := call.leaves hsound hholds hmeets
    cases hreturned : (call.run plat settings s).1 with
    | true => exact hleaves.1 hreturned
    | false =>
      rw [hleaves.2 hreturned]
      exact ⟨hsound, hholds⟩

/-- As long as every call saves what it makes of the memory: the file holds the memory, a call that
raises has changed neither, what was forgotten is not in the file, and no stored message makes a
later call fail. -/
theorem memory_and_file_agree
    (hr : (conversationMachine plat settings).Reach (Meets settings) s) :
    Holds plat s ∧
    (∀ call : Call F, Meets settings s call →
      ((call.run plat settings s).1 = true → Holds plat (call.run plat settings s).2) ∧
      ((call.run plat settings s).1 = false → (call.run plat settings s).2 = s)) ∧
    (∀ id fault, Meets settings s (forgetting id fault) →
      ((forgetting id fault).run plat settings s).1 = true →
        ∃ loaded : Memory F, load plat ((forgetting id fault).run plat settings s).2.file = some loaded ∧
          loaded.get? id = none) ∧
    ∀ call : Call F, call.Proper → (call.run plat settings s).1 = true := by
  obtain ⟨hsound, hholds⟩ := sound_reach hr
  refine ⟨hholds, fun call hmeets => ?_, fun id fault hmeets => ?_, fun call => call.returns hsound⟩
  · have hleaves := call.leaves hsound hholds hmeets
    exact ⟨fun h => (hleaves.1 h).2, hleaves.2⟩
  · exact forget_gone (Call.leaves hsound hholds hmeets)

end

instance : PyConvert WholeFloat where
  round x := x
  zero := ⟨0⟩
  float? v := match v with
    | .float x => some x
    | _ => none
  str v := match v with
    | .str s => s
    | _ => []
  float_float _ := rfl
  str_str _ := rfl

def sampleConversation : StoredConversation WholeFloat :=
  ⟨py "c", ⟨0⟩, [⟨py "user", py "hello", ⟨0⟩⟩]⟩

def sampleMemory : Memory WholeFloat := Dict.empty.set (py "c") sampleConversation

def sampleSettings : Settings := ⟨true, 200, 500⟩

theorem sampleMemory_sound : Sound sampleMemory := by
  have hencodable : sampleConversation.Encodable := by
    refine ⟨PyStr.encodable_py _, ?_⟩
    simp only [sampleConversation, List.mem_singleton, forall_eq]
    exact ⟨PyStr.encodable_py _, PyStr.encodable_py _⟩
  have hempty : Sound (Dict.empty : Memory WholeFloat) := fun k a ha => by simp at ha
  exact hempty.set (by decide) hencodable

theorem sample_file : ∃ bytes, (jsonStore WholeFloat).encode Journal.cpython
    (payload sampleMemory) = .ok bytes ∧ Holds Journal.cpython ⟨sampleMemory, some bytes⟩ := by
  obtain ⟨bytes, hb⟩ := encode_payload Journal.cpython sampleMemory_sound
  exact ⟨bytes, hb, load_encode sampleMemory_sound hb⟩

/-- The conversation is forgotten. -/
theorem memory_and_file_agree_sample :
    ∃ s : ConversationStore WholeFloat, s.memory.get? (py "c") = none ∧
      Holds Journal.cpython s ∧
      (∀ call : Call WholeFloat, Meets sampleSettings s call →
        ((call.run Journal.cpython sampleSettings s).1 = true →
          Holds Journal.cpython (call.run Journal.cpython sampleSettings s).2) ∧
        ((call.run Journal.cpython sampleSettings s).1 = false →
          (call.run Journal.cpython sampleSettings s).2 = s)) ∧
      (∀ id fault, Meets sampleSettings s (forgetting id fault) →
        ((forgetting id fault).run Journal.cpython sampleSettings s).1 = true →
          ∃ loaded : Memory WholeFloat, load Journal.cpython
            ((forgetting id fault).run Journal.cpython sampleSettings s).2.file = some loaded ∧
              loaded.get? id = none) ∧
      ∀ call : Call WholeFloat, call.Proper → (call.run Journal.cpython sampleSettings s).1 = true := by
  obtain ⟨bytes, -, hholds⟩ := sample_file
  have hstart : (conversationMachine Journal.cpython sampleSettings).Reach (Meets sampleSettings)
      ⟨sampleMemory, some bytes⟩ := .start ⟨sampleMemory_sound, hholds⟩
  have hmeets : Meets sampleSettings (⟨sampleMemory, some bytes⟩ : ConversationStore WholeFloat)
      (forgetting (py "c") .none) := fun _ => .inl rfl
  refine ⟨_, ?_, memory_and_file_agree (hstart.step hmeets rfl)⟩
  have hthere : sampleMemory.get? (py "c") ≠ none := by simp [sampleMemory]
  simp [forgetting, Call.run, forget, hthere, persist]

/-- After a save that failed, forgetting the conversation again says that there is nothing to
forget, and leaves its messages in the file. -/
theorem forgotten_but_stored :
    ¬ ∀ s : ConversationStore WholeFloat,
      (conversationMachine Journal.cpython sampleSettings).Reachable s → ∀ id fault,
        ((forgetting id fault).run Journal.cpython sampleSettings s).1 = true →
          ∀ loaded : Memory WholeFloat, load Journal.cpython
            ((forgetting id fault).run Journal.cpython sampleSettings s).2.file = some loaded →
              loaded.get? id = none := by
  obtain ⟨bytes, hb, hholds⟩ := sample_file
  have hthere : sampleMemory.get? (py "c") = some sampleConversation := by simp [sampleMemory]
  -- the rename is refused
  have hfailed : ((forgetting (py "c") ⟨none, some (py "PermissionError"), none⟩).run
      Journal.cpython sampleSettings
      (⟨sampleMemory, some bytes⟩ : ConversationStore WholeFloat)).2 =
        ⟨sampleMemory.erase (py "c"), some bytes⟩ := by
    obtain ⟨other, hother⟩ := encode_payload Journal.cpython (sampleMemory_sound.erase (py "c"))
    simp [forgetting, Call.run, forget, hthere, persist, JsonStore.save, JsonStore.replace, hother]
  intro h
  have hr : (conversationMachine Journal.cpython sampleSettings).Reachable
      (⟨sampleMemory.erase (py "c"), some bytes⟩ : ConversationStore WholeFloat) :=
    .step (.start ⟨sampleMemory_sound, hholds⟩) trivial (congrArg some hfailed)
  have hsame : (forgetting (py "c") .none).run Journal.cpython sampleSettings
      (⟨sampleMemory.erase (py "c"), some bytes⟩ : ConversationStore WholeFloat) =
        (true, ⟨sampleMemory.erase (py "c"), some bytes⟩) := by
    simp [forgetting, Call.run, forget, succeeds]
  obtain ⟨loaded, hloaded, hget⟩ := hholds
  have hnone := h _ hr (py "c") .none (by rw [hsame]) loaded (by rw [hsame]; exact hloaded)
  rw [hget, hthere] at hnone
  exact absurd hnone (Option.some_ne_none _)

end QronosAgent.Conversation

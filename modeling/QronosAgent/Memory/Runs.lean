import QronosAgent.Memory.Store

/-! What holds of the records, of the vectors and of what the operations have read, in every order
of their steps, as long as no step acts on what was overtaken. -/
namespace QronosAgent.Memory
open Lib

def Status.rank : Status → ℕ
  | .pendingReview => 0
  | .pendingEmbedding => 1
  | .active => 2
  | .superseded => 3

section
variable {F : Type}

def Targeted (items : List (PyStr × Record F)) (id : PyStr) : Prop :=
  id ≠ [] ∧ ∃ item ∈ items, item.2.supersedesId = id

def Deleting (s : World F) (id : PyStr) : Prop := ∃ i, s.tasks.get? i = some (.deleteRow id)

/-- A rebuild has left out the vector, and is to supersede the record. -/
def Dropping (s : World F) (id : PyStr) : Prop :=
  ∃ i items, s.tasks.get? i = some (.writeBack items) ∧ Targeted items id

/-- The vector is there, or the record is about to go. -/
def Kept (s : World F) (id : PyStr) : Prop := id ∈ s.index.ids ∨ Deleting s id ∨ Dropping s id

/-- The condition on a step: what it acts on was not overtaken since it was read. -/
def Meets (s : World F) : Action F → Prop
  | .call _ _ => True
  | .advance i _ =>
    match s.tasks.get? i with
    -- the record is still active, and no other one is to supersede it
    | some (.insert record) => record.supersedesId ≠ [] →
        (∃ old, s.records.get? record.supersedesId = some old ∧ old.status = .active) ∧
          ∀ id r, s.records.get? id = some r → r.supersedesId ≠ record.supersedesId
    -- the candidate was not activated in the meantime
    | some (.approving id) => ∀ r, s.records.get? id = some r → r.status.rank ≤ 1
    -- every vector in use is that of a record that was listed, or that is to go
    | some (.replaceAll items _) => ∀ id r, s.records.get? id = some r →
        (r.status = .active ∨ r.status = .pendingEmbedding ∧ id ∈ s.index.ids) →
          id ∈ items.map Prod.fst ∨ Targeted items id ∨ Deleting s id
    -- no record that was listed was superseded in the meantime
    | some (.writeBack items) => ∀ item ∈ items, ∀ r, s.records.get? item.1 = some r →
        r.status ≠ .superseded
    | _ => True

def Settled (s : World F) (id : PyStr) : Prop :=
  id ∈ s.used ∧ ∀ r, s.records.get? id = some r → 2 ≤ r.status.rank

structure Snapshot (s : World F) (id : PyStr) (r : Record F) : Prop where
  used : id ∈ s.used
  target : r.supersedesId ≠ [] → Settled s r.supersedesId
  row : ∀ row, s.records.get? id = some row → row.supersedesId = r.supersedesId ∧ 1 ≤ row.status.rank

/-- The vector of the record is there for as long as the record is not superseded. -/
def Owed (s : World F) (id : PyStr) : Prop :=
  ∀ row, s.records.get? id = some row → row.status ≠ .superseded → Kept s id

def Unpaired (items : List (PyStr × Record F)) : Prop :=
  ∀ x ∈ items, ∀ y ∈ items, x.2.supersedesId ≠ [] → x.2.supersedesId ≠ y.1

/-- What an operation knows where it stands. -/
def Task.Facts (texts : Texts) (s : World F) : Task F → Prop
  | .check _ record | .insert record => record.status.rank ≤ 1
  | .embed id record _ | .upsert id record _ _ => Snapshot s id record
  | .activating id record _ => Snapshot s id record ∧ Owed s id
  | .removing _ record _ => record.supersedesId ∈ s.used ∧
      ∀ row, s.records.get? record.supersedesId = some row → row.status = .superseded
  | .listPending active => Unpaired active ∧ ∀ item ∈ active, Snapshot s item.1 item.2
  | .embedAll items => Unpaired items ∧ ∀ item ∈ items, Snapshot s item.1 item.2
  | .replaceAll items _ => Unpaired items ∧ ∀ item ∈ items, Snapshot s item.1 item.2
  | .writeBack items => Unpaired items ∧ (∀ item ∈ items, Snapshot s item.1 item.2) ∧
      ∀ item ∈ items, Owed s item.1
  | .search _ => s.enabled = true
  | .read r _ ranked => s.enabled = true ∧
      ∀ x ∈ ranked, x.2.2.status = .active ∧ admitted texts r.scopes x.2.2 = true
  | _ => True

structure Inv (texts : Texts) (s : World F) : Prop where
  used : ∀ id r, s.records.get? id = some r → id ∈ s.used
  targets : ∀ id r, s.records.get? id = some r → r.supersedesId ≠ [] → Settled s r.supersedesId
  single : ∀ id id' r r', s.records.get? id = some r → s.records.get? id' = some r' →
    r.supersedesId ≠ [] → r.supersedesId = r'.supersedesId → id = id'
  waiting : ∀ id r old, s.records.get? id = some r → r.supersedesId ≠ [] →
    s.records.get? r.supersedesId = some old → old.status = .active → r.status.rank ≤ 1
  vectors : ∀ id r, s.records.get? id = some r → r.status = .active → Kept s id
  tasks : ∀ i t, s.tasks.get? i = some t → t.Facts texts s
  answers : ∀ a ∈ s.answers, ∀ x ∈ a.records, s.enabled = true ∧ x.2.status = .active ∧
    admitted texts a.retrieval.scopes x.2 = true

/-- Records keep what they supersede and only move on, and no id comes back. -/
structure Evolves (s s' : World F) : Prop where
  used : ∀ id ∈ s.used, id ∈ s'.used
  row : ∀ id r', s'.records.get? id = some r' → id ∈ s.used → ∃ r, s.records.get? id = some r ∧
    r'.supersedesId = r.supersedesId ∧ r.status.rank ≤ r'.status.rank

/-- No vector in use gets lost. -/
def Keeps (s s' : World F) : Prop :=
  ∀ id r r', s.records.get? id = some r → 1 ≤ r.status.rank → s'.records.get? id = some r' →
    r'.status ≠ .superseded → Kept s id → Kept s' id

variable {texts : Texts} {s s' s₁ : World F} {i : ℕ} {id : PyStr} {record : Record F}

theorem Settled.evolves (h : Settled s id) (he : Evolves s s') : Settled s' id := by
  refine ⟨he.used id h.1, fun r' hr' => ?_⟩
  obtain ⟨r, hr, -, hrank⟩ := he.row id r' hr' h.1
  exact (h.2 r hr).trans hrank

theorem Snapshot.evolves (h : Snapshot s id record) (he : Evolves s s') :
    Snapshot s' id record := by
  refine ⟨he.used id h.used, fun hne => (h.target hne).evolves he, fun row' hrow' => ?_⟩
  obtain ⟨row, hrow, hsame, hrank⟩ := he.row id row' hrow' h.used
  obtain ⟨htarget, hone⟩ := h.row row hrow
  exact ⟨hsame.trans htarget, hone.trans hrank⟩

theorem Status.eq_superseded {status : Status} (h : 3 ≤ status.rank) : status = .superseded := by
  cases status <;> simp_all [Status.rank]

theorem Owed.keeps (h : Owed s id) (hsnap : Snapshot s id record) (he : Evolves s s')
    (hk : Keeps s s') : Owed s' id := by
  intro row' hrow' hne
  obtain ⟨row, hrow, -, hrank⟩ := he.row id row' hrow' hsnap.used
  have hopen : row.status ≠ .superseded := by
    intro hsuperseded
    rw [hsuperseded] at hrank
    exact hne (Status.eq_superseded hrank)
  exact hk id row row' hrow (hsnap.row row hrow).2 hrow' hne (h row hrow hopen)

variable {t : Task F} {next : Option (Task F)}

/-- What an operation knows is kept by the steps of the others. -/
theorem Task.Facts.keeps (h : t.Facts texts s) (he : Evolves s s') (hk : Keeps s s')
    (henabled : s'.enabled = s.enabled) : t.Facts texts s' := by
  cases t with
  | embed | upsert => exact Snapshot.evolves h he
  | activating => exact ⟨h.1.evolves he, h.2.keeps h.1 he hk⟩
  | removing j record rest =>
    refine ⟨he.used _ h.1, fun row' hrow' => ?_⟩
    obtain ⟨row, hrow, -, hrank⟩ := he.row _ row' hrow' h.1
    rw [h.2 row hrow] at hrank
    exact Status.eq_superseded hrank
  | listPending | embedAll | replaceAll =>
    exact ⟨h.1, fun item hitem => (h.2 item hitem).evolves he⟩
  | writeBack items =>
    obtain ⟨hpaired, hsnap, howed⟩ := h
    exact ⟨hpaired, fun item hitem => (hsnap item hitem).evolves he,
      fun item hitem => (howed item hitem).keeps (hsnap item hitem) he hk⟩
  | search => exact henabled.trans h
  | read => exact ⟨henabled.trans h.1, h.2⟩
  | check | insert => exact h
  | _ => trivial

theorem get?_put {j : ℕ} :
    (s₁.put i next).tasks.get? j = if j = i then next else s₁.tasks.get? j := by
  unfold World.put
  cases next with
  | none => exact Dict.get?_erase
  | some t => exact Dict.get?_set

def Task.plain : Task F → Bool
  | .deleteRow _ | .writeBack _ => false
  | _ => true

theorem Deleting.put (h : Deleting s id) (ht : s.tasks.get? i = some t)
    (htasks : s₁.tasks = s.tasks) (hne : t ≠ .deleteRow id) :
    Deleting (s₁.put i next) id := by
  obtain ⟨j, hj⟩ := h
  refine ⟨j, ?_⟩
  rw [get?_put, htasks, if_neg]
  · exact hj
  · rintro rfl
    exact hne (Option.some.inj (ht.symm.trans hj))

theorem Dropping.put (h : Dropping s id) (ht : s.tasks.get? i = some t)
    (htasks : s₁.tasks = s.tasks) (hne : ∀ items, t = .writeBack items → ¬ Targeted items id) :
    Dropping (s₁.put i next) id := by
  obtain ⟨j, items, hj, htarget⟩ := h
  refine ⟨j, items, ?_, htarget⟩
  rw [get?_put, htasks, if_neg]
  · exact hj
  · rintro rfl
    exact hne items (Option.some.inj (ht.symm.trans hj)) htarget

theorem Kept.put (h : Kept s id) (ht : s.tasks.get? i = some t) (htasks : s₁.tasks = s.tasks)
    (hplain : t.plain = true) (hindex : id ∈ s.index.ids → id ∈ s₁.index.ids) :
    Kept (s₁.put i next) id := by
  rcases h with hthere | hdeleting | hdropping
  · exact .inl (hindex hthere)
  · refine .inr (.inl (hdeleting.put ht htasks ?_))
    rintro rfl
    cases hplain
  · refine .inr (.inr (hdropping.put ht htasks ?_))
    rintro items rfl
    cases hplain

/-- Records keep what they supersede and only move on, and there are no new ones. -/
def Aged (table table' : Table F) : Prop :=
  ∀ id r', table'.get? id = some r' → ∃ r, table.get? id = some r ∧
    r'.supersedesId = r.supersedesId ∧ r.status.rank ≤ r'.status.rank

theorem Aged.refl (table : Table F) : Aged table table :=
  fun _ r' hr' => ⟨r', hr', rfl, le_rfl⟩

theorem Aged.trans {table table' table'' : Table F} (h : Aged table table')
    (h' : Aged table' table'') : Aged table table'' := by
  intro id r'' hr''
  obtain ⟨r', hr', htarget', hrank'⟩ := h' id r'' hr''
  obtain ⟨r, hr, htarget, hrank⟩ := h id r' hr'
  exact ⟨r, hr, htarget'.trans htarget, hrank.trans hrank'⟩

theorem Aged.evolves (h : Aged s.records s'.records) (hused : s'.used = s.used) : Evolves s s' :=
  ⟨fun _ hid => hused ▸ hid, fun id r' hr' _ => h id r' hr'⟩

def Answered (texts : Texts) (s : World F) (a : Answer F) : Prop :=
  ∀ x ∈ a.records, s.enabled = true ∧ x.2.status = .active ∧
    admitted texts a.retrieval.scopes x.2 = true

theorem Inv.changed (h : Inv texts s) (htasks : s₁.tasks = s.tasks) (hused : s₁.used = s.used)
    (henabled : s₁.enabled = s.enabled) (haged : Aged s.records s₁.records)
    (hkeeps : Keeps s (s₁.put i next))
    (hwaiting : ∀ id r old, s₁.records.get? id = some r → r.supersedesId ≠ [] →
      s₁.records.get? r.supersedesId = some old → old.status = .active → r.status.rank ≤ 1)
    (hvectors : ∀ id r', s₁.records.get? id = some r' → r'.status = .active →
      ∃ r, s.records.get? id = some r ∧ 1 ≤ r.status.rank ∧ Kept s id)
    (hnext : ∀ t, next = some t → t.Facts texts (s₁.put i next))
    (hanswers : ∀ a ∈ s₁.answers, a ∈ s.answers ∨ Answered texts s a) :
    Inv texts (s₁.put i next) := by
  have haged' : Aged s.records (s₁.put i next).records := haged
  have he : Evolves s (s₁.put i next) := haged'.evolves hused
  constructor
  case used =>
    intro id r' hr'
    obtain ⟨r, hr, -⟩ := haged id r' hr'
    exact he.used id (h.used id r hr)
  case targets =>
    intro id r' hr' hne
    obtain ⟨r, hr, htarget, -⟩ := haged id r' hr'
    rw [htarget] at hne ⊢
    exact (h.targets id r hr hne).evolves he
  case single =>
    intro id id' r' r'' hr' hr'' hne hsame
    obtain ⟨r, hr, htarget, -⟩ := haged id r' hr'
    obtain ⟨r₂, hr₂, htarget₂, -⟩ := haged id' r'' hr''
    rw [htarget] at hne hsame
    rw [htarget₂] at hsame
    exact h.single id id' r r₂ hr hr₂ hne hsame
  case waiting => exact hwaiting
  case vectors =>
    intro id r' hr' hactive
    obtain ⟨r, hr, hrank, hkept⟩ := hvectors id r' hr' hactive
    exact hkeeps id r r' hr hrank hr' (by rw [hactive]; decide) hkept
  case tasks =>
    intro j t ht
    rw [get?_put] at ht
    split at ht
    · exact hnext t ht
    · rw [htasks] at ht
      exact (h.tasks j t ht).keeps he hkeeps henabled
  case answers =>
    intro a ha x hx
    have henabled' : (s₁.put i next).enabled = s.enabled := henabled
    rw [henabled']
    rcases hanswers a ha with hold | hnew
    · exact h.answers a hold x hx
    · exact hnew x hx

/-- A step that leaves the records alone. -/
theorem Inv.still (h : Inv texts s) (hrecords : s₁.records = s.records)
    (htasks : s₁.tasks = s.tasks) (hused : s₁.used = s.used) (henabled : s₁.enabled = s.enabled)
    (hkeeps : Keeps s (s₁.put i next))
    (hnext : ∀ t, next = some t → t.Facts texts (s₁.put i next))
    (hanswers : ∀ a ∈ s₁.answers, a ∈ s.answers ∨ Answered texts s a) :
    Inv texts (s₁.put i next) := by
  apply h.changed htasks hused henabled (hrecords ▸ .refl _) hkeeps
  · rw [hrecords]
    exact h.waiting
  · intro id r' hr' hactive
    rw [hrecords] at hr'
    refine ⟨r', hr', ?_, h.vectors id r' hr' hactive⟩
    rw [hactive]
    decide
  · exact hnext
  · exact hanswers

/-- A step that only reads. -/
theorem Inv.quiet (h : Inv texts s) (ht : s.tasks.get? i = some t) (hplain : t.plain = true)
    (hnext : ∀ t', next = some t' → t'.Facts texts s) : Inv texts (s.put i next) := by
  have hkeeps : Keeps s (s.put i next) := by
    intro id r r' _ _ _ _ hkept
    exact hkept.put ht rfl hplain fun hthere => hthere
  apply h.still rfl rfl rfl rfl hkeeps
  · intro t' ht'
    have haged : Aged s.records (s.put i next).records := .refl s.records
    exact (hnext t' ht').keeps (haged.evolves rfl) hkeeps rfl
  · exact fun a ha => .inl ha

/-- `retrieve` returns. -/
theorem Inv.answer {a : Answer F} (h : Inv texts s) (ht : s.tasks.get? i = some t)
    (hplain : t.plain = true) (ha : Answered texts s a) :
    Inv texts (World.put { s with answers := s.answers ++ [a] } i none) := by
  refine h.still rfl rfl rfl rfl ?_ ?_ ?_
  · intro id r r' _ _ _ _ hkept
    exact hkept.put ht rfl hplain fun hthere => hthere
  · intro t' hnext
    cases hnext
  · intro b hb
    rcases List.mem_append.mp hb with hb | hb
    · exact .inl hb
    · exact .inr (List.mem_singleton.mp hb ▸ ha)

theorem Inv.begin (h : Inv texts s) (hfree : s.tasks.get? i = none)
    (hnext : ∀ t, next = some t → t.Facts texts s) : Inv texts (s.put i next) := by
  have hothers : ∀ j t, s.tasks.get? j = some t → (s.put i next).tasks.get? j = some t := by
    intro j t ht
    rw [get?_put, if_neg]
    · exact ht
    · rintro rfl
      rw [hfree] at ht
      cases ht
  have hkeeps : Keeps s (s.put i next) := by
    intro id r r' _ _ _ _ hkept
    rcases hkept with hthere | ⟨j, hj⟩ | ⟨j, items, hj, htarget⟩
    · exact .inl hthere
    · exact .inr (.inl ⟨j, hothers j _ hj⟩)
    · exact .inr (.inr ⟨j, items, hothers j _ hj, htarget⟩)
  refine h.still rfl rfl rfl rfl hkeeps ?_ ?_
  · intro t ht
    have haged : Aged s.records (s.put i next).records := .refl s.records
    exact (hnext t ht).keeps (haged.evolves rfl) hkeeps rfl
  · exact fun a ha => .inl ha

end
end QronosAgent.Memory

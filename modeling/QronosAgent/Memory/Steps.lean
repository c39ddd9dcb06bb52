import QronosAgent.Lib.Fallible
import QronosAgent.Memory.Runs

/-! The steps of the operations keep the invariant: first what each transaction makes of the records,
then one lemma for each step that changes something. -/
namespace QronosAgent.Memory
open Lib

section
variable {F : Type} {table : Table F} {id x : PyStr} {r record : Record F}

theorem Record.activated_supersedesId (r : Record F) :
    r.activated.supersedesId = r.supersedesId := by
  unfold Record.activated
  split <;> rfl

theorem Record.activated_rank (r : Record F) : r.status.rank ≤ r.activated.status.rank := by
  unfold Record.activated
  split
  · rename_i hstatus
    simp [hstatus, Status.rank]
  · exact le_rfl

theorem Record.replaced_supersedesId (r : Record F) :
    r.replaced.supersedesId = r.supersedesId := by
  unfold Record.replaced
  split <;> rfl

theorem Record.replaced_rank (r : Record F) : r.status.rank ≤ r.replaced.status.rank := by
  unfold Record.replaced
  split
  · rename_i hstatus
    simp [hstatus, Status.rank]
  · exact le_rfl

theorem Record.replaced_ne_active (r : Record F) : r.replaced.status ≠ .active := by
  unfold Record.replaced
  split
  · simp
  · assumption

theorem Record.replaced_settled (h : 2 ≤ r.status.rank) : r.replaced.status = .superseded := by
  unfold Record.replaced
  split
  · rfl
  · rename_i hstatus
    cases hr : r.status <;> simp_all [Status.rank]

theorem Record.replaced_replaced (r : Record F) : r.replaced.replaced = r.replaced := by
  have hne := r.replaced_ne_active
  rw [Record.replaced.eq_1 r.replaced, if_neg hne]

/-- A record that is still waiting is not changed. -/
theorem Record.replaced_waiting (h : r.status.rank ≤ 1) : r.replaced = r := by
  unfold Record.replaced
  rw [if_neg]
  intro hstatus
  rw [hstatus] at h
  contradiction

theorem aged_modify {f : Record F → Record F}
    (hf : ∀ r, table.get? id = some r →
      (f r).supersedesId = r.supersedesId ∧ r.status.rank ≤ (f r).status.rank) :
    Aged table (table.modify id f) := by
  intro k r' hr'
  rw [Dict.get?_modify] at hr'
  split at hr'
  · rename_i hk
    subst hk
    obtain ⟨r, hr, rfl⟩ := Option.map_eq_some_iff.mp hr'
    exact ⟨r, hr, hf r hr⟩
  · exact ⟨r', hr', rfl, le_rfl⟩

theorem get?_supersedeTarget_self (h : id ≠ []) :
    (supersedeTarget id table).get? id = (table.get? id).map Record.replaced := by
  unfold supersedeTarget
  rw [if_neg h, Dict.get?_modify_self]

theorem get?_supersedeTarget_ne (h : id ≠ [] → x ≠ id) :
    (supersedeTarget id table).get? x = table.get? x := by
  unfold supersedeTarget
  split
  · rfl
  · rename_i hne
    exact Dict.get?_modify_ne (h hne)

theorem aged_supersedeTarget : Aged table (supersedeTarget id table) := by
  unfold supersedeTarget
  split
  · exact .refl _
  · exact aged_modify fun r _ => ⟨r.replaced_supersedesId, r.replaced_rank⟩

theorem aged_activateRow : Aged table (activateRow id record table) :=
  (aged_modify fun r _ => ⟨r.activated_supersedesId, r.activated_rank⟩).trans aged_supersedeTarget

/-- What is active after an activation was there before, and it is not what gets replaced. -/
theorem activateRow_active {r' : Record F} (h : (activateRow id record table).get? x = some r')
    (hactive : r'.status = .active) : (record.supersedesId ≠ [] → x ≠ record.supersedesId) ∧
      ∃ r, table.get? x = some r ∧ (r.status = .active ∨ x = id ∧ r.status = .pendingEmbedding) := by
  have hne : record.supersedesId ≠ [] → x ≠ record.supersedesId := by
    rintro htarget rfl
    rw [activateRow, get?_supersedeTarget_self htarget] at h
    obtain ⟨r, -, rfl⟩ := Option.map_eq_some_iff.mp h
    exact r.replaced_ne_active hactive
  refine ⟨hne, ?_⟩
  rw [activateRow, get?_supersedeTarget_ne hne, Dict.get?_modify] at h
  split at h
  · rename_i hx
    subst hx
    obtain ⟨r, hr, rfl⟩ := Option.map_eq_some_iff.mp h
    refine ⟨r, hr, ?_⟩
    unfold Record.activated at hactive
    split at hactive
    · rename_i hstatus
      exact .inr ⟨rfl, hstatus⟩
    · exact .inl hactive
  · exact ⟨r', h, .inl hactive⟩

variable {item : PyStr × Record F} {items : List (PyStr × Record F)}

theorem targeted_cons :
    Targeted (item :: items) x ↔
      (item.2.supersedesId ≠ [] ∧ x = item.2.supersedesId) ∨ Targeted items x := by
  unfold Targeted
  constructor
  · rintro ⟨hne, y, hy, rfl⟩
    rcases List.mem_cons.mp hy with rfl | hy
    · exact .inl ⟨hne, rfl⟩
    · exact .inr ⟨hne, y, hy, rfl⟩
  · rintro (⟨hne, rfl⟩ | ⟨hne, y, hy, rfl⟩)
    · exact ⟨hne, item, List.mem_cons_self, rfl⟩
    · exact ⟨hne, y, List.mem_cons_of_mem _ hy, rfl⟩

theorem get?_writeBackRow_ne (hid : x ≠ item.1)
    (htarget : item.2.supersedesId ≠ [] → x ≠ item.2.supersedesId) :
    (writeBackRow table item).get? x = table.get? x := by
  rw [writeBackRow, get?_supersedeTarget_ne htarget, Dict.get?_modify_ne hid]

theorem get?_writeBackRow_target (hid : item.2.supersedesId ≠ item.1)
    (hne : item.2.supersedesId ≠ []) : (writeBackRow table item).get? item.2.supersedesId =
      (table.get? item.2.supersedesId).map Record.replaced := by
  rw [writeBackRow, get?_supersedeTarget_self hne, Dict.get?_modify_ne hid]

theorem get?_writeBackRow_self (htarget : item.2.supersedesId ≠ [] → item.1 ≠ item.2.supersedesId)
    :
    (writeBackRow table item).get? item.1 =
      (table.get? item.1).map fun r => { r with status := .active } := by
  rw [writeBackRow, get?_supersedeTarget_ne htarget, Dict.get?_modify_self]

/-- A record that is neither listed nor to be superseded stays as it is. -/
theorem writeBackRows_other (hid : x ∉ items.map Prod.fst) (htarget : ¬ Targeted items x) :
    (writeBackRows items table).get? x = table.get? x := by
  induction items generalizing table with
  | nil => rfl
  | cons item items ih =>
    rw [List.map_cons, List.mem_cons, not_or] at hid
    rw [targeted_cons, not_or] at htarget
    have hstep : (writeBackRow table item).get? x = table.get? x := by
      apply get?_writeBackRow_ne hid.1
      intro hne hx
      exact htarget.1 ⟨hne, hx⟩
    exact (ih hid.2 htarget.2).trans hstep

/-- A record that is to be superseded, and not listed itself, is superseded if it is active. -/
theorem writeBackRows_target (hid : x ∉ items.map Prod.fst) (htarget : Targeted items x) :
    (writeBackRows items table).get? x = (table.get? x).map Record.replaced := by
  induction items generalizing table with
  | nil =>
    obtain ⟨-, y, hy, -⟩ := htarget
    cases hy
  | cons item items ih =>
    rw [List.map_cons, List.mem_cons, not_or] at hid
    have hrest : (writeBackRows (item :: items) table).get? x =
        (writeBackRows items (writeBackRow table item)).get? x := rfl
    rw [hrest]
    by_cases hitem : item.2.supersedesId ≠ [] ∧ x = item.2.supersedesId
    · obtain ⟨hne, rfl⟩ := hitem
      have hstep : (writeBackRow table item).get? item.2.supersedesId =
          (table.get? item.2.supersedesId).map Record.replaced :=
        get?_writeBackRow_target hid.1 hne
      by_cases hlater : Targeted items item.2.supersedesId
      · rw [ih hid.2 hlater, hstep, Option.map_map]
        congr 1
        funext r
        exact r.replaced_replaced
      · rw [writeBackRows_other hid.2 hlater, hstep]
    · have hstep : (writeBackRow table item).get? x = table.get? x := by
        apply get?_writeBackRow_ne hid.1
        intro hne hx
        exact hitem ⟨hne, hx⟩
      rw [ih hid.2 ((targeted_cons.mp htarget).resolve_left hitem), hstep]

/-- A record that is listed, and not to be superseded, is active. -/
theorem writeBackRows_listed (hid : x ∈ items.map Prod.fst) (htarget : ¬ Targeted items x) :
    (writeBackRows items table).get? x =
      (table.get? x).map fun r => { r with status := .active } := by
  induction items generalizing table with
  | nil => cases hid
  | cons item items ih =>
    rw [targeted_cons, not_or] at htarget
    have hrest : (writeBackRows (item :: items) table).get? x =
        (writeBackRows items (writeBackRow table item)).get? x := rfl
    rw [hrest]
    by_cases hx : x = item.1
    · subst hx
      have hstep : (writeBackRow table item).get? item.1 =
          (table.get? item.1).map fun r => { r with status := .active } :=
        get?_writeBackRow_self fun hne hsame => htarget.1 ⟨hne, hsame⟩
      by_cases hlater : item.1 ∈ items.map Prod.fst
      · rw [ih hlater htarget.2, hstep, Option.map_map]
        rfl
      · rw [writeBackRows_other hlater htarget.2, hstep]
    · have hstep : (writeBackRow table item).get? x = table.get? x := by
        apply get?_writeBackRow_ne hx
        intro hne hsame
        exact htarget.1 ⟨hne, hsame⟩
      rw [List.map_cons, List.mem_cons] at hid
      rw [ih (hid.resolve_left hx) htarget.2, hstep]

end

section
variable {F : Type} {texts : Texts} {provider : Provider} {s : World F} {i : ℕ} {id : PyStr}
  {record : Record F} {rest : List PyStr} {items : List (PyStr × Record F)}

variable {index : VectorIndex} {dimensions : ℕ} {x newId : PyStr} {r : Record F}

theorem VectorIndex.upsert_ids {index' : VectorIndex}
    (h : index.upsert provider id dimensions = some index') :
    id ∈ index'.ids ∧ ∀ x ∈ index.ids, x ∈ index'.ids := by
  unfold VectorIndex.upsert at h
  split at h
  · cases h
  · split at h
    · cases h
    · cases h
      simp only
      split
      · rename_i hthere
        exact ⟨hthere, fun x hx => hx⟩
      · exact ⟨List.mem_append_right _ (List.mem_singleton.mpr rfl),
          fun x hx => List.mem_append_left _ hx⟩

theorem Inv.upsert (h : Inv texts s)
    (ht : s.tasks.get? i = some (.upsert id record dimensions rest))
    (hindex : s.index.upsert provider id dimensions = some index) :
    Inv texts (World.put { s with index := index } i (some (.activating id record rest))) := by
  obtain ⟨hthere, hmore⟩ := VectorIndex.upsert_ids hindex
  have hkeeps : Keeps s
      (World.put { s with index := index } i (some (.activating id record rest))) := by
    intro x r r' _ _ _ _ hkept
    exact hkept.put ht rfl rfl (hmore x)
  refine h.still rfl rfl rfl rfl hkeeps ?_ ?_
  · intro t hnext
    cases hnext
    have hsnap : Snapshot s id record := h.tasks i _ ht
    exact ⟨⟨hsnap.used, hsnap.target, hsnap.row⟩, fun row _ _ => .inl hthere⟩
  · exact fun a ha => .inl ha

theorem Inv.activating (h : Inv texts s) (ht : s.tasks.get? i = some (.activating id record rest)) :
    Inv texts (World.put { s with records := activateRow id record s.records } i
      (some (if record.supersedesId = [] then .activated id rest else .removing id record rest))) := by
  obtain ⟨hsnap, howed⟩ : Snapshot s id record ∧ Owed s id := h.tasks i _ ht
  have haged : Aged s.records (activateRow id record s.records) := aged_activateRow
  refine h.changed rfl rfl rfl haged ?hkeeps ?hwaiting ?hvectors ?hnext ?hanswers
  case hkeeps =>
    intro x r r' _ _ _ _ hkept
    exact hkept.put ht rfl rfl fun hthere => hthere
  case hwaiting =>
    intro x r old hr hne hold hactive
    obtain ⟨hkeep, old₀, hold₀, hstatus⟩ := activateRow_active hold hactive
    obtain ⟨r₀, hr₀, htarget, -⟩ := haged x r hr
    rw [htarget] at hne hold₀ hstatus hkeep
    -- whatever a record supersedes was active before
    have hwas : old₀.status = .active := by
      rcases hstatus with hstatus | ⟨-, hstatus⟩
      · exact hstatus
      · have hsettled := (h.targets x r₀ hr₀ hne).2 old₀ hold₀
        rw [hstatus] at hsettled
        contradiction
    have hwaits := h.waiting x r₀ old₀ hr₀ hne hold₀ hwas
    rw [activateRow] at hr
    have hmodified : ∀ row, (s.records.modify id Record.activated).get? x = some row →
        row.status.rank ≤ 1 := by
      intro row hrow
      by_cases hx : x = id
      · subst hx
        have hsame := (hsnap.row r₀ hr₀).1
        rw [hsame] at hne hkeep
        exact absurd rfl (hkeep hne)
      · rw [Dict.get?_modify_ne hx, hr₀] at hrow
        exact Option.some.inj hrow ▸ hwaits
    by_cases hx : record.supersedesId ≠ [] ∧ x = record.supersedesId
    · obtain ⟨hne', rfl⟩ := hx
      rw [get?_supersedeTarget_self hne'] at hr
      obtain ⟨row, hrow, rfl⟩ := Option.map_eq_some_iff.mp hr
      have hrank := hmodified row hrow
      rw [Record.replaced_waiting hrank]
      exact hrank
    · rw [get?_supersedeTarget_ne fun hne' hsame => hx ⟨hne', hsame⟩] at hr
      exact hmodified r hr
  case hvectors =>
    intro x r' hr' hactive
    obtain ⟨-, r, hr, hstatus⟩ := activateRow_active hr' hactive
    rcases hstatus with hstatus | ⟨rfl, hstatus⟩
    · refine ⟨r, hr, ?_, h.vectors x r hr hstatus⟩
      rw [hstatus]
      decide
    · refine ⟨r, hr, (hsnap.row r hr).2, howed r hr ?_⟩
      rw [hstatus]
      decide
  case hnext =>
    intro t hnext
    cases hnext
    split
    · trivial
    · rename_i hne
      have hsettled := hsnap.target hne
      refine ⟨hsettled.1, fun row hrow => ?_⟩
      have hrow' : (activateRow id record s.records).get? record.supersedesId = some row := hrow
      rw [activateRow, get?_supersedeTarget_self hne] at hrow'
      obtain ⟨row₀, hrow₀, rfl⟩ := Option.map_eq_some_iff.mp hrow'
      have hmodified : Aged s.records (s.records.modify id Record.activated) :=
        aged_modify fun r _ => ⟨r.activated_supersedesId, r.activated_rank⟩
      obtain ⟨row₁, hrow₁, -, hrank⟩ := hmodified _ row₀ hrow₀
      exact Record.replaced_settled ((hsettled.2 row₁ hrow₁).trans hrank)
  case hanswers => exact fun a ha => .inl ha

theorem VectorIndex.mem_remove (hne : x ≠ id) (h : x ∈ index.ids) : x ∈ (index.remove id).ids := by
  unfold VectorIndex.remove
  split
  · exact (List.mem_erase_of_ne hne).mpr h
  · exact h

theorem Inv.removing (h : Inv texts s) (ht : s.tasks.get? i = some (.removing id record rest)) :
    Inv texts (World.put { s with index := s.index.remove record.supersedesId } i
      (some (.activated id rest))) := by
  obtain ⟨-, hsuperseded⟩ : record.supersedesId ∈ s.used ∧ _ := h.tasks i _ ht
  refine h.still rfl rfl rfl rfl ?_ ?_ ?_
  · intro x r r' _ _ hr' hne hkept
    refine hkept.put ht rfl rfl (VectorIndex.mem_remove ?_)
    rintro rfl
    exact hne (hsuperseded r' hr')
  · intro t hnext
    cases hnext
    trivial
  · exact fun a ha => .inl ha

theorem Inv.removeVector (h : Inv texts s) (ht : s.tasks.get? i = some (.removeVector id)) :
    Inv texts (World.put { s with index := s.index.remove id } i (some (.deleteRow id))) := by
  refine h.still rfl rfl rfl rfl ?_ ?_ ?_
  · intro x r r' _ _ _ _ hkept
    by_cases hx : x = id
    · subst hx
      refine .inr (.inl ⟨i, ?_⟩)
      rw [get?_put, if_pos rfl]
    · exact hkept.put ht rfl rfl (VectorIndex.mem_remove hx)
  · intro t hnext
    cases hnext
    trivial
  · exact fun a ha => .inl ha

theorem get?_eraseRow (h : (s.records.erase id).get? x = some r) :
    x ≠ id ∧ s.records.get? x = some r := by
  rw [Dict.get?_erase] at h
  split at h
  · cases h
  · rename_i hx
    exact ⟨hx, h⟩

theorem aged_eraseRow : Aged s.records (s.records.erase id) :=
  fun _ r' hr' => ⟨r', (get?_eraseRow hr').2, rfl, le_rfl⟩

theorem Inv.deleteRow (h : Inv texts s) (ht : s.tasks.get? i = some (.deleteRow id)) :
    Inv texts (World.put { s with records := s.records.erase id } i none) := by
  refine h.changed rfl rfl rfl aged_eraseRow ?hkeeps ?hwaiting ?hvectors ?hnext ?hanswers
  case hkeeps =>
    intro x r r' _ _ hr' _ hkept
    have hx := (get?_eraseRow hr').1
    rcases hkept with hthere | hdeleting | hdropping
    · exact .inl hthere
    · apply Or.inr
      refine .inl (hdeleting.put ht rfl fun hsame => ?_)
      injection hsame with hid
      exact hx hid.symm
    · exact .inr (.inr (hdropping.put ht rfl fun items hsame => by cases hsame))
  case hwaiting =>
    intro x r old hr hne hget hactive
    exact h.waiting x r old (get?_eraseRow hr).2 hne (get?_eraseRow hget).2 hactive
  case hvectors =>
    intro x r' hr' hactive
    refine ⟨r', (get?_eraseRow hr').2, ?_, h.vectors x r' (get?_eraseRow hr').2 hactive⟩
    rw [hactive]
    decide
  case hnext =>
    intro t hnext
    cases hnext
  case hanswers => exact fun a ha => .inl ha

theorem aged_approveRow (h : ∀ r, s.records.get? id = some r → r.status.rank ≤ 1) :
    Aged s.records (approveRow id s.records) :=
  aged_modify fun r hr => ⟨rfl, h r hr⟩

theorem Inv.approving (h : Inv texts s) (ht : s.tasks.get? i = some (.approving id))
    (hmeets : ∀ r, s.records.get? id = some r → r.status.rank ≤ 1) :
    Inv texts (World.put { s with records := approveRow id s.records } i
      (some (.activate id []))) := by
  have haged := aged_approveRow hmeets
  have hactive : ∀ {x r'}, (approveRow id s.records).get? x = some r' → r'.status = .active →
      s.records.get? x = some r' := by
    intro x r' hr' hactive
    rw [approveRow, Dict.get?_modify] at hr'
    split at hr'
    · obtain ⟨r, -, rfl⟩ := Option.map_eq_some_iff.mp hr'
      cases hactive
    · exact hr'
  refine h.changed rfl rfl rfl haged ?hkeeps ?hwaiting ?hvectors ?hnext ?hanswers
  case hkeeps =>
    intro x r r' _ _ _ _ hkept
    exact hkept.put ht rfl rfl fun hthere => hthere
  case hwaiting =>
    intro x r old hr hne hget hstatus
    obtain ⟨r₀, hr₀, htarget, -⟩ := haged x r hr
    rw [htarget] at hne hget
    have hwaits := h.waiting x r₀ old hr₀ hne (hactive hget hstatus) hstatus
    have hr' : (approveRow id s.records).get? x = some r := hr
    rw [approveRow, Dict.get?_modify] at hr'
    split at hr'
    · obtain ⟨r₁, -, rfl⟩ := Option.map_eq_some_iff.mp hr'
      exact le_rfl
    · rw [hr₀] at hr'
      exact Option.some.inj hr' ▸ hwaits
  case hvectors =>
    intro x r' hr' hstatus
    refine ⟨r', hactive hr' hstatus, ?_, h.vectors x r' (hactive hr' hstatus) hstatus⟩
    rw [hstatus]
    decide
  case hnext =>
    intro t hnext
    cases hnext
    trivial
  case hanswers => exact fun a ha => .inl ha

theorem get?_insertRow (h : (s.records.set newId record).get? x = some r) :
    x = newId ∧ r = record ∨ x ≠ newId ∧ s.records.get? x = some r := by
  rw [Dict.get?_set] at h
  split at h
  · rename_i hx
    exact .inl ⟨hx, (Option.some.inj h).symm⟩
  · rename_i hx
    exact .inr ⟨hx, h⟩

theorem evolves_insert {next : Option (Task F)} (hfresh : newId ∉ s.used) :
    Evolves s (World.put { s with
      records := s.records.set newId record
      used := newId :: s.used } i next) := by
  refine ⟨fun x hx => List.mem_cons_of_mem _ hx, fun x r' hr' hx => ?_⟩
  rcases get?_insertRow hr' with ⟨rfl, -⟩ | ⟨-, hold⟩
  · exact absurd hx hfresh
  · exact ⟨r', hold, rfl, le_rfl⟩

theorem Inv.insert (h : Inv texts s) (ht : s.tasks.get? i = some (.insert record))
    (hfresh : newId ∉ s.used) (hmeets : record.supersedesId ≠ [] →
      (∃ old, s.records.get? record.supersedesId = some old ∧ old.status = .active) ∧
        ∀ id r, s.records.get? id = some r → r.supersedesId ≠ record.supersedesId) :
    Inv texts (World.put { s with
      records := s.records.set newId record
      used := newId :: s.used } i (some (.created newId))) := by
  have hpending : record.status.rank ≤ 1 := h.tasks i _ ht
  have he : Evolves s (World.put { s with
      records := s.records.set newId record
      used := newId :: s.used } i (some (.created newId))) := evolves_insert hfresh
  have hkeeps : Keeps s (World.put { s with
      records := s.records.set newId record
      used := newId :: s.used } i (some (.created newId))) := by
    intro x r r' _ _ _ _ hkept
    exact hkept.put ht rfl rfl fun hthere => hthere
  constructor
  case used =>
    intro x r hr
    rcases get?_insertRow hr with ⟨rfl, -⟩ | ⟨-, hold⟩
    · exact List.mem_cons_self
    · exact List.mem_cons_of_mem _ (h.used x r hold)
  case targets =>
    intro x r hr hne
    rcases get?_insertRow hr with ⟨-, rfl⟩ | ⟨-, hold⟩
    · obtain ⟨⟨old, hold, hactive⟩, -⟩ := hmeets hne
      have hsettled : Settled s r.supersedesId := by
        refine ⟨h.used _ old hold, fun row hrow => ?_⟩
        rw [hold] at hrow
        cases hrow
        rw [hactive]
        decide
      exact hsettled.evolves he
    · exact (h.targets x r hold hne).evolves he
  case single =>
    intro x x' r r' hr hr' hne hsame
    rcases get?_insertRow hr with ⟨rfl, rfl⟩ | ⟨-, hold⟩
    · rcases get?_insertRow hr' with ⟨rfl, -⟩ | ⟨-, hold'⟩
      · rfl
      · exact absurd hsame.symm ((hmeets hne).2 x' r' hold')
    · rcases get?_insertRow hr' with ⟨rfl, rfl⟩ | ⟨-, hold'⟩
      · exact absurd hsame ((hmeets (hsame ▸ hne)).2 x r hold)
      · exact h.single x x' r r' hold hold' hne hsame
  case waiting =>
    intro x r old hr hne hget hactive
    rcases get?_insertRow hr with ⟨-, rfl⟩ | ⟨-, hold⟩
    · exact hpending
    · rcases get?_insertRow hget with ⟨-, rfl⟩ | ⟨-, hold'⟩
      · rw [hactive] at hpending
        contradiction
      · exact h.waiting x r old hold hne hold' hactive
  case vectors =>
    intro x r' hr' hactive
    rcases get?_insertRow hr' with ⟨-, rfl⟩ | ⟨-, hold⟩
    · rw [hactive] at hpending
      contradiction
    · refine hkeeps x r' r' hold ?_ hr' ?_ (h.vectors x r' hold hactive)
      · rw [hactive]
        decide
      · rw [hactive]
        decide
  case tasks =>
    intro j t hj
    rw [get?_put] at hj
    split at hj
    · cases hj
      trivial
    · exact (h.tasks j t hj).keeps he hkeeps rfl
  case answers => exact h.answers

theorem Inv.replaceAll (h : Inv texts s)
    (ht : s.tasks.get? i = some (.replaceAll items dimensions))
    (hmeets : ∀ id r, s.records.get? id = some r →
      (r.status = .active ∨ r.status = .pendingEmbedding ∧ id ∈ s.index.ids) →
        id ∈ items.map Prod.fst ∨ Targeted items id ∨ Deleting s id) :
    Inv texts (World.put { s with
      index := VectorIndex.replaceAll provider (items.map Prod.fst) dimensions } i
      (if items = [] then none else some (.writeBack items))) := by
  obtain ⟨hpaired, hsnap⟩ : Unpaired items ∧ _ := h.tasks i _ ht
  have hkeeps : Keeps s (World.put { s with
      index := VectorIndex.replaceAll provider (items.map Prod.fst) dimensions } i
      (if items = [] then none else some (.writeBack items))) := by
    intro x r r' hr hrank hr' hne hkept
    obtain rfl : r = r' := Option.some.inj (hr.symm.trans hr')
    have hdeleting : Deleting s x → Kept (World.put { s with
        index := VectorIndex.replaceAll provider (items.map Prod.fst) dimensions } i
        (if items = [] then none else some (.writeBack items))) x := by
      intro hd
      exact .inr (.inl (hd.put ht rfl fun hsame => by cases hsame))
    rcases hkept with hthere | hd | hdropping
    · have huse : r.status = .active ∨ r.status = .pendingEmbedding ∧ x ∈ s.index.ids := by
        cases hstatus : r.status <;> simp_all [Status.rank]
      rcases hmeets x r hr huse with hlisted | htarget | hd
      · exact .inl hlisted
      · obtain ⟨-, item, hitem, -⟩ := id htarget
        refine .inr (.inr ⟨i, items, ?_, htarget⟩)
        rw [get?_put, if_pos rfl, if_neg (List.ne_nil_of_mem hitem)]
      · exact hdeleting hd
    · exact hdeleting hd
    · exact .inr (.inr (hdropping.put ht rfl fun _ hsame => by cases hsame))
  refine h.still rfl rfl rfl rfl hkeeps ?_ ?_
  · intro t hnext
    split at hnext
    · cases hnext
    · cases hnext
      refine ⟨hpaired, fun item hitem => ?_, fun item hitem row _ _ => ?_⟩
      · exact ⟨(hsnap item hitem).used, (hsnap item hitem).target, (hsnap item hitem).row⟩
      · exact .inl (List.mem_map_of_mem hitem)
  · exact fun a ha => .inl ha

theorem Unpaired.unlisted (h : Unpaired items) (hx : Targeted items x) :
    x ∉ items.map Prod.fst := by
  obtain ⟨hne, item, hitem, rfl⟩ := hx
  intro hlisted
  obtain ⟨other, hother, hsame⟩ := List.mem_map.mp hlisted
  exact h item hitem other hother hne hsame.symm

theorem aged_writeBackRows (hpaired : Unpaired items)
    (hmeets : ∀ item ∈ items, ∀ r, s.records.get? item.1 = some r → r.status ≠ .superseded) :
    Aged s.records (writeBackRows items s.records) := by
  intro x r' hr'
  by_cases htarget : Targeted items x
  · rw [writeBackRows_target (hpaired.unlisted htarget) htarget] at hr'
    obtain ⟨r, hr, rfl⟩ := Option.map_eq_some_iff.mp hr'
    exact ⟨r, hr, r.replaced_supersedesId, r.replaced_rank⟩
  · by_cases hlisted : x ∈ items.map Prod.fst
    · rw [writeBackRows_listed hlisted htarget] at hr'
      obtain ⟨r, hr, rfl⟩ := Option.map_eq_some_iff.mp hr'
      obtain ⟨item, hitem, rfl⟩ := List.mem_map.mp hlisted
      have hne := hmeets item hitem r hr
      refine ⟨r, hr, rfl, ?_⟩
      cases hstatus : r.status <;> simp_all [Status.rank]
    · rw [writeBackRows_other hlisted htarget] at hr'
      exact ⟨r', hr', rfl, le_rfl⟩

theorem Inv.writeBack (h : Inv texts s) (ht : s.tasks.get? i = some (.writeBack items))
    (hmeets : ∀ item ∈ items, ∀ r, s.records.get? item.1 = some r → r.status ≠ .superseded) :
    Inv texts (World.put { s with records := writeBackRows items s.records } i none) := by
  obtain ⟨hpaired, hsnap, howed⟩ : Unpaired items ∧ _ ∧ _ := h.tasks i _ ht
  have haged := aged_writeBackRows hpaired hmeets
  have hsettled : ∀ {x}, Targeted items x → Settled s x := by
    rintro x ⟨hne, item, hitem, rfl⟩
    exact (hsnap item hitem).target hne
  have hactive : ∀ {x r'}, (writeBackRows items s.records).get? x = some r' →
      r'.status = .active → ¬ Targeted items x := by
    intro x r' hr' hstatus htarget
    rw [writeBackRows_target (hpaired.unlisted htarget) htarget] at hr'
    obtain ⟨r, -, rfl⟩ := Option.map_eq_some_iff.mp hr'
    exact r.replaced_ne_active hstatus
  refine h.changed rfl rfl rfl haged ?hkeeps ?hwaiting ?hvectors ?hnext ?hanswers
  case hkeeps =>
    intro x r r' hr hrank hr' hne hkept
    rcases hkept with hthere | hdeleting | hdropping
    · exact .inl hthere
    · exact .inr (.inl (hdeleting.put ht rfl fun hsame => by cases hsame))
    · refine .inr (.inr (hdropping.put ht rfl fun items' hsame htarget => ?_))
      injection hsame with hitems
      subst hitems
      -- the record that this rebuild was to supersede is superseded now
      have hget : (writeBackRows items s.records).get? x = some r' := hr'
      rw [writeBackRows_target (hpaired.unlisted htarget) htarget, hr] at hget
      rw [← Option.some.inj hget] at hne
      exact hne (Record.replaced_settled ((hsettled htarget).2 r hr))
  case hwaiting =>
    intro x r old hr hne hget hstatus
    have hold := hactive hget hstatus
    obtain ⟨r₀, hr₀, htarget, -⟩ := haged x r hr
    rw [htarget] at hne hget hold
    have hnotListed : x ∉ items.map Prod.fst := by
      intro hlisted
      obtain ⟨item, hitem, rfl⟩ := List.mem_map.mp hlisted
      exact hold ⟨hne, item, hitem, ((hsnap item hitem).row r₀ hr₀).1.symm⟩
    have hwas : ∃ old₀, s.records.get? r₀.supersedesId = some old₀ ∧ old₀.status = .active := by
      by_cases hlisted : r₀.supersedesId ∈ items.map Prod.fst
      · have hget' : (writeBackRows items s.records).get? r₀.supersedesId = some old := hget
        rw [writeBackRows_listed hlisted hold] at hget'
        obtain ⟨old₀, hold₀, -⟩ := Option.map_eq_some_iff.mp hget'
        obtain ⟨item, hitem, hitemId⟩ := List.mem_map.mp hlisted
        have hopen := hmeets item hitem old₀ (hitemId ▸ hold₀)
        have hrank := (h.targets x r₀ hr₀ hne).2 old₀ hold₀
        refine ⟨old₀, hold₀, ?_⟩
        cases hstatus₀ : old₀.status <;> simp_all [Status.rank]
      · have hget' : (writeBackRows items s.records).get? r₀.supersedesId = some old := hget
        rw [writeBackRows_other hlisted hold] at hget'
        exact ⟨old, hget', hstatus⟩
    obtain ⟨old₀, hold₀, hstatus₀⟩ := hwas
    have hwaits := h.waiting x r₀ old₀ hr₀ hne hold₀ hstatus₀
    have hr' : (writeBackRows items s.records).get? x = some r := hr
    by_cases htargeted : Targeted items x
    · rw [writeBackRows_target hnotListed htargeted, hr₀] at hr'
      rw [← Option.some.inj hr', Record.replaced_waiting hwaits]
      exact hwaits
    · rw [writeBackRows_other hnotListed htargeted, hr₀] at hr'
      exact Option.some.inj hr' ▸ hwaits
  case hvectors =>
    intro x r' hr' hstatus
    have htarget := hactive hr' hstatus
    have hget : (writeBackRows items s.records).get? x = some r' := hr'
    by_cases hlisted : x ∈ items.map Prod.fst
    · rw [writeBackRows_listed hlisted htarget] at hget
      obtain ⟨r, hr, -⟩ := Option.map_eq_some_iff.mp hget
      obtain ⟨item, hitem, rfl⟩ := List.mem_map.mp hlisted
      exact ⟨r, hr, ((hsnap item hitem).row r hr).2, howed item hitem r hr (hmeets item hitem r hr)⟩
    · rw [writeBackRows_other hlisted htarget] at hget
      refine ⟨r', hget, ?_, h.vectors x r' hget hstatus⟩
      rw [hstatus]
      decide
  case hnext =>
    intro t hnext
    cases hnext
  case hanswers => exact fun a ha => .inl ha

end

section
variable {F : Type} [PyFloat F] {texts : Texts} {provider : Provider} {s s' : World F} {i : ℕ}
  {id : PyStr} {record : Record F} {rest : List PyStr} {items : List (PyStr × Record F)}

variable {status : Status} {t : Task F} {r : Retrieval F} {reply : Reply F}
  {ranked : List (F × PyStr × Record F)}

theorem validatePolicy_rank
    {category scopeType scopeKey evidenceType sensitivity sourceKind : PyStr} {confidence : F}
    {confirmed : Bool}
    (h : validatePolicy category scopeType scopeKey confidence evidenceType sensitivity sourceKind
      confirmed = .ok status) : status.rank ≤ 1 := by
  unfold validatePolicy at h
  simp only [ite_error_eq_ok] at h
  obtain ⟨-, -, -, -, -, -, -, -, h⟩ := h
  split at h
  · cases h
    decide
  · split at h
    all_goals
      cases h
      decide

/-- A new record is not active. -/
theorem Candidate.task_facts {c : Candidate F} (h : c.task texts = some t) :
    t.Facts texts s := by
  unfold Candidate.task at h
  split at h
  · cases h
  · rename_i record hrecord
    have hrank : record.status.rank ≤ 1 := by
      unfold Candidate.record at hrecord
      obtain ⟨value, -, hrecord⟩ := bind_eq_ok.mp hrecord
      obtain ⟨status, hstatus, hrecord⟩ := bind_eq_ok.mp hrecord
      cases hrecord
      exact validatePolicy_rank hstatus
    cases h
    split <;> exact hrank

theorem Operation.task_facts {operation : Operation F} (h : operation.task texts = some t) :
    t.Facts texts s := by
  cases operation with
  | createCandidate c => exact c.task_facts h
  | _ =>
    cases h
    trivial

omit [PyFloat F] in
theorem nextOf_facts (h : nextOf rest = some t) : t.Facts texts s := by
  cases rest with
  | nil => cases h
  | cons id rest =>
    cases h
    trivial

omit [PyFloat F] in
/-- What is read of a record that is in the table and no longer in review. -/
theorem Inv.snapshot (h : Inv texts s) (hget : s.records.get? id = some record)
    (hrank : 1 ≤ record.status.rank) : Snapshot s id record := by
  refine ⟨h.used id record hget, h.targets id record hget, fun row hrow => ?_⟩
  cases hget.symm.trans hrow
  exact ⟨rfl, hrank⟩

omit [PyFloat F] in
theorem mem_listed {table : Table F} {item : PyStr × Record F} :
    item ∈ listed status table ↔ table.get? item.1 = some item.2 ∧ item.2.status = status := by
  rw [listed, List.mem_filter, Dict.get?_eq_some, decide_eq_true_eq]

omit [PyFloat F] in
theorem Inv.listActive (h : Inv texts s) :
    Task.Facts texts s (.listPending (listed .active s.records)) := by
  constructor
  · intro x hx y hy hne hsame
    obtain ⟨hget, hstatus⟩ := mem_listed.mp hx
    obtain ⟨hget', hstatus'⟩ := mem_listed.mp hy
    have hwaits := h.waiting x.1 x.2 y.2 hget hne (hsame ▸ hget') hstatus'
    rw [hstatus] at hwaits
    contradiction
  · intro item hitem
    obtain ⟨hget, hstatus⟩ := mem_listed.mp hitem
    apply h.snapshot hget
    rw [hstatus]
    decide

omit [PyFloat F] in
theorem Inv.listPending {active : List (PyStr × Record F)} (h : Inv texts s)
    (hactive : Task.Facts texts s (.listPending active)) :
    Unpaired (rebuilt active (listed .pendingEmbedding s.records)) ∧
      ∀ item ∈ rebuilt active (listed .pendingEmbedding s.records), Snapshot s item.1 item.2 := by
  obtain ⟨hpaired, hsnap⟩ := hactive
  have hpending : ∀ item ∈ listed .pendingEmbedding s.records, Snapshot s item.1 item.2 := by
    intro item hitem
    obtain ⟨hget, hstatus⟩ := mem_listed.mp hitem
    apply h.snapshot hget
    rw [hstatus]
    decide
  have hunsettled : ∀ {x y : PyStr × Record F}, Snapshot s x.1 x.2 →
      y ∈ listed .pendingEmbedding s.records → x.2.supersedesId ≠ [] → x.2.supersedesId ≠ y.1 := by
    intro x y hx hy hne hsame
    obtain ⟨hget, hstatus⟩ := mem_listed.mp hy
    have hrank := (hx.target hne).2 y.2 (hsame ▸ hget)
    rw [hstatus] at hrank
    contradiction
  constructor
  · intro x hx y hy hne
    rcases List.mem_append.mp hx with hx | hx
    · have hx' := List.mem_of_mem_filter hx
      rcases List.mem_append.mp hy with hy | hy
      · exact hpaired x hx' y (List.mem_of_mem_filter hy) hne
      · exact hunsettled (hsnap x hx') hy hne
    · rcases List.mem_append.mp hy with hy | hy
      · intro hsame
        have hfree := (List.mem_filter.mp hy).2
        simp only [decide_not, Bool.not_eq_true', decide_eq_false_iff_not, List.any_eq_true,
          Bool.and_eq_true, decide_eq_true_eq, not_exists, not_and] at hfree
        exact hfree x hx hne hsame
      · exact hunsettled (hpending x hx) hy hne
  · intro item hitem
    rcases List.mem_append.mp hitem with hitem | hitem
    · exact hsnap item (List.mem_of_mem_filter hitem)
    · exact hpending item hitem

theorem rank_admitted {row : Option (Record F)}
    (h : ∀ x ∈ ranked, x.2.2.status = .active ∧ admitted texts r.scopes x.2.2 = true) :
    ∀ x ∈ rank texts r reply row id ranked,
      x.2.2.status = .active ∧ admitted texts r.scopes x.2.2 = true := by
  unfold rank
  split
  · exact h
  · split
    · exact h
    · rename_i record
      split
      · exact h
      · rename_i hactive
        split
        · exact h
        · rename_i hadmitted
          intro x hx
          rcases List.mem_append.mp hx with hx | hx
          · exact h x hx
          · cases List.mem_singleton.mp hx
            exact ⟨not_not.mp hactive, not_not.mp hadmitted⟩

theorem selected_admitted
    (h : ∀ x ∈ ranked, x.2.2.status = .active ∧ admitted texts r.scopes x.2.2 = true) :
    ∀ x ∈ selected r ranked, x.2.status = .active ∧ admitted texts r.scopes x.2 = true := by
  intro x hx
  obtain ⟨y, hy, rfl⟩ := List.mem_map.mp hx
  exact h y (mem_sortedBy.mp (List.mem_of_mem_take hy))

theorem Inv.advance {next : Option (Task F)} (h : Inv texts s) (ht : s.tasks.get? i = some t)
    (hmeets : Meets s (.advance i reply)) (hrun : t.run texts provider s reply = some (s', next)) :
    Inv texts (s'.put i next) := by
  have hfacts := h.tasks i t ht
  simp only [Meets, ht] at hmeets
  cases t with
  | supersede memoryId r =>
    cases hrun
    refine h.quiet ht rfl fun t' hnext => ?_
    obtain ⟨old, -, htask⟩ := Option.bind_eq_some_iff.mp hnext
    exact Candidate.task_facts htask
  | check supersedesId record =>
    unfold Task.run at hrun
    simp only at hrun
    split at hrun
    · cases hrun
      exact h.quiet ht rfl fun t' hnext => by cases hnext
    · cases hrun
      refine h.quiet ht rfl fun t' hnext => ?_
      split at hnext
      · cases hnext
        exact hfacts
      · cases hnext
  | insert record =>
    unfold Task.run at hrun
    simp only at hrun
    split at hrun
    · cases hrun
    · rename_i hfresh
      cases hrun
      exact h.insert ht (by simpa using hfresh) hmeets
  | created id =>
    cases hrun
    refine h.quiet ht rfl fun t' hnext => ?_
    obtain ⟨record, -, hnext⟩ := Option.bind_eq_some_iff.mp hnext
    split at hnext
    · cases hnext
      trivial
    · cases hnext
  | activate id rest =>
    unfold Task.run at hrun
    simp only at hrun
    split at hrun
    · cases hrun
      exact h.quiet ht rfl fun t' hnext => by cases hnext
    · rename_i record hget
      cases hrun
      refine h.quiet ht rfl fun t' hnext => ?_
      split at hnext
      · rename_i hstatus
        cases hnext
        exact h.snapshot hget (by rw [hstatus]; decide)
      · exact nextOf_facts hnext
  | embed id record rest =>
    cases hrun
    refine h.quiet ht rfl fun t' hnext => ?_
    split at hnext
    · obtain ⟨dimensions, -, rfl⟩ := Option.map_eq_some_iff.mp hnext
      exact hfacts
    · exact nextOf_facts hnext
  | upsert id record dimensions rest =>
    unfold Task.run at hrun
    simp only at hrun
    split at hrun
    · cases hrun
      exact h.quiet ht rfl fun t' hnext => nextOf_facts hnext
    · rename_i index hindex
      cases hrun
      exact h.upsert ht hindex
  | activating id record rest =>
    cases hrun
    exact h.activating ht
  | removing id record rest =>
    cases hrun
    exact h.removing ht
  | activated id rest =>
    cases hrun
    refine h.quiet ht rfl fun t' hnext => ?_
    obtain ⟨record, -, hnext⟩ := Option.bind_eq_some_iff.mp hnext
    exact nextOf_facts hnext
  | approve id =>
    unfold Task.run at hrun
    simp only at hrun
    split at hrun
    · cases hrun
      exact h.quiet ht rfl fun t' hnext => by cases hnext
    · cases hrun
      refine h.quiet ht rfl fun t' hnext => ?_
      split at hnext
      · cases hnext
        trivial
      · cases hnext
  | approving id =>
    cases hrun
    exact h.approving ht hmeets
  | retry =>
    cases hrun
    exact h.quiet ht rfl fun t' hnext => nextOf_facts hnext
  | delete id =>
    cases hrun
    refine h.quiet ht rfl fun t' hnext => ?_
    obtain ⟨record, -, rfl⟩ := Option.map_eq_some_iff.mp hnext
    trivial
  | removeVector id =>
    cases hrun
    exact h.removeVector ht
  | deleteRow id =>
    cases hrun
    exact h.deleteRow ht
  | rebuild =>
    cases hrun
    refine h.quiet ht rfl fun t' hnext => ?_
    split at hnext
    · cases hnext
      trivial
    · cases hnext
  | listActive =>
    cases hrun
    refine h.quiet ht rfl fun t' hnext => ?_
    cases hnext
    exact h.listActive
  | listPending active =>
    cases hrun
    refine h.quiet ht rfl fun t' hnext => ?_
    have hlisted := h.listPending hfacts
    cases hnext
    split
    · exact ⟨(fun x hx => by cases hx), (fun item hitem => by cases hitem)⟩
    · exact hlisted
  | embedAll items =>
    cases hrun
    refine h.quiet ht rfl fun t' hnext => ?_
    obtain ⟨dimensions, -, rfl⟩ := Option.map_eq_some_iff.mp hnext
    exact hfacts
  | replaceAll items dimensions =>
    cases hrun
    exact h.replaceAll ht hmeets
  | writeBack items =>
    cases hrun
    exact h.writeBack ht hmeets
  | retrieve r =>
    unfold Task.run at hrun
    simp only at hrun
    split at hrun
    · rename_i henabled
      cases hrun
      refine h.quiet ht rfl fun t' hnext => ?_
      split at hnext
      · cases hnext
        exact henabled
      · cases hnext
    · cases hrun
      refine h.answer ht rfl (fun x hx => ?_)
      cases hx
  | search r =>
    unfold Task.run at hrun
    simp only at hrun
    split at hrun
    · cases hrun
      exact h.quiet ht rfl fun t' hnext => by cases hnext
    · split at hrun
      · cases hrun
        refine h.quiet ht rfl fun t' hnext => ?_
        obtain ⟨found, -, rfl⟩ := Option.map_eq_some_iff.mp hnext
        exact ⟨hfacts, (fun x hx => by cases hx)⟩
      · cases hrun
  | read r found ranked =>
    obtain ⟨henabled, hranked⟩ := hfacts
    cases found with
    | nil =>
      cases hrun
      refine h.answer ht rfl fun x hx => ?_
      obtain ⟨hactive, hadmitted⟩ := selected_admitted hranked x hx
      exact ⟨henabled, hactive, hadmitted⟩
    | cons id found =>
      cases hrun
      refine h.quiet ht rfl fun t' hnext => ?_
      cases hnext
      exact ⟨henabled, rank_admitted hranked⟩

theorem Inv.step {a : Action F} (h : Inv texts s) (hmeets : Meets s a)
    (hs : s.step texts provider a = some s') : Inv texts s' := by
  cases a with
  | call i operation =>
    simp only [World.step] at hs
    split at hs
    · cases hs
    · rename_i hfree
      cases hs
      have hnone : s.tasks.get? i = none := by simpa using hfree
      exact h.begin hnone fun t hnext => Operation.task_facts hnext
  | advance i reply =>
    simp only [World.step] at hs
    obtain ⟨t, ht, hs⟩ := Option.bind_eq_some_iff.mp hs
    obtain ⟨⟨s₁, next⟩, hrun, rfl⟩ := Option.map_eq_some_iff.mp hs
    exact h.advance ht hmeets hrun

end
end QronosAgent.Memory

import Mathlib.Algebra.BigOperators.Group.List.Basic
import QronosAgent.Link.CommandRetention

/-! The bytes that a `CommandLedger` counts are those of the answers it keeps. -/
namespace QronosAgent.Lib.Dict
variable {K V A : Type*} [DecidableEq K] [AddCommGroup A] {f : V → A} {d e : Dict K V} {k : K}

/-- The sum of `f` over the values. -/
def total (f : V → A) (d : Dict K V) : A := (d.items.map fun kv => f kv.2).sum

/-- What the value under a key adds to the total. -/
def share (f : V → A) (d : Dict K V) (k : K) : A := ((d.get? k).map f).getD 0

theorem total_congr (h : ∀ k, d.get? k = e.get? k) : d.total f = e.total f := by
  have hperm : d.items.Perm e.items := by
    rw [List.perm_ext_iff_of_nodup d.nodup.of_map e.nodup.of_map]
    intro kv
    rw [← get?_eq_some, ← get?_eq_some, h]
  exact (hperm.map _).sum_eq

theorem total_erase (k : K) : d.total f = (d.erase k).total f + d.share f k := by
  cases hk : d.get? k with
  | none =>
    rw [share, hk, Option.map_none, Option.getD_none, add_zero]
    apply total_congr
    intro l
    rw [get?_erase]
    split
    · rename_i hl
      rw [hl, hk]
    · rfl
  | some v =>
    have hset : d.total f = ((d.erase k).set k v).total f := by
      apply total_congr
      intro l
      rw [get?_set, get?_erase]
      split
      · rename_i hl
        rw [hl, hk]
      · rfl
    have hnew : k ∉ (d.erase k).keys := get?_eq_none.mp get?_erase_self
    rw [hset, total, items_set_of_notMem hnew, List.map_append, List.sum_append, share, hk]
    simp [total]

theorem total_set (v : V) : (d.set k v).total f = d.total f - d.share f k + f v := by
  have hrest : ((d.set k v).erase k).total f = (d.erase k).total f := by
    apply total_congr
    intro l
    rw [get?_erase, get?_erase]
    split
    · rfl
    · rename_i hl
      exact get?_set_ne hl
  rw [total_erase k, hrest, total_erase (d := d) k]
  simp [share]

theorem total_modify (g : V → V) :
    (d.modify k g).total f = d.total f - d.share f k + d.share (f ∘ g) k := by
  have hrest : ((d.modify k g).erase k).total f = (d.erase k).total f := by
    apply total_congr
    intro l
    rw [get?_erase, get?_erase]
    split
    · rfl
    · rename_i hl
      exact get?_modify_ne hl
  rw [total_erase k, hrest, total_erase (d := d) k]
  simp [share, Option.map_map]

omit [DecidableEq K] in
theorem total_filter (p : K → V → Bool) : d.total f = (d.filter p).total f +
    ((d.items.filter fun kv => !p kv.1 kv.2).map fun kv => f kv.2).sum := by
  have := ((List.filter_append_perm (fun kv : K × V => p kv.1 kv.2) d.items).map
    fun kv => f kv.2).sum_eq
  rw [List.map_append, List.sum_append] at this
  exact this.symm

end QronosAgent.Lib.Dict

namespace QronosAgent.Link
open Lib
variable {ο : Type} {cfg : LedgerConfig ο} {l l' : CommandLedger ο} {d : DeviceId} {c : CommandId}

namespace CommandLedger

/-- The sum of `f` over all entries of all devices. -/
def total (f : Entry ο → ℤ) (l : CommandLedger ο) : ℤ := l.devices.total (Dict.total f)

theorem share_entries (f : Entry ο → ℤ) (l : CommandLedger ο) (d : DeviceId) :
    l.devices.share (Dict.total f) d = (l.entries d).total f := by
  unfold Dict.share entries
  cases l.devices.get? d <;> rfl

theorem total_withEntries (f : Entry ο → ℤ) {entries : Entries ο}
    {removed : List (CommandId × Entry ο)} : (l.withEntries d entries removed).total f =
      l.total f - (l.entries d).total f + entries.total f := by
  rw [total, withEntries, Dict.total_set, share_entries]
  rfl

theorem total_modifyEntry (f : Entry ο → ℤ) (g : Entry ο → Entry ο) :
    (l.modifyEntry d c g).total f =
      l.total f + ((l.entryOf d c).map fun e => f (g e) - f e).getD 0 := by
  rw [total, modifyEntry, Dict.total_modify, share_entries]
  unfold Dict.share entryOf entries
  cases l.devices.get? d with
  | none =>
    rw [show (none.getD Dict.empty : Entries ο).get? c = none from rfl]
    simp [total, Dict.total, Dict.empty]
  | some entries =>
    simp only [Option.map_some, Option.getD_some, Function.comp, Dict.total_modify, Dict.share]
    cases entries.get? c <;> simp [total, Function.comp]
    ring

/-! What the two loops of the ledger come to. -/

theorem entryOf_of_mem {x : DeviceId × CommandId × Entry ο} (h : x ∈ l.allEntries) :
    l.entryOf x.1 x.2.1 = some x.2.2 := by
  obtain ⟨⟨d, entries⟩, hd, hx⟩ := List.mem_flatMap.mp h
  obtain ⟨⟨c, e⟩, hc, rfl⟩ := List.mem_map.mp hx
  rw [entryOf, CommandLedger.entries, Dict.get?_eq_some.mpr hd]
  exact Dict.get?_eq_some.mpr hc

theorem oldestOutcome_mem {o : DeviceId × CommandId × Entry ο} (h : l.oldestOutcome? = some o) :
    l.entryOf o.1 o.2.1 = some o.2.2 ∧ o.2.2.outcome.isSome = true := by
  have hmem : o ∈ l.allEntries ∧ o.2.2.outcome.isSome = true := by
    revert h
    unfold oldestOutcome?
    apply List.foldlRecOn (motive := fun r => r = some o → o ∈ l.allEntries ∧ _)
    · exact fun h => by cases h
    · intro r hr x hx h
      split at h
      · rename_i hc
        obtain rfl := Option.some.inj h
        exact ⟨hx, (Bool.and_eq_true_iff.mp hc).1⟩
      · exact hr h
  exact ⟨entryOf_of_mem hmem.1, hmem.2⟩

theorem oldestOutcome_none (h : l.oldestOutcome? = none) :
    ∀ x ∈ l.allEntries, x.2.2.outcome.isSome = false := by
  rw [← Option.isNone_iff_eq_none, oldestOutcome?] at h
  generalize l.allEntries = xs at h ⊢
  generalize hr : (none : Option (DeviceId × CommandId × Entry ο)) = r at h
  suffices r = none ∧ ∀ x ∈ xs, x.2.2.outcome.isSome = false from this.2
  clear hr
  induction xs generalizing r with
  | nil => exact ⟨Option.isNone_iff_eq_none.mp h, by simp⟩
  | cons x xs ih =>
    obtain ⟨hstep, hxs⟩ := ih _ h
    simp only at hstep
    split at hstep
    · cases hstep
    · rename_i hc
      subst hstep
      refine ⟨rfl, fun y hy => ?_⟩
      rcases List.mem_cons.mp hy with rfl | hy
      · simpa using hc
      · exact hxs y hy

theorem total_eq (f : Entry ο → ℤ) : l.total f = (l.allEntries.map fun x => f x.2.2).sum := by
  unfold total Dict.total allEntries
  rw [List.map_flatMap, List.flatMap_def, List.sum_flatten, List.map_map]
  simp only [List.map_map]
  rfl

theorem total_nonneg {f : Entry ο → ℤ} (h : ∀ e, 0 ≤ f e) : 0 ≤ l.total f := by
  rw [total_eq]
  apply List.sum_nonneg
  intro n hn
  obtain ⟨x, -, rfl⟩ := List.mem_map.mp hn
  exact h _

/-- How many answers are kept. -/
def kept (l : CommandLedger ο) : ℤ := l.total fun e => if e.outcome.isSome then 1 else 0

theorem kept_le (l : CommandLedger ο) : l.kept ≤ l.allEntries.length := by
  rw [kept, total_eq]
  induction l.allEntries with
  | nil => rfl
  | cons x xs ih =>
    rw [List.map_cons, List.sum_cons, List.length_cons]
    split <;> omega

theorem kept_dropOldestOutcome (h : l.dropOldestOutcome = some l') : l'.kept = l.kept - 1 := by
  obtain ⟨o, ho, rfl⟩ := Option.map_eq_some_iff.mp h
  obtain ⟨hentry, hsome⟩ := oldestOutcome_mem ho
  rw [kept, total_modifyEntry, entryOf_addRetained, hentry]
  simp [hsome, kept, total, addRetained]
  ring

/-- The loop that drops answers ends because the answer fits, or none is left. -/
theorem dropUntilFits_ended (size turns : ℕ) (l : CommandLedger ο) (h : l.kept ≤ turns) :
    (l.dropUntilFits cfg size turns).fits cfg size = true ∨
      (l.dropUntilFits cfg size turns).dropOldestOutcome = none := by
  induction turns generalizing l with
  | zero =>
    right
    cases hdrop : l.dropOldestOutcome with
    | none => rw [dropUntilFits, hdrop]
    | some l' =>
      have hless := kept_dropOldestOutcome hdrop
      have hnonneg : 0 ≤ l'.kept := total_nonneg fun e => by split <;> simp
      push_cast at h
      omega
  | succ turns ih =>
    rw [dropUntilFits]
    split
    · exact .inl ‹_›
    · cases hdrop : l.dropOldestOutcome with
      | none => exact .inr hdrop
      | some l' =>
        apply ih
        have := kept_dropOldestOutcome hdrop
        push_cast at h
        omega

end CommandLedger

structure Entry.Sized (cfg : LedgerConfig ο) (e : Entry ο) : Prop where
  kept : ∀ o, e.outcome = some o → e.finished = true ∧ e.retainedBytes = cfg.encodedSize o ∧
    e.retainedBytes ≤ cfg.maxResultBytes
  dropped : e.outcome = none → e.retainedBytes = 0

def Entry.bytes (e : Entry ο) : ℤ := e.retainedBytes

theorem Entries.makeRoom_total (maxPerDevice turns : ℕ) (entries : Entries ο) :
    entries.total Entry.bytes = (entries.makeRoom maxPerDevice turns).entries.total Entry.bytes +
      retainedBytes ((entries.makeRoom maxPerDevice turns).evicted.map fun v =>
        (v.commandId, v.entry)) := by
  induction turns generalizing entries with
  | zero => simp [makeRoom, retainedBytes]
  | succ turns ih =>
    rw [makeRoom]
    split
    · simp [retainedBytes]
    · cases hold : entries.oldestFinished? with
      | none => simp [retainedBytes]
      | some ce =>
        have hget := Dict.get?_eq_some.mpr (List.mem_of_find?_eq_some hold)
        have hrest := ih (entries.erase ce.1)
        simp only [retainedBytes, List.map_cons, List.sum_cons] at hrest ⊢
        rw [Dict.total_erase ce.1, hrest, Dict.share, hget]
        simp only [Option.map_some, Option.getD_some, Entry.bytes]
        ring

namespace CommandLedger

structure Accounted (cfg : LedgerConfig ο) (l : CommandLedger ο) : Prop where
  retained : l.retained = l.total Entry.bytes
  room : l.retained ≤ cfg.maxTotalBytes
  sized : ∀ d c e, l.entryOf d c = some e → e.Sized cfg
  bounded : l.Bounded cfg

theorem retainedBytes_nonneg (removed : List (CommandId × Entry ο)) : 0 ≤ retainedBytes removed := by
  apply List.sum_nonneg
  intro n hn
  obtain ⟨ce, -, rfl⟩ := List.mem_map.mp hn
  exact Int.natCast_nonneg _

/-- Entries are taken out together with what they count. -/
theorem counted_withEntries {entries : Entries ο} {removed : List (CommandId × Entry ο)}
    (hl : l.retained = l.total Entry.bytes ∧ l.retained ≤ cfg.maxTotalBytes)
    (h : (l.entries d).total Entry.bytes = entries.total Entry.bytes + retainedBytes removed) :
    (l.withEntries d entries removed).retained =
      (l.withEntries d entries removed).total Entry.bytes ∧
    (l.withEntries d entries removed).retained ≤ cfg.maxTotalBytes := by
  have := retainedBytes_nonneg removed
  rw [total_withEntries, h, withEntries, ← hl.1]
  constructor
  · ring
  · exact (sub_le_self _ this).trans hl.2

theorem counted_begin (h : l.Accounted cfg) (t₁ t₂ : Seconds) (d : DeviceId) (c : CommandId)
    (fp : Fingerprint) : (l.begin cfg t₁ t₂ d c fp).ledger.retained =
      (l.begin cfg t₁ t₂ d c fp).ledger.total Entry.bytes ∧
    (l.begin cfg t₁ t₂ d c fp).ledger.retained ≤ cfg.maxTotalBytes := by
  have hexpired : (l.entries d).total Entry.bytes =
      ((l.entries d).withoutExpired (t₁ - cfg.ttl)).total Entry.bytes +
        retainedBytes ((l.entries d).expired (t₁ - cfg.ttl)) := by
    rw [Dict.total_filter fun _ e => !(e.finished && decide (e.startedAt < t₁ - cfg.ttl))]
    simp only [Bool.not_not]
    rfl
  have hleft := counted_withEntries ⟨h.retained, h.room⟩ hexpired
  unfold CommandLedger.begin
  simp only
  generalize (l.entries d).withoutExpired (t₁ - cfg.ttl) = entries at hleft ⊢
  cases hget : entries.get? c with
  | some entry => exact hleft
  | none =>
    have hmade := entries.makeRoom_total cfg.maxPerDevice entries.items.length
    have hspec := Entries.makeRoom_spec cfg.maxPerDevice entries.items.length entries
    generalize entries.makeRoom cfg.maxPerDevice entries.items.length = room at hmade hspec ⊢
    simp only
    split
    · apply counted_withEntries hleft
      have hnew : room.entries.get? c = none := by
        rw [hspec.rest, hget, ite_self]
      rw [entries_withEntries, if_pos rfl, hmade, Dict.total_set, Dict.share, hnew]
      simp [Entry.bytes]
    · apply counted_withEntries hleft
      rw [entries_withEntries, if_pos rfl, hmade]

theorem Accounted.begin (h : l.Accounted cfg) (t₁ t₂ : Seconds) (d : DeviceId) (c : CommandId)
    (fp : Fingerprint) : (l.begin cfg t₁ t₂ d c fp).ledger.Accounted cfg where
  retained := (counted_begin h t₁ t₂ d c fp).1
  room := (counted_begin h t₁ t₂ d c fp).2
  sized := by
    intro d' c' e he
    rw [(begin_spec cfg l t₁ t₂ d c fp).entry] at he
    split at he
    · obtain rfl := Option.some.inj he
      exact ⟨fun o ho => (by cases ho), fun _ => rfl⟩
    · split at he
      · cases he
      · exact h.sized d' c' e he
  bounded := h.bounded.begin t₁ t₂ fp

theorem Accounted.modifyEntry (h : l.Accounted cfg) {g : Entry ο → Entry ο} {n : ℤ}
    (hbytes : n = ((l.entryOf d c).map fun e => (g e).bytes - e.bytes).getD 0)
    (hroom : l.retained + n ≤ cfg.maxTotalBytes)
    (hsized : ∀ e, l.entryOf d c = some e → (g e).Sized cfg) :
    ((l.addRetained n).modifyEntry d c g).Accounted cfg where
  retained := by
    rw [total_modifyEntry, entryOf_addRetained, ← hbytes]
    exact congrArg (· + n) h.retained
  room := hroom
  sized := by
    intro d' c' e he
    rw [entryOf_modifyEntry] at he
    split at he
    · obtain ⟨e', he', rfl⟩ := Option.map_eq_some_iff.mp he
      exact hsized e' he'
    · exact h.sized d' c' e he
  bounded := Bounded.modifyEntry (l := l.addRetained n) h.bounded g

theorem Accounted.dropUntilFits (size turns : ℕ) (h : l.Accounted cfg) :
    (l.dropUntilFits cfg size turns).Accounted cfg := by
  induction turns generalizing l with
  | zero => exact h
  | succ turns ih =>
    rw [CommandLedger.dropUntilFits]
    split
    · exact h
    · cases hdrop : l.dropOldestOutcome with
      | none => exact h
      | some l' =>
        obtain ⟨o, ho, rfl⟩ := Option.map_eq_some_iff.mp hdrop
        obtain ⟨hentry, -⟩ := oldestOutcome_mem ho
        apply ih
        apply h.modifyEntry
        · simp [hentry, Entry.bytes]
        · have := h.room
          omega
        · exact fun e _ => ⟨fun o ho => (by cases ho), fun _ => rfl⟩

theorem Accounted.finish (h : l.Accounted cfg) (d : DeviceId) (c : CommandId) (outcome : ο) :
    (l.finish cfg d c outcome).Accounted cfg := by
  unfold CommandLedger.finish
  simp only
  cases he : l.entryOf d c with
  | none => exact h
  | some e =>
    simp only
    split
    · exact h
    rename_i hunfinished
    have hnone : e.outcome = none := by
      cases ho : e.outcome with
      | none => rfl
      | some o => exact absurd ((h.sized d c e he).kept o ho).1 hunfinished
    have hmarked : (l.modifyEntry d c fun e => { e with finished := true }).Accounted cfg := by
      have := h.modifyEntry (d := d) (c := c) (n := 0) (g := fun e => { e with finished := true })
        (by simp [he, Entry.bytes]) (by simpa using h.room)
      simp only [addRetained, add_zero] at this
      apply this
      intro e' he'
      have := h.sized d c e' he'
      exact ⟨fun o ho => ⟨rfl, (this.kept o ho).2⟩, this.dropped⟩
    split
    · exact hmarked
    rename_i hsize
    have hthin := thinned_dropUntilFits cfg (cfg.encodedSize outcome)
      (l.modifyEntry d c fun e => { e with finished := true }).allEntries.length
      (l.modifyEntry d c fun e => { e with finished := true })
    have hdropped := hmarked.dropUntilFits (cfg.encodedSize outcome)
      (l.modifyEntry d c fun e => { e with finished := true }).allEntries.length
    generalize CommandLedger.dropUntilFits cfg _ _ _ = l' at hthin hdropped ⊢
    split
    · rename_i hfits
      have hcore := hthin.core d c
      rw [entryOf_modifyEntry, if_pos ⟨rfl, rfl⟩, he] at hcore
      obtain ⟨e', he', hcore⟩ := Option.map_eq_some_iff.mp hcore
      have hnone' : e'.outcome = none := by
        cases ho : e'.outcome with
        | none => rfl
        | some o =>
          obtain ⟨e₁, he₁, ho₁⟩ := hthin.outcome d c e' o he' ho
          rw [entryOf_modifyEntry, if_pos ⟨rfl, rfl⟩, he] at he₁
          obtain rfl := Option.some.inj he₁
          cases hnone.symm.trans ho₁
      apply hdropped.modifyEntry
      · simp [he', Entry.bytes, (hdropped.sized d c e' he').dropped hnone']
      · exact of_decide_eq_true hfits
      · intro e₂ he₂
        cases he'.symm.trans he₂
        refine ⟨fun o ho => ⟨(Prod.mk.inj hcore).2, ?_, not_lt.mp hsize⟩, fun ho => by cases ho⟩
        rw [← Option.some.inj ho]
    · exact hdropped

theorem Accounted.forgetDevice (h : l.Accounted cfg) (d : DeviceId) :
    (l.forgetDevice d).Accounted cfg where
  retained := by
    have := Dict.total_erase (f := Dict.total Entry.bytes) (d := l.devices) d
    rw [share_entries] at this
    have hl := h.retained
    rw [total, this] at hl
    rw [CommandLedger.forgetDevice, total, hl]
    exact add_sub_cancel_right _ _
  room := by
    have := retainedBytes_nonneg (l.entries d).items
    have := h.room
    simp only [CommandLedger.forgetDevice]
    omega
  sized := by
    intro d' c e he
    rw [entryOf_forgetDevice] at he
    split at he
    · cases he
    · exact h.sized d' c e he
  bounded := h.bounded.forgetDevice d

end CommandLedger

/-- A call on the ledger, with what the clock says in it. -/
inductive LedgerCall (ο : Type) where
  | begin (expiryNow startNow : Seconds) (d : DeviceId) (c : CommandId) (fingerprint : Fingerprint)
  | finish (d : DeviceId) (c : CommandId) (outcome : ο)
  | forgetDevice (d : DeviceId)

def CommandLedger.call (cfg : LedgerConfig ο) (l : CommandLedger ο) : LedgerCall ο → CommandLedger ο
  | .begin t₁ t₂ d c fp => (l.begin cfg t₁ t₂ d c fp).ledger
  | .finish d c outcome => l.finish cfg d c outcome
  | .forgetDevice d => l.forgetDevice d

theorem CommandLedger.accounted_calls (calls : List (LedgerCall ο)) :
    (calls.foldl (call cfg) empty).Accounted cfg := by
  have hempty : (empty : CommandLedger ο).Accounted cfg :=
    ⟨rfl, Int.natCast_nonneg _, fun d c e he => (by cases he), fun d => Nat.zero_le _⟩
  apply List.foldlRecOn (motive := Accounted cfg) _ _ hempty
  intro l hl a _
  cases a with
  | begin t₁ t₂ d c fp => exact hl.begin t₁ t₂ d c fp
  | finish d c outcome => exact hl.finish d c outcome
  | forgetDevice d => exact hl.forgetDevice d

/-- The loop that evicts ends because there is room, or no entry that is finished. -/
theorem Entries.makeRoom_ended (maxPerDevice turns : ℕ) (entries : Entries ο)
    (h : entries.items.length ≤ turns) :
    if (entries.makeRoom maxPerDevice turns).free
    then (entries.makeRoom maxPerDevice turns).entries.items.length < maxPerDevice
    else maxPerDevice ≤ (entries.makeRoom maxPerDevice turns).entries.items.length ∧
      (entries.makeRoom maxPerDevice turns).entries.oldestFinished? = none := by
  induction turns generalizing entries with
  | zero =>
    have hnil : entries.items = [] := List.length_eq_zero_iff.mp (Nat.le_zero.mp h)
    simp only [makeRoom, decide_eq_true_eq]
    split
    · assumption
    · rename_i hfull
      exact ⟨not_lt.mp hfull, by rw [oldestFinished?, hnil, List.find?_nil]⟩
  | succ turns ih =>
    rw [makeRoom]
    split
    · simpa
    · rename_i hfull
      cases hold : entries.oldestFinished? with
      | none => exact ⟨not_lt.mp hfull, hold⟩
      | some ce =>
        apply ih
        have hmem := List.mem_of_find?_eq_some hold
        have : (entries.erase ce.1).items.length < entries.items.length :=
          List.length_filter_lt_length_iff_exists.mpr ⟨ce, hmem, by simp⟩
        omega

/-- The counter is the size of what is kept in every state, and both loops end on their own. -/
theorem ledger_accounted (cfg : LedgerConfig ο) :
    (∀ calls : List (LedgerCall ο), let l := calls.foldl (CommandLedger.call cfg) .empty
      l.retained = (l.allEntries.map fun x => (x.2.2.retainedBytes : ℤ)).sum ∧
      0 ≤ l.retained ∧ l.retained ≤ cfg.maxTotalBytes ∧
      (∀ x ∈ l.allEntries, (∀ o, x.2.2.outcome = some o →
        x.2.2.retainedBytes = cfg.encodedSize o ∧ x.2.2.retainedBytes ≤ cfg.maxResultBytes) ∧
        (x.2.2.outcome = none → x.2.2.retainedBytes = 0)) ∧
      ∀ d, (l.entries d).items.length ≤ cfg.maxPerDevice) ∧
    (∀ entries : Entries ο,
      let room := entries.makeRoom cfg.maxPerDevice entries.items.length
      if room.free then room.entries.items.length < cfg.maxPerDevice
      else cfg.maxPerDevice ≤ room.entries.items.length ∧ room.entries.oldestFinished? = none) ∧
    ∀ (l : CommandLedger ο) (size : ℕ),
      let l' := l.dropUntilFits cfg size l.allEntries.length
      l'.fits cfg size = true ∨ l'.dropOldestOutcome = none := by
  refine ⟨fun calls => ?_, fun entries => entries.makeRoom_ended _ _ le_rfl,
    fun l size => CommandLedger.dropUntilFits_ended _ _ l l.kept_le⟩
  have h := @CommandLedger.accounted_calls _ cfg calls
  generalize calls.foldl (CommandLedger.call cfg) .empty = l at h ⊢
  have hsum := h.retained
  rw [CommandLedger.total_eq] at hsum
  refine ⟨hsum, ?_, h.room, ?_, h.bounded⟩
  · rw [h.retained]
    exact CommandLedger.total_nonneg fun _ => Int.natCast_nonneg _
  · intro x hx
    have hsized := h.sized _ _ _ (CommandLedger.entryOf_of_mem hx)
    exact ⟨fun o ho => (hsized.kept o ho).2, hsized.dropped⟩

end QronosAgent.Link

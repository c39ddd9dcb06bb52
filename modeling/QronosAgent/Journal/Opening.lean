import QronosAgent.Lib.Machine
import QronosAgent.Journal.Runs

/-! What `open` makes of a file it accepts: the table of the recovered records, in the order
they were submitted. -/
namespace QronosAgent.Journal
open Lib

variable {F : Type}

/-- The records of the table after `open` filled it. -/
theorem foldl_set_get? {rs : List (QueueRecord F)} {d : Dict PyStr (QueueRecord F)} {k : PyStr}
    {r : QueueRecord F} (h : (rs.foldl (fun d r => d.set r.taskId r) d).get? k = some r) :
    (r ∈ rs ∧ r.taskId = k) ∨ d.get? k = some r := by
  rcases Dict.get?_foldl_set (V := QueueRecord F) h with ⟨q, hq, hk, rfl⟩ | h
  · exact .inl ⟨hq, hk⟩
  · exact .inr h

theorem foldl_set_values {rs : List (QueueRecord F)} (h : (rs.map QueueRecord.taskId).Nodup) :
    (rs.foldl (fun d r => d.set r.taskId r) Dict.empty).values = rs := by
  have hitems := Dict.items_foldl_set (d := Dict.empty) QueueRecord.taskId id h
  simp only [id_eq] at hitems
  rw [Dict.values, hitems]
  simp [Dict.empty, Function.comp_def]

theorem recover_taskId (answered : PyStr → Bool) (now : F) (r : QueueRecord F) :
    (Session.recover answered now r).taskId = r.taskId := by
  unfold Session.recover Session.settle Session.scrub
  split_ifs <;> rfl

theorem recover_submittedAt (answered : PyStr → Bool) (now : F) (r : QueueRecord F) :
    (Session.recover answered now r).submittedAt = r.submittedAt := by
  unfold Session.recover Session.settle Session.scrub
  split_ifs <;> rfl

/-- Nothing to do for a record: it keeps nothing it should not, it was not answered early and
it was not running. -/
theorem recover_eq_self {answered : PyStr → Bool} {now : F} {r : QueueRecord F}
    (hk : Session.keptRequest r = false) (ha : Session.isAnswered answered r = false)
    (hi : Session.isInterrupted answered r = false) : Session.recover answered now r = r := by
  have hrun : r.state ≠ .running := by
    intro h
    simp [Session.isInterrupted, ha, h] at hi
  simp [Session.recover, Session.settle, Session.scrub, hk, ha, hrun]

def NeedsRewrite (answered : PyStr → Bool) (records : List (QueueRecord F)) : Prop :=
  ∃ r ∈ records, Session.keptRequest r = true ∨ Session.isAnswered answered r = true ∨
    Session.isInterrupted answered r = true

theorem recover_of_not_needsRewrite {answered : PyStr → Bool} {records : List (QueueRecord F)}
    (now : F) (h : ¬NeedsRewrite answered records) :
    records.map (Session.recover answered now) = records := by
  have hself : ∀ r ∈ records, Session.recover answered now r = r := by
    intro r hr
    have hnone : ¬(Session.keptRequest r = true ∨ Session.isAnswered answered r = true ∨
        Session.isInterrupted answered r = true) := fun hp => h ⟨r, hr, hp⟩
    simp only [not_or, Bool.not_eq_true] at hnone
    exact recover_eq_self hnone.1 hnone.2.1 hnone.2.2
  exact (List.map_congr_left hself).trans (List.map_id' records)

/-- The queue has no migrations, so what it reads back was written by its own version. -/
theorem check_migrated {raw : Json F} {d : StoredDocument F}
    (h : (queueStore F).check raw = .ok d) : d.migrated = false := by
  unfold JsonStore.check at h
  split at h
  · split at h
    · cases h
    · rename_i version _
      split at h
      · split at h
        · cases h
        · rename_i payload _ hnew
          split at h
          · rw [← Except.ok.inj h]
          · rename_i hold
            simp only [queueStore] at hnew hold
            obtain ⟨n, hn⟩ : ∃ n, (1 - version).toNat = n + 1 :=
              ⟨(1 - version).toNat - 1, by omega⟩
            have hmissing : (queueStore F).migrate ((queueStore F).version - version).toNat version
                payload = .error .migrationMissing := by
              simp [queueStore, hn, JsonStore.migrate]
            rw [hmissing] at h
            exact absurd h (by simp [Except.map])
      · cases h
  · cases h

section
variable [PyFloat F]

theorem wellFormed_of_mapM {raws : List (Json F)} {rs : List (QueueRecord F)}
    (h : raws.mapM QueueRecord.fromPayload = .ok rs) : ∀ r ∈ rs, r.WellFormed := by
  induction raws generalizing rs with
  | nil =>
    simp only [List.mapM_nil, pure, Except.pure, Except.ok.injEq] at h
    simp [← h]
  | cons raw raws ih =>
    rw [List.mapM_cons] at h
    obtain ⟨q, hq, h⟩ := QueueRecord.ok_of_bind h
    obtain ⟨qs, hqs, h⟩ := QueueRecord.ok_of_bind h
    simp only [pure, Except.pure, Except.ok.injEq] at h
    rw [← h]
    intro r hr
    rcases List.mem_cons.mp hr with rfl | hr
    · exact QueueRecord.wellFormed_of_fromPayload hq
    · exact ih hqs r hr

/-- The records `_parse` returns are distinct, in order and well formed. -/
theorem parse_sorted {payload : Members F} {records : List (QueueRecord F)} {paused : Bool}
    (h : Session.parse payload = .ok (records, paused)) :
    (records.map QueueRecord.taskId).Nodup ∧
      sortedBy PyFloat.lt QueueRecord.submittedAt records = records ∧
      ∀ r ∈ records, r.WellFormed := by
  unfold Session.parse at h
  split at h
  · rename_i raws _ _ _
    obtain ⟨rs, hrs, h⟩ := QueueRecord.ok_of_bind h
    split at h
    · rename_i hnodup
      simp only [pure, Except.pure, Except.ok.injEq, Prod.mk.injEq] at h
      rw [← h.1]
      refine ⟨?_, sortedBy_idem PyFloat.lt_asymm rs, ?_⟩
      · exact ((sortedBy_perm rs).map _).nodup_iff.mpr hnodup
      · intro r hr
        rw [mem_sortedBy] at hr
        exact wellFormed_of_mapM hrs r hr
    · cases h
  · cases h

/-- The file is absent, or `open` accepts it. -/
def ValidFile (F : Type) [PyFloat F] (plat : Platform) (file : Option ByteArray) : Prop :=
  file = none ∨ ∃ d : StoredDocument F,
    (queueStore F).load plat false file = .ok (some d) ∧ ∃ p, Session.parse d.payload = .ok p

/-- The journal that `accept` is about to save or return. -/
def recoveredJournal (j : QueueJournal F) (answered : PyStr → Bool) (now : F)
    (records : List (QueueRecord F)) (paused : Bool) : QueueJournal F :=
  { j with
    records := (records.map (Session.recover answered now)).foldl (fun d r => d.set r.taskId r)
      j.records
    paused
    status := .saved }

theorem recoveredJournal_sorted {j : QueueJournal F} (answered : PyStr → Bool) (now : F)
    {records : List (QueueRecord F)} {payload : Members F} {paused : Bool}
    (hj : j.records = .empty) (h : Session.parse payload = .ok (records, paused)) :
    (recoveredJournal j answered now records paused).sortedRecords =
      records.map (Session.recover answered now) := by
  obtain ⟨hnodup, hsorted, -⟩ := parse_sorted h
  have hids : ((records.map (Session.recover answered now)).map QueueRecord.taskId).Nodup := by
    rw [List.map_map]
    simpa only [Function.comp_def, recover_taskId] using hnodup
  rw [QueueJournal.sortedRecords, recoveredJournal, hj, foldl_set_values hids,
    sortedBy_map (recover_submittedAt answered now), hsorted]

/-- `accept` saves the recovered journal when it changed a record, and returns its records
unless that save raises. -/
theorem accept_spec (plat : Platform) (fault : SaveFault) (answered : PyStr → Bool) (now : F)
    (records : List (QueueRecord F)) (paused : Bool) (s : Session F) :
    let j := recoveredJournal s.journal answered now records paused
    let result : Recovered F := ⟨j.sortedRecords, paused,
      (records.filter (Session.isInterrupted answered)).map QueueRecord.taskId,
      (records.filter (Session.isAnswered answered)).map QueueRecord.taskId⟩
    (NeedsRewrite answered records ∧ Session.accept plat fault answered now records paused false s =
      Session.saveAndReturn plat fault result ⟨j, s.file⟩) ∨
    (¬NeedsRewrite answered records ∧
      Session.accept plat fault answered now records paused false s = (.ok result, ⟨j, s.file⟩)) := by
  intro j result
  have hneeds : NeedsRewrite answered records ↔
      ((records.filter (Session.isInterrupted answered)).map QueueRecord.taskId ≠ [] ∨
        (records.filter (Session.isAnswered answered)).map QueueRecord.taskId ≠ [] ∨
        records.any Session.keptRequest = true ∨ false = true) := by
    simp only [NeedsRewrite, ne_eq, List.map_eq_nil_iff, List.filter_eq_nil_iff, not_forall,
      not_not, List.any_eq_true, Bool.false_eq_true, or_false]
    constructor
    · rintro ⟨r, hr, h | h | h⟩
      · exact .inr (.inr ⟨r, hr, h⟩)
      · exact .inr (.inl ⟨r, hr, h⟩)
      · exact .inl ⟨r, hr, h⟩
    · rintro (⟨r, hr, h⟩ | ⟨r, hr, h⟩ | ⟨r, hr, h⟩)
      · exact ⟨r, hr, .inr (.inr h)⟩
      · exact ⟨r, hr, .inr (.inl h)⟩
      · exact ⟨r, hr, .inl h⟩
  by_cases h : NeedsRewrite answered records
  · left
    refine ⟨h, ?_⟩
    rw [hneeds] at h
    exact if_pos h
  · right
    refine ⟨h, ?_⟩
    rw [hneeds] at h
    exact if_neg h

structure Unopened (j : QueueJournal F) : Prop where
  opened : j.opened = false
  persistent : j.persistent = true
  records : j.records = .empty
  paused : j.paused = false
  status : j.status.durable = false ∧ j.status.problem = none

theorem load_migrated {plat : Platform} {file : Option ByteArray} {d : StoredDocument F}
    (h : (queueStore F).load plat false file = .ok (some d)) : d.migrated = false := by
  unfold JsonStore.load at h
  split at h
  · cases h
  · cases h
  · rename_i raw _
    cases hc : (queueStore F).check raw with
    | error e =>
      rw [hc] at h
      exact absurd h (by simp [Except.map])
    | ok d' =>
      rw [hc] at h
      simp only [Except.map, Except.ok.injEq, Option.some.injEq] at h
      rw [← h]
      exact check_migrated hc

/-- `open` on an absent file writes the empty queue; on a valid one it accepts the records. -/
theorem openQueue_valid {plat : Platform} {s : Session F} (hs : Unopened s.journal)
    (hfile : ValidFile F plat s.file) (fault : SaveFault) (answered : PyStr → Bool) (now : F) :
    let s' : Session F := ⟨{ s.journal with opened := true }, s.file⟩
    (s.file = none ∧ s.openQueue plat false fault answered now =
      Session.saveAndReturn plat fault ⟨[], false, [], []⟩ s') ∨
    ∃ d records paused, (queueStore F).load plat false s.file = .ok (some d) ∧
      Session.parse d.payload = .ok (records, paused) ∧
      s.openQueue plat false fault answered now =
        Session.accept plat fault answered now records paused false s' := by
  intro s'
  unfold Session.openQueue
  simp only [hs.opened, hs.persistent, Bool.false_eq_true, if_false, Bool.not_true]
  rcases hfile with hnone | ⟨d, hd, ⟨records, paused⟩, hp⟩
  · left
    refine ⟨hnone, ?_⟩
    have hload : (queueStore F).load plat false s.file = .ok none := by
      rw [hnone]
      rfl
    rw [hload]
    exact congrArg (Session.saveAndReturn plat fault _) (by simp [s', hs.persistent])
  · right
    refine ⟨d, records, paused, hd, hp, ?_⟩
    rw [hd]
    simp only [hp, load_migrated hd]
    exact congrArg (Session.accept plat fault answered now records paused false)
      (by simp [s', hs.persistent])

theorem saveAndReturn_session (plat : Platform) (fault : SaveFault) (recovered : Recovered F)
    (s : Session F) : (s.saveAndReturn plat fault recovered).2 = (s.save plat fault).2 := by
  unfold Session.saveAndReturn
  split <;> simp_all

/-- After `open` the table is as before, or holds the recovered records of the file. -/
theorem openQueue_table (plat : Platform) (readFault : Bool) (fault : SaveFault)
    (answered : PyStr → Bool) (now : F) (s : Session F) :
    let j := (s.openQueue plat readFault fault answered now).2.journal
    j.opened = true ∧ (j.records = s.journal.records ∨
      ∃ payload records paused, Session.parse payload = .ok (records, paused) ∧
        j.records = (recoveredJournal s.journal answered now records paused).records) := by
  have hsave : ∀ (recovered : Recovered F) (t : Session F),
      (t.saveAndReturn plat fault recovered).2.journal.opened = t.journal.opened ∧
        (t.saveAndReturn plat fault recovered).2.journal.records = t.journal.records := by
    intro recovered t
    rw [saveAndReturn_session]
    obtain ⟨status, h⟩ := Session.save_journal plat fault t
    rw [h]
    exact ⟨rfl, rfl⟩
  unfold Session.openQueue
  split
  · rename_i hopened
    exact ⟨hopened, .inl rfl⟩
  · simp only
    split
    · exact ⟨rfl, .inl rfl⟩
    · split
      any_goals exact ⟨rfl, .inl rfl⟩
      · exact ⟨(hsave _ _).1, .inl (hsave _ _).2⟩
      · rename_i d _
        split
        · exact ⟨rfl, .inl rfl⟩
        · exact ⟨rfl, .inl rfl⟩
        · rename_i records paused hparse
          unfold Session.accept
          simp only
          split
          · exact ⟨(hsave _ _).1, .inr ⟨d.payload, records, paused, hparse, (hsave _ _).2⟩⟩
          · exact ⟨rfl, .inr ⟨d.payload, records, paused, hparse, rfl⟩⟩

/-! The machine: `open` once, then any calls. -/

inductive JournalCall (F : Type) where
  | openQueue (readFault : Bool) (fault : SaveFault) (answered : PyStr → Bool) (now : F)
  | op (op : JournalOp F)

/-- A journal that is opened before anything else is asked of it, over one of `files`. -/
def journalMachine (F : Type) [PyFloat F] (plat : Platform)
    (files : Option ByteArray → Prop) : Machine (Session F) (JournalCall F) where
  start s := Unopened s.journal ∧ files s.file
  step s call :=
    match call with
    | .openQueue readFault fault answered now =>
      if s.journal.opened then none
      else some (s.openQueue plat readFault fault answered now).2
    | .op op => if s.journal.opened then some (s.step plat op) else none

theorem reach_open {plat : Platform} {files : Option ByteArray → Prop}
    {ok : Session F → JournalCall F → Prop} {s : Session F} {readFault : Bool}
    {fault : SaveFault} {answered : PyStr → Bool} {now : F}
    (hr : (journalMachine F plat files).Reach ok s) (hopen : s.journal.opened = false)
    (hok : ok s (.openQueue readFault fault answered now)) :
    (journalMachine F plat files).Reach ok (s.openQueue plat readFault fault answered now).2 :=
  .step hr hok (if_neg (by simp [hopen]))

theorem reach_op {plat : Platform} {files : Option ByteArray → Prop}
    {ok : Session F → JournalCall F → Prop} {s : Session F} {op : JournalOp F}
    (hr : (journalMachine F plat files).Reach ok s) (hopen : s.journal.opened = true)
    (hok : ok s (.op op)) : (journalMachine F plat files).Reach ok (s.step plat op) :=
  .step hr hok (if_pos hopen)

end
end QronosAgent.Journal

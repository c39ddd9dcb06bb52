import QronosAgent.Journal.Opening

/-! What `status().durable` promises over whole runs: the file holds the state in memory. It
does as long as everything that enters the journal can be written as UTF-8 text. -/
namespace QronosAgent.Journal
open Lib

variable {F : Type}

structure QueueRecord.Printable (plat : Platform) (r : QueueRecord F) : Prop where
  taskId : PyStr.Encodable r.taskId
  requestId : PyStr.Encodable r.requestId
  summary : PyStr.Encodable r.summary
  route : PyStr.Encodable r.route
  weight : PyStr.Encodable r.weight
  detail : PyStr.Encodable r.detail
  text : PyStr.Encodable r.text
  context : ∀ item ∈ r.context, PyStr.Encodable item.1 ∧ PyStr.Encodable item.2
  requiredVramMb : (natText r.requiredVramMb.natAbs).length ≤ plat.limits.intDigits
  attempts : (natText r.attempts.natAbs).length ≤ plat.limits.intDigits

theorem encodable_charsItems {xs : List (Json F)} :
    PyStr.Encodable (Json.charsItems xs) ↔ ∀ x ∈ xs, PyStr.Encodable x.chars := by
  induction xs with
  | nil => simp [Json.charsItems]
  | cons x xs ih => simp [Json.charsItems, PyStr.encodable_append, ih]

theorem intsFitItems_iff {digits : ℕ} {xs : List (Json F)} :
    Json.intsFitItems digits xs = true ↔ ∀ x ∈ xs, x.intsFit digits = true := by
  induction xs with
  | nil => simp [Json.intsFitItems]
  | cons x xs ih => simp [Json.intsFitItems, ih]

theorem RecordState.encodable_value (st : RecordState) : PyStr.Encodable st.value := by
  cases st <;> exact PyStr.encodable_py _

theorem QueueRecord.printable_iff {plat : Platform} {r : QueueRecord F} : r.Printable plat ↔
    PyStr.Encodable r.toPayload.chars ∧ r.toPayload.intsFit plat.limits.intDigits = true := by
  have hitems : PyStr.Encodable (Json.charsItems (r.context.map (contextItem (F := F)))) ↔
      ∀ item ∈ r.context, PyStr.Encodable item.1 ∧ PyStr.Encodable item.2 := by
    rw [encodable_charsItems, List.forall_mem_map]
    simp [contextItem, Json.chars, Json.charsMembers, PyStr.encodable_append, PyStr.encodable_py]
  have hcontext : Json.intsFitItems plat.limits.intDigits
      (r.context.map (contextItem (F := F))) = true := by
    rw [intsFitItems_iff, List.forall_mem_map]
    simp [contextItem, Json.intsFit, Json.intsFitMembers]
  have hchars : PyStr.Encodable r.toPayload.chars ↔
      PyStr.Encodable r.taskId ∧ PyStr.Encodable r.requestId ∧ PyStr.Encodable r.summary ∧
        PyStr.Encodable r.route ∧ PyStr.Encodable r.weight ∧ PyStr.Encodable r.detail ∧
        PyStr.Encodable r.text ∧
        ∀ item ∈ r.context, PyStr.Encodable item.1 ∧ PyStr.Encodable item.2 := by
    simp only [toPayload, members, Json.chars, Json.charsMembers, PyStr.encodable_append,
      PyStr.encodable_py, PyStr.encodable_nil, RecordState.encodable_value, hitems, true_and,
      and_true]
  have hints : r.toPayload.intsFit plat.limits.intDigits = true ↔
      (natText r.requiredVramMb.natAbs).length ≤ plat.limits.intDigits ∧
        (natText r.attempts.natAbs).length ≤ plat.limits.intDigits := by
    simp only [toPayload, members, Json.intsFit, Json.intsFitMembers, Bool.true_and,
      Bool.and_true, Bool.and_eq_true, decide_eq_true_eq, hcontext]
  rw [hchars, hints]
  constructor
  · rintro ⟨h1, h2, h3, h4, h5, h6, h7, h8, h9, h10⟩
    exact ⟨⟨h1, h2, h3, h4, h5, h6, h7, h8⟩, h9, h10⟩
  · rintro ⟨⟨h1, h2, h3, h4, h5, h6, h7, h8⟩, h9, h10⟩
    exact ⟨h1, h2, h3, h4, h5, h6, h7, h8, h9, h10⟩

theorem one_short (plat : Platform) : (natText 1).length ≤ plat.limits.intDigits := by
  have h640 := plat.digits
  have hone : (natText 1).length = 1 := by decide
  omega

def JournalOp.Printable (plat : Platform) : JournalOp F → Prop
  | .add r _ => r.Printable plat
  | .update _ _ attempts detail _ _ =>
    (∀ n, attempts = some n → (natText n.natAbs).length ≤ plat.limits.intDigits) ∧
      ∀ d, detail = some d → PyStr.Encodable d
  | .setPaused _ _ | .startBlocker _ => True

theorem printable_finish {plat : Platform} {r : QueueRecord F} (h : r.Printable plat) {state : RecordState}
    {detail : PyStr} {now : F} (hd : PyStr.Encodable detail) :
    (r.finish state detail now).Printable plat :=
  ⟨h.taskId, h.requestId, PyStr.encodable_nil, h.route, h.weight, hd, PyStr.encodable_nil,
    by simp [QueueRecord.finish], h.requiredVramMb, h.attempts⟩

theorem encodable_interruptedDetail : PyStr.Encodable Session.interruptedDetail :=
  PyStr.encodable_append.mpr ⟨PyStr.encodable_py _, PyStr.encodable_py _⟩

theorem printable_recover {plat : Platform} {r : QueueRecord F} (h : r.Printable plat) (answered : PyStr → Bool)
    (now : F) : (Session.recover answered now r).Printable plat := by
  have hscrub : (Session.scrub r).Printable plat := by
    unfold Session.scrub
    split
    · exact printable_finish h h.detail
    · exact h
  unfold Session.recover Session.settle
  split
  · exact printable_finish hscrub (PyStr.encodable_py _)
  · split
    · exact ⟨hscrub.taskId, hscrub.requestId, hscrub.summary, hscrub.route, hscrub.weight,
        encodable_interruptedDetail, hscrub.text, hscrub.context, hscrub.requiredVramMb, hscrub.attempts⟩
    · exact hscrub

theorem brings_of_printable {plat : Platform} {op : JournalOp F} (h : op.Printable plat) :
    op.Brings (QueueRecord.Printable plat) := by
  cases op with
  | add r fault => exact h
  | update taskId state attempts detail now fault =>
    intro r hr _
    have ha : (natText (attempts.getD r.attempts).natAbs).length ≤ plat.limits.intDigits := by
      cases attempts with
      | none => exact hr.attempts
      | some n => exact h.1 n rfl
    have hd : PyStr.Encodable (detail.getD r.detail) := by
      cases detail with
      | none => exact hr.detail
      | some d => exact h.2 d rfl
    unfold Session.updated
    split
    · exact ⟨hr.taskId, hr.requestId, PyStr.encodable_nil, hr.route, hr.weight, hd,
        PyStr.encodable_nil, by simp [QueueRecord.finish], hr.requiredVramMb, ha⟩
    · exact ⟨hr.taskId, hr.requestId, hr.summary, hr.route, hr.weight, hd, hr.text, hr.context,
        hr.requiredVramMb, ha⟩
  | setPaused paused fault => trivial
  | startBlocker fault => trivial

section
variable [PyFloat F] {plat : Platform} {j : QueueJournal F}

theorem encode_of_printable (h : j.AllRecords (QueueRecord.Printable plat)) :
    ∃ bytes, (queueStore F).encode plat j.payload = .ok bytes := by
  have hrecords : ∀ r ∈ j.sortedRecords, r.Printable plat := by
    intro r hr
    obtain ⟨k, hk⟩ := Dict.mem_values.mp (mem_sortedBy.mp hr)
    exact (h k r hk).2
  rw [JsonStore.encode_ok]
  constructor
  · have hitems : Json.intsFitItems plat.limits.intDigits
        (j.sortedRecords.map QueueRecord.toPayload) = true := by
      rw [intsFitItems_iff]
      intro x hx
      obtain ⟨r, hr, rfl⟩ := List.mem_map.mp hx
      exact (QueueRecord.printable_iff.mp (hrecords r hr)).2
    have hone := one_short plat
    simp only [JsonStore.document, queueStore, QueueJournal.payload, Json.intsFit,
      Json.intsFitMembers, hitems, Bool.and_true, decide_eq_true_eq]
    exact hone
  · have hitems : PyStr.Encodable
        (Json.charsItems (j.sortedRecords.map QueueRecord.toPayload)) := by
      rw [encodable_charsItems]
      intro x hx
      obtain ⟨r, hr, rfl⟩ := List.mem_map.mp hx
      exact (QueueRecord.printable_iff.mp (hrecords r hr)).1
    simp only [JsonStore.document, QueueJournal.payload, Json.chars, Json.charsMembers,
      PyStr.encodable_append, PyStr.encodable_py, PyStr.encodable_nil, hitems, and_self]

/-- The file is what `save` writes for the journal as it is now, or reads back as exactly its
records and paused flag. -/
def FileHolds (plat : Platform) (s : Session F) : Prop :=
  ∃ bytes, s.file = some bytes ∧
    ((queueStore F).encode plat s.journal.payload = .ok bytes ∨
      ∃ d, (queueStore F).load plat false (some bytes) = .ok (some d) ∧
        Session.parse d.payload = .ok (s.journal.sortedRecords, s.journal.paused))

/-- The same of the records that `open` reads, from a file that the disk hands over. -/
def PrintableCall (plat : Platform) (s : Session F) : JournalCall F → Prop
  | .openQueue readFault _ _ _ => readFault = false ∧
    ∀ d records paused, (queueStore F).load plat false s.file = .ok (some d) →
      Session.parse d.payload = .ok (records, paused) → ∀ r ∈ records, r.Printable plat
  | .op op => op.Printable plat

/-- The journal saves to its file, its records can be written, and it is durable only while
the file holds them. -/
structure DurableInv (plat : Platform) (s : Session F) : Prop where
  persistent : s.journal.persistent = true
  unprotected : s.journal.isProtected = false
  printable : s.journal.AllRecords (QueueRecord.Printable plat)
  holds : s.journal.status.durable = true → FileHolds plat s

/-- Saving keeps the invariant whatever the file held before. -/
theorem durableInv_save {s : Session F} (fault : SaveFault) (hp : s.journal.persistent = true)
    (hq : s.journal.isProtected = false)
    (hr : s.journal.AllRecords (QueueRecord.Printable plat)) :
    DurableInv plat (s.save plat fault).2 := by
  rcases Session.save_cases plat fault hp hq with
    ⟨bytes, hb, h⟩ | ⟨name, file, h, -⟩ | ⟨e, he, -⟩
  · rw [h]
    exact ⟨hp, rfl, hr, fun _ => ⟨bytes, rfl, .inl hb⟩⟩
  · rw [h]
    exact ⟨hp, rfl, hr, fun hd => absurd hd (by simp [Session.unwritable])⟩
  · obtain ⟨bytes, hb⟩ := encode_of_printable hr
    rw [hb] at he
    cases he

theorem durableInv_step {s : Session F} {op : JournalOp F} (h : DurableInv plat s)
    (hop : op.Printable plat) : DurableInv plat (s.step plat op) := by
  rw [Session.step_eq]
  split
  · exact h
  · rename_i j hj
    obtain ⟨hp, hst, -⟩ := Session.change_keeps hj
    have hq : j.isProtected = false := by
      rw [QueueJournal.isProtected, hst]
      exact h.unprotected
    exact durableInv_save (s := ⟨j, s.file⟩) op.fault (hp.trans h.persistent) hq
      (AllRecords.change h.printable (brings_of_printable hop) hj)

theorem durableInv_open {s : Session F} (hs : Unopened s.journal)
    (hfile : ValidFile F plat s.file) {fault : SaveFault} {answered : PyStr → Bool} {now : F}
    (hok : PrintableCall plat s (.openQueue false fault answered now)) :
    DurableInv plat (s.openQueue plat false fault answered now).2 := by
  rcases openQueue_valid hs hfile fault answered now with
    ⟨-, h⟩ | ⟨d, records, paused, hd, hparse, h⟩
  · rw [h, saveAndReturn_session]
    refine durableInv_save fault hs.persistent ?_ ?_
    · simp [QueueJournal.isProtected, hs.status.2]
    · intro k r hr
      simp [hs.records] at hr
  · have hprintable := hok.2 d records paused hd hparse
    let s' : Session F := ⟨{ s.journal with opened := true }, s.file⟩
    let j := recoveredJournal s'.journal answered now records paused
    have hall : j.AllRecords (QueueRecord.Printable plat) := by
      intro k r hr
      rcases foldl_set_get? hr with ⟨hm, hk⟩ | hnone
      · obtain ⟨q, hq, rfl⟩ := List.mem_map.mp hm
        exact ⟨hk, printable_recover (hprintable q hq) answered now⟩
      · simp [s', hs.records] at hnone
    rcases accept_spec plat fault answered now records paused s' with ⟨-, ha⟩ | ⟨hn, ha⟩
    · rw [h, ha, saveAndReturn_session]
      exact durableInv_save (s := ⟨j, s'.file⟩) fault hs.persistent rfl hall
    · rw [h, ha]
      refine ⟨hs.persistent, rfl, hall, fun _ => ?_⟩
      have hsorted : j.sortedRecords = records :=
        (recoveredJournal_sorted (j := s'.journal) answered now hs.records hparse).trans
          (recover_of_not_needsRewrite now hn)
      obtain ⟨bytes, hbytes⟩ : ∃ bytes, s.file = some bytes := by
        cases hf : s.file with
        | none =>
          rw [hf] at hd
          exact absurd hd (by simp [JsonStore.load, JsonStore.readRaw])
        | some bytes => exact ⟨bytes, rfl⟩
      refine ⟨bytes, hbytes, .inr ⟨d, by rw [← hbytes]; exact hd, ?_⟩⟩
      change Session.parse d.payload = .ok (j.sortedRecords, paused)
      rw [hsorted, hparse]

/-- Before `open` nothing is claimed; after it the invariant holds. -/
def DurableState (plat : Platform) (s : Session F) : Prop :=
  (Unopened s.journal ∧ ValidFile F plat s.file) ∨
    (s.journal.opened = true ∧ DurableInv plat s)

theorem durableState_reach {s : Session F}
    (hr : (journalMachine F plat (ValidFile F plat)).Reach (PrintableCall plat) s) : DurableState plat s := by
  refine Machine.Reach.invariant (fun s hs => .inl hs) ?_ hr
  intro s call s' hI hok hstep
  cases call with
  | openQueue readFault fault answered now =>
    obtain ⟨rfl, hprint⟩ := hok
    simp only [journalMachine] at hstep
    split at hstep
    · cases hstep
    · rename_i hopened
      rcases hI with ⟨hs, hfile⟩ | ⟨hopen, -⟩
      · cases hstep
        exact .inr ⟨(openQueue_table plat false fault answered now s).1,
          durableInv_open hs hfile ⟨rfl, hprint⟩⟩
      · exact absurd hopen hopened
  | op op =>
    simp only [journalMachine] at hstep
    split at hstep
    · rename_i hopened
      rcases hI with ⟨hs, -⟩ | ⟨hopen, hinv⟩
      · cases hs.opened.symm.trans hopened
      · cases hstep
        exact .inr ⟨(Session.step_opened plat s op).trans hopen, durableInv_step hinv hok⟩
    · cases hstep

/-- In every state a run reaches whose calls bring in only what can be written: a journal that
calls itself durable is what its file holds, and the next change the system lets it save makes
everything durable. -/
theorem durable_holds_file {s : Session F}
    (hr : (journalMachine F plat (ValidFile F plat)).Reach (PrintableCall plat) s) :
    (s.journal.status.durable = true → FileHolds plat s) ∧
      ∀ op : JournalOp F, s.journal.opened = true → op.Printable plat → op.fault = .none →
        (op.change s.journal).isSome →
        (s.step plat op).journal.status.durable = true ∧ FileHolds plat (s.step plat op) := by
  rcases durableState_reach hr with ⟨hs, -⟩ | ⟨-, hinv⟩
  · refine ⟨fun hd => absurd (hs.status.1.symm.trans hd) (by simp), fun op hopen => ?_⟩
    cases hs.opened.symm.trans hopen
  · refine ⟨hinv.holds, fun op _ hop hfault hchange => ?_⟩
    have hnext := durableInv_step hinv hop
    refine ⟨?_, hnext.holds ?_⟩ <;>
    · obtain ⟨j, hj⟩ := Option.isSome_iff_exists.mp hchange
      obtain ⟨hp, hst, -⟩ := Session.change_keeps hj
      obtain ⟨bytes, hb⟩ := encode_of_printable
        (AllRecords.change hinv.printable (brings_of_printable hop) hj)
      have hq : j.isProtected = false := by
        rw [QueueJournal.isProtected, hst]
        exact hinv.unprotected
      rw [Session.step_eq, hj, hfault]
      simp only
      rw [Session.save_none plat (s := ⟨j, s.file⟩) (hp.trans hinv.persistent) hq hb]
      rfl

end

/-! A record that can be written, and one whose text holds a lone surrogate. -/

def sampleRecord (text : PyStr) : QueueRecord WholeFloat where
  taskId := py "q-1"
  requestId := py "req-1"
  summary := py "list or tuple?"
  route := py "fast"
  weight := py "light"
  requiredVramMb := 3482
  state := .queued
  submittedAt := ⟨1000⟩
  updatedAt := ⟨1000⟩
  attempts := 0
  detail := []
  text
  context := [(py "user", py "earlier"), (py "assistant", py "earlier answer")]

/-- A journal opened where no file was. -/
def freshSession : Session WholeFloat :=
  ((⟨.new true [], none⟩ : Session WholeFloat).openQueue cpython false .none (fun _ => false)
    ⟨1000⟩).2

theorem freshSession_opened : freshSession.journal.opened = true :=
  (openQueue_table cpython false .none (fun _ => false) ⟨1000⟩ ⟨.new true [], none⟩).1

theorem reach_freshSession :
    (journalMachine WholeFloat cpython (ValidFile WholeFloat cpython)).Reach (PrintableCall cpython) freshSession := by
  have hstart : (journalMachine WholeFloat cpython (ValidFile WholeFloat cpython)).start ⟨.new true [], none⟩ :=
    ⟨⟨rfl, rfl, rfl, rfl, rfl, rfl⟩, .inl rfl⟩
  refine reach_open (.start hstart) rfl ⟨rfl, ?_⟩
  intro d records paused hd
  exact absurd hd (by simp [JsonStore.load, JsonStore.readRaw])

theorem addedSession_opened : (freshSession.step cpython
    (.add (sampleRecord (py "list or tuple?")) .none)).journal.opened = true :=
  (Session.step_opened cpython freshSession _).trans freshSession_opened

theorem reach_added :
    (journalMachine WholeFloat cpython (ValidFile WholeFloat cpython)).Reach
      (PrintableCall cpython)
      (freshSession.step cpython (.add (sampleRecord (py "list or tuple?")) .none)) := by
  refine reach_op reach_freshSession freshSession_opened ?_
  refine ⟨PyStr.encodable_py _, PyStr.encodable_py _, PyStr.encodable_py _, PyStr.encodable_py _,
    PyStr.encodable_py _, PyStr.encodable_nil, PyStr.encodable_py _, ?_, by decide, by decide⟩
  simp [sampleRecord, PyStr.encodable_py]

theorem durable_holds_file_sample :
    let s := freshSession.step cpython (.add (sampleRecord (py "list or tuple?")) .none)
    FileHolds cpython s ∧ FileHolds cpython (s.step cpython (.setPaused true .none)) := by
  intro s
  have h := durable_holds_file reach_added
  exact ⟨h.1 (by decide +kernel), (h.2 (.setPaused true .none) addedSession_opened trivial rfl
    (by decide +kernel)).2⟩

/-- The save of the second record raises, and the journal goes on calling itself durable. -/
theorem surrogate_claims_durable : ∃ s : Session WholeFloat,
    (journalMachine WholeFloat cpython (ValidFile WholeFloat cpython)).Reachable s ∧ s.journal.status.durable = true ∧
      ¬FileHolds cpython s := by
  refine ⟨freshSession.step cpython (.add (sampleRecord [.surrogate 0]) .none), ?_, ?_, ?_⟩
  · exact reach_op (reach_freshSession.mono fun _ _ _ => trivial) freshSession_opened trivial
  · decide +kernel
  · rintro ⟨bytes, hbytes, hb | ⟨d, hd, hp⟩⟩
    · obtain ⟨-, henc⟩ := JsonStore.encode_ok.mp ⟨bytes, hb⟩
      exact absurd henc (by decide +kernel)
    · have hempty : ((queueStore WholeFloat).load cpython false freshSession.file).toOption.join.map
          (fun d => (Session.parse d.payload).toOption.map fun p => p.1.length) = some (some 0) := by
        decide +kernel
      have hfile : freshSession.file = some bytes := by
        rw [← hbytes]
        decide +kernel
      rw [hfile, hd] at hempty
      simp only [hp, Except.toOption, Option.join_some, Option.map_some, Option.some.injEq] at hempty
      exact absurd hempty (by decide +kernel)

end QronosAgent.Journal

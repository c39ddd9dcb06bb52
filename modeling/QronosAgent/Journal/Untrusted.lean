import QronosAgent.Journal.Runs

/-! A queue file that `open` does not accept is protected as long as `open` catches what its
contents raise. What escapes it is named here: bytes that are no UTF-8, JSON beyond the
interpreter's limits, and a record's time that no float can hold. -/
namespace QronosAgent.Journal
open Lib QueueRecord

variable {F : Type}

/-- The fields `from_payload` reads before the times are as it wants them. -/
def BeforeTimes (ms : Members F) : Prop :=
  (stateField ms).isOk ∧ (contextField ms).isOk ∧ (textField ms (py "taskId") true).isOk ∧
    (textField ms (py "requestId") true).isOk ∧ (textField ms (py "summary") false).isOk ∧
    (textField ms (py "route") true).isOk ∧ (textField ms (py "weight") true).isOk ∧
    (wholeField ms (py "requiredVramMb")).isOk

def TimeTooLarge [PyFloat F] (ms : Members F) (key : PyStr) : Prop :=
  ∃ n, Json.member? ms key = some (.int n) ∧ (PyFloat.ofInt n : Option F) = none

/-- A record that is fine up to a time that is too large. -/
def Overflows [PyFloat F] (raw : Json F) : Prop :=
  ∃ ms, raw = .obj ms ∧ BeforeTimes ms ∧ (TimeTooLarge ms (py "submittedAt") ∨
    (numberField ms (py "submittedAt")).isOk ∧ TimeTooLarge ms (py "updatedAt"))

theorem isOk_iff {ε α : Type} {x : Except ε α} : x.isOk = true ↔ ∃ a, x = .ok a := by
  cases x <;> simp [Except.isOk, Except.toBool]

/-- A step that never overflows passes the overflow of what follows it on. -/
theorem overflow_bind {α β : Type} {x : Except RecordError α} {f : α → Except RecordError β}
    (hx : x ≠ .error .overflow) :
    (x >>= f) = .error .overflow ↔ ∃ a, x = .ok a ∧ f a = .error .overflow := by
  cases x with
  | error e =>
    simp only [ne_eq, Except.error.injEq] at hx
    simp [bind, Except.bind, hx]
  | ok a => simp [bind, Except.bind]

theorem textField_ne_overflow (ms : Members F) (key : PyStr) (required : Bool) :
    textField ms key required ≠ .error .overflow := by
  unfold textField noValid
  split
  · split <;> simp
  · simp

theorem wholeField_ne_overflow (ms : Members F) (key : PyStr) :
    wholeField ms key ≠ .error .overflow := by
  unfold wholeField noValid
  split <;> simp

theorem stateField_ne_overflow (ms : Members F) : stateField ms ≠ .error .overflow := by
  unfold stateField
  split
  · split <;> simp
  · simp

theorem readContextItem_ne_overflow (item : Json F) :
    readContextItem item ≠ .error .overflow := by
  unfold readContextItem invalidContext
  split
  · split
    · split <;> simp
    · simp
  · simp

theorem contextField_ne_overflow (ms : Members F) : contextField ms ≠ .error .overflow := by
  have hitems : ∀ items : List (Json F), items.mapM readContextItem ≠ .error .overflow := by
    intro items
    induction items with
    | nil => simp [pure, Except.pure]
    | cons item items ih =>
      rw [List.mapM_cons, ne_eq, overflow_bind (readContextItem_ne_overflow item)]
      rintro ⟨a, -, h⟩
      rw [overflow_bind ih] at h
      obtain ⟨as, -, h⟩ := h
      exact absurd h (by simp [pure, Except.pure])
  unfold contextField invalidContext
  split
  · exact hitems _
  · simp

section
variable [PyFloat F]

theorem numberField_overflow {ms : Members F} {key : PyStr} :
    numberField ms key = .error .overflow ↔ TimeTooLarge ms key := by
  unfold numberField TimeTooLarge noValid
  split
  · rename_i n hm
    split <;> simp_all
  · simp_all
  · rename_i hint hfloat
    simp only [Except.error.injEq, reduceCtorEq, false_iff, not_exists, not_and]
    intro n hn
    exact absurd hn (hint n)

theorem fromPayload_overflow {raw : Json F} :
    fromPayload raw = .error .overflow ↔ Overflows raw := by
  unfold fromPayload
  cases raw with
  | obj ms =>
    have htail : ∀ x : Except RecordError F, ∀ f : F → Except RecordError (QueueRecord F),
        (∀ a, f a ≠ .error .overflow) →
        ((x >>= f) = .error .overflow ↔ x = .error .overflow) := by
      intro x f hf
      cases x with
      | error e => simp [bind, Except.bind]
      | ok a => simpa [bind, Except.bind] using hf a
    have hsubmitted : ∀ f : F → Except RecordError (QueueRecord F),
        (numberField ms (py "submittedAt") >>= f) = .error .overflow ↔
          numberField ms (py "submittedAt") = .error .overflow ∨
            ∃ a, numberField ms (py "submittedAt") = .ok a ∧ f a = .error .overflow := by
      intro f
      cases numberField ms (py "submittedAt") <;> simp [bind, Except.bind]
    simp only [overflow_bind (stateField_ne_overflow ms),
      overflow_bind (contextField_ne_overflow ms), overflow_bind (textField_ne_overflow ms _ _),
      overflow_bind (wholeField_ne_overflow ms (py "requiredVramMb")), hsubmitted]
    have hrest : ∀ (state : RecordState) (context : List (PyStr × PyStr))
        (taskId requestId summary route weight : PyStr) (vram : ℤ) (submittedAt : F),
        ((do
          let updatedAt ← numberField ms (py "updatedAt")
          let attempts ← wholeField ms (py "attempts")
          let detail ← textField ms (py "detail") false
          let text ← textField ms (py "text") false
          let record : QueueRecord F := ⟨taskId, requestId, summary, route, weight, vram, state,
            submittedAt, updatedAt, attempts, detail, text, context⟩
          if record.keepsRequest then return record
          else .error (.corrupt (py "A queue record that may still run has lost its request.")) :
            Except RecordError (QueueRecord F)) = .error .overflow) ↔
          numberField ms (py "updatedAt") = .error .overflow := by
      intro state context taskId requestId summary route weight vram submittedAt
      refine htail _ _ fun updatedAt => ?_
      simp only [ne_eq, overflow_bind (wholeField_ne_overflow ms (py "attempts")),
        overflow_bind (textField_ne_overflow ms _ _)]
      rintro ⟨attempts, -, detail, -, text, -, h⟩
      split at h <;> exact absurd h (by simp [pure, Except.pure])
    simp only [hrest, numberField_overflow, Overflows, BeforeTimes, isOk_iff, Json.obj.injEq]
    constructor
    · rintro ⟨state, hs, context, hc, taskId, ht, requestId, hr, summary, hsu, route, hro, weight,
        hw, vram, hv, h⟩
      refine ⟨ms, rfl, ⟨⟨_, hs⟩, ⟨_, hc⟩, ⟨_, ht⟩, ⟨_, hr⟩, ⟨_, hsu⟩, ⟨_, hro⟩, ⟨_, hw⟩, ⟨_, hv⟩⟩, ?_⟩
      rcases h with h | ⟨x, hx, h⟩
      · exact .inl h
      · exact .inr ⟨⟨x, hx⟩, h⟩
    · rintro ⟨ms', rfl, ⟨⟨_, hs⟩, ⟨_, hc⟩, ⟨_, ht⟩, ⟨_, hr⟩, ⟨_, hsu⟩, ⟨_, hro⟩, ⟨_, hw⟩,
        ⟨_, hv⟩⟩, h⟩
      refine ⟨_, hs, _, hc, _, ht, _, hr, _, hsu, _, hro, _, hw, _, hv, ?_⟩
      rcases h with h | ⟨⟨x, hx⟩, h⟩
      · exact .inl h
      · exact .inr ⟨x, hx, h⟩
  | _ => simp [Overflows]

/-- Reading the records in order stops at the first one that cannot be read. -/
theorem mapM_fromPayload_overflow {raws : List (Json F)} :
    raws.mapM fromPayload = .error .overflow ↔
      ∃ pre raw post, raws = pre ++ raw :: post ∧ (∀ q ∈ pre, (fromPayload q).isOk) ∧
        Overflows raw := by
  induction raws with
  | nil => simp [pure, Except.pure]
  | cons r raws ih =>
    rw [List.mapM_cons]
    cases hr : fromPayload r with
    | error e =>
      simp only [bind, Except.bind, Except.error.injEq]
      constructor
      · rintro rfl
        exact ⟨[], r, raws, rfl, by simp, fromPayload_overflow.mp hr⟩
      · rintro ⟨pre, raw, post, heq, hpre, hraw⟩
        cases pre with
        | nil =>
          rw [(List.cons.inj heq).1, fromPayload_overflow.mpr hraw] at hr
          exact (Except.error.inj hr).symm
        | cons q pre =>
          have hq := hpre r (by simp [(List.cons.inj heq).1])
          simp [hr, Except.isOk, Except.toBool] at hq
    | ok a =>
      have hbind : ((Except.ok a : Except RecordError (QueueRecord F)) >>= fun b => do
          let bs ← raws.mapM fromPayload
          pure (b :: bs)) = .error .overflow ↔ raws.mapM fromPayload = .error .overflow := by
        cases raws.mapM fromPayload <;> simp [bind, Except.bind, pure, Except.pure]
      rw [hbind, ih]
      constructor
      · rintro ⟨pre, raw, post, rfl, hpre, hraw⟩
        refine ⟨r :: pre, raw, post, rfl, ?_, hraw⟩
        intro q hq
        rcases List.mem_cons.mp hq with rfl | hq
        · simp [hr, Except.isOk, Except.toBool]
        · exact hpre q hq
      · rintro ⟨pre, raw, post, heq, hpre, hraw⟩
        cases pre with
        | nil =>
          rw [(List.cons.inj heq).1, fromPayload_overflow.mpr hraw] at hr
          cases hr
        | cons q pre =>
          exact ⟨pre, raw, post, (List.cons.inj heq).2, fun q' hq' => hpre q' (by simp [hq']),
            hraw⟩

/-! What `open` makes of the contents of a file. -/

def HasRecords (payload : Members F) (raws : List (Json F)) : Prop :=
  (Json.member? payload (py "records")).getD (.arr []) = .arr raws ∧
    ∃ paused, (Json.member? payload (py "paused")).getD (.bool false) = .bool paused

/-- The contents raise nothing but what `open` expects: they are UTF-8, JSON within the
interpreter's limits (or no JSON at all), and no record that is read has a time too large. -/
def Legible (F : Type) [PyFloat F] (plat : Platform) (content : ByteArray) : Prop :=
  ∃ text, readText content = some text ∧
    Json.loads (F := F) plat.limits text ≠ .error .recursion ∧
    Json.loads (F := F) plat.limits text ≠ .error .intTooLong ∧
    ∀ (doc : Json F) (d : StoredDocument F) (pre : List (Json F)) (raw : Json F)
      (post : List (Json F)), Json.loads plat.limits text = .ok doc →
      (queueStore F).check doc = .ok d → HasRecords d.payload (pre ++ raw :: post) →
      (∀ q ∈ pre, (fromPayload q).isOk) → ¬Overflows raw

/-- `open` takes the contents as a valid document. -/
def Accepted (F : Type) [PyFloat F] (plat : Platform) (content : ByteArray) : Prop :=
  ∃ d : StoredDocument F, (queueStore F).load plat false (some content) = .ok (some d) ∧
    ∃ p, Session.parse d.payload = .ok p

theorem parse_overflow {payload : Members F} : Session.parse payload = .error .overflow ↔
    ∃ pre raw post, HasRecords payload (pre ++ raw :: post) ∧
      (∀ q ∈ pre, (fromPayload q).isOk) ∧ Overflows raw := by
  unfold Session.parse HasRecords
  split
  · rename_i raws paused hraws hpaused
    have hbind : ((do
        let records ← raws.mapM fromPayload
        if (records.map QueueRecord.taskId).Nodup then
          return (sortedBy PyFloat.lt QueueRecord.submittedAt records, paused)
        else .error (.corrupt (py "The saved queue repeats a task."))) :
          Except RecordError (List (QueueRecord F) × Bool)) = .error .overflow ↔
        raws.mapM fromPayload = .error .overflow := by
      cases raws.mapM fromPayload with
      | error e => simp [bind, Except.bind]
      | ok records =>
        simp only [bind, Except.bind, reduceCtorEq, iff_false]
        split <;> simp [pure, Except.pure]
    rw [hbind, mapM_fromPayload_overflow]
    simp only [hraws, hpaused, Json.arr.injEq, Json.bool.injEq, exists_eq', and_true]
  · rename_i hshape
    simp only [Except.error.injEq, reduceCtorEq, false_iff, not_exists, not_and]
    rintro pre raw post ⟨hraws, paused, hpaused⟩
    exact absurd hpaused (hshape _ _ hraws)

/-- The errors of `load` that `open` does not catch. -/
def Escapes (e : LoadError) : Prop := e = .unicodeDecode ∨ ∃ j, e = .json j

/-- Reading the contents raises what `open` does not catch. -/
def Escaped (F : Type) [PyFloat F] (plat : Platform) (content : ByteArray) : Prop :=
  (∃ e, (queueStore F).load plat false (some content) = .error e ∧ Escapes e) ∨
    ∃ d, (queueStore F).load plat false (some content) = .ok (some d) ∧
      Session.parse d.payload = .error .overflow

variable {plat : Platform} {content : ByteArray} {s : Session F}

theorem legible_iff :
    Legible F plat content ↔ ¬Escaped F plat content := by
  have hsplit : ¬Escaped F plat content ↔
      (∀ e, (queueStore F).load plat false (some content) = .error e → ¬Escapes e) ∧
        ∀ d, (queueStore F).load plat false (some content) = .ok (some d) →
          Session.parse d.payload ≠ .error .overflow := by
    simp only [Escaped, not_or, not_exists, not_and, ne_eq]
  rw [hsplit]
  unfold Legible JsonStore.load JsonStore.readRaw
  simp only [Bool.false_eq_true, if_false]
  cases ht : readText content with
  | none => simp [Escapes]
  | some text =>
    have hfuel := Json.loads_fuel (F := F) plat.limits text
    simp only [Option.some.injEq, exists_eq_left']
    cases hl : Json.loads (F := F) plat.limits text with
    | error e =>
      rw [hl] at hfuel
      cases e <;> simp_all [Escapes]
    | ok doc =>
      cases hc : (queueStore F).check doc with
      | error e =>
        have he := check_error hc
        have hnone : ∀ doc' d, Except.ok doc = (.ok doc' : Except JsonError (Json F)) →
            (queueStore F).check doc' ≠ .ok d := by
          intro doc' d hdoc hd
          rw [← Except.ok.inj hdoc, hc] at hd
          cases hd
        have hpass : ∀ e', (.error e : Except LoadError (Option (StoredDocument F))) = .error e' →
            ¬Escapes e' := by
          intro e' hee
          rw [← Except.error.inj hee]
          rcases he with rfl | rfl | rfl <;> simp [Escapes]
        refine ⟨fun _ => ⟨?_, ?_⟩, fun _ => ⟨by simp, by simp, ?_⟩⟩
        · simpa only [hc, Except.map] using hpass
        · simp [hc, Except.map]
        · intro doc' d pre raw post hdoc hd
          exact absurd hd (hnone doc' d hdoc)
      | ok d =>
        simp only [Option.some.injEq, reduceCtorEq, ne_eq, not_false_eq_true, Except.ok.injEq,
          true_and, hc, Except.map, false_imp_iff, implies_true, parse_overflow, forall_eq']
        constructor
        · rintro h ⟨pre, raw, post, hraws, hpre, hover⟩
          exact h _ _ pre raw post rfl hc hraws hpre hover
        · intro h doc' d' pre raw post hdoc hd hraws hpre hover
          rw [← hdoc, hc] at hd
          cases hd
          exact h ⟨pre, raw, post, hraws, hpre, hover⟩

theorem run_protected (plat : Platform) (h : s.journal.isProtected = true)
    (ops : List (JournalOp F)) :
    (s.run plat ops).file = s.file ∧ (s.run plat ops).journal.status = s.journal.status := by
  induction ops generalizing s with
  | nil => exact ⟨rfl, rfl⟩
  | cons op ops ih =>
    have hstep : (s.step plat op).file = s.file ∧
        (s.step plat op).journal.status = s.journal.status := by
      rw [Session.step_eq]
      split
      · exact ⟨rfl, rfl⟩
      · rename_i j hj
        obtain ⟨-, hstatus, -⟩ := Session.change_keeps hj
        have hprot : j.isProtected = true := by
          rw [QueueJournal.isProtected, hstatus]
          exact h
        rw [Session.save_skip (.inr hprot)]
        exact ⟨rfl, hstatus⟩
    have hnext := ih (s := s.step plat op) (by
      rw [QueueJournal.isProtected, hstep.2]
      exact h)
    exact ⟨hnext.1.trans hstep.1, hnext.2.trans hstep.2⟩

/-- A journal that was not opened yet, at the path of an existing file. -/
def atFile (F : Type) (content : ByteArray) : Session F := ⟨.new true [], some content⟩

/-- One opening of the file, then any calls: the contents were accepted, or the bytes stay
and the journal never calls itself durable. -/
def KeepsUntrusted (F : Type) [PyFloat F] (plat : Platform) (content : ByteArray) : Prop :=
  ∀ (readFault : Bool) (fault : SaveFault) (answered : PyStr → Bool) (now : F),
    (readFault = false ∧ Accepted F plat content) ∨
      ∀ ops : List (JournalOp F),
        let s := ((atFile F content).openQueue plat readFault fault answered now).2.run plat ops
        s.file = some content ∧ s.journal.status.durable = false

theorem refuse_keeps {problem : StorageProblem} {detail : PyStr} (hp : problem.isProtected = true)
    (ops : List (JournalOp F)) :
    ((s.refuse problem detail).2.run plat ops).file = s.file ∧
      ((s.refuse problem detail).2.run plat ops).journal.status.durable = false := by
  have h := run_protected plat (s := (s.refuse problem detail).2) hp ops
  exact ⟨h.1, by rw [h.2]; rfl⟩

/-- The journal after an error escaped `open`: opened, and without a problem. -/
def afterEscape (F : Type) (content : ByteArray) : Session F :=
  ⟨{ QueueJournal.new true [] with opened := true }, some content⟩

theorem openQueue_escaped (h : Escaped F plat content) (fault : SaveFault)
    (answered : PyStr → Bool) (now : F) :
    ((atFile F content).openQueue plat false fault answered now).2 = afterEscape F content := by
  unfold Session.openQueue
  simp only [atFile, QueueJournal.new, if_true, Bool.false_eq_true, if_false, Bool.not_true]
  rcases h with ⟨e, he, rfl | ⟨j, rfl⟩⟩ | ⟨d, hd, ho⟩
  · rw [he]
    rfl
  · rw [he]
    rfl
  · rw [hd]
    simp only [ho]
    rfl

theorem not_accepted_of_escaped (h : Escaped F plat content) : ¬Accepted F plat content := by
  rintro ⟨d, hd, p, hp⟩
  rcases h with ⟨e, he, -⟩ | ⟨d', hd', ho⟩
  · rw [hd] at he
    cases he
  · rw [hd, Except.ok.injEq, Option.some.injEq] at hd'
    rw [← hd', hp] at ho
    cases ho

theorem load_some_ne_none (plat : Platform) (readFault : Bool) (content : ByteArray) :
    (queueStore F).load plat readFault (some content) ≠ .ok none := by
  have hraw : JsonStore.readRaw (F := F) plat readFault (some content) ≠ .ok none := by
    unfold JsonStore.readRaw
    simp only
    split
    · simp
    · split
      · simp
      · split <;> simp
  unfold JsonStore.load
  split
  · simp
  · rename_i h
    exact absurd h hraw
  · rename_i raw _
    cases (queueStore F).check raw <;> simp [Except.map]

/-- When nothing escapes, `open` accepts the contents or protects the file. -/
theorem openQueue_caught (h : ¬Escaped F plat content) (readFault : Bool) (fault : SaveFault)
    (answered : PyStr → Bool) (now : F) :
    (readFault = false ∧ Accepted F plat content) ∨
      ∃ problem detail, problem.isProtected = true ∧
        ((atFile F content).openQueue plat readFault fault answered now).2 =
          ((afterEscape F content).refuse problem detail).2 := by
  cases readFault with
  | true => exact .inr ⟨.unreadable, _, rfl, rfl⟩
  | false =>
    unfold Session.openQueue
    simp only [atFile, QueueJournal.new, if_true, Bool.false_eq_true, if_false, Bool.not_true]
    cases hl : (queueStore F).load plat false (some content) with
    | error e =>
      cases e with
      | corrupt => exact .inr ⟨.corrupt, _, rfl, rfl⟩
      | unreadable => exact .inr ⟨.unreadable, _, rfl, rfl⟩
      | tooNew => exact .inr ⟨.tooNew, _, rfl, rfl⟩
      | migrationMissing => exact .inr ⟨.noMigration, _, rfl, rfl⟩
      | unicodeDecode => exact absurd (.inl ⟨_, hl, .inl rfl⟩) h
      | json j => exact absurd (.inl ⟨_, hl, .inr ⟨j, rfl⟩⟩) h
    | ok document =>
      cases document with
      | none => exact absurd hl (load_some_ne_none plat false content)
      | some d =>
        simp only
        cases hparse : Session.parse d.payload with
        | error e =>
          cases e with
          | corrupt message => exact .inr ⟨.corrupt, _, rfl, rfl⟩
          | overflow => exact absurd (.inr ⟨d, hl, hparse⟩) h
        | ok p => exact .inl ⟨trivial, d, hl, p, hparse⟩

/-- After an error that escaped `open`, the next change writes the file over. -/
theorem setPaused_writes (plat : Platform) (content : ByteArray) :
    ((afterEscape F content).step plat (.setPaused true .none)).journal.status.durable = true := by
  let j : QueueJournal F := { (afterEscape F content).journal with paused := true }
  have hpayload : j.payload = [(py "paused", .bool true), (py "records", .arr [])] := rfl
  obtain ⟨bytes, hb⟩ : ∃ bytes, (queueStore F).encode plat j.payload = .ok bytes := by
    rw [JsonStore.encode_ok, hpayload]
    constructor
    · have hone : (natText 1).length ≤ plat.limits.intDigits := by
        have := plat.digits
        have h1 : (natText 1).length = 1 := by decide
        omega
      simp [JsonStore.document, queueStore, Json.intsFit, Json.intsFitMembers,
        Json.intsFitItems, hone]
    · simp only [JsonStore.document, Json.chars, Json.charsMembers, Json.charsItems,
        PyStr.encodable_append]
      exact ⟨by decide, by decide⟩
  have hsave := Session.save_none plat (s := ⟨j, some content⟩) rfl rfl hb
  rw [Session.step_eq]
  change (Session.save plat .none ⟨j, some content⟩).2.journal.status.durable = true
  rw [hsave]
  rfl

theorem not_keepsUntrusted (h : Escaped F plat content) : ¬KeepsUntrusted F plat content := by
  intro hkeeps
  rcases hkeeps false .none (fun _ => false) (PyFloat.ofLiteral []) with ⟨-, hacc⟩ | hrun
  · exact not_accepted_of_escaped h hacc
  · have hwrite := (hrun [.setPaused true .none]).2
    have hdurable := setPaused_writes (F := F) plat content
    rw [openQueue_escaped h] at hwrite
    exact absurd (hwrite.symm.trans hdurable) (by decide)

/-- In every run an existing file is written over only after `open` accepted it, exactly when
nothing that the contents raise escapes `open`. -/
theorem keepsUntrusted_iff_legible (plat : Platform) (content : ByteArray) :
    KeepsUntrusted F plat content ↔ Legible F plat content := by
  rw [legible_iff]
  constructor
  · exact fun h hesc => not_keepsUntrusted hesc h
  · intro h readFault fault answered now
    rcases openQueue_caught h readFault fault answered now with hacc | ⟨problem, detail, hp, hopen⟩
    · exact .inl hacc
    · right
      intro ops
      simp only [hopen]
      exact refuse_keeps hp ops

end

/-- One byte that is no UTF-8: the error escapes `open`, and the first change of the queue
replaces the file. -/
theorem notUtf8_written_over : ¬KeepsUntrusted WholeFloat cpython ⟨#[0xff]⟩ ∧
    (((atFile WholeFloat ⟨#[0xff]⟩).openQueue cpython false .none (fun _ => false) ⟨0⟩).2.run
      cpython [.setPaused true .none]).file ≠ some ⟨#[0xff]⟩ := by
  refine ⟨not_keepsUntrusted (.inl ⟨.unicodeDecode, rfl, .inl rfl⟩), ?_⟩
  decide +kernel

end QronosAgent.Journal

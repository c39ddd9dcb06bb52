import QronosAgent.Journal.Record

/-! The changes of a journal after `open`, and what one of them can do: it alters the records
in memory and saves, or leaves journal and file alone. -/
namespace QronosAgent.Journal
open Lib

inductive JournalOp (F : Type) where
  | add (r : QueueRecord F) (fault : SaveFault)
  | update (taskId : PyStr) (state : RecordState) (attempts : Option ℤ) (detail : Option PyStr)
      (now : F) (fault : SaveFault)
  | setPaused (paused : Bool) (fault : SaveFault)
  | startBlocker (fault : SaveFault)

namespace JournalOp
variable {F : Type}

def fault : JournalOp F → SaveFault
  | add _ fault | update _ _ _ _ _ fault | setPaused _ fault | startBlocker fault => fault

/-- The journal a call is about to save; `none` when it saves nothing. -/
def change [PyFloat F] (op : JournalOp F) (j : QueueJournal F) : Option (QueueJournal F) :=
  match op with
  | add r _ =>
    if (j.records.get? r.taskId).isSome then none
    else some { j with records := j.records.set r.taskId r }
  | update taskId state attempts detail now _ =>
    match j.records.get? taskId with
    | none => none
    | some r =>
      if r.state.finished then none
      else if r.state = state ∧ r.attempts = attempts.getD r.attempts ∧
          r.detail = detail.getD r.detail then none
      else
        let r := Session.updated r state (attempts.getD r.attempts) (detail.getD r.detail) now
        some { j with records := j.records.set taskId r }.prune
  | setPaused paused _ => if j.paused = paused then none else some { j with paused }
  | startBlocker _ => if j.status.problem = some .unwritable then some j else none

end JournalOp

namespace Session
variable {F : Type} [PyFloat F]

def step (plat : Platform) (s : Session F) : JournalOp F → Session F
  | .add r fault => (s.add plat fault r).2
  | .update taskId state attempts detail now fault =>
    (s.update plat fault taskId state attempts detail now).2
  | .setPaused paused fault => (s.setPaused plat fault paused).2
  | .startBlocker fault => (s.startBlocker plat fault).2

def run (plat : Platform) (s : Session F) (ops : List (JournalOp F)) : Session F :=
  ops.foldl (step plat) s

variable {plat : Platform} {fault : SaveFault} {s : Session F}

theorem save_skip (h : s.journal.persistent = false ∨ s.journal.isProtected = true) :
    s.save plat fault = (.ok false, s) := by
  unfold save
  rcases h with h | h
  · simp [h]
  · simp [h]

/-- A save that reaches the store: it wrote everything; or the system failed it, and the file
is the old or the new one; or the text could not be made, and nothing changed. -/
theorem save_cases (plat : Platform) (fault : SaveFault) (hp : s.journal.persistent = true) (hq : s.journal.isProtected = false) :
    (∃ bytes, (queueStore F).encode plat s.journal.payload = .ok bytes ∧
      s.save plat fault = (.ok true, ⟨{ s.journal with status := .saved }, some bytes⟩)) ∨
    (∃ name file, s.save plat fault =
        (.ok false, ⟨{ s.journal with status := unwritable name }, file⟩) ∧
      (file = s.file ∨ ∃ bytes, (queueStore F).encode plat s.journal.payload = .ok bytes ∧
        file = some bytes)) ∨
    (∃ e, (queueStore F).encode plat s.journal.payload = .error e ∧
      s.save plat fault = (.error (.save e), s)) := by
  have hsave : s.save plat fault =
      recordSave s ((queueStore F).save plat s.journal.payload fault s.file) := by
    unfold save
    rw [hp, hq]
    rfl
  have hatomic := (queueStore F).save_atomic plat s.journal.payload fault s.file
  rw [hsave]
  rcases hst : (queueStore F).save plat s.journal.payload fault s.file with ⟨result, file⟩
  rw [hst] at hatomic
  have hraises : ∀ e, (∀ name, e ≠ SaveError.os name) → result = .error e →
      (queueStore F).encode plat s.journal.payload = .error e ∧ file = s.file := by
    intro e he hr
    have hres : ((queueStore F).save plat s.journal.payload fault s.file).1 = .error e := by
      rw [hst, hr]
    have h := JsonStore.save_raises he hres
    rw [hst] at h
    exact h
  cases result with
  | ok u =>
    have hres : ((queueStore F).save plat s.journal.payload fault s.file).1 = .ok () := by
      rw [hst]
    obtain ⟨bytes, hb, hfile⟩ := JsonStore.save_ok hres
    rw [hst] at hfile
    exact .inl ⟨bytes, hb, by rw [← hfile]; rfl⟩
  | error e =>
    cases e with
    | os name => exact .inr (.inl ⟨name, file, rfl, hatomic⟩)
    | value =>
      obtain ⟨hb, hf⟩ := hraises .value (by simp) rfl
      exact .inr (.inr ⟨.value, hb, by rw [hf]; rfl⟩)
    | unicodeEncode =>
      obtain ⟨hb, hf⟩ := hraises .unicodeEncode (by simp) rfl
      exact .inr (.inr ⟨.unicodeEncode, hb, by rw [hf]; rfl⟩)

/-- A save the system does not fail writes everything that can be written. -/
theorem save_none (plat : Platform) {bytes : ByteArray} (hp : s.journal.persistent = true)
    (hq : s.journal.isProtected = false)
    (hb : (queueStore F).encode plat s.journal.payload = .ok bytes) :
    s.save plat .none = (.ok true, ⟨{ s.journal with status := .saved }, some bytes⟩) := by
  unfold save
  rw [hp, hq, JsonStore.save_none hb]
  rfl

theorem save_journal (plat : Platform) (fault : SaveFault) (s : Session F) : ∃ status, (s.save plat fault).2.journal = { s.journal with status } := by
  by_cases hp : s.journal.persistent = true
  · by_cases hq : s.journal.isProtected = true
    · rw [save_skip (.inr hq)]
      exact ⟨s.journal.status, rfl⟩
    · rcases save_cases plat fault hp (by simpa using hq) with
        ⟨bytes, -, h⟩ | ⟨name, file, h, -⟩ | ⟨e, -, h⟩
      · exact ⟨.saved, by rw [h]⟩
      · exact ⟨unwritable name, by rw [h]⟩
      · exact ⟨s.journal.status, by rw [h]⟩
  · rw [save_skip (.inl (by simpa using hp))]
    exact ⟨s.journal.status, rfl⟩

/-- One call changes the records in memory and saves, or does nothing. -/
theorem step_eq (op : JournalOp F) : s.step plat op =
    match op.change s.journal with
    | none => s
    | some j => (save plat op.fault { s with journal := j }).2 := by
  cases op with
  | add r fault =>
    simp only [step, add, JournalOp.change, JournalOp.fault]
    split <;> rfl
  | update taskId state attempts detail now fault =>
    simp only [step, update, JournalOp.change, JournalOp.fault]
    cases s.journal.records.get? taskId with
    | none => rfl
    | some r =>
      simp only
      split
      · rfl
      · split <;> rfl
  | setPaused paused fault =>
    simp only [step, setPaused, JournalOp.change, JournalOp.fault]
    split <;> rfl
  | startBlocker fault =>
    simp only [step, startBlocker, JournalOp.change, JournalOp.fault]
    by_cases h : s.journal.status.problem = some .unwritable
    · simp only [h, ne_eq, not_true, if_false, if_true]
      rcases save plat fault s with ⟨result, t⟩
      cases result with
      | error e => rfl
      | ok b => cases b <;> rfl
    · simp only [h, ne_eq, not_false_eq_true, if_true, if_false]

/-- No change of the records touches what the journal is told about its file. -/
theorem change_keeps {op : JournalOp F} {j j' : QueueJournal F} (h : op.change j = some j') :
    j'.persistent = j.persistent ∧ j'.status = j.status ∧ j'.opened = j.opened := by
  cases op with
  | add r fault =>
    simp only [JournalOp.change] at h
    split at h
    · cases h
    · cases h
      exact ⟨rfl, rfl, rfl⟩
  | update taskId state attempts detail now fault =>
    simp only [JournalOp.change] at h
    split at h
    · cases h
    · split at h
      · cases h
      · split at h
        · cases h
        · cases h
          exact ⟨rfl, rfl, rfl⟩
  | setPaused paused fault =>
    simp only [JournalOp.change] at h
    split at h
    · cases h
    · cases h
      exact ⟨rfl, rfl, rfl⟩
  | startBlocker fault =>
    simp only [JournalOp.change] at h
    split at h
    · cases h
      exact ⟨rfl, rfl, rfl⟩
    · cases h

theorem step_opened (plat : Platform) (s : Session F) (op : JournalOp F) :
    (s.step plat op).journal.opened = s.journal.opened := by
  rw [step_eq]
  split
  · rfl
  · rename_i j hj
    obtain ⟨status, h⟩ := save_journal plat op.fault { s with journal := j }
    rw [h]
    exact (change_keeps hj).2.2

end Session

/-- Every record sits under its task id and satisfies `P`. -/
def QueueJournal.AllRecords {F : Type} (P : QueueRecord F → Prop) (j : QueueJournal F) : Prop :=
  ∀ k r, j.records.get? k = some r → r.taskId = k ∧ P r

/-- What a call may bring into the table satisfies `P` again. -/
def JournalOp.Brings {F : Type} (P : QueueRecord F → Prop) : JournalOp F → Prop
  | .add r _ => P r
  | .update _ state attempts detail now _ => ∀ r, P r → r.state.finished = false →
      P (Session.updated r state (attempts.getD r.attempts) (detail.getD r.detail) now)
  | .setPaused _ _ | .startBlocker _ => True

section AllRecords
variable {F : Type} {P : QueueRecord F → Prop} {j : QueueJournal F}

theorem updated_taskId (r : QueueRecord F) (state : RecordState) (attempts : ℤ) (detail : PyStr)
    (now : F) : (Session.updated r state attempts detail now).taskId = r.taskId := by
  unfold Session.updated
  split <;> rfl

theorem get?_eraseAll (rs : List (QueueRecord F)) (d : Dict PyStr (QueueRecord F)) (k : PyStr) :
    (rs.foldl (fun d r => d.erase r.taskId) d).get? k =
      if k ∈ rs.map QueueRecord.taskId then none else d.get? k := by
  induction rs generalizing d with
  | nil => simp
  | cons r rs ih =>
    rw [List.foldl_cons, ih, Dict.get?_erase, List.map_cons]
    by_cases hk : k = r.taskId
    · simp [hk]
    · simp [hk]

theorem AllRecords.set {r : QueueRecord F} (h : j.AllRecords P) (hr : P r) :
    { j with records := j.records.set r.taskId r }.AllRecords P := by
  intro k q hq
  simp only [Dict.get?_set] at hq
  split at hq
  · rename_i hk
    cases hq
    exact ⟨hk.symm, hr⟩
  · exact h k q hq

theorem AllRecords.prune [PyFloat F] (h : j.AllRecords P) : j.prune.AllRecords P := by
  intro k r hr
  simp only [QueueJournal.prune, get?_eraseAll] at hr
  split at hr
  · cases hr
  · exact h k r hr

theorem AllRecords.change [PyFloat F] {op : JournalOp F} {j' : QueueJournal F}
    (h : j.AllRecords P) (hop : op.Brings P) (hc : op.change j = some j') :
    j'.AllRecords P := by
  cases op with
  | add r fault =>
    simp only [JournalOp.change] at hc
    split at hc
    · cases hc
    · cases hc
      exact AllRecords.set h hop
  | update taskId state attempts detail now fault =>
    simp only [JournalOp.change] at hc
    split at hc
    · cases hc
    · rename_i r hr
      obtain ⟨hid, hP⟩ := h taskId r hr
      split at hc
      · cases hc
      · rename_i hunfinished
        split at hc
        · cases hc
        · cases hc
          have hset := AllRecords.set h (hop r hP (by simpa using hunfinished))
          rw [updated_taskId, hid] at hset
          exact AllRecords.prune hset
  | setPaused paused fault =>
    simp only [JournalOp.change] at hc
    split at hc
    · cases hc
    · cases hc
      exact h
  | startBlocker fault =>
    simp only [JournalOp.change] at hc
    split at hc
    · cases hc
      exact h
    · cases hc

theorem AllRecords.step [PyFloat F] {plat : Platform} {s : Session F} {op : JournalOp F}
    (h : s.journal.AllRecords P) (hop : op.Brings P) :
    (s.step plat op).journal.AllRecords P := by
  rw [Session.step_eq]
  split
  · exact h
  · rename_i j hc
    have hj := AllRecords.change h hop hc
    obtain ⟨status, hs⟩ := Session.save_journal plat op.fault { s with journal := j }
    rw [hs]
    exact hj

end AllRecords
end QronosAgent.Journal

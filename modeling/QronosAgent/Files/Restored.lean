import QronosAgent.Lib.Fallible
import QronosAgent.Lib.Machine
import QronosAgent.Files.Reversals

/-! File actions replace nothing, tell what they change, and their undo puts back what they changed, as
long as no step meets a call that fails where nothing looks. -/
namespace QronosAgent.Files
open Lib

inductive Action where
  | execute (chance : Chance) (fails : Fails) (verdict : Verdict) (approval : Option PyStr)
      (request : ActionRequest) (action : FileAction)
  | undo (chance : Chance) (fails : Fails) (actionId : PyStr)
  | change (disk : Disk)

def step (plat : Platform) (w : FileExecutor) : Action → FileExecutor
  | .execute chance fails verdict approval request action =>
    (w.execute plat chance fails verdict approval request action).2
  | .undo chance fails actionId => (w.undo plat chance fails actionId).2
  | .change disk => { w with disk := disk }

def fileMachine (plat : Platform) : Machine FileExecutor Action where
  start w := ∀ entries, w.journal = some entries → entries = []
  step w a := some (step plat w a)

def Verdict.runs (verdict : Verdict) (approval : Option PyStr) : Prop :=
  verdict.refused = false ∧ ¬ (verdict.needsApproval = true ∧ approval ≠ some verdict.decision)

/-- The condition on a step. -/
def Meets (plat : Platform) (w : FileExecutor) : Action → Prop
  | .execute _ fails verdict approval _ action => verdict.runs approval →
      Goes plat fails w.disk action ∧ w.journal.isSome = true
  | .undo _ fails actionId => ∀ entries entry left, w.journal = some entries →
      claim entries actionId = .ok entry → entry.left = some left →
        entry.UndoGoes plat fails w.disk left
  | .change _ => True

/-- Every entry is of an action that had its effect. -/
def Inv (plat : Platform) (w : FileExecutor) : Prop :=
  ∀ entries, w.journal = some entries →
    ∀ entry ∈ entries, ∃ left, entry.left = some left ∧ entry.Recorded plat left

section
variable {plat : Platform} {chance : Chance} {fails : Fails} {verdict : Verdict}
  {approval : Option PyStr} {request : ActionRequest} {action : FileAction} {w : FileExecutor}
  {d e f : Disk} {done : Performed} {entry : UndoEntry} {left : Left} {entries : List UndoEntry}

theorem Effect.kept (h : Effect plat fails d e action done) {p : Path} {n : Node}
    (hn : d.get? p = some n) : e.get? p = some n ∨
      (action.operation = .moveFile ∨ action.operation = .renameFile) ∧
        located plat d action.source = some p := by
  have hmade : ∀ {target m}, d.Makes target m e → e.get? p = some n := by
    intro target m hmakes
    rw [hmakes.left.other, hn]
    rintro rfl
    rw [hmakes.free] at hn
    cases hn
  cases h with
  | opened hop hsource hsame => exact .inl (hsame ▸ hn)
  | copied hop hsource htarget hfile hmakes hsame => exact .inl (hmade hmakes)
  | created hop hcall htarget hmakes hfolder => exact .inl (hmade hmakes)
  | @moved source target _ m verb hop hsource htarget htakes =>
    by_cases hp : p = source
    · subst hp
      refine .inr ⟨?_, hsource⟩
      rcases hop with ⟨hop, -⟩ | ⟨hop, -⟩
      · exact .inl hop
      · exact .inr hop
    · left
      rw [htakes.left p, if_neg, if_neg hp, hn]
      rintro rfl
      rw [htakes.free] at hn
      cases hn

theorem Effect.restoration_ne (h : Effect plat fails d e action done) :
    done.reversal.requiresRestoration = true → done.restoration ≠ [] := by
  cases h with
  | opened => intro h; cases h
  | copied | moved | created => intro _ h; cases h

theorem run_cases (hgoes : Goes plat fails w.disk action) (hjournal : w.journal = some entries) :
    (∃ why, w.run plat chance fails request action =
      (.ok ⟨.failed, why, none⟩, w)) ∨
    ∃ done e entry, Effect plat fails w.disk e action done ∧
      w.run plat chance fails request action =
        (.ok ⟨.succeeded, done.detail, some entry⟩, ⟨e, some (entries ++ [entry])⟩) ∧
      entry = ⟨request.actionId, request.summary, done.reversal, done.restoration, .pending,
        some ⟨w.disk, e⟩⟩ := by
  unfold FileExecutor.run
  rcases hr : attempt (perform plat chance action) fails w.disk with ⟨r, e⟩
  rcases does_attempt (does_perform hgoes) hr with ⟨done, rfl, heffect⟩ | ⟨why, rfl, rfl⟩
  · right
    refine ⟨done, e, _, heffect, ?_, rfl⟩
    have hrecord : record request done.reversal done.restoration ⟨w.disk, e⟩ =
        .ok ⟨request.actionId, request.summary, done.reversal, done.restoration, .pending,
          some ⟨w.disk, e⟩⟩ := by
      rw [record, if_neg (by rw [request.named]; decide), if_neg]
      rintro ⟨hrequires, hempty⟩
      exact heffect.restoration_ne hrequires hempty
    simp only [hjournal, hrecord]
  · exact .inl ⟨why.text, rfl⟩

theorem execute_of_runs (h : verdict.runs approval) :
    w.execute plat chance fails verdict approval request action =
      w.run plat chance fails request action := by
  unfold FileExecutor.execute
  rw [if_neg (by rw [h.1]; decide), if_neg h.2]

theorem execute_of_not_runs (h : ¬ verdict.runs approval) :
    ∃ x, w.execute plat chance fails verdict approval request action = (.ok x, w) ∧
      x.outcome ≠ .succeeded := by
  unfold FileExecutor.execute
  split
  · exact ⟨_, rfl, by simp⟩
  · rename_i hrefused
    rw [if_pos]
    · exact ⟨_, rfl, by simp⟩
    · by_contra hno
      exact h ⟨by simpa using hrefused, hno⟩

theorem claim_ok {actionId : PyStr} (h : claim entries actionId = .ok entry) :
    entry ∈ entries ∧ entry.reversal ≠ .nothingToUndo := by
  unfold claim at h
  split at h
  · cases h
  · rename_i found hfound
    split at h
    · cases h
    · split at h
      · cases h
      · rename_i hnothing
        split at h
        · cases h
        · cases h
          exact ⟨List.mem_of_find?_eq_some hfound, hnothing⟩

/-- What was there before the action is there again. -/
theorem UndoEntry.Reverses.restored (h : entry.Reverses plat left d e)
    (hrecorded : entry.Recorded plat left) (hundoable : entry.reversal ≠ .nothingToUndo) (hsame : ∀ p, d.get? p = left.after.get? p) (p : Path) :
    (e.get? p).map Node.kind = (left.before.get? p).map Node.kind := by
  obtain ⟨fails₀, a, done, hgoes, heffect, hreversal, hrestoration⟩ := hrecorded.effect
  obtain ⟨m, hleft, hthere, hreverses⟩ := h
  have hlookup : ∀ (key : String) (text : PyStr), done.restoration.lookup (py key) = some text →
      entry.restoration.lookup (py key) = some text := fun key text h => hrestoration ▸ h
  have hmade : ∀ {target m}, targetOf plat left.before a = some target →
      left.before.Makes target m left.after → done.reversal = .deleteCreated →
      done.restoration.lookup (py "path") = some (plat.text target) →
        (e.get? p).map Node.kind = (left.before.get? p).map Node.kind := by
    intro target m htarget hmakes hdelete hpath
    have hdelete := hreversal.trans hdelete
    rw [if_neg (by rw [hdelete]; decide),
      object_made hdelete (hgoes.target target htarget) (hlookup _ _ hpath)] at hreverses
    by_cases hp : p = target
    · rw [hp, hreverses.self, hmakes.free]
    · rw [hreverses.other hp, hsame p, hmakes.left.other hp]
  cases heffect with
  | opened => exact absurd hreversal hundoable
  | copied hop hsource htarget hfile hmakes _ => exact hmade htarget hmakes rfl rfl
  | created hop hcall htarget hmakes hfolder => exact hmade htarget hmakes rfl rfl
  | @moved source target n m' verb hop hsource htarget htakes =>
    have hnamed' : Named plat source := by
      apply hgoes.source _ source hsource
      rcases hop with ⟨hop, -⟩ | ⟨hop, -⟩
      · exact .inl hop
      · exact .inr hop
    have hobject : entry.object plat = target :=
      object_moved hreversal (hgoes.target target htarget) (hlookup "from" _ rfl)
    have horigin : entry.origin plat = source := origin_moved hnamed' (hlookup "to" _ rfl)
    rw [if_pos hreversal, hobject, horigin] at hreverses
    obtain ⟨back, hback⟩ := hreverses
    have hkind : back.kind = n.kind := by
      have hm : m' = m := by
        rw [hobject, htakes.left target, if_pos rfl] at hleft
        exact Option.some.inj hleft
      rw [hback.same, ← hm, htakes.same]
    rw [hback.left p]
    by_cases hs : p = source
    · rw [if_pos hs, hs, htakes.file.2.1, Option.map_some, Option.map_some, hkind]
    · rw [if_neg hs]
      by_cases ht : p = target
      · rw [if_pos ht, ht, htakes.free]
      · rw [if_neg ht, hsame p, htakes.left p, if_neg ht, if_neg hs]

theorem inv_mark {actionId : PyStr} {state : EntryState}
    (h : ∀ entry ∈ entries, ∃ left, entry.left = some left ∧ entry.Recorded plat left) :
    ∀ entry ∈ mark actionId state entries,
      ∃ left, entry.left = some left ∧ entry.Recorded plat left := by
  induction entries with
  | nil => exact h
  | cons first rest ih =>
    obtain ⟨left, hleft, hrecorded⟩ := h first List.mem_cons_self
    unfold mark
    split
    · intro entry hin
      rcases List.mem_cons.mp hin with rfl | hin
      · exact ⟨left, hleft, ⟨hrecorded.effect⟩⟩
      · exact h entry (List.mem_cons_of_mem _ hin)
    · intro entry hin
      rcases List.mem_cons.mp hin with rfl | hin
      · exact ⟨left, hleft, hrecorded⟩
      · exact ih (fun x hx => h x (List.mem_cons_of_mem _ hx)) entry hin

theorem Inv.step {a : Action} (hinv : Inv plat w) (hmeets : Meets plat w a) :
    Inv plat (step plat w a) := by
  cases a with
  | change disk => exact hinv
  | execute chance fails verdict approval request action =>
    by_cases hruns : verdict.runs approval
    · obtain ⟨hgoes, hsome⟩ := hmeets hruns
      obtain ⟨entries, hjournal⟩ := Option.isSome_iff_exists.mp hsome
      simp only [Files.step, execute_of_runs hruns]
      rcases run_cases hgoes hjournal with ⟨why, hr⟩ | ⟨done, e, entry, heffect, hr, hentry⟩
      · rw [hr]
        exact hinv
      · rw [hr]
        intro entries' hentries' x hx
        cases hentries'
        rcases List.mem_append.mp hx with hx | hx
        · exact hinv entries hjournal x hx
        · rw [List.mem_singleton.mp hx, hentry]
          exact ⟨⟨w.disk, e⟩, rfl, ⟨⟨fails, action, done, hgoes, heffect, rfl, rfl⟩⟩⟩
    · have hnot : ∃ x, w.execute plat chance fails verdict approval request action = (.ok x, w) ∧
          x.outcome ≠ .succeeded := execute_of_not_runs hruns
      obtain ⟨x, hr, -⟩ := hnot
      simp only [Files.step, hr]
      exact hinv
  | undo chance fails actionId =>
    simp only [Files.step, FileExecutor.undo]
    split
    · exact hinv
    · rename_i entries hjournal
      split
      · exact hinv
      · split
        all_goals
          intro entries' hentries'
          cases hentries'
          exact inv_mark (hinv entries hjournal)

end

def samplePlatform : Platform where
  text path := path.reverse.flatMap fun name => py "/" ++ name
  path text := ((text.splitOn (.scalar '/')).filter fun name => name ≠ []).reverse
  expanded text := .ok (if text.head? = some (.scalar '/') then
    some ((text.splitOn (.scalar '/')).filter fun name => name ≠ []).reverse else none)
  renameReplaces := true

def sampleNode (inode : ℕ) (kind : Kind) : Node := ⟨1, inode, 5, kind⟩

/-- A disk with `/a/f` and the folder `/b`. -/
def sampleDisk : Disk :=
  (((Dict.empty.set [] (sampleNode 1 (.folder 0))).set [py "a"] (sampleNode 2 (.folder 0))).set
    [py "b"] (sampleNode 3 (.folder 0))).set [py "f", py "a"] (sampleNode 4 (.file [1]))

def sampleWorld (disk : Disk) : FileExecutor := ⟨disk, some []⟩

def failing (call : DiskCall) : Fails := fun c =>
  if c = call then some ⟨py "PermissionError", []⟩ else none

def allowed : Verdict := ⟨false, false, py "allow", []⟩

theorem sampleWorld_start (disk : Disk) : (fileMachine samplePlatform).start (sampleWorld disk) := by
  intro entries h
  cases h
  rfl

end QronosAgent.Files

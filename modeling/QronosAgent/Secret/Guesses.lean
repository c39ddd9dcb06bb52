import QronosAgent.Secret.Turns

/-! Runs of the processes on one store: every answer has its transaction, and the record of the
guesses agrees with the counter. -/
namespace QronosAgent.Secret
open Lib

def answersOf : Except SecretFailure Decision → Option Bool
  | .ok d => d.answers
  | .error _ => none

def Turn.answers (t : Turn) : Option Bool := answersOf t.result

def wrongRow : List SecretEvent → ℕ
  | [] => 0
  | .turn t :: log =>
    if t.answers = some true then 0
    else if t.answers = some false then wrongRow log + 1
    else wrongRow log
  | _ :: log => wrongRow log

def lastWrong : List SecretEvent → Option Seconds
  | [] => none
  | .turn t :: log => if t.answers = some false then some t.now else lastWrong log
  | _ :: log => lastWrong log

def Paced : List SecretEvent → Prop
  | [] => True
  | .turn t :: log => (t.compared.isSome → maxFailuresBeforeLock ≤ wrongRow log →
      ∃ last, lastWrong log = some last ∧
        last + min 3600 (60 * 2 ^ (wrongRow log - maxFailuresBeforeLock)) ≤ t.now) ∧ Paced log
  | _ :: log => Paced log

def Earned (log : List SecretEvent) (id : CallId) : Answer → Prop
  | .yes => ∃ t, .turn t ∈ log ∧ t.call = id ∧ t.result = .ok (.verified true)
  | .no => ∃ t, .turn t ∈ log ∧ t.call = id ∧ t.result = .ok (.verified false)
  | .notChanged => ∃ t, .turn t ∈ log ∧ t.call = id ∧ t.result = .ok .notChanged
  | .raised .notConfigured =>
    ∃ t, .turn t ∈ log ∧ t.call = id ∧ t.result = .error .notConfigured
  | .status status =>
    (∃ file, .notFound id file ∈ log ∧ status = noStore) ∨
    ∃ l, .look l ∈ log ∧ l.call = id ∧ ∃ configured failures lockedUntil now,
      l.result = .ok (configured, failures, lockedUntil) ∧
      status = statusOf now configured failures lockedUntil
  | .noText | .raised _ => True

def AllEarned : List SecretEvent → Prop
  | [] => True
  | .answered id a :: log => Earned log id a ∧ AllEarned log
  | _ :: log => AllEarned log

def SecretEvent.change : SecretEvent → Option (SecretFile × SecretFile)
  | .turn t => some (t.before, t.after)
  | .look l => some (l.before, l.after)
  | .notFound _ _ | .answered _ _ => none

/-- Each transaction works on what the one before it has left. -/
def Chained : SecretFile → List SecretEvent → Prop
  | _, [] => True
  | file, event :: log =>
    match event.change with
    | some (before, after) => after = file ∧ Chained before log
    | none => Chained file log

/-- The call has not had its write transaction. -/
def CallStage.early : CallStage → Prop
  | .idle | .transacting _ => True
  | _ => False

inductive Answers : Except SecretFailure Decision → Answer → Prop
  | raised (e : SecretFailure) : Answers (.error e) (.raised e)
  | yes : Answers (.ok (.verified true)) .yes
  | no : Answers (.ok (.verified false)) .no
  | notChanged : Answers (.ok .notChanged) .notChanged
  | recordFails (d : Decision) : Answers (.ok d) (.raised .raised)

namespace SecretWorld

inductive Fires (P : Platform) (s : SecretWorld) : SecretMove → SecretWorld → Prop
  | tick (now : Seconds) : Fires P s (.tick now) { s with clock := now }
  | asked (id : CallId) (request : Request) (job : Job) : s.calls id = .idle →
      Fires P s (.ask id request) (s.goTo id (.transacting job))
  | askedStatus (id : CallId) (request : Request) : s.calls id = .idle →
      Fires P s (.ask id request) (s.goTo id .seeking)
  | refused (id : CallId) (request : Request) (a : Answer) : s.calls id = .idle →
      a = .noText ∨ (∃ e, e ≠ .notConfigured ∧ a = .raised e) →
      Fires P s (.ask id request) (s.answer id a)
  | transact (id : CallId) (faults : Faults) (new : NewRecord) (job : Job) :
      s.calls id = .transacting job →
      Fires P s (.transact id faults new) (s.transact P id job faults new)
  | answered (id : CallId) (recordFails : Bool) (r : Except SecretFailure Decision) (a : Answer) :
      s.calls id = .decided r → Answers r a → Fires P s (.answer id recordFails) (s.answer id a)
  | recorded (id : CallId) (recordFails : Bool) (r : Except SecretFailure Decision) :
      s.calls id = .decided r → Fires P s (.answer id recordFails) (s.goTo id .seeking)
  | notFound (id : CallId) : s.calls id = .seeking → s.file = .missing →
      Fires P s (.seek id)
        ({ s with log := .notFound id s.file :: s.log }.answer id (.status noStore))
  | found (id : CallId) : s.calls id = .seeking → Fires P s (.seek id) (s.goTo id .looking)
  | look (id : CallId) (faults : Faults) : s.calls id = .looking →
      Fires P s (.look id faults) (s.look id faults)
  | report (id : CallId) (configured : Bool) (failures : ℕ) (lockedUntil : Seconds) :
      s.calls id = .looked configured failures lockedUntil →
      Fires P s (.report id)
        (s.answer id (.status (statusOf s.clock configured failures lockedUntil)))

variable {P : Platform} {s t : SecretWorld} {id : CallId} {move : SecretMove}
  {event : SecretEvent} {faults : Faults}

theorem fires_ask (h : s.calls id = .idle) (request : Request) :
    s.Fires P (.ask id request) (s.ask P id request) := by
  cases request with
  | verify secret =>
    unfold ask
    simp only
    split
    · rename_i e he
      refine .refused id _ _ h (.inr ⟨e, ?_, rfl⟩)
      rintro rfl
      exact encoded_ne he
    · split
      · exact .refused id _ _ h (.inl rfl)
      · exact .asked id _ _ h
  | set new current =>
    unfold ask
    simp only
    split
    · rename_i e he
      refine .refused id _ _ h (.inr ⟨e, ?_, rfl⟩)
      rintro rfl
      exact proposedSecret_ne he
    · exact .asked id _ _ h
  | status => exact .askedStatus id _ h

theorem fires_decide {r : Except SecretFailure Decision} (h : s.calls id = .decided r)
    (recordFails : Bool) :
    s.Fires P (.answer id recordFails) (s.decide id recordFails r) := by
  unfold decide
  split
  · exact .answered id _ _ _ h (.raised _)
  · exact .answered id _ _ _ h .yes
  · refine .answered id _ _ _ h ?_
    cases recordFails with
    | true => exact .recordFails _
    | false => exact .no
  · refine .answered id _ _ _ h ?_
    cases recordFails with
    | true => exact .recordFails _
    | false => exact .notChanged
  · split
    · exact .answered id _ _ _ h (.recordFails _)
    · exact .recorded id _ _ h
  · split
    · exact .answered id _ _ _ h (.recordFails _)
    · exact .recorded id _ _ h

theorem fires (h : s.step P move = some t) : s.Fires P move t := by
  cases move with
  | tick now =>
    simp only [step] at h
    split at h
    · exact Option.some.inj h ▸ .tick now
    · contradiction
  | ask id request =>
    simp only [step] at h
    split at h
    · exact Option.some.inj h ▸ fires_ask ‹_› request
    · contradiction
  | transact id faults new =>
    simp only [step] at h
    split at h
    · exact Option.some.inj h ▸ .transact id faults new _ ‹_›
    · contradiction
  | answer id recordFails =>
    simp only [step] at h
    split at h
    · exact Option.some.inj h ▸ fires_decide ‹_› recordFails
    · contradiction
  | seek id =>
    simp only [step] at h
    split at h
    · cases h
      unfold seek
      split
      · exact .notFound id ‹_› ‹_›
      · exact .found id ‹_›
    · contradiction
  | look id faults =>
    simp only [step] at h
    split at h
    · exact Option.some.inj h ▸ .look id faults ‹_›
    · contradiction
  | report id =>
    simp only [step] at h
    split at h
    · exact Option.some.inj h ▸ .report id _ _ _ ‹_›
    · contradiction

def turnCall : SecretEvent → Option CallId
  | .turn t => some t.call
  | _ => none

structure Linked (s : SecretWorld) : Prop where
  decided : ∀ id r, s.calls id = .decided r →
    ∃ t, .turn t ∈ s.log ∧ t.call = id ∧ t.result = r
  looked : ∀ id configured failures lockedUntil,
    s.calls id = .looked configured failures lockedUntil →
      ∃ l, .look l ∈ s.log ∧ l.call = id ∧ l.result = .ok (configured, failures, lockedUntil)
  past : ∀ t, .turn t ∈ s.log → ¬ (s.calls t.call).early
  once : (s.log.filterMap turnCall).Nodup
  earned : AllEarned s.log

theorem Linked.start (hcalls : s.calls = fun _ => .idle) (hlog : s.log = []) :
    s.Linked := by
  constructor <;> simp [hcalls, hlog, AllEarned]

theorem Linked.goTo (h : s.Linked) {stage : CallStage}
    (hdecided : ∀ r, stage = .decided r → ∃ t, .turn t ∈ s.log ∧ t.call = id ∧ t.result = r)
    (hlooked : ∀ configured failures lockedUntil, stage = .looked configured failures lockedUntil →
      ∃ l, .look l ∈ s.log ∧ l.call = id ∧ l.result = .ok (configured, failures, lockedUntil))
    (hearly : stage.early → (s.calls id).early) : (s.goTo id stage).Linked where
  decided := by
    intro i r hi
    by_cases hid : i = id
    · subst hid
      exact hdecided r (by simpa [SecretWorld.goTo] using hi)
    · exact h.decided i r (by simpa [SecretWorld.goTo, hid] using hi)
  looked := by
    intro i configured failures lockedUntil hi
    by_cases hid : i = id
    · subst hid
      exact hlooked _ _ _ (by simpa [SecretWorld.goTo] using hi)
    · exact h.looked i _ _ _ (by simpa [SecretWorld.goTo, hid] using hi)
  past := by
    intro t ht
    by_cases hid : t.call = id
    · intro he
      apply h.past t ht
      rw [hid]
      exact hearly (by simpa [SecretWorld.goTo, hid] using he)
    · simpa [SecretWorld.goTo, hid] using h.past t ht
  once := h.once
  earned := h.earned

theorem Linked.push (h : s.Linked) (hturn : turnCall event = none)
    (hearned : AllEarned (event :: s.log)) :
    Linked { s with log := event :: s.log } where
  decided := by
    intro id r hi
    obtain ⟨t, ht, hcall⟩ := h.decided id r hi
    exact ⟨t, List.mem_cons_of_mem _ ht, hcall⟩
  looked := by
    intro id _ _ _ hi
    obtain ⟨l, hl, hcall⟩ := h.looked id _ _ _ hi
    exact ⟨l, List.mem_cons_of_mem _ hl, hcall⟩
  past := by
    intro t ht
    rcases List.mem_cons.mp ht with rfl | ht
    · simp [turnCall] at hturn
    · exact h.past t ht
  once := by simpa [hturn] using h.once
  earned := hearned

theorem Linked.answer (h : s.Linked) {a : Answer} (hearned : Earned s.log id a) :
    (s.answer id a).Linked := by
  have hdone : (s.goTo id .done).Linked := h.goTo (by simp) (by simp) (by simp [CallStage.early])
  exact hdone.push rfl ⟨hearned, h.earned⟩

theorem Linked.congr (h : s.Linked) (hcalls : t.calls = s.calls) (hlog : t.log = s.log) :
    t.Linked := by
  obtain ⟨hdecided, hlooked, hpast, honce, hearned⟩ := h
  exact ⟨hcalls ▸ hlog ▸ hdecided, hcalls ▸ hlog ▸ hlooked, hcalls ▸ hlog ▸ hpast,
    hlog ▸ honce, hlog ▸ hearned⟩

theorem Linked.transact (h : s.Linked) {job : Job} (hid : s.calls id = .transacting job)
    (faults : Faults) (new : NewRecord) :
    (s.transact P id job faults new).Linked := by
  have hnew (t : Turn) (ht : .turn t ∈ s.log) : t.call ≠ id := by
    rintro rfl
    apply h.past t ht
    rw [hid]
    trivial
  constructor
  · intro i r hi
    by_cases hii : i = id
    · subst hii
      refine ⟨_, List.mem_cons_self, rfl, ?_⟩
      simpa [SecretWorld.transact, SecretWorld.goTo] using hi
    · obtain ⟨t, ht, hcall⟩ := h.decided i r (by
        simpa [SecretWorld.transact, SecretWorld.goTo, hii] using hi)
      exact ⟨t, List.mem_cons_of_mem _ ht, hcall⟩
  · intro i _ _ _ hi
    by_cases hii : i = id
    · subst hii
      simp [SecretWorld.transact, SecretWorld.goTo] at hi
    · obtain ⟨l, hl, hcall⟩ := h.looked i _ _ _ (by
        simpa [SecretWorld.transact, SecretWorld.goTo, hii] using hi)
      exact ⟨l, List.mem_cons_of_mem _ hl, hcall⟩
  · intro t ht
    rcases List.mem_cons.mp ht with heq | ht
    · cases heq
      simp [SecretWorld.transact, SecretWorld.goTo, SecretWorld.turn, CallStage.early]
    · simpa [SecretWorld.transact, SecretWorld.goTo, hnew t ht] using h.past t ht
  · refine List.nodup_cons.mpr ⟨?_, h.once⟩
    intro hmem
    obtain ⟨event, hevent, hcall⟩ := List.mem_filterMap.mp hmem
    cases event with
    | turn t => exact hnew t hevent (Option.some.inj hcall)
    | _ => simp [turnCall] at hcall
  · exact h.earned

theorem Linked.look (h : s.Linked) (id : CallId) (faults : Faults) :
    (s.look id faults).Linked := by
  have hlook (file : SecretFile) (l : Look) :
      Linked { s with file := file, log := .look l :: s.log } := by
    have hpush : Linked { s with log := .look l :: s.log } := h.push rfl h.earned
    exact hpush.congr rfl rfl
  unfold SecretWorld.look
  simp only
  split
  · rename_i e he
    apply (hlook _ _).answer
    cases e with
    | notConfigured => exact absurd he readTransaction_ne
    | _ => trivial
  · apply (hlook _ _).goTo
    · simp
    · rintro _ _ _ ⟨⟩
      exact ⟨_, List.mem_cons_self, rfl, ‹_›⟩
    · simp [CallStage.early]

theorem Linked.step (h : s.Linked) (hf : s.Fires P move t) : t.Linked := by
  cases hf with
  | tick now => exact h.congr rfl rfl
  | asked id request job hid => exact h.goTo (by simp) (by simp) (by simp [hid, CallStage.early])
  | askedStatus id request hid =>
    exact h.goTo (by simp) (by simp) (by simp [CallStage.early])
  | refused id request a hid ha =>
    apply h.answer
    rcases ha with rfl | ⟨e, hne, rfl⟩
    · trivial
    · cases e with
      | notConfigured => contradiction
      | _ => trivial
  | transact id faults new job hid => exact h.transact hid faults new
  | answered id recordFails r a hid ha =>
    apply h.answer
    obtain ⟨t, ht, hcall⟩ := h.decided id r hid
    cases ha with
    | raised e =>
      cases e with
      | notConfigured => exact ⟨t, ht, hcall⟩
      | _ => trivial
    | yes | no | notChanged => exact ⟨t, ht, hcall⟩
    | recordFails d => trivial
  | recorded id recordFails r hid => exact h.goTo (by simp) (by simp) (by simp [CallStage.early])
  | notFound id hid hfile =>
    refine Linked.answer ?_ (.inl ⟨_, List.mem_cons_self, rfl⟩)
    exact h.push rfl h.earned
  | found id hid => exact h.goTo (by simp) (by simp) (by simp [CallStage.early])
  | look id faults hid => exact h.look id faults
  | report id configured failures lockedUntil hid =>
    apply h.answer
    obtain ⟨l, hl, hcall, hresult⟩ := h.looked id _ _ _ hid
    exact .inr ⟨l, hl, hcall, _, _, _, _, hresult, rfl⟩

def ReadsWhole (s : SecretWorld) : SecretMove → Prop
  | .transact _ faults _ => NotHidden s.file faults
  | .look _ faults => NotHidden s.file faults
  | _ => True

structure Recorded (P : Platform) (s : SecretWorld) : Prop where
  kept : ∀ t, .turn t ∈ s.log → Kept P t.job t.now t.before t.after t.result
  unlocked : ∀ t, .turn t ∈ s.log → t.compared.isSome → t.before.counter.2 ≤ t.now
  compared : ∀ t, .turn t ∈ s.log → ∀ ok, t.answers = some ok → t.compared = some ok
  looks : ∀ l, .look l ∈ s.log → ∀ configured failures lockedUntil,
    l.result = .ok (configured, failures, lockedUntil) →
      (configured = false → l.before.rows = []) ∧ (failures, lockedUntil) = l.before.counter
  notFound : ∀ id file, .notFound id file ∈ s.log → file.rows = []
  chained : Chained s.file s.log

theorem Recorded.push (h : s.Recorded P) (hchange : event.change = none)
    (hfound : ∀ id file, event = .notFound id file → file.rows = []) :
    Recorded P { s with log := event :: s.log } where
  kept t ht := by
    rcases List.mem_cons.mp ht with rfl | ht
    · contradiction
    · exact h.kept t ht
  unlocked t ht := by
    rcases List.mem_cons.mp ht with rfl | ht
    · contradiction
    · exact h.unlocked t ht
  compared t ht := by
    rcases List.mem_cons.mp ht with rfl | ht
    · contradiction
    · exact h.compared t ht
  looks l hl := by
    rcases List.mem_cons.mp hl with rfl | hl
    · contradiction
    · exact h.looks l hl
  notFound id file hf := by
    rcases List.mem_cons.mp hf with heq | hf
    · exact hfound id file heq.symm
    · exact h.notFound id file hf
  chained := by
    unfold Chained
    rw [hchange]
    exact h.chained

theorem Recorded.congr (h : s.Recorded P) (hfile : t.file = s.file) (hlog : t.log = s.log) :
    t.Recorded P := by
  obtain ⟨hkept, hunlocked, hcompared, hlooks, hnotFound, hchained⟩ := h
  exact ⟨hlog ▸ hkept, hlog ▸ hunlocked, hlog ▸ hcompared, hlog ▸ hlooks, hlog ▸ hnotFound,
    hfile ▸ hlog ▸ hchained⟩

theorem Recorded.answer (h : s.Recorded P) (id : CallId) (a : Answer) :
    (s.answer id a).Recorded P := by
  have hgo : (s.goTo id .done).Recorded P := h.congr rfl rfl
  exact hgo.push rfl (by simp)

theorem Recorded.transact (h : s.Recorded P) (id : CallId) (job : Job) (new : NewRecord)
    (hseen : NotHidden s.file faults) :
    (s.transact P id job faults new).Recorded P where
  kept t ht := by
    rcases List.mem_cons.mp ht with heq | ht
    · cases heq
      exact kept_writeTransaction hseen
    · exact h.kept t ht
  unlocked t ht := by
    rcases List.mem_cons.mp ht with heq | ht
    · cases heq
      intro hsome
      obtain ⟨ok, hok⟩ := Option.isSome_iff_exists.mp hsome
      exact unlocked_of_compared hseen hok
    · exact h.unlocked t ht
  compared t ht := by
    rcases List.mem_cons.mp ht with heq | ht
    · cases heq
      intro ok hok
      unfold Turn.answers answersOf at hok
      split at hok
      · exact compared_of_answers ‹_› hok
      · contradiction
    · exact h.compared t ht
  looks l hl := by
    rcases List.mem_cons.mp hl with heq | hl
    · cases heq
    · exact h.looks l hl
  notFound id file hf := by
    rcases List.mem_cons.mp hf with heq | hf
    · cases heq
    · exact h.notFound id file hf
  chained := ⟨rfl, h.chained⟩

theorem Recorded.look (h : s.Recorded P) (id : CallId) (hseen : NotHidden s.file faults) :
    (s.look id faults).Recorded P := by
  have hlook : Recorded P { s with
      file := (readTransaction faults s.file).1
      log := .look ⟨id, s.file, (readTransaction faults s.file).1,
        (readTransaction faults s.file).2⟩ :: s.log } := by
    constructor
    · intro t ht
      rcases List.mem_cons.mp ht with heq | ht
      · cases heq
      · exact h.kept t ht
    · intro t ht
      rcases List.mem_cons.mp ht with heq | ht
      · cases heq
      · exact h.unlocked t ht
    · intro t ht
      rcases List.mem_cons.mp ht with heq | ht
      · cases heq
      · exact h.compared t ht
    · intro l hl
      rcases List.mem_cons.mp hl with heq | hl
      · cases heq
        intro _ _ _ hresult
        exact readTransaction_ok hseen hresult
      · exact h.looks l hl
    · intro id file hf
      rcases List.mem_cons.mp hf with heq | hf
      · cases heq
      · exact h.notFound id file hf
    · exact ⟨rfl, h.chained⟩
  unfold SecretWorld.look
  simp only
  split
  · exact hlook.answer _ _
  · exact hlook.congr rfl rfl

theorem Recorded.step (h : s.Recorded P) (hok : s.ReadsWhole move) (hf : s.Fires P move t) :
    t.Recorded P := by
  cases hf with
  | tick | asked | askedStatus | recorded | found => exact h.congr rfl rfl
  | refused | answered | report => exact h.answer _ _
  | transact id faults new job _ => exact h.transact id job new hok
  | notFound id _ hfile =>
    refine Recorded.answer (h.push rfl ?_) _ _
    rintro _ _ ⟨⟩
    rw [hfile]
    rfl
  | look id faults _ => exact h.look id hok

end SecretWorld
end QronosAgent.Secret

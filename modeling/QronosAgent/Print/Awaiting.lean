import QronosAgent.Print.Steps

/-! What a submit keeps while it waits for its job, settles the attempt and follows the job. -/
namespace QronosAgent.Print
open Lib
open Workflow (SideEffectState Failure Want Procedure Phase)

/-- The only job that matches before the renderer's own number is known is the renderer's job. -/
def TakeOk (casefold : PyStr → PyStr) (p : Printing) : Prop :=
  ∀ found job, p.point = .exact found → p.prepared.route = .renderer →
    p.worker.bind RenderedJob.jobId = none →
      ({ p with exactId := none } : Printing).newJobs casefold found = [job] →
        p.worker.bind RenderedJob.startDoc = some job.jobId

/-- What is closed does not raise. -/
def CloseOk (p : Printing) (r : Reading) : Prop :=
  ∀ name, r = .raised name → (p.point = .dropping → p.watcher ≠ .held) ∧
    ∀ after, p.point ≠ .closeHandler after ∧ p.point ≠ .closeWatcher after

/-- Points of `_await_job` before its end. -/
def Point.awaits : Point → Bool
  | .poll | .exact _ | .finished | .sleep | .rescue _ => true
  | _ => false

section
variable {casefold : PyStr → PyStr} {p p' : Printing}

variable {point next : Point} {a : Awaited} {r : Reading} {gs : List Note}
  {job job' : RenderedJob} {m : WorkerMove}

theorem Kept.base_of (h : Kept casefold p) (hp : p.point = point) (hlevel : point.level = 4) :
    Base casefold p :=
  h.base (by rw [hp, hlevel])

theorem Kept.waits (h : Kept casefold p) (hp : p.point = point) (hlevel : point.level = 4)
    (hearly : next.isEarly = false) (hhandler : next.mayHoldHandler = true ∨ p.handler ≠ .held)
    (hwatcher : next.mayHoldWatcher = true ∨ p.watcher ≠ .held)
    (hconfirmed : next.isConfirmed = true → point.isConfirmed = true)
    (hrefused : ∀ detail, next ≠ .refused detail)
    (hcarries : ∀ a, next.carries = some a → AwaitedOk p a)
    (hreports : ∀ jobId, next.reports = some jobId → p.taken = some jobId)
    (hresuming : next ≠ .resuming) : Kept casefold (p.goTo next) := by
  apply ((h.base_of hp hlevel).goTo next).kept hearly
  · exact fun hheld => hhandler.resolve_right (fun hne => hne hheld)
  · exact fun hheld => hwatcher.resolve_right (fun hne => hne hheld)
  · exact fun hnext => h.confirmed (by rw [hp]; exact hconfirmed hnext)
  · exact fun detail hnext => absurd hnext (hrefused detail)
  · intro a ha
    obtain ⟨hproved, hcarried⟩ := hcarries a ha
    exact ⟨hproved, hcarried⟩
  · exact fun jobId hnext => .inl (hreports jobId hnext)
  · exact fun hnext => absurd hnext hresuming

theorem awaited_plain (h : a = .spooled ∨ a = .stopped ∨ a = .nothing ∨ a = .several) :
    AwaitedOk p a := by
  rcases h with rfl | rfl | rfl | rfl <;> exact ⟨(by rintro ⟨⟩), (by rintro _ _ ⟨⟩)⟩

theorem Kept.returns (h : Kept casefold p) (hp : p.point = point) (hlevel : point.level = 4)
    (ha : AwaitedOk p a) : Kept casefold (p.goTo (.returned a)) := by
  apply h.waits hp hlevel rfl (.inl rfl) (.inl rfl)
  · rintro ⟨⟩
  · exact fun detail hnext => by cases hnext
  · rintro a' ha'
    cases ha'
    exact ha
  · exact fun jobId hnext => by cases hnext
  · rintro ⟨⟩

theorem Kept.goes_on (h : Kept casefold p) (hp : p.point = point) (hlevel : point.level = 4)
    (hnext : next.awaits = true) : Kept casefold (p.goTo next) := by
  apply h.waits hp hlevel
  · cases next <;> first | rfl | cases hnext
  · cases next <;> first | exact .inl rfl | cases hnext
  · cases next <;> first | exact .inl rfl | cases hnext
  · intro hconfirmed
    cases next <;> first | cases hnext; done | cases hconfirmed
  · rintro detail rfl
    cases hnext
  · intro a ha
    cases next <;> first | cases hnext; done | cases ha
  · intro jobId hreports
    cases next <;> first | cases hnext; done | cases hreports
  · rintro rfl
    cases hnext

theorem Kept.handlerDone (h : Kept casefold p) : Kept casefold { p with handlerDone := true } :=
  ⟨{ h.checked with }, h.handler, h.watcher,
    h.early, h.submitting, h.confirmed, h.refused, h.proved, h.notSubmitted, h.worker, h.exactId,
    h.carried, h.own, h.reported, h.resuming⟩

theorem Kept.checkFinished (h : Kept casefold p) (hp : p.point = .finished) (expired done : Bool) :
    Kept casefold (p.checkFinished expired done) := by
  have hwaits : ∀ q : Printing, Kept casefold q → q.point = .finished →
      Kept casefold (q.goTo (if expired then .returned .nothing else .sleep)) := by
    intro q hq hpoint
    split
    · exact hq.returns hpoint rfl (awaited_plain (.inr (.inr (.inl rfl))))
    · exact hq.goes_on hpoint rfl rfl
  unfold Printing.checkFinished
  simp only
  -- the handler is a thread or a process
  split
  all_goals
    split
    · split
      · rename_i hreason
        exact h.handlerDone.returns hp rfl ⟨fun _ => hreason, (by rintro _ _ ⟨⟩)⟩
      · split
        · exact h.handlerDone.returns hp rfl (awaited_plain (.inl rfl))
        · exact hwaits _ h.handlerDone hp
    · exact hwaits p h hp

theorem Kept.reads (h : Kept casefold p) :
    Kept casefold { p with exactId := p.worker.bind RenderedJob.jobId } :=
  ⟨{ h.checked with }, h.handler, h.watcher,
    h.early, h.submitting, h.confirmed, h.refused, h.proved, h.notSubmitted, h.worker,
    fun _ hid => hid, h.carried, h.own, h.reported, h.resuming⟩

theorem Kept.take (h : Kept casefold p) {found : List PrintJobState} (hp : p.point = .exact found)
    (hok : TakeOk casefold p) : Kept casefold (p.take casefold found) := by
  have hreads := h.reads
  unfold Printing.take
  simp only
  split
  · exact hreads.goes_on hp rfl rfl
  · rename_i job hjob
    have hb := hreads.base_of hp rfl
    have hown : p.prepared.route = .renderer → p.worker.bind RenderedJob.startDoc = some job.jobId := by
      intro hroute
      cases hid : p.worker.bind RenderedJob.jobId with
      | none =>
        rw [hid] at hjob
        exact hok found job hp hroute hid hjob
      | some jobId =>
        have hmem : job ∈ found.filter fun job => job.jobId = jobId := by
          rw [hid] at hjob
          simp only [Printing.newJobs] at hjob
          rw [hjob]
          exact List.mem_singleton.mpr rfl
        have hsame : job.jobId = jobId := of_decide_eq_true (List.mem_filter.mp hmem).2
        obtain ⟨worker, hworker, hpublished⟩ := Option.bind_eq_some_iff.mp hid
        rw [hworker]
        exact (h.worker worker hworker).published _ (hsame ▸ hpublished)
    refine Base.kept ⟨{ hb.checked with }, hb.notSubmitted, hb.worker, hb.exactId, ?_⟩ rfl (fun _ => rfl) (fun _ => rfl)
      (by rintro ⟨⟩) (by rintro _ ⟨⟩) ?_ (by rintro _ ⟨⟩)
      (by rintro ⟨⟩)
    · intro hroute jobId htaken
      cases htaken
      exact hown hroute
    · intro a ha
      cases ha
      refine ⟨(by rintro ⟨⟩), ?_⟩
      intro jobId status ha
      cases ha
      rfl
  · exact hreads.returns hp rfl (awaited_plain (.inr (.inr (.inr rfl))))

theorem Kept.await (h : Kept casefold p) (hok : r = .go → TakeOk casefold p)
    (hr : p.await casefold r = some p') : Kept casefold p' := by
  unfold Printing.await at hr
  cases r with
  | checkpoint cancelled approvalValid detail =>
    obtain ⟨hp, ⟨⟩⟩ := Option.ite_none_right_eq_some.mp hr
    split
    · apply h.goTo (.inl (by rw [hp]; rfl)) (by rw [hp]; exact fun hn => hn) (fun _ => rfl)
        (by rw [hp]; exact fun hn => hn) (fun _ => hp)
      · rintro ⟨⟩
      · rintro _ ⟨⟩
      · rintro _ ⟨⟩
      · rintro _ ⟨⟩
      · rintro ⟨⟩
    · apply h.goTo (.inl (by rw [hp]; rfl)) (by rw [hp]; exact fun hn => hn) (fun _ => rfl)
      · rintro ⟨⟩
      · exact fun hn => by rcases hn with hn | hn <;> cases hn
      · rintro ⟨⟩
      · exact fun _ _ => by rw [hp]; rfl
      · rintro _ ⟨⟩
      · rintro _ ⟨⟩
      · rintro ⟨⟩
  | jobs seen live =>
    obtain ⟨hp, ⟨⟩⟩ := Option.ite_none_right_eq_some.mp hr
    exact h.goes_on hp rfl rfl
  | finished expired done =>
    obtain ⟨hp, ⟨⟩⟩ := Option.ite_none_right_eq_some.mp hr
    exact h.checkFinished hp expired done
  | slept cancelled =>
    obtain ⟨hp, ⟨⟩⟩ := Option.ite_none_right_eq_some.mp hr
    split
    · exact h.returns hp rfl (awaited_plain (.inr (.inl rfl)))
    · exact h.goes_on hp rfl rfl
  | go =>
    simp only at hr
    split at hr
    · rename_i found hp
      cases hr
      exact h.take hp (hok rfl)
    · rename_i a hp
      cases hr
      apply (h.base_of hp rfl).closes
      rintro a' ha
      cases ha
      exact h.awaited (by rw [hp]; rfl)
    · rename_i after hp
      cases hr
      have hb : Base casefold { p with handler := .closed } :=
        (h.base_of hp rfl).same ⟨rfl, rfl, rfl, rfl, rfl, rfl, rfl, rfl, rfl⟩ rfl
      apply hb.closes
      rintro a rfl
      obtain ⟨hproved, hcarried⟩ := h.awaited (a := a) (by rw [hp]; rfl)
      exact ⟨hproved, hcarried⟩
    · rename_i after hp
      cases hr
      have hb : Base casefold { p with watcher := .closed } :=
        (h.base_of hp rfl).same ⟨rfl, rfl, rfl, rfl, rfl, rfl, rfl, rfl, rfl⟩ rfl
      apply hb.closes
      rintro a rfl
      obtain ⟨hproved, hcarried⟩ := h.awaited (a := a) (by rw [hp]; rfl)
      exact ⟨hproved, hcarried⟩
    · cases hr
  | _ => cases hr

theorem Kept.follows (h : Kept casefold p) (hp : p.point = point)
    (hpoint : point.isConfirmed = true) (hnext : next.isConfirmed = true)
    (hreports : ∀ jobId, next.reports = some jobId → p.taken = some jobId)
    (hresuming : next ≠ .resuming) : Kept casefold (p.goTo next) := by
  have hlevel : point.level = 4 := by
    cases point <;> first | rfl | cases hpoint
  obtain ⟨hhandler, hwatcher⟩ := h.not_held hp
  apply h.waits hp hlevel
  · cases next <;> first | rfl | cases hnext
  · apply Or.inr (hhandler _)
    cases point <;> first | rfl | cases hpoint
  · apply Or.inr (hwatcher _)
    cases point <;> first | rfl | cases hpoint
  · exact fun _ => hpoint
  · rintro detail rfl
    cases hnext
  · intro a ha
    cases next <;> first | cases hnext; done | cases ha
  · exact hreports
  · exact hresuming

theorem Kept.isReported (h : Kept casefold p) (hp : p.point = point)
    (hpoint : point.isConfirmed = true) {outcome : Outcome} (hcertain : outcome ≠ .uncertain) :
    Kept casefold (p.goTo (.reported ⟨outcome, p.taken⟩)) := by
  apply h.follows hp hpoint
  · exact decide_eq_true hcertain
  · exact fun jobId hnext => hnext
  · rintro ⟨⟩

theorem Kept.status (h : Kept casefold p) (status : ℕ) : Kept casefold { p with status := status } :=
  ⟨{ h.checked with }, h.handler, h.watcher,
    h.early, h.submitting, h.confirmed, h.refused, h.proved, h.notSubmitted, h.worker, h.exactId,
    h.carried, h.own, h.reported, h.resuming⟩

theorem Kept.judge (h : Kept casefold p) (hp : p.point = .judge) : Kept casefold p.judge := by
  unfold Printing.judge
  split
  · exact h.isReported hp rfl (by decide)
  split
  · obtain ⟨hhandler, hwatcher⟩ := h.not_held hp
    have hb := h.base_of hp rfl
    have hresumed : Base casefold { p with resumed := true, point := .resuming } :=
      hb.same ⟨rfl, rfl, rfl, rfl, rfl, rfl, rfl, rfl, rfl⟩ rfl
    apply hresumed.kept rfl
    · exact fun hheld => absurd hheld (hhandler rfl)
    · exact fun hheld => absurd hheld (hwatcher rfl)
    · exact fun _ => h.confirmed (by rw [hp]; rfl)
    · exact fun detail hn => by cases hn
    · exact fun a hn => by cases hn
    · exact fun jobId hn => by cases hn
    · exact fun _ => rfl
  split <;> exact h.follows hp rfl rfl (by rintro _ ⟨⟩) (by rintro ⟨⟩)

theorem Kept.find (h : Kept casefold p) (hp : p.point = .follow)
    (jobs : Option (List PrintJobState)) : Kept casefold (p.find jobs) := by
  unfold Printing.find
  split
  · exact h.follows hp rfl rfl (by rintro _ ⟨⟩) (by rintro ⟨⟩)
  · split
    · exact h.isReported hp rfl (by decide)
    · rename_i job _
      have hstatus := h.status job.status
      split
      · exact hstatus.isReported hp rfl (by decide)
      · exact hstatus.follows hp rfl rfl (by rintro _ ⟨⟩) (by rintro ⟨⟩)

theorem Kept.monitor (h : Kept casefold p) (hr : p.monitor r = some p') :
    Kept casefold p' := by
  unfold Printing.monitor at hr
  cases r with
  | go =>
    simp only at hr
    split at hr
    · rename_i hp
      cases hr
      exact h.judge hp
    · rename_i hp
      cases hr
      exact h.isReported hp rfl (by decide)
    · cases hr
  | clock late =>
    obtain ⟨hp, ⟨⟩⟩ := Option.ite_none_right_eq_some.mp hr
    split
    · exact h.isReported hp rfl (by decide)
    · exact h.follows hp rfl rfl (by rintro _ ⟨⟩) (by rintro ⟨⟩)
  | slept cancelled =>
    obtain ⟨hp, ⟨⟩⟩ := Option.ite_none_right_eq_some.mp hr
    split
    · exact h.isReported hp rfl (by decide)
    · exact h.follows hp rfl rfl (by rintro _ ⟨⟩) (by rintro ⟨⟩)
  | live jobs =>
    obtain ⟨hp, ⟨⟩⟩ := Option.ite_none_right_eq_some.mp hr
    exact h.find hp jobs
  | _ => cases hr

/-- `control_job` is over, or raises. -/
theorem Kept.controls (h : Kept casefold p) (hp : p.point = .resuming)
    (hr : p.controls casefold r = some (p', gs)) : Kept casefold p' := by
  unfold Printing.controls at hr
  cases r with
  | control =>
    cases hr
    exact h.follows hp rfl rfl (by rintro _ ⟨⟩) (by rintro ⟨⟩)
  | raised name =>
    cases hr
    exact h.isReported hp rfl (by decide)
  | _ => cases hr

theorem Kept.fails (h : Kept casefold p) {name : PyStr} (hcheckpoint : CheckpointOk p (.raised name))
    (hok : CloseOk p (.raised name)) (hr : p.fails name = some p') : Kept casefold p' := by
  obtain ⟨hdrop, hclose⟩ := hok name rfl
  unfold Printing.fails at hr
  have hstops : ∀ point : Point, p.point = point → point.isUnbegun = true →
      (point.mayHoldWatcher = false ∨ p.watcher ≠ .held) → Kept casefold (p.goTo .stopped) := by
    intro point hp hunbegun hwatcher
    have hnot : p.watcher ≠ .held := hwatcher.elim (h.not_held hp).2 id
    exact h.fresh ⟨rfl, rfl, rfl, rfl, rfl, rfl, rfl, rfl, rfl⟩ (hp ▸ hunbegun) rfl
      (checked_stopped (p := p.goTo .stopped) rfl hnot).1 fun hheld => absurd hheld hnot
  cases hp : p.point with
  | entry | recheckFile | file | recheckPrinter | printer | handler | user | before | watch =>
    simp only [hp] at hr
    cases hr
    exact hstops _ hp rfl (.inl rfl)
  | submitCheck =>
    simp only [hp] at hr
    cases hr
    refine hstops _ hp rfl (.inr fun hheld => ?_)
    obtain ⟨detail, heq⟩ := hcheckpoint hp hheld
    cases heq
  | dropping =>
    simp only [hp] at hr
    cases hr
    exact hstops _ hp rfl (.inr (hdrop hp))
  | grant =>
    simp only [hp] at hr
    cases hr
    refine h.fresh ⟨rfl, rfl, rfl, rfl, rfl, rfl, rfl, rfl, rfl⟩ (hp ▸ rfl) rfl ?_ (fun _ => rfl)
    have hold : Checked casefold 4 p := h.checked.mono (.inr (by rw [hp]; decide))
    exact { hold with }
  | guard =>
    simp only [hp] at hr
    cases hr
    apply h.waits hp rfl rfl (.inr ((h.not_held hp).1 rfl)) (.inl rfl)
    · rintro ⟨⟩
    · exact fun detail hn => by cases hn
    · exact fun a hn => by cases hn
    · exact fun jobId hn => by cases hn
    · rintro ⟨⟩
  | poll | exact _ | finished | sleep =>
    simp only [hp] at hr
    cases hr
    exact h.goes_on hp rfl rfl
  | returned _ =>
    simp only [hp] at hr
    cases hr
    apply (h.base_of hp rfl).closes
    exact fun a hn => by cases hn
  | closeHandler after => exact absurd hp (hclose after).1
  | closeWatcher after => exact absurd hp (hclose after).2
  | judge | attention | clock | monitorSleep | follow =>
    simp only [hp] at hr
    cases hr
    exact h.isReported hp rfl (by decide)
  | _ =>
    simp only [hp] at hr
    cases hr

theorem newJob_ok : JobOk newJob where
  published := by rintro _ ⟨⟩
  unsubmitted := by rintro ⟨⟩
  preparing := fun _ => ⟨rfl, rfl⟩

theorem Kept.starts (h : Kept casefold p) (hp : p.point = .start) (o : Started) :
    Kept casefold (p.starts o) := by
  obtain ⟨-, hworker, htaken⟩ := h.early (by rw [hp]; rfl)
  have hstates := h.submitting (.inr hp)
  have hb := h.base_of hp rfl
  have hexact : p.exactId = none := by
    cases hid : p.exactId with
    | none => rfl
    | some jobId =>
      have hpublished := hb.exactId jobId hid
      rw [hworker] at hpublished
      cases hpublished
  have hsubmitting : SideEffectState.notSubmitted ∉ p.states := by
    rw [hstates]
    simp
  have hchecked : ∀ q : Printing, q.prepared = p.prepared → q.approval = p.approval →
      q.readings = p.readings → Checked casefold 4 q := by
    intro q hprepared happroval hreadings
    constructor
    · rw [happroval, hprepared]
      exact hb.checked.approval
    · rw [hreadings, hprepared]
      exact hb.checked.file
    · rw [hreadings, hprepared]
      exact hb.checked.printer
    · rw [hreadings, hprepared]
      exact hb.checked.handler
  have hnever : ∀ jobId, p.taken ≠ some jobId := by
    intro jobId hjob
    rw [htaken] at hjob
    cases hjob
  cases o with
  | returns =>
    refine Base.kept ⟨hchecked _ rfl rfl rfl, fun hmem => absurd hmem hsubmitting, ?_, ?_,
      fun _ jobId hjob => absurd hjob (hnever jobId)⟩ rfl (fun _ => rfl) (fun _ => rfl)
      (by rintro ⟨⟩) (by rintro _ ⟨⟩) (by rintro _ ⟨⟩)
      (by rintro _ ⟨⟩) (by rintro ⟨⟩)
    · intro job hjob
      simp only [Printing.starts] at hjob
      split at hjob
      · cases hjob
        exact newJob_ok
      · cases hjob
    · intro jobId hid
      have hid' : p.exactId = some jobId := hid
      rw [hexact] at hid'
      cases hid'
  | notSubmitted detail =>
    refine Base.kept ⟨hchecked _ rfl rfl rfl, fun _ => .inr (.inl rfl), hb.worker, hb.exactId,
      hb.own⟩ rfl (fun hheld => absurd hheld ((h.not_held hp).1 rfl)) (fun _ => rfl)
      (by rintro ⟨⟩) (fun _ _ => .inr rfl) (by rintro _ ⟨⟩)
      (by rintro _ ⟨⟩) (by rintro ⟨⟩)
  | raises name =>
    refine Base.kept ⟨hchecked _ rfl rfl rfl, fun hmem => absurd hmem hsubmitting, hb.worker,
      hb.exactId, hb.own⟩ rfl (fun hheld => absurd hheld ((h.not_held hp).1 rfl)) (fun _ => rfl)
      (by rintro ⟨⟩) (by rintro _ ⟨⟩) (by rintro _ ⟨⟩)
      (by rintro _ ⟨⟩) (by rintro ⟨⟩)

structure JobGrows (job job' : RenderedJob) : Prop where
  reason : job.notSubmittedReason.isSome = true → job'.notSubmittedReason.isSome = true
  jobId : ∀ jobId, job.jobId = some jobId → job'.jobId = some jobId
  startDoc : ∀ jobId, job.startDoc = some jobId → job'.startDoc = some jobId

theorem JobOk.move (h : JobOk job) (hm : job.move m = some job') :
    JobOk job' ∧ JobGrows job job' := by
  unfold RenderedJob.move at hm
  cases m with
  | fails reason =>
    obtain ⟨hp, ⟨⟩⟩ := Option.ite_none_right_eq_some.mp hm
    obtain ⟨hdoc, -⟩ := h.preparing hp
    exact ⟨⟨h.published, fun _ => hdoc, (by rintro ⟨⟩)⟩,
      ⟨fun _ => rfl, fun _ hid => hid, fun _ hid => hid⟩⟩
  | startDoc jobId =>
    obtain ⟨hp, ⟨⟩⟩ := Option.ite_none_right_eq_some.mp hm
    simp only [Bool.and_eq_true, decide_eq_true_eq] at hp
    obtain ⟨hdoc, hreason⟩ := h.preparing hp.1
    refine ⟨⟨fun id hid => ?_, fun hsome => ?_, (by rintro ⟨⟩)⟩,
      ⟨fun hsome => hsome, fun _ hid => hid, fun id hid => ?_⟩⟩
    · have hold := h.published id hid
      rw [hdoc] at hold
      cases hold
    · have hsome' : job.notSubmittedReason.isSome = true := hsome
      rw [hreason] at hsome'
      cases hsome'
    · rw [hdoc] at hid
      cases hid
  | publish =>
    obtain ⟨-, ⟨⟩⟩ := Option.ite_none_right_eq_some.mp hm
    exact ⟨⟨fun _ hid => hid, h.unsubmitted, (by rintro ⟨⟩)⟩,
      ⟨fun hsome => hsome, fun id hid => h.published id hid, fun _ hid => hid⟩⟩
  | drawn | drawFails _ | ends _ =>
    obtain ⟨-, ⟨⟩⟩ := Option.ite_none_right_eq_some.mp hm
    exact ⟨⟨h.published, h.unsubmitted, (by rintro ⟨⟩)⟩,
      ⟨fun hsome => hsome, fun _ hid => hid, fun _ hid => hid⟩⟩

theorem Kept.worker_moves (h : Kept casefold p) (hjob : p.worker = some job)
    (hm : job.move m = some job') :
    Kept casefold { p with worker := some job' } := by
  obtain ⟨hok, hgrows⟩ := (h.worker job hjob).move hm
  have hreason : (p.worker.bind RenderedJob.notSubmittedReason).isSome = true →
      job'.notSubmittedReason.isSome = true := by
    rw [hjob]
    exact hgrows.reason
  have hid : ∀ jobId, p.worker.bind RenderedJob.jobId = some jobId → job'.jobId = some jobId := by
    rw [hjob]
    exact hgrows.jobId
  have hdoc : ∀ jobId, p.worker.bind RenderedJob.startDoc = some jobId →
      job'.startDoc = some jobId := by
    rw [hjob]
    exact hgrows.startDoc
  refine ⟨{ h.checked with }, h.handler,
    h.watcher, ?_, h.submitting, h.confirmed, h.refused, fun hp => hreason (h.proved hp), ?_, ?_,
    fun jobId hexact => hid jobId (h.exactId jobId hexact), h.carried,
    fun hroute jobId htaken => hdoc jobId (h.own hroute jobId htaken), ?_, h.resuming⟩
  · intro hearly
    have hnone := (h.early hearly).2.1
    rw [hjob] at hnone
    cases hnone
  · exact fun hmem => (h.notSubmitted hmem).imp_right (Or.imp_right hreason)
  · rintro other hother
    cases hother
    exact hok
  · exact fun jobId hreports => (h.reported jobId hreports).imp_right (hid jobId)

theorem Kept.read (h : Kept casefold p) (htake : r = .go → TakeOk casefold p)
    (hcheckpoint : CheckpointOk p r) (hclose : CloseOk p r)
    (hr : p.read casefold r = some (p', gs)) : Kept casefold p' := by
  have hplain : ∀ r : Reading, CheckpointOk p r → (r = .go → TakeOk casefold p) →
      ((((p.prepare casefold r).or (p.await casefold r)).or (p.monitor r)).map
        fun p => (p, ([] : List Note))) = some (p', gs) → Kept casefold p' := by
    intro r hcheckpoint htake hr
    obtain ⟨q, hq, heq⟩ := Option.map_eq_some_iff.mp hr
    cases heq
    rcases Option.or_eq_some_iff.mp hq with hq | ⟨-, hq⟩
    · rcases Option.or_eq_some_iff.mp hq with hq | ⟨-, hq⟩
      · exact h.prepare hcheckpoint hq
      · exact h.await htake hq
    · exact h.monitor hq
  unfold Printing.read at hr
  cases r with
  | worker m =>
    obtain ⟨job', hm, heq⟩ := Option.map_eq_some_iff.mp hr
    obtain ⟨job, hjob, hm⟩ := Option.bind_eq_some_iff.mp hm
    cases heq
    exact h.worker_moves hjob hm
  | started o =>
    obtain ⟨hp, ⟨⟩⟩ := Option.ite_none_right_eq_some.mp hr
    exact h.starts hp o
  | raised name =>
    simp only at hr
    split at hr
    · rename_i hp
      exact h.controls hp hr
    · obtain ⟨q, hq, heq⟩ := Option.map_eq_some_iff.mp hr
      cases heq
      exact h.fails hcheckpoint hclose hq
  | _ =>
    simp only at hr
    split at hr
    · rename_i hp
      exact h.controls hp hr
    · exact hplain _ hcheckpoint htake hr

theorem Base.given (hb : Base casefold p) {state : SideEffectState}
    (r : Except Failure (Option SideEffectState))
    (hstate : state = .notSubmitted → p.asked = false ∨ p.notLaunched = true ∨
      (p.worker.bind RenderedJob.notSubmittedReason).isSome = true) :
    Base casefold (p.given state r) := by
  refine ⟨{ hb.checked with }, ?_,
    hb.worker, hb.exactId, hb.own⟩
  intro hmem
  cases r with
  | ok _ => exact hstate (List.mem_singleton.mp hmem).symm
  | error _ =>
    rcases List.mem_cons.mp hmem with heq | hmem
    · exact hstate heq.symm
    · exact hb.notSubmitted hmem

theorem awaitedState_notSubmitted (h : Printing.awaitedState a = .notSubmitted) :
    a = .notSubmitted := by
  cases a <;> first | rfl | cases h

theorem Kept.settled (h : Kept casefold p) (hp : p.point = .settling a)
    (r : Except Failure (Option SideEffectState)) : Kept casefold (p.told r) := by
  obtain ⟨hproved, hcarried⟩ := h.awaited (a := a) (by rw [hp]; rfl)
  obtain ⟨hhandler, hwatcher⟩ := h.not_held hp
  have hb : Base casefold (p.given (Printing.awaitedState a) r) :=
    (h.base_of hp rfl).given r fun heq =>
      .inr (.inr (hproved (awaitedState_notSubmitted heq)))
  have hgo : ∀ point : Point, point.isEarly = false →
      (point.isConfirmed = true → (p.given (Printing.awaitedState a) r).states = [.confirmed]) →
        (∀ detail, point ≠ .refused detail) → point.carries = none →
          (∀ jobId, point.reports = some jobId → p.worker.bind RenderedJob.jobId = some jobId) →
            point ≠ .resuming → Kept casefold ((p.given (Printing.awaitedState a) r).goTo point) := by
    intro point hearly hconfirmed hrefused hcarries hreports hresuming
    apply (hb.goTo point).kept hearly
    · exact fun hheld => absurd hheld (hhandler rfl)
    · exact fun hheld => absurd hheld (hwatcher rfl)
    · exact hconfirmed
    · exact fun detail hn => absurd hn (hrefused detail)
    · intro a' ha
      have ha' : point.carries = some a' := ha
      rw [hcarries] at ha'
      cases ha'
    · exact fun jobId hn => .inr (hreports jobId hn)
    · exact fun hn => absurd hn hresuming
  unfold Printing.told
  simp only [hp]
  cases r with
  | error e =>
    apply hgo _ rfl (by rintro ⟨⟩) (by rintro _ ⟨⟩) rfl
      (by rintro _ ⟨⟩) (by rintro ⟨⟩)
  | ok x =>
    cases a with
    | notSubmitted | stopped | nothing | several =>
      apply hgo _ rfl (by rintro ⟨⟩) (by rintro _ ⟨⟩) rfl
        (by rintro _ ⟨⟩) (by rintro ⟨⟩)
    | spooled =>
      apply hgo (.reported ⟨.succeeded, p.worker.bind RenderedJob.jobId⟩) rfl (fun _ => rfl)
        (by rintro _ ⟨⟩) rfl (fun jobId hn => hn) (by rintro ⟨⟩)
    | job jobId status =>
      apply hgo _ rfl (fun _ => rfl) (by rintro _ ⟨⟩) rfl (by rintro _ ⟨⟩)
        (by rintro ⟨⟩)

theorem Kept.told (h : Kept casefold p) (r : Except Failure (Option SideEffectState)) :
    Kept casefold (p.told r) := by
  have hraises : ∀ {q : Printing} {after : After}, Base casefold q → (∀ a, after ≠ .settle a) →
      Kept casefold (q.closes after) := fun hq hafter =>
    hq.closes fun a ha => absurd ha (hafter a)
  cases hp : p.point with
  | settling a => exact h.settled hp r
  | begin =>
    obtain ⟨hhandler, -⟩ := h.not_held hp
    obtain ⟨hasked, hworker, htaken⟩ := h.early (by rw [hp]; rfl)
    have hb := h.base_of hp rfl
    unfold Printing.told
    simp only [hp]
    cases r with
    | ok x =>
      refine ⟨{ hb.checked with },
        fun hheld => absurd hheld (hhandler rfl), fun _ => rfl, fun _ => ⟨hasked, hworker, htaken⟩,
        fun _ => rfl, (by rintro ⟨⟩), (by rintro _ ⟨⟩), (by rintro ⟨⟩),
        fun _ => .inl hasked, hb.worker, hb.exactId, (by rintro _ _ ⟨⟩), hb.own,
        (by rintro _ ⟨⟩), (by rintro ⟨⟩)⟩
    | error e =>
      refine h.fresh ⟨rfl, rfl, rfl, rfl, rfl, rfl, rfl, rfl, rfl⟩ (hp ▸ rfl) rfl ?_ (fun _ => rfl)
      exact { hb.checked with }
  | refused detail =>
    unfold Printing.told
    simp only [hp]
    apply hraises _ (fun a hn => by cases hn)
    apply (h.base_of hp rfl).given
    exact fun _ => (h.refused detail hp).imp_right .inl
  | unclear name =>
    unfold Printing.told
    simp only [hp]
    apply hraises ((h.base_of hp rfl).given r (by rintro ⟨⟩))
    intro a hn
    cases r <;> cases hn
  | rescue name =>
    have hb : Base casefold (p.given .uncertain r) :=
      (h.base_of hp rfl).given r (by rintro ⟨⟩)
    unfold Printing.told
    simp only [hp]
    cases r with
    | ok x => exact hraises hb (fun a hn => by cases hn)
    | error e =>
      simp only
      split
      · apply (hb.goTo _).kept rfl (fun _ => rfl) (fun _ => rfl)
        · rintro ⟨⟩
        · exact fun detail hn => by cases hn
        · exact fun a hn => by cases hn
        · exact fun jobId hn => by cases hn
        · rintro ⟨⟩
      · exact hraises hb (fun a hn => by cases hn)
  | look =>
    have hb := h.base_of hp rfl
    unfold Printing.told
    simp only [hp]
    cases r with
    | ok state =>
      apply hraises hb
      intro a hn
      split at hn <;> cases hn
    | error e => exact hraises hb (fun a hn => by cases hn)
  | _ =>
    unfold Printing.told
    simp only [hp]
    exact h

end
end QronosAgent.Print

import QronosAgent.Print.Submit
import QronosAgent.Workflow.Driven

/-! What a submit keeps at every point: it is lawful over the journal, it has checked what was
approved before it starts, and it knows which job is its own. -/
namespace QronosAgent.Print
open Lib
open Workflow (SideEffectState Failure Want Procedure Phase)

namespace Point

def level : Point → ℕ
  | .entry | .stopped => 0
  | .recheckFile | .file => 1
  | .recheckPrinter | .printer => 2
  | .handler => 3
  | _ => 4

/-- The attempt is not begun. -/
def isFresh : Point → Bool
  | .entry | .recheckFile | .file | .recheckPrinter | .printer | .handler | .user | .before | .watch
  | .submitCheck | .grant | .begin => true
  | _ => false

def isEarly : Point → Bool
  | .guard | .start | .dropping | .stopped => true
  | point => point.isFresh

def mayHoldWatcher : Point → Bool
  | .submitCheck | .grant | .begin | .dropping | .guard | .start | .refused _ | .unclear _ | .poll
  | .exact _ | .finished | .sleep | .returned _ | .rescue _ | .look | .closeHandler _
  | .closeWatcher _ => true
  | _ => false

def mayHoldHandler : Point → Bool
  | .poll | .exact _ | .finished | .sleep | .returned _ | .rescue _ | .look | .closeHandler _ => true
  | _ => false

def isConfirmed : Point → Bool
  | .judge | .resuming | .attention | .clock | .monitorSleep | .follow => true
  | .reported report => report.outcome ≠ .uncertain
  | _ => false

def carries : Point → Option Awaited
  | .returned a | .closeHandler (.settle a) | .closeWatcher (.settle a) | .settling a => some a
  | _ => none

def reports : Point → Option ℕ
  | .reported report => report.jobId
  | _ => none

end Point

namespace Printing

/-- Where it stands with its operation. -/
def phase (p : Printing) : Phase :=
  match p.point with
  | .dropping | .stopped => .over
  | .guard | .start => .opened false p.states
  | point => if point.isFresh then .fresh else .opened true p.states

end Printing

/-- A job that was not submitted was never given to the spooler, and a job's number is what its own
`StartDoc` returned. -/
structure JobOk (job : RenderedJob) : Prop where
  published : ∀ jobId, job.jobId = some jobId → job.startDoc = some jobId
  unsubmitted : job.notSubmittedReason.isSome = true → job.startDoc = none
  preparing : job.point = .preparing → job.startDoc = none ∧ job.notSubmittedReason = none

structure Checked (casefold : PyStr → PyStr) (n : ℕ) (p : Printing) : Prop where
  approval : 1 ≤ n → p.approval.requireFor p.prepared = true
  file : 2 ≤ n → p.readings.file = some (p.prepared.sha256, p.prepared.size)
  printer : 3 ≤ n → ∃ printer, p.readings.printer = some printer ∧
    casefold printer.name = casefold p.prepared.printer.name ∧
      printer.port = p.prepared.printer.port ∧ printer.driver = p.prepared.printer.driver ∧
        printer.hasProblems = false
  handler : 4 ≤ n → p.readings.handler = some p.prepared.handler

structure Kept (casefold : PyStr → PyStr) (p : Printing) : Prop where
  checked : Checked casefold p.point.level p
  handler : p.handler = .held → p.point.mayHoldHandler = true
  watcher : p.watcher = .held → p.point.mayHoldWatcher = true
  early : p.point.isEarly = true → p.asked = false ∧ p.worker = none ∧ p.taken = none
  submitting : p.point = .guard ∨ p.point = .start → p.states = [.submitting]
  confirmed : p.point.isConfirmed = true → p.states = [.confirmed]
  refused : ∀ detail, p.point = .refused detail → p.asked = false ∨ p.notLaunched = true
  proved : p.point.carries = some .notSubmitted →
    (p.worker.bind RenderedJob.notSubmittedReason).isSome = true
  /-- The attempt is said not to have happened only when nothing was launched. -/
  notSubmitted : .notSubmitted ∈ p.states → p.asked = false ∨ p.notLaunched = true ∨
    (p.worker.bind RenderedJob.notSubmittedReason).isSome = true
  worker : ∀ job, p.worker = some job → JobOk job
  exactId : ∀ jobId, p.exactId = some jobId → p.worker.bind RenderedJob.jobId = some jobId
  carried : ∀ jobId status, p.point.carries = some (.job jobId status) → p.taken = some jobId
  own : p.prepared.route = .renderer → ∀ jobId, p.taken = some jobId →
    p.worker.bind RenderedJob.startDoc = some jobId
  reported : ∀ jobId, p.point.reports = some jobId →
    p.taken = some jobId ∨ p.worker.bind RenderedJob.jobId = some jobId
  resuming : p.point = .resuming → p.resumed = true

section
variable {casefold : PyStr → PyStr} {p p' : Printing}

theorem Checked.mono {n m : ℕ} (h : Checked casefold n p) (hm : m ≤ n ∨ 4 ≤ n) :
    Checked casefold m p :=
  ⟨fun h1 => h.approval (by omega), fun h2 => h.file (by omega), fun h3 => h.printer (by omega),
    fun h4 => h.handler (by omega)⟩

theorem Kept.goTo (h : Kept casefold p) {point : Point}
    (hlevel : point.level ≤ p.point.level ∨ 4 ≤ p.point.level)
    (hhandler : p.point.mayHoldHandler = true → point.mayHoldHandler = true)
    (hwatcher : p.point.mayHoldWatcher = true → point.mayHoldWatcher = true)
    (hearly : point.isEarly = true → p.point.isEarly = true)
    (hsubmitting : point = .guard ∨ point = .start → p.point = .guard)
    (hconfirmed : point.isConfirmed = true → p.point.isConfirmed = true)
    (hrefused : ∀ detail, point = .refused detail → p.point.isEarly = true)
    (hcarries : ∀ a, point.carries = some a → p.point.carries = some a ∨
      a = .stopped ∨ a = .nothing ∨ a = .several)
    (hreports : ∀ jobId, point.reports = some jobId → p.taken = some jobId)
    (hresuming : point ≠ .resuming) : Kept casefold (p.goTo point) where
  checked := by
    have hchecked := h.checked.mono hlevel
    exact { hchecked with }
  handler := fun hheld => hhandler (h.handler hheld)
  watcher := fun hheld => hwatcher (h.watcher hheld)
  early := fun hp => h.early (hearly hp)
  submitting := fun hp => h.submitting (.inl (hsubmitting hp))
  confirmed := fun hp => h.confirmed (hconfirmed hp)
  refused := fun detail hp => .inl (h.early (hrefused detail hp)).1
  proved := by
    intro hp
    rcases hcarries _ hp with hold | hnew | hnew | hnew
    · exact h.proved hold
    all_goals cases hnew
  notSubmitted := h.notSubmitted
  worker := h.worker
  exactId := h.exactId
  carried := by
    intro jobId status hp
    rcases hcarries _ hp with hold | hnew | hnew | hnew
    · exact h.carried jobId status hold
    all_goals cases hnew
  own := h.own
  reported := fun jobId hp => .inl (hreports jobId hp)
  resuming := fun hp => absurd hp hresuming

structure SameRun (p p' : Printing) : Prop where
  prepared : p'.prepared = p.prepared
  approval : p'.approval = p.approval
  handler : p'.handler = p.handler
  worker : p'.worker = p.worker
  exactId : p'.exactId = p.exactId
  taken : p'.taken = p.taken
  asked : p'.asked = p.asked
  notLaunched : p'.notLaunched = p.notLaunched
  states : p'.states = p.states

/-- Nothing was begun, and nothing will be now. -/
def Point.isUnbegun (point : Point) : Bool :=
  point.isFresh || point = .stopped || point = .dropping

theorem Point.isEarly_of_isUnbegun {point : Point} (h : point.isUnbegun = true) :
    point.isEarly = true := by
  cases point <;> first | rfl | cases h

theorem Kept.fresh (h : Kept casefold p) (hs : SameRun p p') (hp : p.point.isUnbegun = true)
    (hp' : p'.point.isUnbegun = true) (hchecked : Checked casefold p'.point.level p')
    (hwatcher : p'.watcher = .held → p'.point.mayHoldWatcher = true) : Kept casefold p' where
  checked := hchecked
  handler := by
    intro hheld
    have hmay := h.handler (hs.handler ▸ hheld)
    cases hpoint : p.point <;> rw [hpoint] at hp hmay <;> first | cases hp; done | cases hmay
  watcher := hwatcher
  early := by
    intro
    rw [hs.asked, hs.worker, hs.taken]
    exact h.early (Point.isEarly_of_isUnbegun hp)
  submitting := by
    rintro (hpoint | hpoint) <;> rw [hpoint] at hp' <;> cases hp'
  confirmed := by
    intro hconfirmed
    cases hpoint : p'.point <;> rw [hpoint] at hp' hconfirmed <;>
      first | cases hp'; done | cases hconfirmed
  refused := by
    intro detail hpoint
    rw [hpoint] at hp'
    cases hp'
  proved := by
    intro hcarries
    cases hpoint : p'.point <;> rw [hpoint] at hp' hcarries <;>
      first | cases hp'; done | cases hcarries
  notSubmitted := by
    rw [hs.states, hs.asked, hs.notLaunched, hs.worker]
    exact h.notSubmitted
  worker := by
    rw [hs.worker]
    exact h.worker
  exactId := by
    rw [hs.exactId, hs.worker]
    exact h.exactId
  carried := by
    intro jobId status hcarries
    cases hpoint : p'.point <;> rw [hpoint] at hp' hcarries <;>
      first | cases hp'; done | cases hcarries
  own := by
    rw [hs.prepared, hs.taken, hs.worker]
    exact h.own
  reported := by
    intro jobId hreports
    cases hpoint : p'.point <;> rw [hpoint] at hp' hreports <;>
      first | cases hp'; done | cases hreports
  resuming := by
    intro hpoint
    rw [hpoint] at hp'
    cases hp'

/-- The condition on a reading: a run that holds a watcher is not stopped at the first checkpoint. -/
def CheckpointOk (p : Printing) (r : Reading) : Prop :=
  p.point = .submitCheck → p.watcher = .held → ∃ detail, r = .checkpoint false true detail

theorem Kept.not_held (h : Kept casefold p) {point : Point} (hp : p.point = point) :
    (point.mayHoldHandler = false → p.handler ≠ .held) ∧
      (point.mayHoldWatcher = false → p.watcher ≠ .held) := by
  constructor <;> intro hmay hheld
  · have hold := h.handler hheld
    rw [hp, hmay] at hold
    cases hold
  · have hold := h.watcher hheld
    rw [hp, hmay] at hold
    cases hold

theorem checked_stopped (hp : p.point = .stopped) (hwatcher : p.watcher ≠ .held) :
    Checked casefold p.point.level p ∧ (p.watcher = .held → p.point.mayHoldWatcher = true) := by
  rw [hp]
  exact ⟨⟨(by rintro ⟨⟩), (by rintro ⟨⟩), (by rintro ⟨⟩), (by rintro ⟨⟩)⟩,
    fun hheld => absurd hheld hwatcher⟩

/-- A preparation goes on or is over, and tells of a printer only before anything was begun. -/
theorem Printing.prepare_eq {r : Reading} (hr : p.prepare casefold r = some p') :
    ∃ readings user before watcher point,
      p' = { p with readings, user, before, watcher, point } ∧ point.isUnbegun = true ∧
        (p.point.isFresh = true ∨
          p.point = .dropping ∧ point = .stopped ∧ readings = p.readings) := by
  unfold Printing.prepare at hr
  cases r with
  | checkpoint cancelled approvalValid detail =>
    simp only at hr
    split at hr
    case h_4 => cases hr
    all_goals
      rename_i hp
      cases hr
      exact ⟨_, _, _, _, _, rfl, by split <;> rfl, .inl (hp ▸ rfl)⟩
  | printers ps =>
    obtain ⟨hp, ⟨⟩⟩ := Option.ite_none_right_eq_some.mp hr
    split
    · exact ⟨_, _, _, _, _, rfl, rfl, .inl (hp ▸ rfl)⟩
    · exact ⟨_, _, _, _, _, rfl, by split <;> rfl, .inl (hp ▸ rfl)⟩
  | user | queue | watch =>
    obtain ⟨hp, ⟨⟩⟩ := Option.ite_none_right_eq_some.mp hr
    exact ⟨_, _, _, _, _, rfl, rfl, .inl (hp ▸ rfl)⟩
  | entry | file | handler | active =>
    obtain ⟨hp, ⟨⟩⟩ := Option.ite_none_right_eq_some.mp hr
    exact ⟨_, _, _, _, _, rfl, by split <;> rfl, .inl (hp ▸ rfl)⟩
  | go =>
    obtain ⟨hp, ⟨⟩⟩ := Option.ite_none_right_eq_some.mp hr
    exact ⟨_, _, _, _, _, rfl, rfl, .inr ⟨hp, rfl, rfl⟩⟩
  | _ => cases hr

theorem Kept.prepare (h : Kept casefold p) {r : Reading} (hok : CheckpointOk p r)
    (hr : p.prepare casefold r = some p') : Kept casefold p' := by
  have hchecked : ∀ {point : Point}, p.point = point → Checked casefold point.level p := by
    intro point hp
    rw [← hp]
    exact h.checked
  suffices hnew : Checked casefold p'.point.level p' ∧
      (p'.watcher = .held → p'.point.mayHoldWatcher = true) by
    obtain ⟨_, _, _, _, _, rfl, hpoint, hp⟩ := Printing.prepare_eq hr
    refine h.fresh ⟨rfl, rfl, rfl, rfl, rfl, rfl, rfl, rfl, rfl⟩ ?_ hpoint hnew.1 hnew.2
    rcases hp with hp | ⟨hp, -⟩ <;> simp [Point.isUnbegun, hp]
  -- a check that reads nothing that is compared
  have hpasses : ∀ {point next : Point}, p.point = point → next.level ≤ point.level →
      (p.watcher = .held → next.mayHoldWatcher = true) →
        Checked casefold next.level (p.goTo next) ∧
          (p.watcher = .held → next.mayHoldWatcher = true) := by
    intro point next hp hlevel hwatcher
    have hmono := (hchecked hp).mono (.inl hlevel)
    exact ⟨{ hmono with }, hwatcher⟩
  unfold Printing.prepare at hr
  cases r with
  | entry granted =>
    obtain ⟨hp, ⟨⟩⟩ := Option.ite_none_right_eq_some.mp hr
    split
    · rename_i hcond
      rw [Bool.and_eq_true] at hcond
      refine ⟨?_, fun hheld => absurd hheld ((h.not_held hp).2 rfl)⟩
      exact ⟨fun _ => hcond.1, (fun h => by simp [Printing.goTo, Point.level] at h),
        (fun h => by simp [Printing.goTo, Point.level] at h),
        (fun h => by simp [Printing.goTo, Point.level] at h)⟩
    · exact checked_stopped rfl ((h.not_held hp).2 rfl)
  | checkpoint cancelled approvalValid detail =>
    simp only at hr
    split at hr
    · rename_i hp
      cases hr
      split
      · exact hpasses hp (le_refl _) (fun hheld => absurd hheld ((h.not_held hp).2 rfl))
      · exact checked_stopped rfl ((h.not_held hp).2 rfl)
    · rename_i hp
      cases hr
      split
      · exact hpasses hp (le_refl _) (fun hheld => absurd hheld ((h.not_held hp).2 rfl))
      · exact checked_stopped rfl ((h.not_held hp).2 rfl)
    · rename_i hp
      cases hr
      split
      · exact hpasses hp (le_refl _) (fun _ => rfl)
      · rename_i hcond
        refine checked_stopped rfl fun hheld => ?_
        obtain ⟨detail', heq⟩ := hok hp hheld
        cases heq
        exact absurd rfl hcond
    · cases hr
  | file f =>
    obtain ⟨hp, ⟨⟩⟩ := Option.ite_none_right_eq_some.mp hr
    split
    · rename_i hsame
      refine ⟨?_, fun hheld => absurd hheld ((h.not_held hp).2 rfl)⟩
      have hold := hchecked hp
      exact ⟨fun _ => hold.approval (le_refl _), fun _ => hsame,
        (fun h => by simp [Point.level] at h), (fun h => by simp [Point.level] at h)⟩
    · exact checked_stopped rfl ((h.not_held hp).2 rfl)
  | printers ps =>
    obtain ⟨hp, ⟨⟩⟩ := Option.ite_none_right_eq_some.mp hr
    split
    · exact checked_stopped rfl ((h.not_held hp).2 rfl)
    · rename_i printer hprinter
      have hname : casefold printer.name = casefold p.prepared.printer.name := by
        unfold printerNamed at hprinter
        split at hprinter
        · rename_i q hq
          cases hprinter
          have hmem : printer ∈ ps.filter fun p' =>
              casefold p'.name = casefold p.prepared.printer.name := by
            rw [hq]
            exact List.mem_singleton.mpr rfl
          exact of_decide_eq_true (List.mem_filter.mp hmem).2
        · cases hprinter
      split
      · rename_i hsame
        simp only [Bool.and_eq_true, decide_eq_true_eq, Bool.not_eq_true'] at hsame
        refine ⟨?_, fun hheld => absurd hheld ((h.not_held hp).2 rfl)⟩
        have hold := hchecked hp
        refine ⟨fun _ => hold.approval (by decide), fun _ => hold.file (le_refl _), fun _ => ?_,
          (fun h => by simp [Point.level] at h)⟩
        exact ⟨printer, rfl, hname, hsame.1.1, hsame.1.2, hsame.2⟩
      · exact checked_stopped rfl ((h.not_held hp).2 rfl)
  | handler found =>
    obtain ⟨hp, ⟨⟩⟩ := Option.ite_none_right_eq_some.mp hr
    split
    · rename_i hsame
      refine ⟨?_, fun hheld => absurd hheld ((h.not_held hp).2 rfl)⟩
      have hold := hchecked hp
      exact ⟨fun _ => hold.approval (by decide), fun _ => hold.file (by decide),
        fun _ => hold.printer (le_refl _), fun _ => hsame⟩
    · exact checked_stopped rfl ((h.not_held hp).2 rfl)
  | user | queue =>
    obtain ⟨hp, ⟨⟩⟩ := Option.ite_none_right_eq_some.mp hr
    have hold := hchecked hp
    exact ⟨{ hold with },
      fun hheld => absurd hheld ((h.not_held hp).2 rfl)⟩
  | watch available =>
    obtain ⟨hp, ⟨⟩⟩ := Option.ite_none_right_eq_some.mp hr
    have hold := hchecked hp
    exact ⟨{ hold with }, fun _ => rfl⟩
  | active active =>
    obtain ⟨hp, ⟨⟩⟩ := Option.ite_none_right_eq_some.mp hr
    split <;> exact hpasses hp (le_refl _) (fun _ => rfl)
  | go =>
    obtain ⟨hp, ⟨⟩⟩ := Option.ite_none_right_eq_some.mp hr
    apply checked_stopped rfl
    by_cases hheld : p.watcher = .held
    · rw [if_pos hheld]
      simp
    · rw [if_neg hheld]
      exact hheld
  | _ => cases hr

structure Base (casefold : PyStr → PyStr) (p : Printing) : Prop where
  checked : Checked casefold 4 p
  notSubmitted : .notSubmitted ∈ p.states → p.asked = false ∨ p.notLaunched = true ∨
    (p.worker.bind RenderedJob.notSubmittedReason).isSome = true
  worker : ∀ job, p.worker = some job → JobOk job
  exactId : ∀ jobId, p.exactId = some jobId → p.worker.bind RenderedJob.jobId = some jobId
  own : p.prepared.route = .renderer → ∀ jobId, p.taken = some jobId →
    p.worker.bind RenderedJob.startDoc = some jobId

theorem Kept.base (h : Kept casefold p) (hlevel : 4 ≤ p.point.level) : Base casefold p :=
  ⟨h.checked.mono (.inr hlevel), h.notSubmitted, h.worker, h.exactId, h.own⟩

structure AwaitedOk (p : Printing) (a : Awaited) : Prop where
  proved : a = .notSubmitted → (p.worker.bind RenderedJob.notSubmittedReason).isSome = true
  carried : ∀ jobId status, a = .job jobId status → p.taken = some jobId

theorem Kept.awaited (h : Kept casefold p) {a : Awaited} (hp : p.point.carries = some a) :
    AwaitedOk p a := by
  constructor
  · rintro rfl
    exact h.proved hp
  · rintro jobId status rfl
    exact h.carried jobId status hp

theorem Base.kept (hb : Base casefold p) (hearly : p.point.isEarly = false)
    (hhandler : p.handler = .held → p.point.mayHoldHandler = true)
    (hwatcher : p.watcher = .held → p.point.mayHoldWatcher = true)
    (hconfirmed : p.point.isConfirmed = true → p.states = [.confirmed])
    (hrefused : ∀ detail, p.point = .refused detail → p.asked = false ∨ p.notLaunched = true)
    (hcarries : ∀ a, p.point.carries = some a → AwaitedOk p a)
    (hreported : ∀ jobId, p.point.reports = some jobId →
      p.taken = some jobId ∨ p.worker.bind RenderedJob.jobId = some jobId)
    (hresuming : p.point = .resuming → p.resumed = true) : Kept casefold p where
  checked := hb.checked.mono (.inr (le_refl 4))
  handler := hhandler
  watcher := hwatcher
  early := by
    intro h
    rw [hearly] at h
    cases h
  submitting := by
    rintro (hp | hp) <;> rw [hp] at hearly <;> cases hearly
  confirmed := hconfirmed
  refused := hrefused
  proved := fun hp => (hcarries _ hp).proved rfl
  notSubmitted := hb.notSubmitted
  worker := hb.worker
  exactId := hb.exactId
  carried := fun jobId status hp => (hcarries _ hp).carried jobId status rfl
  own := hb.own
  reported := hreported
  resuming := hresuming

/-- Nothing but handler, watcher, point and the like has changed. -/
theorem Base.same (hb : Base casefold p) (hs : SameRun { p with handler := p'.handler } p')
    (hreadings : p'.readings = p.readings) : Base casefold p' := by
  obtain ⟨hprepared, happroval, -, hworker, hexact, htaken, hasked, hlaunched, hstates⟩ := hs
  dsimp only at *
  refine ⟨⟨?_, ?_, ?_, ?_⟩, ?_, ?_, ?_, ?_⟩
  · rw [happroval, hprepared]
    exact hb.checked.approval
  · rw [hreadings, hprepared]
    exact hb.checked.file
  · rw [hreadings, hprepared]
    exact hb.checked.printer
  · rw [hreadings, hprepared]
    exact hb.checked.handler
  · rw [hstates, hasked, hlaunched, hworker]
    exact hb.notSubmitted
  · rw [hworker]
    exact hb.worker
  · rw [hexact, hworker]
    exact hb.exactId
  · rw [hprepared, htaken, hworker]
    exact hb.own

theorem Base.goTo (hb : Base casefold p) (point : Point) : Base casefold (p.goTo point) :=
  hb.same ⟨rfl, rfl, rfl, rfl, rfl, rfl, rfl, rfl, rfl⟩ rfl

theorem Base.closes (hb : Base casefold p) {after : After}
    (hsettle : ∀ a, after = .settle a → AwaitedOk p a) : Kept casefold (p.closes after) := by
  have hcarries : ∀ point : Point, (∀ a, point.carries = some a → after = .settle a) →
      ∀ a, (p.goTo point).point.carries = some a → AwaitedOk (p.goTo point) a := by
    intro point hpoint a ha
    obtain ⟨hproved, hcarried⟩ := hsettle a (hpoint a ha)
    exact ⟨hproved, hcarried⟩
  unfold Printing.closes
  by_cases hhandler : p.handler = .held
  · rw [if_pos hhandler]
    apply (hb.goTo _).kept rfl (fun _ => rfl) (fun _ => rfl) (by rintro ⟨⟩)
      (by rintro _ ⟨⟩) (hcarries _ ?_) (by rintro _ ⟨⟩) (by rintro ⟨⟩)
    intro a ha
    cases after <;> cases ha
    rfl
  rw [if_neg hhandler]
  have hclosed : ∀ point : Point, (p.goTo point).handler = .held →
      (p.goTo point).point.mayHoldHandler = true := fun _ h => absurd h hhandler
  by_cases hwatcher : p.watcher = .held
  · rw [if_pos hwatcher]
    apply (hb.goTo _).kept rfl (hclosed _) (fun _ => rfl) (by rintro ⟨⟩)
      (by rintro _ ⟨⟩) (hcarries _ ?_) (by rintro _ ⟨⟩) (by rintro ⟨⟩)
    intro a ha
    cases after <;> cases ha
    rfl
  rw [if_neg hwatcher]
  have hdropped : ∀ point : Point, (p.goTo point).watcher = .held →
      (p.goTo point).point.mayHoldWatcher = true := fun _ h => absurd h hwatcher
  cases after with
  | settle r =>
    apply (hb.goTo _).kept rfl (hclosed _) (hdropped _) (by rintro ⟨⟩)
      (by rintro _ ⟨⟩) (hcarries _ ?_) (by rintro _ ⟨⟩) (by rintro ⟨⟩)
    intro a ha
    cases ha
    rfl
  | uncertain =>
    apply (hb.goTo _).kept rfl (hclosed _) (hdropped _) (by rintro ⟨⟩)
      (by rintro _ ⟨⟩) (hcarries _ ?_) (by rintro _ ⟨⟩) (by rintro ⟨⟩)
    intro a ha
    cases ha
  | raise =>
    apply (hb.goTo _).kept rfl (hclosed _) (hdropped _) (by rintro ⟨⟩)
      (by rintro _ ⟨⟩) (hcarries _ ?_) (by rintro _ ⟨⟩) (by rintro ⟨⟩)
    intro a ha
    cases ha

end
end QronosAgent.Print

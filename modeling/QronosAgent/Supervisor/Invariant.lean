import QronosAgent.Supervisor.Run

/-! The invariants of a run of the supervisor. -/
namespace QronosAgent.Supervision
open Lib

def Event.plain : Event → Bool
  | .launched .. | .launchFailed _ | .exited .. | .stopCalled => false
  | _ => true

namespace Log

attribute [simp] lastLaunched sinceLaunch lastState

variable {es log : List Event}

theorem lastLaunched_append (h : ∀ c pid, .launched c pid ∉ es) :
    lastLaunched (es ++ log) = lastLaunched log := by
  induction es with
  | nil => rfl
  | cons e es ih =>
    have hes := ih fun c pid hmem => h c pid (List.mem_cons_of_mem _ hmem)
    cases e with
    | launched c pid => exact absurd List.mem_cons_self (h c pid)
    | _ => exact hes

theorem sinceLaunch_append (h : ∀ c pid, .launched c pid ∉ es) :
    sinceLaunch (es ++ log) = es ++ sinceLaunch log := by
  induction es with
  | nil => rfl
  | cons e es ih =>
    have hes := ih fun c pid hmem => h c pid (List.mem_cons_of_mem _ hmem)
    cases e with
    | launched c pid => exact absurd List.mem_cons_self (h c pid)
    | _ => exact congrArg (_ :: ·) hes

theorem not_launched (h : ∀ e ∈ es, e.plain = true) (c : ℕ) (pid : ℤ) :
    .launched c pid ∉ es := by
  intro hmem
  cases h _ hmem

theorem Served.append (hs : Served log) (es : List Event) (h : ∀ c pid, .launched c pid ∉ es) :
    Served (es ++ log) := by
  obtain ⟨c, pid, newer, older, hlast, hsince, haccepted⟩ := hs
  refine ⟨c, pid, es ++ newer, older, ?_, ?_, haccepted⟩
  · rw [lastLaunched_append h, hlast]
  · rw [sinceLaunch_append h, hsince, List.append_assoc]

/-- What follows a call of `stop` in a log that has one event more. -/
theorem after_cons {P : List Event → Prop} {e : Event}
    (h : ∀ newer older, log = newer ++ .stopCalled :: older → P (e :: newer))
    (hnil : e = .stopCalled → P []) (newer older : List Event)
    (heq : e :: log = newer ++ .stopCalled :: older) : P newer := by
  cases newer with
  | nil => exact hnil (List.cons.inj heq).1
  | cons e' newer =>
    obtain ⟨rfl, hlog⟩ := List.cons.inj heq
    exact h newer older hlog

end Log

/-- How far the child has come. -/
def ConnectPoint.Reached (pid : ℤ) (recent : List Event) : ConnectPoint → Prop
  | .listen | .accept => True
  | .look | .receive => .accepted pid ∈ recent
  | .welcome => ∃ newer older, recent = newer ++ .hello pid protocolVersion :: older ∧
      .accepted pid ∈ older

theorem ConnectPoint.Reached.append {pid : ℤ} {recent : List Event} {point : ConnectPoint}
    (h : point.Reached pid recent) (es : List Event) : point.Reached pid (es ++ recent) := by
  cases point with
  | listen | accept => trivial
  | look | receive => exact List.mem_append_right _ h
  | welcome =>
    obtain ⟨newer, older, rfl, hmem⟩ := h
    exact ⟨es ++ newer, older, (List.append_assoc ..).symm, hmem⟩

namespace Phase

/-- There is no further launch. -/
def isLast : Phase → Bool
  | .final | .ended _ => true
  | _ => false

/-- What has been brought about when the run is here. -/
def At (state : SupervisorState) (log : List Event) : Phase → Prop
  | .top | .ended _ => state ≠ .running
  | .starting | .launching _ => state = .starting
  | .connecting _ c point => state = .starting ∧ ∀ pid, Log.lastLaunched log = some (c, pid) →
      point.Reached pid (Log.sinceLaunch log)
  | .watching .. => state = .running ∧ Log.Served log
  | .shutting .. | .leaving .. => state = .stopping
  | .backingOff _ => state = .backingOff
  | .final => state ≠ .running ∧ .stopCalled ∈ log

theorem At.append {state : SupervisorState} {log : List Event} {phase : Phase}
    (h : phase.At state log) (es : List Event) (hes : ∀ c pid, .launched c pid ∉ es) :
    phase.At state (es ++ log) := by
  cases phase with
  | connecting t c point =>
    refine ⟨h.1, fun pid hlast => ?_⟩
    rw [Log.lastLaunched_append hes] at hlast
    rw [Log.sinceLaunch_append hes]
    exact (h.2 pid hlast).append es
  | watching => exact ⟨h.1, h.2.append es hes⟩
  | final => exact ⟨h.1, List.mem_append_right _ h.2⟩
  | _ => exact h

end Phase

structure Inv (s : Supervisor) : Prop where
  stops : s.stop = true ↔ .stopCalled ∈ s.log
  state : s.state = Log.lastState s.log
  exits : ∀ c code, .exited c code ∈ s.log ↔ s.poll c = some code
  known : ∀ e ∈ s.log, ∀ c, e.process? = some c → c < s.processes.length
  settled : s.phase.isLast = false → ∀ (c : ℕ) p, s.processes[c]? = some p →
    s.phase.child? = some c ∨ p.left = true ∨ ∃ code, p.exit = some code ∧ code ≠ startupRefusedExit
  child : ∀ c, s.phase.child? = some c → c < s.processes.length ∧
    Log.lastLaunched s.log = some (c, s.pid c)
  point : s.phase.At s.state s.log
  open_ : s.phase.isEnded = false → .exhausted ∉ s.log ∧ ∀ state, .returned state ∉ s.log
  history : Every Event.Justified s.log
  marks : ∀ newer older, s.log = newer ++ .stopCalled :: older → .set .starting ∉ newer ∧
    newer.countP Event.isLaunch + s.phase.beforeLaunch.toNat ≤ 1

namespace Supervisor

/-- The run goes on, and something happens that is neither a launch nor the world's. -/
structure Advances (s s' : Supervisor) (es : List Event) : Prop where
  stop : s'.stop = s.stop
  processes : s'.processes = s.processes
  log : s'.log = es ++ s.log
  plain : ∀ e ∈ es, e.plain = true
  state : s'.state = Log.lastState s'.log
  child : s'.phase.isLast = true ∨ s'.phase.child? = s.phase.child? ∧ s.phase.isLast = false
  point : s'.phase.At s'.state s'.log
  open_ : s'.phase.isEnded = false → s.phase.isEnded = false ∧ .exhausted ∉ es ∧
    ∀ state, .returned state ∉ es
  history : Every Event.Justified (es ++ s.log)
  marks : s.stop = true → .set .starting ∉ es ∧
    (s'.phase.beforeLaunch = true → s.phase.beforeLaunch = true)

end Supervisor

theorem Phase.child?_of_isLast {phase : Phase} (h : phase.isLast = true) : phase.child? = none := by
  cases phase with
  | final | ended => rfl
  | _ => cases h

theorem Inv.advance {s s' : Supervisor} (h : Inv s) (es : List Event) (ha : s.Advances s' es) :
    Inv s' := by
  have hlaunched := Log.not_launched ha.plain
  have hworld (e : Event) (he : e.plain = false) : e ∉ es := by
    intro hmem
    rw [ha.plain e hmem] at he
    cases he
  have hpid (c : ℕ) : s'.pid c = s.pid c := by
    unfold Supervisor.pid
    rw [ha.processes]
  constructor
  · rw [ha.stop, ha.log, List.mem_append, h.stops]
    exact ⟨.inr, fun hmem => hmem.resolve_left (hworld _ rfl)⟩
  · exact ha.state
  · intro c code
    unfold Supervisor.poll
    rw [ha.log, ha.processes, List.mem_append]
    refine Iff.trans ?_ (h.exits c code)
    exact ⟨fun hmem => hmem.resolve_left (hworld _ rfl), .inr⟩
  · intro e he c hc
    rw [ha.processes]
    rw [ha.log, List.mem_append] at he
    rcases he with he | he
    · have hplain := ha.plain e he
      cases e with
      | launched | launchFailed => cases hplain
      | _ => cases hc
    · exact h.known e he c hc
  · intro hlast c p hp
    rw [ha.processes] at hp
    obtain ⟨heq, hopen⟩ := ha.child.resolve_left (by simp [hlast])
    rw [heq]
    exact h.settled hopen c p hp
  · intro c hc
    rcases ha.child with hlast | ⟨heq, -⟩
    · rw [Phase.child?_of_isLast hlast] at hc
      cases hc
    · rw [heq] at hc
      rw [ha.log, ha.processes, hpid, Log.lastLaunched_append hlaunched]
      exact h.child c hc
  · exact ha.point
  · intro hended
    obtain ⟨hopen, hexhausted, hreturned⟩ := ha.open_ hended
    rw [ha.log]
    constructor
    · rw [List.mem_append]
      exact fun hmem => hmem.elim hexhausted (h.open_ hopen).1
    · intro state
      rw [List.mem_append]
      exact fun hmem => hmem.elim (hreturned state) ((h.open_ hopen).2 state)
  · rw [ha.log]
    exact ha.history
  · intro newer older heq
    rw [ha.log] at heq
    obtain ⟨newer', rfl, hlog⟩ : ∃ newer', newer = es ++ newer' ∧
        s.log = newer' ++ .stopCalled :: older := by
      rcases List.append_eq_append_iff.mp heq with ⟨newer', hnewer, hlog⟩ | ⟨rest, hes, hlog⟩
      · exact ⟨newer', hnewer, hlog⟩
      · cases rest with
        | nil => exact ⟨[], by simpa using hes.symm, hlog.symm⟩
        | cons e rest =>
          obtain ⟨rfl, -⟩ := List.cons.inj hlog
          exact absurd (by rw [hes]; simp) (hworld .stopCalled rfl)
    have hstop : s.stop = true := by
      rw [h.stops, hlog]
      simp
    obtain ⟨hstarting, hbefore⟩ := ha.marks hstop
    obtain ⟨hmark, hcount⟩ := h.marks newer' older hlog
    have hnone : es.countP Event.isLaunch = 0 := by
      apply List.countP_eq_zero.mpr
      intro e he hlaunch
      have hplain := ha.plain e he
      cases e with
      | launched | launchFailed => cases hplain
      | _ => cases hlaunch
    constructor
    · rw [List.mem_append]
      exact fun hmem => hmem.elim hstarting hmark
    · rw [List.countP_append, hnone]
      cases hb' : s'.phase.beforeLaunch with
      | false => simp only [Bool.toNat_false]; omega
      | true =>
        rw [hbefore hb'] at hcount
        simp only [Bool.toNat_true] at hcount ⊢
        omega

section
variable {s : Supervisor}

/-- What no invariant looks at. -/
theorem Inv.same (h : Inv s) (budget : RestartBudget) (starts : ℕ) (connecting interrupted : Bool)
    (exited : Option ℤ) : Inv { s with
      budget := budget, starts := starts, connecting := connecting
      interrupted := interrupted, exited := exited } :=
  { h with }

variable {phase : Phase} {e : Event} {state : SupervisorState} {r : Round} {t : ℚ} {c : ℕ}
  {w : Watch} {point : WatchPoint} {s' : Supervisor}

theorem Phase.isEnded_of_isLast (h : phase.isLast = false) :
    phase.isEnded = false := by
  cases phase with
  | final | ended => cases h
  | _ => rfl

theorem Inv.goto (h : Inv s) (hlast : s.phase.isLast = false)
    (hchild : phase.isLast = true ∨ phase.child? = s.phase.child?)
    (hpoint : phase.At s.state s.log)
    (hbefore : s.stop = true → phase.beforeLaunch = true → s.phase.beforeLaunch = true) :
    Inv (s.goto phase) := by
  apply h.advance []
  exact ⟨rfl, rfl, rfl, by simp, h.state, hchild.imp_right fun heq => ⟨heq, hlast⟩, hpoint,
    fun _ => ⟨Phase.isEnded_of_isLast hlast, by simp, by simp⟩, h.history,
    fun hstop => ⟨by simp, hbefore hstop⟩⟩

/-- Something happens, and the run stays where it is. -/
theorem Inv.emit (h : Inv s) (hlast : s.phase.isLast = false) (hplain : e.plain = true)
    (hset : Log.lastState (e :: s.log) = Log.lastState s.log) (hj : e.Justified s.log)
    (hstart : e ≠ .set .starting) (hopen : e ≠ .exhausted ∧ ∀ state, e ≠ .returned state) :
    Inv (s.emit e) := by
  apply h.advance [e]
  constructor
  · rfl
  · rfl
  · rfl
  · simpa using hplain
  · exact h.state.trans hset.symm
  · exact .inr ⟨rfl, hlast⟩
  · exact h.point.append [e] (Log.not_launched (by simpa using hplain))
  · intro _
    refine ⟨Phase.isEnded_of_isLast hlast, ?_, ?_⟩
    · rw [List.mem_singleton]
      exact hopen.1.symm
    · intro state
      rw [List.mem_singleton]
      exact (hopen.2 state).symm
  · exact ⟨hj, h.history⟩
  · intro _
    rw [List.mem_singleton]
    exact ⟨hstart.symm, id⟩

theorem Inv.move (h : Inv s) (hlast : s.phase.isLast = false)
    (hj : s.state = .running → state = .stopping) (hchild : phase.child? = s.phase.child?)
    (hpoint : phase.At state (.set state :: s.log))
    (hbefore : s.stop = true → state ≠ .starting ∧ phase.beforeLaunch = false) :
    Inv ((s.set state).goto phase) := by
  apply h.advance [.set state]
  constructor
  · rfl
  · rfl
  · rfl
  · simp [Event.plain]
  · rfl
  · exact .inr ⟨hchild, hlast⟩
  · exact hpoint
  · intro _
    exact ⟨Phase.isEnded_of_isLast hlast, by simp, by simp⟩
  · exact ⟨fun hrunning => hj (h.state.trans hrunning), h.history⟩
  · intro hstop
    obtain ⟨hne, hfalse⟩ := hbefore hstop
    constructor
    · simpa using hne.symm
    · intro htrue
      exact absurd (hfalse.symm.trans htrue) (by decide)

theorem Inv.stopRuntime (h : Inv s) (hlast : s.phase.isLast = false)
    (hchild : r.child = s.phase.child?) : Inv (s.stopRuntime r) := by
  show Inv ((s.set .stopping).goto (.shutting r .ask))
  apply h.move hlast
  · exact fun _ => rfl
  · exact hchild
  · rfl
  · intro _
    exact ⟨by decide, rfl⟩

theorem Inv.notConnected (h : Inv s) {point : ConnectPoint}
    (hphase : s.phase = .connecting t c point) (t' : ℚ) (reason : Reason) :
    Inv (s.notConnected t' c reason) := by
  apply Inv.stopRuntime (h.same s.budget s.starts false s.interrupted s.exited)
  · rw [hphase]
    rfl
  · rw [hphase]
    rfl

theorem Inv.watched (h : Inv s) (hphase : s.phase = .watching t c w point) (t' : ℚ)
    (reason : Reason) :
    Inv (s.watched t' c reason) := by
  apply h.stopRuntime
  · rw [hphase]
    rfl
  · rw [hphase]
    rfl

/-- The run returns; `es` is what has led to it. -/
theorem Inv.finish (h : Inv s) (es : List Event) (hstate : s.state ≠ .running)
    (hes : ∀ e ∈ es, e = .exhausted)
    (hwhy : state = .degraded ∧ (Log.Refused s.log ∨ .exhausted ∈ es) ∨
      state = .stopped ∧ .stopCalled ∈ s.log) :
    Inv ({ s with log := es ++ s.log }.finish state) := by
  have hplain : ∀ e ∈ es, e.plain = true := by
    intro e he
    rw [hes e he]
    rfl
  have hkeep : Log.lastState (es ++ s.log) = Log.lastState s.log := by
    clear hwhy hplain
    induction es with
    | nil => rfl
    | cons e es ih =>
      rw [hes e List.mem_cons_self]
      exact ih fun e' he' => hes e' (List.mem_cons_of_mem _ he')
  have hne : state ≠ .running := by
    rcases hwhy with ⟨rfl, -⟩ | ⟨rfl, -⟩ <;> decide
  apply h.advance (.returned state :: .set state :: es)
  constructor
  · rfl
  · rfl
  · rfl
  · simpa [Event.plain] using hplain
  · rfl
  · exact .inl rfl
  · exact hne
  · intro hended
    cases hended
  · refine ⟨⟨rfl, ?_⟩, ?_, ?_⟩
    · rcases hwhy with ⟨hdegraded, hrefused | hexhausted⟩ | ⟨hstopped, hstop⟩
      · obtain ⟨c, pid, hlaunched, hexited⟩ := hrefused
        refine .inl ⟨hdegraded, .inl ⟨c, pid, ?_, ?_⟩⟩
        · exact (Log.lastLaunched_append (Log.not_launched hplain)).trans hlaunched
        · simp [hexited]
      · exact .inl ⟨hdegraded, .inr (by simp [hexhausted])⟩
      · exact .inr ⟨hstopped, by simp [hstop]⟩
    · intro hrunning
      exact absurd (h.state.trans (hkeep.symm.trans hrunning)) hstate
    · have hhist := h.history
      clear hwhy hplain hkeep
      induction es with
      | nil => exact hhist
      | cons e es ih =>
        refine ⟨?_, ih fun e' he' => hes e' (List.mem_cons_of_mem _ he')⟩
        rw [hes e List.mem_cons_self]
        trivial
  · intro _
    refine ⟨?_, fun hbefore => nomatch hbefore⟩
    simp only [List.mem_cons, reduceCtorEq, false_or, not_or]
    constructor
    · rintro heq
      cases hwhy with
      | inl hd => rw [hd.1] at heq; cases heq
      | inr hst => rw [hst.1] at heq; cases heq
    · intro hmem
      cases hes _ hmem

theorem poll_add {started : List Process} (h : ∀ p ∈ started, p.exit = none) (c : ℕ) :
    (s.add started).poll c = s.poll c := by
  unfold Supervisor.poll Supervisor.add
  simp only [List.getElem?_append]
  split_ifs with hlt
  · rfl
  · rw [List.getElem?_eq_none (not_lt.mp hlt), Option.bind_none, Option.bind_eq_none_iff]
    exact fun p hp => h p (List.mem_of_getElem? hp)

theorem poll_eq_some {code : ℤ} :
    s.poll c = some code ↔ ∃ p, s.processes[c]? = some p ∧ p.exit = some code := by
  unfold Supervisor.poll
  rw [Option.bind_eq_some_iff]

theorem Inv.mayLaunch (h : Inv s) (hlast : s.phase.isLast = false) (hchild : s.phase.child? = none)
    (hleft : ∀ p ∈ s.processes, p.left = true →
      ∃ code, p.exit = some code ∧ code ≠ startupRefusedExit) : Log.MayLaunch s.log := by
  have hexit {c : ℕ} {p : Process} (hp : s.processes[c]? = some p) :
      ∃ code, p.exit = some code ∧ code ≠ startupRefusedExit := by
    rcases h.settled hlast c p hp with heq | hl | hexit
    · rw [hchild] at heq
      cases heq
    · exact hleft p (List.mem_of_getElem? hp) hl
    · exact hexit
  obtain ⟨hexhausted, hreturned⟩ := h.open_ (Phase.isEnded_of_isLast hlast)
  refine ⟨?_, ?_, hexhausted, hreturned⟩
  · intro e he c hc
    have hlt := h.known e he c hc
    obtain ⟨code, hcode, -⟩ := hexit (List.getElem?_eq_getElem hlt)
    exact ⟨code, (h.exits c code).mpr (poll_eq_some.mpr ⟨_, List.getElem?_eq_getElem hlt, hcode⟩)⟩
  · intro c hmem
    obtain ⟨p, hp, hcode⟩ := poll_eq_some.mp ((h.exits c _).mp hmem)
    obtain ⟨code, hcode', hne⟩ := hexit hp
    rw [hcode, Option.some.injEq] at hcode'
    exact hne hcode'.symm

theorem Inv.launched (h : Inv s) (hphase : s.phase = .launching t) (hmay : Log.MayLaunch s.log)
    (started : List Process) (hexit : ∀ p ∈ started, p.exit = none) (he : e.isLaunch = true)
    (hknown : ∀ c, e.process? = some c → c < (s.add started).processes.length)
    (hsettled : ∀ (i : ℕ) p, started[i]? = some p →
      phase.child? = some (s.processes.length + i) ∨ p.left = true)
    (hchild : ∀ c, phase.child? = some c → c < (s.add started).processes.length ∧
      Log.lastLaunched (e :: s.log) = some (c, (s.add started).pid c))
    (hbefore : phase.beforeLaunch = false) (hpoint : phase.At s.state (e :: s.log)) :
    Inv (((s.add started).emit e).goto phase) := by
  have hopen : s.phase.isLast = false := by
    rw [hphase]
    rfl
  have hnew (e' : Event) (hne : e'.isLaunch = false) : e' ∈ e :: s.log ↔ e' ∈ s.log := by
    rw [List.mem_cons, or_iff_right]
    rintro rfl
    rw [he] at hne
    cases hne
  constructor
  · exact h.stops.trans (hnew _ rfl).symm
  · refine h.state.trans ?_
    cases e with
    | launched | launchFailed => rfl
    | _ => cases he
  · intro c code
    refine (hnew _ rfl).trans ((h.exits c code).trans ?_)
    rw [← poll_add hexit c]
    rfl
  · intro e' he' c hc
    rcases List.mem_cons.mp he' with rfl | hmem
    · exact hknown c hc
    · refine (h.known e' hmem c hc).trans_le ?_
      simp [Supervisor.goto, Supervisor.emit, Supervisor.add]
  · intro _ c p hp
    simp only [Supervisor.goto, Supervisor.emit, Supervisor.add, List.getElem?_append] at hp
    split_ifs at hp with hlt
    · rcases h.settled hopen c p hp with heq | hrest
      · rw [hphase] at heq
        cases heq
      · exact .inr hrest
    · rcases hsettled _ p hp with heq | hl
      · rw [Nat.add_sub_cancel' (not_lt.mp hlt)] at heq
        exact .inl heq
      · exact .inr (.inl hl)
  · exact hchild
  · exact hpoint
  · intro _
    obtain ⟨hexhausted, hreturned⟩ := h.open_ (Phase.isEnded_of_isLast hopen)
    exact ⟨fun hmem => hexhausted ((hnew _ rfl).mp hmem),
      fun state hmem => hreturned state ((hnew _ rfl).mp hmem)⟩
  · refine ⟨?_, h.history⟩
    cases e with
    | launched | launchFailed => exact hmay
    | _ => cases he
  · apply Log.after_cons
    · intro newer older hlog
      obtain ⟨hmark, hcount⟩ := h.marks newer older hlog
      rw [hphase] at hcount
      change newer.countP Event.isLaunch + 1 ≤ 1 at hcount
      constructor
      · rw [List.mem_cons]
        rintro (rfl | hmem)
        · cases he
        · exact hmark hmem
      · rw [List.countP_cons_of_pos he]
        change _ + phase.beforeLaunch.toNat ≤ 1
        rw [hbefore]
        simp only [Bool.toNat_false]
        omega
    · rintro rfl
      cases he

theorem Inv.launch (h : Inv s) (hphase : s.phase = .launching t) (hmay : Log.MayLaunch s.log)
    (pid : ℤ) (relayed : Bool) : Inv (s.launch t pid relayed) := by
  have hstate : s.state = .starting := by
    have hpoint := h.point
    rw [hphase] at hpoint
    exact hpoint
  apply h.launched hphase hmay [⟨pid, relayed, none, false⟩]
  · simp
  · rfl
  · rintro c ⟨⟩
    simp [Supervisor.add]
  · intro i p hp
    obtain ⟨hi, -⟩ := List.getElem?_eq_some_iff.mp hp
    obtain rfl : i = 0 := by simpa using hi
    exact .inl rfl
  · rintro c ⟨⟩
    simp [Supervisor.add, Supervisor.pid]
  · rfl
  · exact ⟨hstate, fun _ _ => trivial⟩

theorem Inv.launchFailed (h : Inv s) (hphase : s.phase = .launching t)
    (hmay : Log.MayLaunch s.log) (left : Option ℤ) : Inv (s.launchFailed t left) := by
  have hstate : s.state = .starting := by
    have hpoint := h.point
    rw [hphase] at hpoint
    exact hpoint
  have hleft : Inv (((s.add (left.map fun pid => ⟨pid, false, none, true⟩).toList).emit
      (.launchFailed (left.map fun _ => s.processes.length))).goto .top) := by
    apply h.launched hphase hmay _
    · cases left <;> simp
    · rfl
    · intro c hc
      cases left with
      | none => cases hc
      | some pid =>
        cases hc
        simp [Supervisor.add]
    · intro i p hp
      right
      have hmem := List.mem_of_getElem? hp
      cases left with
      | none => cases hmem
      | some pid =>
        rw [List.mem_singleton.mp hmem]
    · intro c hc
      cases hc
    · rfl
    · change s.state ≠ .running
      rw [hstate]
      decide
  exact hleft.stopRuntime rfl rfl

theorem Inv.stop (h : Inv s) : Inv ({ s with stop := true }.emit .stopCalled) := by
  have hnew (e : Event) (hne : e ≠ .stopCalled) : e ∈ Event.stopCalled :: s.log ↔ e ∈ s.log := by
    rw [List.mem_cons, or_iff_right hne]
  constructor
  · exact ⟨fun _ => List.mem_cons_self, fun _ => rfl⟩
  · exact h.state
  · exact fun c code => (hnew _ (by simp)).trans (h.exits c code)
  · intro e he c hc
    rcases List.mem_cons.mp he with rfl | hmem
    · cases hc
    · exact h.known e hmem c hc
  · exact h.settled
  · exact h.child
  · exact h.point.append [.stopCalled] (by simp)
  · intro hended
    obtain ⟨hexhausted, hreturned⟩ := h.open_ hended
    exact ⟨fun hmem => hexhausted ((hnew _ (by decide)).mp hmem),
      fun state hmem => hreturned state ((hnew _ (by simp)).mp hmem)⟩
  · exact ⟨trivial, h.history⟩
  · apply Log.after_cons
    · intro newer older hlog
      obtain ⟨hmark, hcount⟩ := h.marks newer older hlog
      exact ⟨by simpa using hmark, hcount⟩
    · intro _
      refine ⟨by simp, ?_⟩
      change 0 + s.phase.beforeLaunch.toNat ≤ 1
      cases s.phase.beforeLaunch <;> decide

theorem Inv.exit (h : Inv s) {p : Process} (hp : s.processes[c]? = some p)
    (hrunning : p.exit = none) (code : ℤ) :
    Inv ({ s with processes := s.processes.set c { p with exit := some code } }.emit
      (.exited c code)) := by
  obtain ⟨hlt, -⟩ := List.getElem?_eq_some_iff.mp hp
  have hnew (e : Event) (hne : e ≠ .exited c code) : e ∈ Event.exited c code :: s.log ↔ e ∈ s.log := by
    rw [List.mem_cons, or_iff_right hne]
  constructor
  · exact h.stops.trans (hnew _ (by simp)).symm
  · exact h.state
  · intro c' code'
    change _ ∈ _ :: s.log ↔ (((s.processes.set c _)[c']?).bind Process.exit) = some code'
    rw [List.mem_cons, h.exits, List.getElem?_set]
    split_ifs with heq
    · subst heq
      rw [Option.bind_some, Option.some.injEq, poll_eq_some]
      constructor
      · rintro (heq | ⟨p', hp', hexit⟩)
        · exact (Event.exited.inj heq).2.symm
        · rw [hp, Option.some.injEq] at hp'
          rw [← hp', hrunning] at hexit
          cases hexit
      · rintro rfl
        exact .inl rfl
    · rw [or_iff_right (fun he => heq (Event.exited.inj he).1.symm)]
      rfl
  · intro e he c' hc'
    change c' < (s.processes.set c _).length
    rw [List.length_set]
    rcases List.mem_cons.mp he with rfl | hmem
    · cases hc'
    · exact h.known e hmem c' hc'
  · intro hlast c' p' hp'
    change (s.processes.set c _)[c']? = some p' at hp'
    rw [List.getElem?_set] at hp'
    split_ifs at hp' with heq
    · subst heq
      rcases h.settled hlast c p hp with hchild | hleft | ⟨code', hexit, -⟩
      · exact .inl hchild
      · cases hp'
        exact .inr (.inl hleft)
      · rw [hrunning] at hexit
        cases hexit
    · exact h.settled hlast c' p' hp'
  · intro c' hc'
    obtain ⟨hlt', hlaunched⟩ := h.child c' hc'
    change c' < (s.processes.set c _).length ∧ Log.lastLaunched s.log =
      some (c', (((s.processes.set c _)[c']?).map Process.pid).getD 0)
    rw [List.length_set, hlaunched, List.getElem?_set]
    refine ⟨hlt', ?_⟩
    split_ifs with heq
    · subst heq
      simp [Supervisor.pid, hp]
    · rfl
  · exact h.point.append [.exited c code] (by simp)
  · intro hended
    obtain ⟨hexhausted, hreturned⟩ := h.open_ hended
    exact ⟨fun hmem => hexhausted ((hnew _ (by simp)).mp hmem),
      fun state hmem => hreturned state ((hnew _ (by simp)).mp hmem)⟩
  · exact ⟨trivial, h.history⟩
  · apply Log.after_cons
    · intro newer older hlog
      obtain ⟨hmark, hcount⟩ := h.marks newer older hlog
      exact ⟨by simpa using hmark, hcount⟩
    · intro hstop
      cases hstop

theorem Inv.introduced (h : Inv s) (hphase : s.phase = .connecting t c .receive)
    (message : FromRuntime) : Inv (s.introduced t c message) := by
  cases message with
  | heartbeat | goodbye => exact h.notConnected hphase t .wrongHello
  | hello pid protocol =>
    have hlast : s.phase.isLast = false := by
      rw [hphase]
      rfl
    have hhello : Inv (s.emit (.hello pid protocol)) :=
      h.emit hlast rfl rfl trivial (by simp) (by simp)
    unfold Supervisor.introduced
    simp only
    split_ifs with hok
    · obtain ⟨hpid, hprotocol⟩ := hok
      have hpoint := h.point
      rw [hphase] at hpoint
      apply hhello.goto hlast
      · exact .inr (congrArg Phase.child? hphase).symm
      · refine ⟨hpoint.1, fun pid' hlaunched => ?_⟩
        obtain ⟨-, hlaunched'⟩ := h.child c (by rw [hphase]; rfl)
        obtain rfl : s.pid c = pid' := by
          have heq := hlaunched'.symm.trans hlaunched
          simpa using heq
        refine ⟨[], Log.sinceLaunch s.log, ?_, hpoint.2 _ hlaunched'⟩
        rw [hpid, hprotocol]
        rfl
      · intro _ hbefore
        cases hbefore
    · exact hhello.notConnected hphase t .wrongHello

theorem Inv.beatChecked (h : Inv s) (hphase : s.phase = .watching t c w point) (w' : Watch)
    (now : ℚ) :
    Inv (s.beatChecked t c w' now) := by
  unfold Supervisor.beatChecked
  split_ifs with hlate
  · exact h.watched hphase t .stoppedResponding
  · have hpoint := h.point
    rw [hphase] at hpoint
    apply h.goto (by rw [hphase]; rfl)
    · exact .inr (congrArg Phase.child? hphase).symm
    · exact hpoint
    · intro _ hbefore
      cases hbefore

theorem Inv.heard (h : Inv s) (hphase : s.phase = .watching t c w point) (now : ℚ)
    (message : FromRuntime) :
    Inv (s.heard t c w now message) := by
  cases message with
  | hello => exact h.watched hphase t .unexpectedMessage
  | goodbye => exact h.watched hphase t .goodbye
  | heartbeat seq busy =>
    unfold Supervisor.heard
    simp only
    by_cases hwarn : s.policy.commandLoopWarnSeconds ≤ busy ∧ w.stallReported = false
    · have hwarned : Inv (s.emit (.warned busy)) :=
        h.emit (by rw [hphase]; rfl) rfl rfl trivial (by simp) (by simp)
      rw [if_pos hwarn]
      exact hwarned.beatChecked hphase _ now
    · rw [if_neg hwarn]
      exact h.beatChecked hphase _ now

theorem Inv.refused (h : Inv s) (hphase : s.phase = .leaving r .refused)
    (hrefused : s.pollChild r = some startupRefusedExit) : Inv (s.finish .degraded) := by
  have hpoint := h.point
  rw [hphase] at hpoint
  apply h.finish []
  · rw [hpoint]
    decide
  · simp
  · refine .inl ⟨rfl, .inl ?_⟩
    unfold Supervisor.pollChild at hrefused
    cases hc : r.child with
    | none =>
      rw [hc] at hrefused
      simp [startupRefusedExit] at hrefused
    | some c =>
      rw [hc] at hrefused
      obtain ⟨-, hlaunched⟩ := h.child c (by rw [hphase]; exact hc)
      exact ⟨c, s.pid c, hlaunched, (h.exits c _).mpr hrefused⟩

theorem getElem?_leave (r : Round) (c : ℕ) :
    (s.leave r).processes[c]? = s.processes[c]?.map fun p =>
      if r.child = some c then { p with left := p.exit.isNone } else p := by
  unfold Supervisor.leave
  cases hr : r.child with
  | none => simp
  | some c' =>
    rw [List.getElem?_modify]
    by_cases heq : c' = c
    · simp [heq]
    · simp [heq]

theorem Inv.leave (h : Inv s) (hphase : s.phase = .leaving r .refused)
    (hrefused : s.pollChild r ≠ some startupRefusedExit) :
    Inv ((s.leave r).goto (.leaving r .budget)) := by
  have hlog : (s.leave r).log = s.log ∧ (s.leave r).stop = s.stop ∧ (s.leave r).state = s.state ∧
      (s.leave r).processes.length = s.processes.length := by
    unfold Supervisor.leave
    cases r.child <;> simp
  obtain ⟨hlog, hstop, hstate, hlength⟩ := hlog
  have hpoll (c : ℕ) : (s.leave r).poll c = s.poll c := by
    unfold Supervisor.poll
    rw [getElem?_leave]
    cases s.processes[c]? with
    | none => rfl
    | some p =>
      rw [Option.map_some, Option.bind_some, Option.bind_some]
      split_ifs <;> rfl
  have hopen : s.phase.isEnded = false := by
    rw [hphase]
    rfl
  have hpoint := h.point
  rw [hphase] at hpoint
  constructor
  · change (s.leave r).stop = true ↔ _ ∈ (s.leave r).log
    rw [hstop, hlog]
    exact h.stops
  · change (s.leave r).state = Log.lastState (s.leave r).log
    rw [hstate, hlog]
    exact h.state
  · intro c code
    change _ ∈ (s.leave r).log ↔ (s.leave r).poll c = some code
    rw [hlog, hpoll]
    exact h.exits c code
  · change ∀ e ∈ (s.leave r).log, ∀ c, e.process? = some c → c < (s.leave r).processes.length
    rw [hlog, hlength]
    exact h.known
  · intro _ c p hp
    change (s.leave r).processes[c]? = some p at hp
    rw [getElem?_leave, Option.map_eq_some_iff] at hp
    obtain ⟨p', hp', rfl⟩ := hp
    right
    split_ifs with hchild
    · cases hexit : p'.exit with
      | none => exact .inl rfl
      | some code =>
        refine .inr ⟨code, rfl, ?_⟩
        rintro rfl
        apply hrefused
        unfold Supervisor.pollChild
        rw [hchild]
        exact poll_eq_some.mpr ⟨p', hp', hexit⟩
    · rcases h.settled (by rw [hphase]; rfl) c p' hp' with heq | hrest
      · rw [hphase] at heq
        exact absurd heq hchild
      · exact hrest
  · intro c hc
    cases hc
  · change (s.leave r).state = .stopping
    exact hstate.trans hpoint
  · change _ → .exhausted ∉ (s.leave r).log ∧ ∀ state, .returned state ∉ (s.leave r).log
    rw [hlog]
    exact fun _ => h.open_ hopen
  · change Every _ (s.leave r).log
    rw [hlog]
    exact h.history
  · have hmarks := h.marks
    rw [hphase] at hmarks
    change ∀ newer older, (s.leave r).log = _ → _
    rw [hlog]
    exact hmarks

theorem Inv.go (h : Inv s) (hgo : s.go = some s') : Inv s' := by
  have hpoint := h.point
  have hkeep {phase : Phase} (hlast : s.phase.isLast = false)
      (hchild : phase.isLast = true ∨ phase.child? = s.phase.child?)
      (hat : phase.At s.state s.log) (hbefore : phase.beforeLaunch = false) : Inv (s.goto phase) :=
    h.goto hlast hchild hat fun _ htrue => absurd (hbefore.symm.trans htrue) (by decide)
  unfold Supervisor.go at hgo
  cases hphase : s.phase with
  | top =>
    rw [hphase] at hpoint hkeep
    simp only [hphase] at hgo
    cases hgo
    split_ifs with hstop
    · exact hkeep rfl (.inl rfl) ⟨hpoint, h.stops.mp hstop⟩ rfl
    · apply h.move (by rw [hphase]; rfl)
      · exact fun hrunning => absurd hrunning hpoint
      · rw [hphase]
        rfl
      · rfl
      · exact fun htrue => absurd htrue hstop
  | connecting t c point =>
    rw [hphase] at hpoint hkeep
    cases point with
    | listen =>
      simp only [hphase] at hgo
      cases hgo
      apply (h.same s.budget s.starts true (s.interrupted || s.stop) s.exited).goto
      · rw [hphase]
        rfl
      · exact .inr (congrArg Phase.child? hphase).symm
      · exact hpoint
      · intro _ hbefore
        cases hbefore
    | look =>
      simp only [hphase] at hgo
      cases hgo
      split_ifs with hstop
      · exact h.notConnected hphase t .stopping
      · exact hkeep rfl (.inr rfl) hpoint rfl
    | _ =>
      simp only [hphase] at hgo
      cases hgo
  | watching t c w point =>
    rw [hphase] at hpoint hkeep
    cases point with
    | stop =>
      simp only [hphase] at hgo
      cases hgo
      split_ifs with hstop
      · exact h.watched hphase t .stopping
      · exact hkeep rfl (.inr rfl) hpoint rfl
    | poll =>
      simp only [hphase] at hgo
      cases hgo
      cases s.poll c with
      | some code => exact h.watched hphase t (.exited code)
      | none => exact hkeep rfl (.inr rfl) hpoint rfl
    | receive =>
      simp only [hphase] at hgo
      cases hgo
  | shutting r point =>
    rw [hphase] at hpoint hkeep
    cases point with
    | ask | terminatePoll | killPoll =>
      simp only [hphase] at hgo
      cases hgo
      exact hkeep rfl (.inr rfl) hpoint rfl
    | _ =>
      simp only [hphase] at hgo
      cases hgo
  | leaving r point =>
    rw [hphase] at hpoint hkeep
    cases point with
    | stop =>
      simp only [hphase] at hgo
      cases hgo
      split_ifs with hstop
      · refine hkeep rfl (.inl rfl) ⟨?_, h.stops.mp hstop⟩ rfl
        rw [hpoint]
        decide
      · exact hkeep rfl (.inr rfl) hpoint rfl
    | refused =>
      simp only [hphase] at hgo
      cases hgo
      split_ifs with hrefused
      · exact h.refused hphase hrefused
      · exact h.leave hphase hrefused
    | budget =>
      simp only [hphase] at hgo
      cases hgo
  | backingOff delay =>
    rw [hphase] at hpoint hkeep
    simp only [hphase] at hgo
    split_ifs at hgo with hstop
    cases hgo
    refine hkeep rfl (.inl rfl) ⟨?_, h.stops.mp hstop⟩ rfl
    rw [hpoint]
    decide
  | final =>
    rw [hphase] at hpoint
    simp only [hphase] at hgo
    cases hgo
    exact h.finish [] hpoint.1 (by simp) (.inr ⟨rfl, hpoint.2⟩)
  | _ =>
    simp only [hphase] at hgo
    cases hgo

theorem Inv.called (h : Inv s) (hcalled : s.called = some s') : Inv s' := by
  have hpoint := h.point
  unfold Supervisor.called at hcalled
  cases hphase : s.phase with
  | shutting r point =>
    have hlast : s.phase.isLast = false := by
      rw [hphase]
      rfl
    rw [hphase] at hpoint
    -- What goes to the child of this turn goes to the one launched last.
    have hemit {event : ℕ → Event} (hplain : ∀ c, (event c).plain = true)
        (hset : ∀ c, Log.lastState (event c :: s.log) = Log.lastState s.log)
        (hj : ∀ c, (∃ pid, Log.lastLaunched s.log = some (c, pid)) → (event c).Justified s.log)
        (hstart : ∀ c, event c ≠ .set .starting)
        (hopen : ∀ c, event c ≠ .exhausted ∧ ∀ state, event c ≠ .returned state)
        (next : ShutPoint) : Inv ((s.emitFor r event).goto (.shutting r next)) := by
      unfold Supervisor.emitFor
      cases hc : r.child with
      | none =>
        apply h.goto hlast
        · exact .inr (congrArg Phase.child? hphase).symm
        · exact hpoint
        · intro _ hbefore
          cases hbefore
      | some c =>
        obtain ⟨-, hlaunched⟩ := h.child c (by rw [hphase]; exact hc)
        apply (h.emit hlast (hplain c) (hset c) (hj c ⟨_, hlaunched⟩) (hstart c) (hopen c)).goto hlast
        · exact .inr (congrArg Phase.child? hphase).symm
        · exact hpoint
        · intro _ hbefore
          cases hbefore
    have hkeep {phase : Phase} (hchild : phase.child? = r.child) (hat : phase.At s.state s.log)
        (hbefore : phase.beforeLaunch = false) : Inv (s.goto phase) := by
      apply h.goto hlast
      · rw [hphase]
        exact .inr hchild
      · exact hat
      · exact fun _ htrue => absurd (hbefore.symm.trans htrue) (by decide)
    cases point with
    | closeServer | closeChannel =>
      simp only [hphase] at hcalled
      cases hcalled
      exact hkeep rfl hpoint rfl
    | request =>
      simp only [hphase] at hcalled
      cases hcalled
      unfold Supervisor.requestStop
      split_ifs
      · exact hemit (fun _ => rfl) (fun _ => rfl) (fun _ => id) (by simp) (by simp) _
      · exact hkeep rfl hpoint rfl
    | send | terminate | kill =>
      simp only [hphase] at hcalled
      cases hcalled
      exact hemit (fun _ => rfl) (fun _ => rfl) (fun _ => id) (by simp) (by simp) _
    | _ =>
      simp only [hphase] at hcalled
      cases hcalled
  | _ =>
    simp only [hphase] at hcalled
    cases hcalled

theorem Inv.waited (h : Inv s) (hwaited : s.waited = some s') : Inv s' := by
  have hpoint := h.point
  unfold Supervisor.waited at hwaited
  cases hphase : s.phase with
  | shutting r point =>
    rw [hphase] at hpoint
    have hkeep (next : ShutPoint) : Inv (s.goto (.shutting r next)) := by
      apply h.goto
      · rw [hphase]
        rfl
      · exact .inr (congrArg Phase.child? hphase).symm
      · exact hpoint
      · intro _ hbefore
        cases hbefore
    cases point with
    | grace | terminateWait | killWait =>
      simp only [hphase] at hwaited
      cases hwaited
      exact hkeep _
    | _ =>
      simp only [hphase] at hwaited
      cases hwaited
  | backingOff delay =>
    rw [hphase] at hpoint
    simp only [hphase] at hwaited
    cases hwaited
    apply h.goto
    · rw [hphase]
      rfl
    · exact .inr (congrArg Phase.child? hphase).symm
    · change s.state ≠ .running
      rw [hpoint]
      decide
    · intro _ hbefore
      cases hbefore
  | _ =>
    simp only [hphase] at hwaited
    cases hwaited

theorem Inv.budgeted (h : Inv s) (hphase : s.phase = .leaving r .budget)
    {answer : Option (RestartBudget × Option ℚ)} (hanswer : answer.isSome = true) :
    Inv (s.budgeted answer) := by
  have hpoint := h.point
  rw [hphase] at hpoint
  obtain ⟨⟨budget, delay⟩, rfl⟩ := Option.isSome_iff_exists.mp hanswer
  have hspent := h.same budget s.starts s.connecting s.interrupted s.exited
  cases delay with
  | none =>
    apply hspent.finish [.exhausted]
    · change s.state ≠ .running
      rw [hpoint]
      decide
    · simp
    · exact .inl ⟨rfl, .inr List.mem_cons_self⟩
  | some delay =>
    apply hspent.move
    · change s.phase.isLast = false
      rw [hphase]
      rfl
    · intro hrunning
      change s.state = .running at hrunning
      rw [hpoint] at hrunning
      cases hrunning
    · exact (congrArg Phase.child? hphase).symm
    · rfl
    · intro _
      exact ⟨by decide, rfl⟩

theorem Inv.step (h : Inv s) {a : Act} (ha : Orderly s a) (hstep : s.step a = some s') :
    Inv s' := by
  have hpoint := h.point
  unfold Supervisor.step at hstep
  cases a with
  | stop =>
    simp only [Option.some.injEq] at hstep
    exact hstep ▸ h.stop
  | interrupt =>
    simp only at hstep
    split_ifs at hstep
    cases hstep
    exact h.same s.budget s.starts s.connecting _ s.exited
  | exit c code =>
    simp only [Option.bind_eq_some_iff] at hstep
    obtain ⟨p, hp, hstep⟩ := hstep
    split_ifs at hstep with hrunning
    cases hstep
    exact h.exit hp (by simpa using hrunning) code
  | notice =>
    cases hphase : s.phase with
    | connecting t c point =>
      simp only [hphase, Option.map_eq_some_iff] at hstep
      obtain ⟨code, -, rfl⟩ := hstep
      have hsame := h.same s.budget s.starts s.connecting true (some code)
      exact hphase ▸ hsame
    | _ =>
      simp only [hphase] at hstep
      cases hstep
  | go => exact h.go hstep
  | prepared now =>
    cases hphase : s.phase with
    | starting =>
      rw [hphase] at hpoint
      simp only [hphase] at hstep
      cases hstep
      apply (h.same s.budget (s.starts + 1) s.connecting false none).goto
      · rw [hphase]
        rfl
      · exact .inr (congrArg Phase.child? hphase).symm
      · exact hpoint
      · intro _ _
        rw [hphase]
        rfl
    | _ =>
      simp only [hphase] at hstep
      cases hstep
  | launched pid relayed =>
    cases hphase : s.phase with
    | launching t =>
      simp only [hphase] at hstep
      cases hstep
      apply h.launch hphase
      apply h.mayLaunch
      · rw [hphase]
        rfl
      · rw [hphase]
        rfl
      · exact ha
    | _ =>
      simp only [hphase] at hstep
      cases hstep
  | launchRaised left =>
    cases hphase : s.phase with
    | launching t =>
      simp only [hphase] at hstep
      cases hstep
      apply h.launchFailed hphase
      apply h.mayLaunch
      · rw [hphase]
        rfl
      · rw [hphase]
        rfl
      · exact ha
    | _ =>
      simp only [hphase] at hstep
      cases hstep
  | accepted =>
    simp only at hstep
    split at hstep
    · rename_i t c hphase
      rw [hphase] at hpoint
      have hlast : s.phase.isLast = false := by
        rw [hphase]
        rfl
      obtain ⟨-, hlaunched⟩ := h.child c (by rw [hphase]; rfl)
      cases hstep
      have haccepted : Inv (s.emit (.accepted (s.pid c))) :=
        h.emit hlast rfl rfl trivial (by simp) (by simp)
      apply haccepted.goto hlast
      · exact .inr (congrArg Phase.child? hphase).symm
      · refine ⟨hpoint.1, fun pid hpid => ?_⟩
        obtain rfl : s.pid c = pid := by
          have heq := hlaunched.symm.trans hpid
          simpa using heq
        exact List.mem_cons_self
      · intro _ hbefore
        cases hbefore
    · cases hstep
  | acceptCancelled =>
    simp only at hstep
    split at hstep
    · split_ifs at hstep
      cases hstep
      exact h.notConnected ‹_› _ _
    · cases hstep
  | acceptFailed =>
    simp only at hstep
    split at hstep
    · cases hstep
      exact h.notConnected ‹_› _ _
    · cases hstep
  | late =>
    simp only at hstep
    split at hstep
    · split_ifs at hstep
      cases hstep
      exact h.notConnected ‹_› _ _
    · cases hstep
  | received received now =>
    simp only at hstep
    split at hstep
    · cases hstep
      exact h.introduced ‹_› _
    · rename_i t c hphase
      rw [hphase] at hpoint
      cases hstep
      apply h.goto
      · rw [hphase]
        rfl
      · exact .inr (congrArg Phase.child? hphase).symm
      · exact hpoint
      · intro _ hbefore
        cases hbefore
    · cases hstep
      exact h.notConnected ‹_› _ _
    · cases hstep
      exact h.heard ‹_› now _
    · cases hstep
      exact h.beatChecked ‹_› _ now
    · cases hstep
      exact h.watched ‹_› _ _
    · cases hstep
  | welcomed now =>
    simp only at hstep
    split at hstep
    · rename_i t c hphase
      rw [hphase] at hpoint
      cases hstep
      obtain ⟨-, hlaunched⟩ := h.child c (by rw [hphase]; rfl)
      apply (h.same s.budget s.starts false s.interrupted s.exited).move
      · rw [hphase]
        rfl
      · intro hrunning
        change s.state = .running at hrunning
        rw [hpoint.1] at hrunning
        cases hrunning
      · exact (congrArg Phase.child? hphase).symm
      · obtain ⟨newer, older, hsince, haccepted⟩ := hpoint.2 _ hlaunched
        exact ⟨rfl, Log.Served.append ⟨c, _, newer, older, hlaunched, hsince, haccepted⟩ [_]
          (by simp)⟩
      · intro _
        exact ⟨by decide, rfl⟩
    · cases hstep
  | sendFailed =>
    simp only at hstep
    split at hstep
    · cases hstep
      exact h.notConnected ‹_› _ _
    · rename_i r hphase
      apply h.called
      simp only [Supervisor.called, hphase]
      exact hstep
    · cases hstep
  | called => exact h.called hstep
  | waited => exact h.waited hstep
  | budgeted now again =>
    simp only at hstep
    split at hstep
    · cases hstep
      exact h.budgeted ‹_› (RestartBudget.afterFailure_isSome (ha _ ‹_›))
    · cases hstep
  | raises => exact absurd ha id

theorem inv_start (h : s.Fresh) : Inv s := by
  obtain ⟨hstate, hstop, -, hphase, hprocesses, hlog⟩ := h
  constructor
  · rw [hstop, hlog]
    simp
  · rw [hstate, hlog]
    rfl
  · intro c code
    simp [hlog, Supervisor.poll, hprocesses]
  · simp [hlog]
  · simp [hprocesses]
  · intro c hc
    rw [hphase] at hc
    cases hc
  · rw [hphase, hstate]
    change SupervisorState.stopped ≠ .running
    decide
  · simp [hlog]
  · rw [hlog]
    trivial
  · simp [hlog]

theorem inv_of_reach (hr : supervisorMachine.Reach Orderly s) : Inv s := by
  apply Machine.Reach.invariant _ _ hr
  · exact fun _ => inv_start
  · exact fun _ _ _ hI ha hstep => hI.step ha hstep

end

end QronosAgent.Supervision

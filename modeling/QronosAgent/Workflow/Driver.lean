import QronosAgent.Workflow.AttemptedOnce

/-! Approved side effects: each run, of some process, begins one operation in the journal, invokes
it, and settles it. Any number of runs share one journal; a process may die at any point. -/
namespace QronosAgent.Workflow
open Lib
open Journal (Platform)

inductive Want where
  | begin (kind : PyStr) (parts : List PyStr) (detail : PyStr)
  | settle (state : SideEffectState) (detail : PyStr)
  | get

/-- How a run goes. `Q` are its stages, `I` is what it reads, and `G` what is noted of what it does
outside. -/
structure Procedure (Q I G : Type) where
  operationKey : Q → PyStr
  content : Q → PyStr × List PyStr
  first : Q → Bool
  wants : Q → Option Want
  /-- Where it goes with the answer of the journal. -/
  told : Q → Except Failure (Option SideEffectState) → Q
  input : Q → I → Option (Q × List G)
  invokes : G → Bool

structure Run (Q : Type) where
  owner : Process
  psutil : Bool
  alive : Bool
  stage : Q

structure Sys (Q G : Type) where
  world : World
  runs : List (Run Q)
  /-- What was done outside, with the key of the operation. -/
  log : List (PyStr × G)

inductive Step (F Q I : Type) where
  | start (p : Process)
  | die (p : Process)
  | enter (owner : Process) (psutil : Bool) (q : Q)
  | ask (i : ℕ) (fate : Fate) (now : F)
  | input (i : ℕ) (x : I)
  /-- A person acknowledges, a process looks for interrupted attempts, or something is looked up. -/
  | other (c : Call F) (fate : Fate)

def Call.isOther {F : Type} : Call F → Bool
  | .begin .. | .settle .. => false
  | _ => true

section
variable {F Q I G : Type} [PyFloat F] (plat : Platform) (builtins : Builtins) (W : Procedure Q I G)

def Want.call (want : Want) (run : Run Q) (operationKey : PyStr) (now : F) : Call F :=
  match want with
  | .begin kind parts detail => .begin run.owner run.psutil operationKey kind parts detail now
  | .settle state detail => .settle operationKey state detail now
  | .get => .get operationKey

/-- What the caller gets. -/
def World.answer (s : World) (c : Call F) (fate : Fate) : Except Failure (Option SideEffectState) :=
  match c with
  | .get operationKey => get (F := F) plat fate operationKey s.disk
  | _ => (s.run plat builtins c fate).1.map fun _ => none

def World.after (s : World) (c : Call F) (fate : Fate) : World :=
  { s with
    disk := (s.run plat builtins c fate).2
    attempts := s.attempts ++ attempted s c (s.run plat builtins c fate) }

def Sys.ask (s : Sys Q G) (i : ℕ) (fate : Fate) (now : F) : Option (Sys Q G) :=
  match s.runs[i]? with
  | some run =>
    if run.alive then (W.wants run.stage).map fun want =>
      let c : Call F := want.call run (W.operationKey run.stage) now
      { s with
        world := s.world.after plat builtins c fate
        runs := s.runs.set i { run with
          stage := W.told run.stage (s.world.answer plat builtins c fate) } }
    else none
  | none => none

def Sys.input (s : Sys Q G) (i : ℕ) (x : I) : Option (Sys Q G) :=
  match s.runs[i]? with
  | some run =>
    if run.alive then (W.input run.stage x).map fun r =>
      { s with
        runs := s.runs.set i { run with stage := r.1 }
        log := s.log ++ r.2.map fun g => (W.operationKey run.stage, g) }
    else none
  | none => none

def Sys.step (s : Sys Q G) : Step F Q I → Option (Sys Q G)
  | .start p =>
    (s.world.step plat builtins (.start p : Action F)).map fun world => { s with world := world }
  | .die p => (s.world.step plat builtins (.die p : Action F)).map fun world =>
    { s with
      world := world
      runs := s.runs.map fun run => { run with alive := run.alive && run.owner ≠ p } }
  | .enter owner psutil q =>
    if W.first q && s.world.live.contains owner then
      some { s with runs := s.runs ++ [⟨owner, psutil, true, q⟩] }
    else none
  | .ask i fate now => s.ask plat builtins W i fate now
  | .input i x => s.input W i x
  | .other c fate =>
    if c.isOther then some { s with world := s.world.after plat builtins c fate } else none

def workflowMachine (F : Type) [PyFloat F] (plat : Platform) (builtins : Builtins)
    (W : Procedure Q I G) : Machine (Sys Q G) (Step F Q I) where
  start s := s.world.disk = ⟨none, false⟩ ∧ (s.world.live.map Process.pid).Nodup ∧
    s.world.attempts = [] ∧ s.runs = [] ∧ s.log = []
  step s a := s.step plat builtins W a

end

section
variable {F Q I G : Type} [PyFloat F] {plat : Platform} {builtins : Builtins} {W : Procedure Q I G}
variable {s s' : Sys Q G} {i : ℕ} {run : Run Q} {want : Want} {as : List (Step F Q I)}

theorem Sys.ask_eq (fate : Fate) (now : F) (hi : s.runs[i]? = some run) (halive : run.alive = true)
    (hwants : W.wants run.stage = some want) :
    s.ask plat builtins W i fate now = some { s with
      world := s.world.after plat builtins (want.call run (W.operationKey run.stage) now) fate
      runs := s.runs.set i { run with stage := W.told run.stage (s.world.answer plat builtins
        (want.call run (W.operationKey run.stage) now) fate) } } := by
  unfold Sys.ask
  simp only [hi, halive, hwants, if_true, Option.map_some]

/-- A run that does not ask touches no journal. -/
def Step.isOwn : Step F Q I → Bool
  | .enter .. | .input .. => true
  | _ => false

theorem exec_own (hown : ∀ a ∈ as, a.isOwn = true)
    (he : (workflowMachine F plat builtins W).exec s as = some s') : s'.world = s.world := by
  have hok : (workflowMachine F plat builtins W).allOk (fun _ a => a.isOwn = true) s as :=
    Machine.allOk_of (fun a ha _ => hown a ha) s
  apply Machine.exec_invariant (I := fun t => t.world = s.world) ?_ rfl hok he
  intro t a t' ht ha hs
  cases a with
  | enter owner psutil q =>
    simp only [workflowMachine, Sys.step] at hs
    split at hs
    · cases hs
      exact ht
    · cases hs
  | input i x =>
    simp only [workflowMachine, Sys.step, Sys.input] at hs
    split at hs
    · split at hs
      · obtain ⟨r, -, rfl⟩ := Option.map_eq_some_iff.mp hs
        exact ht
      · cases hs
    · cases hs
  | start | die | ask | other => cases ha

end

/-- Where a run stands with its operation: whether it will invoke it no more, and the states that it
may have given it. -/
inductive Phase where
  | fresh
  | opened (spent : Bool) (states : List SideEffectState)
  | over

def Allows (states : List SideEffectState) (state : SideEffectState) : Prop :=
  state ∈ states ∨ state = .acknowledged ∧ .uncertain ∈ states

/-- A run gives its operation other states as well, or will not invoke it any more, or is over. -/
inductive Phase.Goes : Phase → Phase → Prop
  | stays (p : Phase) : Goes p p
  | over (p : Phase) : Goes p .over
  | opened {spent spent' : Bool} {states states' : List SideEffectState}
      (hspent : spent' = false → spent = false) (hstates : states ⊆ states') :
      Goes (.opened spent states) (.opened spent' states')

/-- A run begins first, invokes at most once, and settles only then. -/
structure Procedure.Lawful {Q I G : Type} (W : Procedure Q I G) (phase : Q → Phase) : Prop where
  first : ∀ q, W.first q = true → phase q = .fresh
  key_told : ∀ q r, W.operationKey (W.told q r) = W.operationKey q
  key_input : ∀ q x q' gs, W.input q x = some (q', gs) → W.operationKey q' = W.operationKey q
  content_told : ∀ q r, W.content (W.told q r) = W.content q
  content_input : ∀ q x q' gs, W.input q x = some (q', gs) →
    W.content q' = W.content q ∨ phase q = .fresh
  begin : ∀ q kind parts detail, W.wants q = some (.begin kind parts detail) →
    W.content q = (kind, parts) ∧ phase q = .fresh ∧ (∀ x, phase (W.told q (.ok x)) = .opened false [.submitting]) ∧
      ∀ e, phase (W.told q (.error e)) = .over
  settle : ∀ q state detail, W.wants q = some (.settle state detail) → ∃ spent states,
    phase q = .opened spent states ∧
      (∀ x, (Phase.opened spent [state]).Goes (phase (W.told q (.ok x)))) ∧
        ∀ e, (Phase.opened spent (state :: states)).Goes (phase (W.told q (.error e)))
  /-- What it is told of the state may be what it goes by. -/
  get : ∀ q, W.wants q = some .get → ∃ spent states, phase q = .opened spent states ∧
    ∀ r spent' states', phase (W.told q r) = .opened spent' states' →
      (spent' = false → spent = false) ∧
        ∀ state, r = .ok (some state) ∨ (∀ x, r ≠ .ok x) → Allows states state → Allows states' state
  input : ∀ q x q' gs, W.input q x = some (q', gs) →
    gs.filter W.invokes = [] ∧ (phase q).Goes (phase q') ∨
      ∃ g states states', gs.filter W.invokes = [g] ∧ phase q = .opened false states ∧
        phase q' = .opened true states' ∧ states ⊆ states'

/-! What one call of the journal leaves of each operation. -/

open Journal (Platform)

section
variable {F : Type} [PyFloat F] {plat : Platform} {builtins : Builtins} {s : World}

/-- The journal can be read. -/
def World.Loads (F : Type) [PyFloat F] (plat : Platform) (s : World) : Prop :=
  ∃ entries : Entries F, load plat false s.disk = .ok entries

theorem state_congr {s s' : World} (hdisk : s'.disk = s.disk) (key : PyStr) :
    s'.state F plat key = s.state F plat key := by
  unfold World.state
  rw [hdisk]

theorem World.Loads.after (hloads : s.Loads F plat) (h : Inv F plat builtins s) (c : Call F)
    (fate : Fate) : (s.after plat builtins c fate).Loads F plat := by
  have heffect := h.effect c fate
  unfold World.after World.Loads
  generalize s.run plat builtins c fate = r at heffect
  cases heffect with
  | same hdisk => rwa [hdisk]
  | saved entries changed hload hshaped hchange hsaved => exact ⟨changed, hsaved⟩

inductive Begun (F : Type) [PyFloat F] (plat : Platform) (builtins : Builtins) (a : Attempt)
    (s s' : World) (r : Except Failure (Option SideEffectState)) : Prop
  | refused (hattempts : s'.attempts = s.attempts)
      (hstates : ∀ key, s'.state F plat key = s.state F plat key) (hr : ∀ x, r ≠ .ok x)
  | opened (hattempts : ∃ returned, s'.attempts = s.attempts ++ [{ a with returned := returned }])
      (hnew : a.operationKey ∉ s.attempts.map Attempt.operationKey)
      (hstate : s'.state F plat a.operationKey = some .submitting)
      (hstates : ∀ key, key ≠ a.operationKey → s'.state F plat key = s.state F plat key)
      (hfree : ∀ b ∈ s.attempts, contentKey builtins.hexdigest b.kind b.parts =
        contentKey builtins.hexdigest a.kind a.parts → s.open F plat b = false)

theorem Inv.begun (h : Inv F plat builtins s) (owner : Process) (psutil : Bool)
    (operationKey kind : PyStr) (parts : List PyStr) (detail : PyStr) (now : F) (fate : Fate) :
    Begun F plat builtins ⟨operationKey, kind, parts, owner, psutil, true⟩ s
      (s.after plat builtins (.begin owner psutil operationKey kind parts detail now) fate)
      (s.answer plat builtins (.begin owner psutil operationKey kind parts detail now) fate) := by
  have heffect := h.effect (.begin owner psutil operationKey kind parts detail now) fate
  unfold World.after World.answer
  generalize s.run plat builtins (.begin owner psutil operationKey kind parts detail now) fate = r
    at heffect ⊢
  cases heffect with
  | same hdisk hloaded hattempted =>
    refine .refused ?_ (state_congr hdisk) fun x hr => ?_
    · simp only [hattempted, List.append_nil]
    · obtain ⟨u, hu, -⟩ := map_eq_ok.mp hr
      simp [attempted, hu, Except.isOk, Except.toBool] at hattempted
  | saved entries changed hload hshaped hchange hsaved hfile =>
    have hattempted := attempted_saved hload hsaved hfile hchange
    obtain ⟨-, hnew, hfree, rfl⟩ := hchange
    have hagrees := h.agrees entries hload
    refine .opened ⟨r.1.isOk, ?_⟩ (hagrees.notMem hnew) ?_ (fun key hkey => ?_) (fun b hb hsame => ?_)
    · rw [hattempted]
    · rw [state_of_load hsaved, stateIn, Dict.get?_set_self, Option.bind_some, Entry.stateOf?_members]
    · rw [state_of_load hsaved, state_of_load hload, stateIn, stateIn, Dict.get?_set_ne hkey]
    · obtain ⟨e, hget, hcontent, -, hopen⟩ := hagrees.stateIn hb
      rw [World.open, state_of_load hload, hopen, Option.any_some]
      cases hunresolved : e.state.unresolved with
      | false => rfl
      | true =>
        have hblocks := Entry.blocks_members.mpr ⟨hcontent.trans hsame, hunresolved⟩
        rw [hfree _ _ hget] at hblocks
        cases hblocks

structure Settled (F : Type) [PyFloat F] (plat : Platform) (operationKey : PyStr)
    (state : SideEffectState) (s s' : World) (r : Except Failure (Option SideEffectState)) : Prop where
  attempts : s'.attempts = s.attempts
  states : ∀ key, key ≠ operationKey → s'.state F plat key = s.state F plat key
  settles : s'.state F plat operationKey = s.state F plat operationKey ∨
    s'.state F plat operationKey = some state
  returned : ∀ x, r = .ok x → s'.state F plat operationKey = some state

omit [PyFloat F] in
theorem settled_get? {entries changed : Entries F} (hs : Shaped entries) {operationKey detail : PyStr}
    {state : SideEffectState} {now : F} (h : settled operationKey state detail now entries =
      .ok (some changed)) : stateIn changed operationKey = some state := by
  unfold settled at h
  cases hget : entries.get? operationKey with
  | none => simp [hget] at h
  | some ms =>
    obtain ⟨-, e, rfl, -⟩ := hs operationKey ms hget
    simp only [hget] at h
    split at h
    · cases h
    · split at h
      · cases h
      · cases h
        rw [stateIn, Dict.get?_set_self, Option.bind_some, Entry.changeState_members,
          Entry.stateOf?_members]

theorem Inv.settled (h : Inv F plat builtins s) (operationKey : PyStr) (state : SideEffectState)
    (detail : PyStr) (now : F) (fate : Fate) :
    Settled F plat operationKey state s
      (s.after plat builtins (.settle operationKey state detail now) fate)
      (s.answer plat builtins (.settle operationKey state detail now) fate) := by
  have hsection : (s.run plat builtins (.settle operationKey state detail now) fate) =
      (.error .value, s.disk) ∨ Section plat s.disk (Workflow.settled operationKey state detail now)
        (s.run plat builtins (.settle operationKey state detail now) fate) := by
    unfold World.run settle
    simp only
    split
    · exact .inl rfl
    · exact .inr (locked_section fate s.disk _)
  unfold World.after World.answer
  generalize s.run plat builtins (.settle operationKey state detail now) fate = r at hsection ⊢
  rcases hsection with rfl | hsection
  · refine ⟨by simp [attempted], fun key _ => state_congr rfl key, .inl (state_congr rfl _), ?_⟩
    intro x hx
    cases hx
  · cases hsection with
    | same hdisk hreturned =>
      refine ⟨by simp [attempted], fun key _ => state_congr hdisk key, .inl (state_congr hdisk _), ?_⟩
      intro x hx
      obtain ⟨u, hu, -⟩ := map_eq_ok.mp hx
      obtain ⟨entries, hload, hnone⟩ := hreturned hu
      obtain ⟨changed, hsome, -⟩ := settled_eq_ok (h.agrees entries hload).shaped hnone
      cases hsome
    | saved entries changed hload hchange bytes hb hfile =>
      have hs := (h.agrees entries hload).shaped
      obtain ⟨_, hsome, haltered⟩ := settled_eq_ok hs hchange
      cases hsome
      have hsaved : load plat false r.2 = .ok changed := by
        have hload' : load plat false ⟨some bytes, r.2.marker⟩ = .ok changed :=
          load_encode (haltered.shaped hs) hb
        rwa [← hfile] at hload'
      have hnew := settled_get? hs hchange
      refine ⟨by simp [attempted], fun key hkey => ?_, .inr ?_, fun x _ => ?_⟩
      · rw [state_of_load hsaved, state_of_load hload]
        rcases haltered.stateIn key with hsame | ⟨e, new, -, -, ⟨hsame, -⟩, -⟩
        · exact hsame
        · exact absurd hsame hkey
      · rw [state_of_load hsaved, hnew]
      · rw [state_of_load hsaved, hnew]

/-- What a `get` gives. -/
theorem answer_get {operationKey : PyStr} {fate : Fate} {x : Option SideEffectState}
    (h : s.answer (F := F) plat builtins (.get operationKey) fate = .ok x) :
    x = s.state F plat operationKey := by
  unfold World.answer get at h
  simp only at h
  split at h
  · obtain ⟨entries, hload, rfl⟩ := map_eq_ok.mp h
    rw [state_of_load (load_of_unreadable hload), stateIn]
  · cases h

theorem after_get (operationKey : PyStr) (fate : Fate) :
    s.after (F := F) plat builtins (.get operationKey) fate = s := by
  unfold World.after World.run
  simp [attempted]

inductive Touched (s : World) (key : PyStr) : Option SideEffectState → Option SideEffectState → Prop
  | stays (state) : Touched s key state state
  | releases : Touched s key (some .uncertain) (some .acknowledged)
  | interrupts (h : ∀ a ∈ s.attempts, a.operationKey = key → a.owner ∉ s.live) :
      Touched s key (some .submitting) (some .uncertain)

theorem Inv.touched (h : Inv F plat builtins s) {c : Call F} (hc : c.isOther = true) (fate : Fate) :
    (s.after plat builtins c fate).attempts = s.attempts ∧
      ∀ key, Touched s key (s.state F plat key) ((s.after plat builtins c fate).state F plat key) := by
  have hattempts : (s.after plat builtins c fate).attempts = s.attempts := by
    cases c <;> first | (cases hc; done) | exact List.append_nil _
  refine ⟨hattempts, fun key => ?_⟩
  have heffect := h.effect c fate
  unfold World.after
  generalize s.run plat builtins c fate = r at heffect
  cases heffect with
  | same hdisk =>
    have hsame : World.state F plat { s with
        disk := r.2, attempts := s.attempts ++ attempted s c r } key = s.state F plat key :=
      state_congr hdisk key
    rw [hsame]
    exact .stays _
  | saved entries changed hload hshaped hchange hsaved =>
    rw [state_of_load hload, state_of_load hsaved]
    cases c with
    | begin | settle => cases hc
    | get operationKey => exact hchange.elim
    | acknowledge operationKey detail now =>
      rcases Altered.stateIn hchange key with hsame | ⟨e, new, -, hold, ⟨-, hstate, rfl⟩, hnew⟩
      · exact hsame ▸ .stays _
      · rw [hold, hnew, hstate]
        exact .releases
    | reconcileInterrupted denied now =>
      rcases Altered.stateIn hchange key with
        hsame | ⟨e, new, hget, hold, ⟨hstate, hdead, rfl⟩, hnew⟩
      · exact hsame ▸ .stays _
      · rw [hold, hnew, hstate]
        apply Touched.interrupts
        rintro a ha rfl hlive
        obtain ⟨e', hget', -, howner, -⟩ := (h.agrees entries hload).stateIn ha
        obtain rfl := Entry.members_injective (Option.some.inj (hget.symm.trans hget'))
        rw [howner, alive_currentOwner h.pids hlive] at hdead
        cases hdead

end
end QronosAgent.Workflow

import QronosAgent.Workflow.Driver

/-! Runs that keep to the order of an approved side effect: each operation is invoked at most once,
and its state in the journal is the one that its run gave it. -/
namespace QronosAgent.Workflow
open Lib
open Journal (Platform)

section
variable (F : Type) {Q I G : Type} [PyFloat F] (plat : Platform) (builtins : Builtins)
variable (W : Procedure Q I G) (phase : Q → Phase)

/-- The state of a run's operation is one that the run gave it; the attempt of a process that is gone
may have been found so. -/
def Stands (alive : Bool) (states : List SideEffectState) (state : SideEffectState) : Prop :=
  Allows states state ∨
    alive = false ∧ .submitting ∈ states ∧ (state = .uncertain ∨ state = .acknowledged)

structure RunOk (world : World) (log : List (PyStr × G)) (run : Run Q) : Prop where
  owner : run.alive = true → run.owner ∈ world.live
  attempted : ∀ spent states, phase run.stage = .opened spent states →
    ∃ a ∈ world.attempts, a.operationKey = W.operationKey run.stage ∧ a.owner = run.owner ∧
      a.content = W.content run.stage
  states : ∀ spent states, phase run.stage = .opened spent states →
    ∃ state, world.state F plat (W.operationKey run.stage) = some state ∧
      Stands run.alive states state
  unused : ∀ states, phase run.stage = .opened false states → ∀ n ∈ log, W.invokes n.2 = true →
    n.1 ≠ W.operationKey run.stage

def Phase.isOpen : Phase → Bool
  | .opened .. => true
  | _ => false

def Distinct (runs : List (Run Q)) : Prop :=
  ∀ (i j : ℕ) (run run' : Run Q), runs[i]? = some run → runs[j]? = some run' →
    (phase run.stage).isOpen = true → (phase run'.stage).isOpen = true →
      W.operationKey run.stage = W.operationKey run'.stage → i = j

structure Driven (s : Sys Q G) : Prop where
  journal : Inv F plat builtins s.world
  loads : s.world.Loads F plat
  runs : ∀ run ∈ s.runs, RunOk F plat W phase s.world s.log run
  distinct : Distinct W phase s.runs
  once : ((s.log.filter fun n => W.invokes n.2).map Prod.fst).Nodup
  logged : ∀ n ∈ s.log, W.invokes n.2 = true →
    n.1 ∈ s.world.attempts.map Attempt.operationKey
  exclusive : ∀ a ∈ s.world.attempts, ∀ b ∈ s.world.attempts,
    contentKey builtins.hexdigest a.kind a.parts = contentKey builtins.hexdigest b.kind b.parts →
      s.world.open F plat a = true → s.world.open F plat b = true → a = b

end

section
variable {F Q I G : Type} [PyFloat F] {plat : Platform} {builtins : Builtins}
variable {W : Procedure Q I G} {phase : Q → Phase} {s s' : Sys Q G}

variable {world world' : World} {key detail : PyStr} {old new : Option SideEffectState}
  {c : Call F} {alive spent : Bool} {states states' : List SideEffectState}
  {state : SideEffectState} {log : List (PyStr × G)} {run : Run Q} {i : ℕ} {runs : List (Run Q)}
  {p : Phase} {q : Q} {a : Step F Q I} {ok : Sys Q G → Step F Q I → Prop} {J : Q → Prop}

theorem Move.unresolved (h : Move world key old new)
    (hkey : key ∈ world.attempts.map Attempt.operationKey)
    (hnew : new.any SideEffectState.unresolved = true) :
    old.any SideEffectState.unresolved = true := by
  cases h with
  | stays => exact hnew
  | lost => cases hnew
  | begins hfresh => exact absurd hkey hfresh
  | settles => rfl
  | confirms => cases hnew
  | releases => cases hnew

theorem Inv.after_move (h : Inv F plat builtins world) (hc : c.enabled world = true) (fate : Fate)
    (key : PyStr) :
    Move world key (world.state F plat key)
      ((world.after plat builtins c fate).state F plat key) := by
  have hs : world.step plat builtins (.call c fate) =
      some (world.after plat builtins c fate) := by
    simp only [World.step, hc, if_true]
    rfl
  exact h.move hs key

theorem Touched.stands (h : Touched world key old new) (hold : old = some state)
    (hstands : Stands alive states state)
    (howner : ∃ a ∈ world.attempts, a.operationKey = key ∧ (alive = true → a.owner ∈ world.live)) :
    ∃ state', new = some state' ∧ Stands alive states state' := by
  cases h with
  | stays => exact ⟨state, hold, hstands⟩
  | releases =>
    cases hold
    refine ⟨_, rfl, ?_⟩
    rcases hstands with (hmem | ⟨hne, -⟩) | ⟨hdead, hsubmitting, -⟩
    · exact .inl (.inr ⟨rfl, hmem⟩)
    · cases hne
    · exact .inr ⟨hdead, hsubmitting, .inr rfl⟩
  | interrupts hgone =>
    cases hold
    obtain ⟨a, ha, hkey, hlive⟩ := howner
    have hdead : alive = false := by
      cases halive : alive with
      | false => rfl
      | true => exact absurd (hlive halive) (hgone a ha hkey)
    refine ⟨_, rfl, ?_⟩
    rcases hstands with (hmem | ⟨hne, -⟩) | ⟨-, hsubmitting, -⟩
    · exact .inr ⟨hdead, hmem, .inl rfl⟩
    · cases hne
    · exact .inr ⟨hdead, hsubmitting, .inl rfl⟩

/-- A run that is not touched keeps to its order while the journal goes on. -/
theorem RunOk.frame (h : RunOk F plat W phase world log run) (hlive : world'.live = world.live)
    (hattempts : ∀ a ∈ world.attempts, a ∈ world'.attempts)
    (hstate : ∀ spent states state, phase run.stage = .opened spent states →
      world.state F plat (W.operationKey run.stage) = some state → Stands run.alive states state →
        ∃ state', world'.state F plat (W.operationKey run.stage) = some state' ∧
          Stands run.alive states state') :
    RunOk F plat W phase world' log run where
  owner := by
    rw [hlive]
    exact h.owner
  attempted := by
    intro spent states hopened
    obtain ⟨a, ha, hrest⟩ := h.attempted spent states hopened
    exact ⟨a, hattempts a ha, hrest⟩
  states := by
    intro spent states hopened
    obtain ⟨state, hold, hstands⟩ := h.states spent states hopened
    exact hstate spent states state hopened hold hstands
  unused := h.unused

theorem RunOk.same_state (h : RunOk F plat W phase world log run)
    (hlive : world'.live = world.live) (hattempts : ∀ a ∈ world.attempts, a ∈ world'.attempts)
    (hstate : ∀ spent states, phase run.stage = .opened spent states →
      world'.state F plat (W.operationKey run.stage) =
        world.state F plat (W.operationKey run.stage)) :
    RunOk F plat W phase world' log run := by
  apply h.frame hlive hattempts
  intro spent states state hopened hold hstands
  exact ⟨state, (hstate spent states hopened).trans hold, hstands⟩

/-- A run that is not open has nothing to keep to. -/
theorem RunOk.idle (howner : run.alive = true → run.owner ∈ world.live)
    (hidle : ∀ spent states, phase run.stage ≠ .opened spent states) :
    RunOk F plat W phase world log run where
  owner := howner
  attempted := fun _ _ h => absurd h (hidle _ _)
  states := fun _ _ h => absurd h (hidle _ _)
  unused := fun _ h => absurd h (hidle _ _)

theorem Driven.owned (h : Driven F plat builtins W phase s) (hrun : run ∈ s.runs)
    (hopened : phase run.stage = .opened spent states) :
    ∃ a ∈ s.world.attempts, a.operationKey = W.operationKey run.stage ∧
      (run.alive = true → a.owner ∈ s.world.live) := by
  obtain ⟨a, ha, hkey, howner, -⟩ := (h.runs run hrun).attempted spent states hopened
  exact ⟨a, ha, hkey, fun halive => howner ▸ (h.runs run hrun).owner halive⟩

theorem mem_set {α : Type} {xs : List α} {x y : α} (h : y ∈ xs.set i x) :
    y = x ∨ ∃ j, j ≠ i ∧ xs[j]? = some y := by
  obtain ⟨j, hj⟩ := List.mem_iff_getElem?.mp h
  rw [List.getElem?_set] at hj
  split at hj
  · split at hj
    · exact .inl (Option.some.inj hj).symm
    · cases hj
  · rename_i hne
    exact .inr ⟨j, fun h => hne h.symm, hj⟩

theorem Distinct.set (h : Distinct W phase runs) {run' : Run Q} (hi : runs[i]? = some run)
    (hkey : W.operationKey run'.stage = W.operationKey run.stage)
    (hother : (phase run'.stage).isOpen = true → (phase run.stage).isOpen = true ∨
      ∀ other ∈ runs, (phase other.stage).isOpen = true →
        W.operationKey other.stage ≠ W.operationKey run'.stage) :
    Distinct W phase (runs.set i run') := by
  have hother' : ∀ (l : ℕ) (other : Run Q), (phase run'.stage).isOpen = true →
      runs[l]? = some other → (phase other.stage).isOpen = true →
        W.operationKey other.stage = W.operationKey run'.stage → l = i := by
    intro l other hopened hl hopened' hsame
    rcases hother hopened with hold | hnone
    · exact h l i other run hl hi hopened' hold (hsame.trans hkey)
    · exact absurd hsame (hnone other (List.mem_of_getElem? hl) hopened')
  intro j k run₁ run₂ hj hk h₁ h₂ hsame
  rw [List.getElem?_set] at hj hk
  split at hj
  · rename_i hji
    split at hj
    · cases hj
      split at hk
      · rename_i hki
        exact hji.symm.trans hki
      · exact hji.symm.trans (hother' k run₂ h₁ hk h₂ hsame.symm).symm
    · cases hj
  · split at hk
    · rename_i hki
      split at hk
      · cases hk
        exact (hother' j run₁ h₂ hj h₁ hsame).trans hki
      · cases hk
    · exact h j k run₁ run₂ hj hk h₁ h₂ hsame

/-- Openness after a step that begins nothing. -/
theorem Driven.exclusive_of (h : Driven F plat builtins W phase s)
    (hattempts : world.attempts = s.world.attempts)
    (hmove : ∀ key, Move s.world key (s.world.state F plat key) (world.state F plat key)) :
    ∀ a ∈ world.attempts, ∀ b ∈ world.attempts,
      contentKey builtins.hexdigest a.kind a.parts = contentKey builtins.hexdigest b.kind b.parts →
        world.open F plat a = true → world.open F plat b = true → a = b := by
  intro a ha b hb hcontent hopen hopen'
  rw [hattempts] at ha hb
  apply h.exclusive a ha b hb hcontent
  · exact (hmove a.operationKey).unresolved (List.mem_map_of_mem ha) hopen
  · exact (hmove b.operationKey).unresolved (List.mem_map_of_mem hb) hopen'

theorem mem_run {other : Run Q} (h : other ∈ runs.set i run) :
    other = run ∨ other ∈ runs := by
  rcases mem_set h with rfl | ⟨j, -, hj⟩
  · exact .inl rfl
  · exact .inr (List.mem_of_getElem? hj)

theorem isOpen_iff : p.isOpen = true ↔ ∃ spent states, p = .opened spent states := by
  cases p <;> simp [Phase.isOpen]

theorem Driven.begun (h : Driven F plat builtins W phase s) (hlawful : W.Lawful phase)
    (hi : s.runs[i]? = some run) {kind : PyStr} {parts : List PyStr}
    (hwants : W.wants run.stage = some (.begin kind parts detail)) (fate : Fate) (now : F) :
    let c : Call F := .begin run.owner run.psutil (W.operationKey run.stage) kind parts detail now
    Driven F plat builtins W phase { s with
      world := s.world.after plat builtins c fate
      runs := s.runs.set i { run with
        stage := W.told run.stage (s.world.answer plat builtins c fate) } } := by
  intro c
  obtain ⟨hcontent, hfresh, hok, herror⟩ := hlawful.begin _ _ _ _ hwants
  have hjournal : Inv F plat builtins (s.world.after plat builtins c fate) := h.journal.call c fate
  have hloads := h.loads.after h.journal c fate
  have hbegun := h.journal.begun run.owner run.psutil (W.operationKey run.stage) kind parts detail
    now fate
  have hrun := h.runs run (List.mem_of_getElem? hi)
  have hlive : (s.world.after plat builtins c fate).live = s.world.live := rfl
  change Begun F plat builtins _ s.world (s.world.after plat builtins c fate)
    (s.world.answer plat builtins c fate) at hbegun
  generalize s.world.after plat builtins c fate = world at *
  generalize s.world.answer plat builtins c fate = r at *
  have hkey := hlawful.key_told run.stage r
  have hsame := hlawful.content_told run.stage r
  have howner : run.alive = true → run.owner ∈ world.live := by
    rw [hlive]
    exact hrun.owner
  cases hbegun with
  | refused hattempts hstates hr =>
    have hover : phase (W.told run.stage r) = .over := by
      cases r with
      | error e => exact herror e
      | ok x => exact absurd rfl (hr x)
    refine ⟨hjournal, hloads, fun other hmem => ?_, ?_, h.once, ?_, ?_⟩
    · rcases mem_run hmem with rfl | hmem
      · refine RunOk.idle howner fun spent states hopened => ?_
        rw [hover] at hopened
        cases hopened
      · refine (h.runs other hmem).same_state hlive (fun a ha => ?_) fun _ _ _ => hstates _
        rwa [hattempts]
    · refine h.distinct.set hi hkey fun hopened => ?_
      rw [hover] at hopened
      cases hopened
    · intro n hn hinvokes
      simp only [hattempts]
      exact h.logged n hn hinvokes
    · apply h.exclusive_of hattempts
      intro key
      rw [hstates]
      exact .stays _
  | opened hattempts hnew hstate hstates hfree =>
    obtain ⟨returned, hattempts⟩ := hattempts
    simp only at hnew hstate hstates hfree hattempts
    have hold : ∀ a ∈ s.world.attempts, a ∈ world.attempts := by
      intro a ha
      rw [hattempts]
      exact List.mem_append_left _ ha
    have hother : ∀ other ∈ s.runs, (phase other.stage).isOpen = true →
        W.operationKey other.stage ≠ W.operationKey run.stage := by
      intro other hmem hopened hsame
      obtain ⟨spent, states, hopened⟩ := isOpen_iff.mp hopened
      obtain ⟨a, ha, hkey', -⟩ := (h.runs other hmem).attempted _ _ hopened
      apply hnew
      rw [← hsame, ← hkey']
      exact List.mem_map_of_mem ha
    refine ⟨hjournal, hloads, fun other hmem => ?_, ?_, h.once, ?_, ?_⟩
    · rcases mem_run hmem with rfl | hmem
      · cases r with
        | error e =>
          refine RunOk.idle howner fun spent states hopened => ?_
          simp only [herror e] at hopened
          cases hopened
        | ok x =>
          have hphase := hok x
          refine ⟨howner, fun spent states hopened => ?_, fun spent states hopened => ?_,
            fun states hopened n hn hinvokes => ?_⟩
          · refine ⟨⟨W.operationKey run.stage, kind, parts, run.owner, run.psutil, returned⟩, ?_,
              hkey.symm, rfl, ?_⟩
            · rw [hattempts]
              exact List.mem_append_right _ (List.mem_singleton.mpr rfl)
            · exact (hsame.trans hcontent).symm
          · simp only [hphase, Phase.opened.injEq] at hopened
            obtain ⟨-, rfl⟩ := hopened
            refine ⟨.submitting, ?_, .inl (.inl (List.mem_singleton.mpr rfl))⟩
            simp only [hkey]
            exact hstate
          · simp only [hkey]
            rintro heq
            apply hnew
            rw [← heq]
            exact h.logged n hn hinvokes
      · refine (h.runs other hmem).same_state hlive hold fun spent states hopened => ?_
        apply hstates
        exact hother other hmem (isOpen_iff.mpr ⟨_, _, hopened⟩)
    · refine h.distinct.set hi hkey fun _ => .inr fun other hmem hopened => ?_
      simp only [hkey]
      exact hother other hmem hopened
    · intro n hn hinvokes
      simp only [hattempts, List.map_append]
      exact List.mem_append_left _ (h.logged n hn hinvokes)
    · have hsame : ∀ b ∈ s.world.attempts, world.open F plat b = s.world.open F plat b := by
        intro b hb
        unfold World.open
        rw [hstates]
        rintro heq
        apply hnew
        rw [← heq]
        exact List.mem_map_of_mem hb
      intro a ha b hb hcontent hopen hopen'
      simp only [hattempts, List.mem_append, List.mem_singleton] at ha hb
      rcases ha with ha | rfl <;> rcases hb with hb | rfl
      · exact h.exclusive a ha b hb hcontent (hsame a ha ▸ hopen) (hsame b hb ▸ hopen')
      · rw [hsame a ha, hfree a ha hcontent] at hopen
        cases hopen
      · rw [hsame b hb, hfree b hb hcontent.symm] at hopen'
        cases hopen'
      · rfl

theorem Driven.answered (h : Driven F plat builtins W phase s) (hi : s.runs[i]? = some run)
    {fate : Fate} (hkey : W.operationKey q = W.operationKey run.stage)
    (hcontent : W.content q = W.content run.stage) (hold : phase run.stage = .opened spent states)
    (henabled : c.enabled s.world = true)
    (hattempts : (s.world.after plat builtins c fate).attempts = s.world.attempts)
    (hothers : ∀ key, key ≠ W.operationKey run.stage →
      (s.world.after plat builtins c fate).state F plat key = s.world.state F plat key)
    (hnew : ∀ spent' states', phase q = .opened spent' states' → (spent' = false → spent = false) ∧
      ∀ state, s.world.state F plat (W.operationKey run.stage) = some state →
        Stands run.alive states state → ∃ state',
          (s.world.after plat builtins c fate).state F plat (W.operationKey run.stage) =
            some state' ∧ Stands run.alive states' state') :
    Driven F plat builtins W phase { s with
      world := s.world.after plat builtins c fate
      runs := s.runs.set i { run with stage := q } } := by
  have hjournal : Inv F plat builtins (s.world.after plat builtins c fate) := h.journal.call c fate
  have hloads := h.loads.after h.journal c fate
  have hmove := h.journal.after_move henabled fate
  have hlive : (s.world.after plat builtins c fate).live = s.world.live := rfl
  have hrun := h.runs run (List.mem_of_getElem? hi)
  generalize s.world.after plat builtins c fate = world at *
  refine ⟨hjournal, hloads, fun other hmem => ?_, ?_, h.once, ?_, h.exclusive_of hattempts hmove⟩
  · rcases mem_set hmem with rfl | ⟨j, hne, hj⟩
    · refine ⟨?_, fun spent₁ states₁ hopened => ?_, fun spent₁ states₁ hopened => ?_,
        fun states₁ hopened n hn hinvokes => ?_⟩
      · rw [hlive]
        exact hrun.owner
      · simp only [hkey, hcontent, hattempts]
        exact hrun.attempted _ _ hold
      · obtain ⟨state, hstands⟩ := hrun.states _ _ hold
        simp only [hkey]
        exact (hnew _ _ hopened).2 state hstands.1 hstands.2
      · have hspent := (hnew _ _ hopened).1 rfl
        simp only [hkey]
        exact hrun.unused states (hspent ▸ hold) n hn hinvokes
    · have hmem' := List.mem_of_getElem? hj
      refine (h.runs other hmem').same_state hlive (fun a ha => ?_) fun _ _ hopened => hothers _ ?_
      · rwa [hattempts]
      · intro hsame
        exact hne (h.distinct j i other run hj hi (isOpen_iff.mpr ⟨_, _, hopened⟩)
          (isOpen_iff.mpr ⟨_, _, hold⟩) hsame)
  · exact h.distinct.set hi hkey fun _ => .inl (isOpen_iff.mpr ⟨_, _, hold⟩)
  · intro n hn hinvokes
    simp only [hattempts]
    exact h.logged n hn hinvokes

theorem stands_mono (h : Stands alive states state) (hsub : states ⊆ states') :
    Stands alive states' state := by
  rcases h with (hmem | ⟨hstate, hmem⟩) | ⟨hdead, hmem, hstate⟩
  · exact .inl (.inl (hsub hmem))
  · exact .inl (.inr ⟨hstate, hsub hmem⟩)
  · exact .inr ⟨hdead, hsub hmem, hstate⟩

theorem Phase.Goes.of_opened {spent' : Bool} (h : (Phase.opened spent states).Goes p)
    (hp : p = .opened spent' states') :
    (spent' = false → spent = false) ∧ states ⊆ states' := by
  subst hp
  cases h with
  | stays => exact ⟨fun h => h, List.Subset.refl _⟩
  | opened hspent hstates => exact ⟨hspent, hstates⟩

theorem Driven.settled (h : Driven F plat builtins W phase s) (hlawful : W.Lawful phase)
    (hi : s.runs[i]? = some run) (hwants : W.wants run.stage = some (.settle state detail))
    (fate : Fate) (now : F) :
    let c : Call F := .settle (W.operationKey run.stage) state detail now
    Driven F plat builtins W phase { s with
      world := s.world.after plat builtins c fate
      runs := s.runs.set i { run with
        stage := W.told run.stage (s.world.answer plat builtins c fate) } } := by
  intro c
  obtain ⟨spent, states, hold, hok, herror⟩ := hlawful.settle _ _ _ hwants
  have hsettled := h.journal.settled (W.operationKey run.stage) state detail now fate
  change Settled F plat _ _ s.world (s.world.after plat builtins c fate)
    (s.world.answer plat builtins c fate) at hsettled
  have hkey := hlawful.key_told run.stage (s.world.answer plat builtins c fate)
  have hcontent := hlawful.content_told run.stage (s.world.answer plat builtins c fate)
  cases hanswer : s.world.answer plat builtins c fate with
  | ok x =>
    rw [hanswer] at hkey hcontent
    apply h.answered hi hkey hcontent hold rfl hsettled.attempts hsettled.states
    intro spent' states' hnew
    obtain ⟨hspent, hstates⟩ := (hok x).of_opened hnew
    refine ⟨hspent, fun old hstate hstands => ⟨state, hsettled.returned x hanswer, .inl (.inl ?_)⟩⟩
    exact hstates (List.mem_singleton.mpr rfl)
  | error e =>
    rw [hanswer] at hkey hcontent
    apply h.answered hi hkey hcontent hold rfl hsettled.attempts hsettled.states
    intro spent' states' hnew
    obtain ⟨hspent, hstates⟩ := (herror e).of_opened hnew
    refine ⟨hspent, fun old hstate hstands => ?_⟩
    rcases hsettled.settles with hsame | hnew
    · exact ⟨old, hsame.trans hstate,
        stands_mono hstands fun _ hmem => hstates (List.mem_cons_of_mem _ hmem)⟩
    · exact ⟨state, hnew, .inl (.inl (hstates List.mem_cons_self))⟩

theorem Driven.got (h : Driven F plat builtins W phase s) (hlawful : W.Lawful phase)
    (hi : s.runs[i]? = some run) (halive : run.alive = true)
    (hwants : W.wants run.stage = some .get) (fate : Fate) :
    let c : Call F := .get (W.operationKey run.stage)
    Driven F plat builtins W phase { s with
      world := s.world.after plat builtins c fate
      runs := s.runs.set i { run with
        stage := W.told run.stage (s.world.answer plat builtins c fate) } } := by
  intro c
  obtain ⟨spent, states, hold, htold⟩ := hlawful.get _ hwants
  have hafter : s.world.after plat builtins c fate = s.world := after_get _ _
  have hkey := hlawful.key_told run.stage (s.world.answer plat builtins c fate)
  have hcontent := hlawful.content_told run.stage (s.world.answer plat builtins c fate)
  apply h.answered hi hkey hcontent hold rfl (by rw [hafter]) (fun key _ => by rw [hafter])
  intro spent' states' hnew
  obtain ⟨hspent, hallows⟩ := htold _ _ _ hnew
  refine ⟨hspent, fun state hstate hstands => ⟨state, by rw [hafter]; exact hstate, ?_⟩⟩
  rcases hstands with hstands | ⟨hdead, -⟩
  · refine .inl (hallows state ?_ hstands)
    cases hanswer : s.world.answer plat builtins c fate with
    | error e =>
      apply Or.inr
      intro x hx
      cases hx
    | ok x =>
      rw [answer_get hanswer, hstate]
      exact .inl rfl
  · rw [halive] at hdead
    cases hdead

/-- What belongs to no run. -/
theorem Driven.other (h : Driven F plat builtins W phase s) (hc : c.isOther = true) (fate : Fate) :
    Driven F plat builtins W phase { s with world := s.world.after plat builtins c fate } := by
  have hjournal : Inv F plat builtins (s.world.after plat builtins c fate) := h.journal.call c fate
  have hloads := h.loads.after h.journal c fate
  obtain ⟨hattempts, htouched⟩ := h.journal.touched hc fate
  have henabled : c.enabled s.world = true := by
    cases c <;> first | (cases hc; done) | rfl
  have hmove := h.journal.after_move henabled fate
  have hlive : (s.world.after plat builtins c fate).live = s.world.live := rfl
  generalize s.world.after plat builtins c fate = world at *
  refine ⟨hjournal, hloads, fun run hmem => ?_, h.distinct, h.once, ?_,
    h.exclusive_of hattempts hmove⟩
  · apply (h.runs run hmem).frame hlive
    · intro a ha
      rwa [hattempts]
    · intro spent states state hopened hold hstands
      exact (htouched _).stands hold hstands (h.owned hmem hopened)
  · intro n hn hinvokes
    simp only [hattempts]
    exact h.logged n hn hinvokes

/-- A run goes on, and may invoke its operation. -/
theorem Driven.went (h : Driven F plat builtins W phase s) (hlawful : W.Lawful phase)
    (hi : s.runs[i]? = some run) {x : I} {gs : List G}
    (hinput : W.input run.stage x = some (q, gs)) :
    Driven F plat builtins W phase { s with
      runs := s.runs.set i { run with stage := q }
      log := s.log ++ gs.map fun g => (W.operationKey run.stage, g) } := by
  have hkey := hlawful.key_input _ _ _ _ hinput
  have hcontent : ∀ spent states, phase run.stage = .opened spent states →
      W.content q = W.content run.stage := by
    intro spent states hold
    rcases hlawful.content_input _ _ _ _ hinput with hsame | hfresh
    · exact hsame
    · rw [hfresh] at hold
      cases hold
  have hrun := h.runs run (List.mem_of_getElem? hi)
  have hfilter : ∀ key : PyStr, (gs.map fun g => (key, g)).filter (fun n => W.invokes n.2) =
      (gs.filter W.invokes).map fun g => (key, g) := by
    intro key
    rw [List.filter_map]
    rfl
  have hmem : ∀ n ∈ s.log ++ gs.map (fun g => (W.operationKey run.stage, g)),
      W.invokes n.2 = true → n ∈ s.log ∨
        n.1 = W.operationKey run.stage ∧ n.2 ∈ gs.filter W.invokes := by
    intro n hn hinvokes
    rcases List.mem_append.mp hn with hn | hn
    · exact .inl hn
    · obtain ⟨g, hg, rfl⟩ := List.mem_map.mp hn
      exact .inr ⟨rfl, List.mem_filter.mpr ⟨hg, hinvokes⟩⟩
  rcases hlawful.input _ _ _ _ hinput with
    ⟨hnone, hphase⟩ | ⟨g, states, states', hone, hold, hnew, hstates⟩
  · have hlog : ∀ n ∈ s.log ++ gs.map (fun g => (W.operationKey run.stage, g)),
        W.invokes n.2 = true → n ∈ s.log := by
      intro n hn hinvokes
      rcases hmem n hn hinvokes with hn | ⟨-, hg⟩
      · exact hn
      · rw [hnone] at hg
        cases hg
    have hphase' : ∀ spent' states', phase q = .opened spent' states' → ∃ spent states,
        phase run.stage = .opened spent states ∧ (spent' = false → spent = false) ∧
          states ⊆ states' := by
      intro spent' states' hopened
      rw [hopened] at hphase
      generalize hold : phase run.stage = p at hphase
      cases hphase with
      | stays => exact ⟨_, _, rfl, fun h => h, List.Subset.refl _⟩
      | opened hspent hstates => exact ⟨_, _, rfl, hspent, hstates⟩
    refine ⟨h.journal, h.loads, fun other hother => ?_, ?_, ?_, ?_, h.exclusive⟩
    · rcases mem_run hother with rfl | hother
      · refine ⟨hrun.owner, fun spent' states' hopened => ?_, fun spent' states' hopened => ?_,
          fun states' hopened n hn hinvokes => ?_⟩
        · obtain ⟨spent, states, hold, -⟩ := hphase' _ _ hopened
          simp only [hkey, hcontent _ _ hold]
          exact hrun.attempted _ _ hold
        · obtain ⟨spent, states, hold, -, hstates⟩ := hphase' _ _ hopened
          obtain ⟨state, hstate, hstands⟩ := hrun.states _ _ hold
          simp only [hkey]
          exact ⟨state, hstate, stands_mono hstands hstates⟩
        · obtain ⟨spent, states, hold, hspent, -⟩ := hphase' _ _ hopened
          simp only [hkey]
          exact hrun.unused states (hspent rfl ▸ hold) n (hlog n hn hinvokes) hinvokes
      · have hok := h.runs other hother
        exact ⟨hok.owner, hok.attempted, hok.states, fun states hopened n hn hinvokes =>
          hok.unused states hopened n (hlog n hn hinvokes) hinvokes⟩
    · refine h.distinct.set hi hkey fun hopened => .inl ?_
      obtain ⟨spent, states, hopened⟩ := isOpen_iff.mp hopened
      obtain ⟨_, _, hold, -⟩ := hphase' _ _ hopened
      exact isOpen_iff.mpr ⟨_, _, hold⟩
    · rw [List.filter_append, hfilter, hnone]
      simpa using h.once
    · intro n hn hinvokes
      exact h.logged n (hlog n hn hinvokes) hinvokes
  · have hlog : ∀ n ∈ s.log ++ gs.map (fun g => (W.operationKey run.stage, g)),
        W.invokes n.2 = true → n ∈ s.log ∨ n.1 = W.operationKey run.stage := by
      intro n hn hinvokes
      rcases hmem n hn hinvokes with hn | ⟨hn, -⟩
      · exact .inl hn
      · exact .inr hn
    refine ⟨h.journal, h.loads, fun other hother => ?_, ?_, ?_, ?_, h.exclusive⟩
    · rcases mem_set hother with rfl | ⟨j, hne, hj⟩
      · refine ⟨hrun.owner, fun spent states₁ hopened => ?_, fun spent states₁ hopened => ?_,
          fun states₁ hopened n hn hinvokes => ?_⟩
        · simp only [hkey, hcontent _ _ hold]
          exact hrun.attempted _ _ hold
        · simp only [hnew, Phase.opened.injEq] at hopened
          obtain ⟨-, rfl⟩ := hopened
          obtain ⟨state, hstate, hstands⟩ := hrun.states _ _ hold
          simp only [hkey]
          exact ⟨state, hstate, stands_mono hstands hstates⟩
        · simp only [hnew, Phase.opened.injEq] at hopened
          cases hopened.1
      · have hok := h.runs other (List.mem_of_getElem? hj)
        refine ⟨hok.owner, hok.attempted, hok.states, fun states₁ hopened n hn hinvokes => ?_⟩
        rcases hlog n hn hinvokes with hn | hn
        · exact hok.unused states₁ hopened n hn hinvokes
        · rw [hn]
          intro hsame
          exact hne (h.distinct j i other run hj hi (isOpen_iff.mpr ⟨_, _, hopened⟩)
            (isOpen_iff.mpr ⟨_, _, hold⟩) hsame.symm)
    · exact h.distinct.set hi hkey fun _ => .inl (isOpen_iff.mpr ⟨_, _, hold⟩)
    · rw [List.filter_append, hfilter, hone, List.map_append, List.nodup_append]
      refine ⟨h.once, List.nodup_singleton _, fun key hk key' hk' => ?_⟩
      obtain ⟨n, hn, rfl⟩ := List.mem_map.mp hk
      obtain ⟨hn, hinvokes⟩ := List.mem_filter.mp hn
      simp only [List.map_cons, List.map_nil, List.mem_singleton] at hk'
      rw [hk']
      exact hrun.unused _ hold n hn hinvokes
    · intro n hn hinvokes
      rcases hlog n hn hinvokes with hn | hn
      · exact h.logged n hn hinvokes
      · obtain ⟨a, ha, hakey, -⟩ := hrun.attempted _ _ hold
        rw [hn, ← hakey]
        exact List.mem_map_of_mem ha

inductive Turn (plat : Platform) (builtins : Builtins) (W : Procedure Q I G) (s : Sys Q G) :
    Step F Q I → Sys Q G → Prop
  | start (p : Process) {world : World}
      (hs : s.world.step plat builtins (.start p : Action F) = some world)
      (hlive : ∀ p' ∈ s.world.live, p' ∈ world.live) (hdisk : world.disk = s.world.disk)
      (hattempts : world.attempts = s.world.attempts) :
      Turn plat builtins W s (.start p) { s with world := world }
  | die (p : Process) {world : World}
      (hs : s.world.step plat builtins (.die p : Action F) = some world)
      (hlive : world.live = s.world.live.erase p) (hdisk : world.disk = s.world.disk)
      (hattempts : world.attempts = s.world.attempts) :
      Turn plat builtins W s (.die p) { s with
        world := world
        runs := s.runs.map fun run => { run with alive := run.alive && run.owner ≠ p } }
  | enter (owner : Process) (psutil : Bool) (q : Q) (hfirst : W.first q = true)
      (hlive : owner ∈ s.world.live) :
      Turn plat builtins W s (.enter owner psutil q)
        { s with runs := s.runs ++ [⟨owner, psutil, true, q⟩] }
  | ask (i : ℕ) (fate : Fate) (now : F) {run : Run Q} {want : Want} (hi : s.runs[i]? = some run)
      (halive : run.alive = true) (hwants : W.wants run.stage = some want) :
      Turn plat builtins W s (.ask i fate now) { s with
        world := s.world.after plat builtins (want.call run (W.operationKey run.stage) now) fate
        runs := s.runs.set i { run with
          stage := W.told run.stage (s.world.answer plat builtins
            (want.call run (W.operationKey run.stage) now) fate) } }
  | input (i : ℕ) (x : I) {run : Run Q} {q : Q} {gs : List G} (hi : s.runs[i]? = some run)
      (halive : run.alive = true) (hinput : W.input run.stage x = some (q, gs)) :
      Turn plat builtins W s (.input i x) { s with
        runs := s.runs.set i { run with stage := q }
        log := s.log ++ gs.map fun g => (W.operationKey run.stage, g) }
  | other (c : Call F) (fate : Fate) (hc : c.isOther = true) :
      Turn plat builtins W s (.other c fate)
        { s with world := s.world.after plat builtins c fate }

theorem step_turn (hs : s.step plat builtins W a = some s') :
    Turn plat builtins W s a s' := by
  cases a with
  | start p =>
    obtain ⟨world, hworld, rfl⟩ := Option.map_eq_some_iff.mp hs
    have hcopy := hworld
    simp only [World.step] at hcopy
    split at hcopy
    · cases hcopy
    · cases hcopy
      exact .start p hworld (fun p' hp' => List.mem_cons_of_mem _ hp') rfl rfl
  | die p =>
    cases hs
    exact .die p rfl rfl rfl rfl
  | enter owner psutil q =>
    simp only [Sys.step] at hs
    split at hs
    · rename_i hcond
      cases hs
      simp only [Bool.and_eq_true, List.contains_iff_mem] at hcond
      exact .enter owner psutil q hcond.1 hcond.2
    · cases hs
  | ask i fate now =>
    simp only [Sys.step, Sys.ask] at hs
    cases hi : s.runs[i]? with
    | none => simp [hi] at hs
    | some run =>
      simp only [hi] at hs
      split at hs
      · rename_i halive
        obtain ⟨want, hwants, rfl⟩ := Option.map_eq_some_iff.mp hs
        exact .ask i fate now hi halive hwants
      · cases hs
  | input i x =>
    simp only [Sys.step, Sys.input] at hs
    cases hi : s.runs[i]? with
    | none => simp [hi] at hs
    | some run =>
      simp only [hi] at hs
      split at hs
      · rename_i halive
        obtain ⟨⟨q, gs⟩, hinput, rfl⟩ := Option.map_eq_some_iff.mp hs
        exact .input i x hi halive hinput
      · cases hs
  | other c fate =>
    simp only [Sys.step] at hs
    split at hs
    · rename_i hc
      cases hs
      exact .other c fate hc
    · cases hs

/-- Processes start and end; the journal is as it was. -/
theorem Driven.same_journal (h : Driven F plat builtins W phase s)
    (hjournal : Inv F plat builtins world) (hdisk : world.disk = s.world.disk)
    (hattempts : world.attempts = s.world.attempts)
    (hruns : ∀ run ∈ runs, RunOk F plat W phase world s.log run)
    (hdistinct : Distinct W phase runs) :
    Driven F plat builtins W phase { s with world := world, runs := runs } := by
  have hstate : ∀ key, world.state F plat key = s.world.state F plat key := state_congr hdisk
  refine ⟨hjournal, ?_, hruns, hdistinct, h.once, fun n hn hinvokes => ?_,
    h.exclusive_of hattempts fun key => ?_⟩
  · unfold World.Loads
    rw [hdisk]
    exact h.loads
  · simp only [hattempts]
    exact h.logged n hn hinvokes
  · rw [hstate]
    exact .stays _

theorem Stands.dies {alive' : Bool} (h : Stands alive states state)
    (hdies : alive' = true → alive = true) :
    Stands alive' states state := by
  rcases h with hallows | ⟨hdead, hrest⟩
  · exact .inl hallows
  · refine .inr ⟨?_, hrest⟩
    cases halive : alive' with
    | false => rfl
    | true => exact (hdies halive).symm.trans hdead

/-- Every step keeps the runs to their order. -/
theorem Driven.step (h : Driven F plat builtins W phase s) (hlawful : W.Lawful phase)
    (hs : s.step plat builtins W a = some s') :
    Driven F plat builtins W phase s' := by
  cases step_turn hs with
  | start p hworld hlive hdisk hattempts =>
    have hmeets : Meets builtins s.world (.start p : Action F) := trivial
    have hstate : ∀ key, World.state F plat _ key = s.world.state F plat key := state_congr hdisk
    apply h.same_journal (h.journal.step hmeets hworld) hdisk hattempts _ h.distinct
    intro run hmem
    have hrun := h.runs run hmem
    refine ⟨fun halive => hlive _ (hrun.owner halive), ?_, ?_, hrun.unused⟩
    · rw [hattempts]
      exact hrun.attempted
    · rw [hstate]
      exact hrun.states
  | die p hworld hlive hdisk hattempts =>
    have hmeets : Meets builtins s.world (.die p : Action F) := trivial
    have hstate : ∀ key, World.state F plat _ key = s.world.state F plat key := state_congr hdisk
    apply h.same_journal (h.journal.step hmeets hworld) hdisk hattempts
    · intro run hmem
      obtain ⟨run₀, hmem₀, rfl⟩ := List.mem_map.mp hmem
      have hrun := h.runs run₀ hmem₀
      refine ⟨fun halive => ?_, ?_, fun spent states hopened => ?_, hrun.unused⟩
      · simp only [Bool.and_eq_true, decide_eq_true_eq] at halive
        rw [hlive, List.mem_erase_of_ne halive.2]
        exact hrun.owner halive.1
      · rw [hattempts]
        exact hrun.attempted
      · obtain ⟨state, hsome, hstands⟩ := hrun.states _ _ hopened
        refine ⟨state, (hstate _).trans hsome, hstands.dies fun halive => ?_⟩
        simp only [Bool.and_eq_true] at halive
        exact halive.1
    · intro i j run run' hi hj hopened hopened' hsame
      rw [List.getElem?_map] at hi hj
      obtain ⟨run₁, hi₁, rfl⟩ := Option.map_eq_some_iff.mp hi
      obtain ⟨run₂, hj₂, rfl⟩ := Option.map_eq_some_iff.mp hj
      exact h.distinct i j run₁ run₂ hi₁ hj₂ hopened hopened' hsame
  | enter owner psutil q hfirst hlive =>
    have hfresh := hlawful.first q hfirst
    apply h.same_journal h.journal rfl rfl
    · intro run hmem
      rcases List.mem_append.mp hmem with hmem | hmem
      · exact h.runs run hmem
      · cases List.mem_singleton.mp hmem
        refine RunOk.idle (fun _ => hlive) fun spent states hopened => ?_
        rw [hfresh] at hopened
        cases hopened
    · have hnew : ∀ (i : ℕ) (run : Run Q), (s.runs ++ [⟨owner, psutil, true, q⟩])[i]? = some run →
          (phase run.stage).isOpen = true → s.runs[i]? = some run := by
        intro i run hi hopened
        rw [List.getElem?_append] at hi
        split at hi
        · exact hi
        · have hmem := List.mem_of_getElem? hi
          cases List.mem_singleton.mp hmem
          rw [hfresh] at hopened
          cases hopened
      intro i j run run' hi hj hopened hopened' hsame
      exact h.distinct i j run run' (hnew i run hi hopened) (hnew j run' hj hopened') hopened
        hopened' hsame
  | @ask i fate now run want hi halive hwants =>
    cases want with
    | begin kind parts detail => exact h.begun hlawful hi hwants fate now
    | settle state detail => exact h.settled hlawful hi hwants fate now
    | get => exact h.got hlawful hi halive hwants fate
  | input i x hi halive hinput => exact h.went hlawful hi hinput
  | other c fate hc => exact h.other hc fate

theorem driven_of_reach (hlawful : W.Lawful phase)
    (hr : (workflowMachine F plat builtins W).Reach ok s) : Driven F plat builtins W phase s := by
  apply hr.invariant
  · rintro s₀ ⟨hdisk, hpids, hattempts, hruns, hlog⟩
    have hempty : load plat false s₀.world.disk = .ok (.empty : Entries F) := by
      rw [hdisk]
      rfl
    refine ⟨⟨by simp [hattempts], hpids, fun _ _ => hattempts, fun entries hload => ?_⟩,
      ⟨_, hempty⟩, ?_, ?_, by simp [hlog], by simp [hlog], by simp [hattempts]⟩
    · cases hempty.symm.trans hload
      rw [hattempts]
      exact agrees_empty
    · intro run hmem
      rw [hruns] at hmem
      cases hmem
    · intro i j run run' hi
      simp [hruns] at hi
  · intro s₁ a s₂ h _ hs
    exact h.step hlawful hs

/-! What the stages and the notes keep. -/

theorem stages_invariant
    (hfirst : ∀ (s : Sys Q G) owner psutil q, ok s (.enter owner psutil q) → W.first q = true → J q)
    (htold : ∀ q r, J q → J (W.told q r))
    (hinput : ∀ (s : Sys Q G) i run x q gs, ok s (.input i x) → s.runs[i]? = some run →
      J run.stage → W.input run.stage x = some (q, gs) → J q)
    (hr : (workflowMachine F plat builtins W).Reach ok s) : ∀ run ∈ s.runs, J run.stage := by
  apply hr.invariant
  · rintro s₀ ⟨-, -, -, hruns, -⟩ run hmem
    rw [hruns] at hmem
    cases hmem
  · intro s₁ a s₂ h hok hs run hmem
    cases step_turn hs with
    | start => exact h run hmem
    | die =>
      obtain ⟨run₀, hmem₀, rfl⟩ := List.mem_map.mp hmem
      exact h run₀ hmem₀
    | enter owner psutil q hq =>
      rcases List.mem_append.mp hmem with hmem | hmem
      · exact h run hmem
      · cases List.mem_singleton.mp hmem
        exact hfirst s₁ owner psutil q hok hq
    | @ask i fate now run' want hi =>
      rcases mem_run hmem with rfl | hmem
      · exact htold _ _ (h run' (List.mem_of_getElem? hi))
      · exact h run hmem
    | @input i x run' q gs hi halive hin =>
      rcases mem_run hmem with rfl | hmem
      · exact hinput s₁ i run' x q gs hok hi (h run' (List.mem_of_getElem? hi)) hin
      · exact h run hmem
    | other => exact h run hmem

/-- What the notes of a run keep, as long as its stages keep `J`. -/
theorem notes_invariant {P : PyStr → G → Prop}
    (hstages : ∀ s, (workflowMachine F plat builtins W).Reach ok s → ∀ run ∈ s.runs, J run.stage)
    (hinput : ∀ q x q' gs, J q → W.input q x = some (q', gs) → ∀ g ∈ gs, P (W.operationKey q) g)
    (hr : (workflowMachine F plat builtins W).Reach ok s) : ∀ n ∈ s.log, P n.1 n.2 := by
  apply Machine.Reach.invariant_of (J := fun s => ∀ n ∈ s.log, P n.1 n.2) hstages ?_ ?_ hr
  · rintro s₀ ⟨-, -, -, -, hlog⟩ n hn
    rw [hlog] at hn
    cases hn
  · intro s₁ a s₂ hJ h _ _ hs n hn
    cases step_turn hs with
    | start | die | enter | ask | other => exact h n hn
    | @input i x run' q gs hi halive hin =>
      rcases List.mem_append.mp hn with hn | hn
      · exact h n hn
      · obtain ⟨g, hg, rfl⟩ := List.mem_map.mp hn
        exact hinput _ _ _ _ (hJ run' (List.mem_of_getElem? hi)) hin g hg

end
end QronosAgent.Workflow

import QronosAgent.Tunnel.Steps
import Mathlib.Algebra.Order.Field.Rat
import Mathlib.Tactic.Positivity
import Mathlib.Tactic.FieldSimp

/-! What each step costs: how often a parker dials, and how often it hands over. -/
namespace QronosAgent.Tunnel
open Lib

variable {cfg : TunnelSettings} {p p' p₀ : Parker}

/-- A parking, or the wait after one that failed, is going on or was the last. -/
def Stage.engaged : Stage → Bool
  | loop | throttled _ | dialling => false
  | _ => true

structure Same (p p' : Parker) : Prop where
  now : p'.now = p.now
  opened : p'.connections.length = p.connections.length
  authenticated : p'.authenticatedSplices = p.authenticatedSplices
  splices : p'.splices = p.splices
  budget : p'.spliceBudget = p.spliceBudget
  backoff : p'.backoff = p.backoff
  began : p'.began = p.began

theorem Same.trans {p'' : Parker} (h : Same p p') (h' : Same p' p'') : Same p p'' :=
  ⟨h'.now.trans h.now, h'.opened.trans h.opened, h'.authenticated.trans h.authenticated,
    h'.splices.trans h.splices, h'.budget.trans h.budget, h'.backoff.trans h.backoff,
    h'.began.trans h.began⟩

theorem same_modify (f : Connection → Connection) (i : ℕ) :
    Same p { p with connections := p.connections.modify i f } :=
  ⟨rfl, List.length_modify .., rfl, rfl, rfl, rfl, rfl⟩

theorem same_goTo (p : Parker) (stage : Stage) : Same p { p with stage := stage } :=
  ⟨rfl, rfl, rfl, rfl, rfl, rfl, rfl⟩

theorem same_letGo (p : Parker) : Same p p.letGo := by
  rcases p.letGo_cases with ⟨hsame, -⟩ | hclosed
  · rw [hsame]
    exact ⟨rfl, rfl, rfl, rfl, rfl, rfl, rfl⟩
  · rw [hclosed]
    exact ⟨rfl, List.length_modify .., rfl, rfl, rfl, rfl, rfl⟩

theorem same_failed (p : Parker) (f : RelayFailure) : Same p (p.leave (.failure f)) := by
  have hgone := same_letGo p
  exact hgone.trans ⟨rfl, rfl, rfl, rfl, rfl, rfl, rfl⟩

theorem same_renewed (p : Parker) : Same p (p.leave .renew) := by
  have hgone := same_letGo p
  exact hgone.trans ⟨rfl, rfl, rfl, rfl, rfl, rfl, rfl⟩

inductive Turn (cfg : TunnelSettings) (p p' : Parker) : Prop where
  | passes (hnow : p.now ≤ p'.now) (h : Same { p with now := p'.now } p')
      (hstage : p'.stage = p.stage)
  | stays (h : Same p p') (hstage : p.stage.engaged = true → p'.stage.engaged = true)
      (hbacksOff : ∀ d, p'.stage = .backingOff d → p.stage = .backingOff d)
  | opens (h : Same { p with began := p.now } { p' with connections := p.connections })
      (hopened : p'.connections.length = p.connections.length + 1)
      (hfree : p.stage.engaged = false) (hengaged : p'.stage = .greeting)
  | renews (h : Same p p') (hlasted : p.began + cfg.minParkSeconds ≤ p.now)
      (hstage : p'.stage = .loop)
  | authenticates (h : Same { p with
      authenticatedSplices := p.authenticatedSplices + 1, backoff := p.backoff.reset } p')
      (hreported : p.reported = some true) (hstage : p'.stage = .loop)
  | handsOver (htaken : (p.spliceBudget.take p.now).1 = true)
      (h : Same { p with
        splices := p.splices + 1, spliceBudget := (p.spliceBudget.take p.now).2 } p')
      (hengaged : p.stage.engaged = true) (hstage : p'.stage = .handing)
  | refuses (htaken : (p.spliceBudget.take p.now).1 = false)
      (h : Same { p with spliceBudget := (p.spliceBudget.take p.now).2 } p')
      (hengaged : p.stage.engaged = true) (hstage : p'.stage = .failed .spliceQuota)
  | backsOff (delay : Seconds) (hdraws : p.backoff.draws delay = true)
      (h : Same { p with began := p.now, backoff := p.backoff.next } p')
      (hengaged : p.stage.engaged = true) (hstage : p'.stage = .backingOff (p.now + delay))
  | wakes (deadline : Seconds) (hfrom : p.stage = .backingOff deadline) (hover : deadline ≤ p.now)
      (h : Same p p') (hstage : p'.stage = .loop)

theorem turn_failed (p : Parker) (f : RelayFailure) : Turn cfg p (p.leave (.failure f)) := by
  apply Turn.stays (same_failed p f)
  · intro _
    rfl
  · intro d hd
    cases hd

/-- A step that changes nothing that is counted, to a stage that is no wait. -/
theorem turn_goTo (hsame : Same p p') (hengaged : p.stage.engaged = true → p'.stage.engaged = true)
    (hstage : ∀ d, p'.stage ≠ .backingOff d) : Turn cfg p p' := by
  apply Turn.stays hsame hengaged
  intro d hd
  exact absurd hd (hstage d)

theorem turn_said (h : Inv cfg p) (hcfg : cfg.Positive) (hstage : p.stage = .reading)
    (status : Option RelayStatus) : Turn cfg p (p.heard.said cfg status) := by
  have hheard : Same p p.heard := same_modify _ _
  have hengaged : p.heard.stage.engaged = true := by
    rw [show p.heard.stage = p.stage from rfl, hstage]
    rfl
  have hleave : ∀ q f, Same p q → Turn cfg p (q.leave (.failure f)) := by
    intro q f hq
    apply turn_goTo (hq.trans (same_failed q f))
    · intro _
      rfl
    · intro d hd
      cases hd
  unfold Parker.said
  split
  · apply turn_goTo
    · exact hheard.trans ⟨rfl, List.length_modify .., rfl, rfl, rfl, rfl, rfl⟩
    · intro _
      rfl
    · intro d hd
      cases hd
  · unfold Parker.saidKeepalive
    split
    · apply hleave
      exact hheard.trans ⟨rfl, rfl, rfl, rfl, rfl, rfl, rfl⟩
    · apply turn_goTo
      · exact hheard.trans ⟨rfl, rfl, rfl, rfl, rfl, rfl, rfl⟩
      · intro _
        rfl
      · intro d hd
        cases hd
  · apply turn_goTo
    · exact hheard.trans ⟨rfl, rfl, rfl, rfl, rfl, rfl, rfl⟩
    · intro _
      rfl
    · intro d hd
      cases hd
  · split
    · rename_i hlasted
      apply Turn.renews (hheard.trans (same_renewed _))
      · have hpark := hcfg.minParkSeconds
        have hwaits : p.stage.waits = true := by
          rw [hstage]
          rfl
        unfold Parker.sinceParked at hlasted
        split at hlasted
        · exact absurd hlasted (not_le.mpr hpark)
        · rename_i t hat
          obtain ⟨hbegan, -⟩ := h.parkedAt hwaits t hat
          have hnow : p.heard.now = p.now := rfl
          linarith
      · rfl
    · exact hleave _ _ hheard
  · exact hleave _ _ hheard
  · exact hleave _ _ hheard

theorem turn_look {eligible admitted : Bool} (hs : p.look eligible admitted = some p') :
    Turn cfg p p' := by
  unfold Parker.look at hs
  split at hs
  · cases hs
  · rename_i hloop
    have hgoes : ∀ stage, (∀ d, stage ≠ Stage.backingOff d) →
        Turn cfg p { p with stage := stage } := by
      intro stage hstage
      apply turn_goTo (same_goTo p stage) _ hstage
      intro hengaged
      rw [not_not.mp hloop] at hengaged
      cases hengaged
    have hended := hgoes .ended (by simp)
    split at hs
    · cases hs
      exact hended
    · split at hs
      · cases hs
        exact hended
      · split at hs
        all_goals
          cases hs
          exact hgoes _ (by simp)

theorem turn_dial {d : Dialled} (hs : p.dial d = some p') : Turn cfg p p' := by
  unfold Parker.dial at hs
  split at hs
  · cases hs
  · rename_i hdialling
    have hfree : p.stage.engaged = false := by
      rw [not_not.mp hdialling]
      rfl
    have hreturned : ∀ f, Turn cfg p (p.returned (.failure f)) := by
      intro f
      apply turn_goTo (same_goTo p (.failed f))
      · intro _
        rfl
      · intro d hd
        cases hd
    cases d with
    | opened =>
      cases hs
      exact .opens ⟨rfl, rfl, rfl, rfl, rfl, rfl, rfl⟩ (by simp) hfree rfl
    | sslError =>
      cases hs
      exact hreturned _
    | osError =>
      cases hs
      exact hreturned _

theorem turn_greet {sent : Bool} (hs : p.greet sent = some p') : Turn cfg p p' := by
  unfold Parker.greet at hs
  split at hs
  · cases hs
  · split at hs
    · cases hs
      exact turn_goTo ⟨rfl, rfl, rfl, rfl, rfl, rfl, rfl⟩ (fun _ => rfl) (by simp)
    · cases hs
      exact turn_failed p _

theorem turn_enter (hs : p.enter = some p') : Turn cfg p p' := by
  unfold Parker.enter at hs
  split at hs
  · cases hs
  · split at hs
    · cases hs
      exact turn_failed p _
    · cases hs
      exact turn_goTo ⟨rfl, rfl, rfl, rfl, rfl, rfl, rfl⟩ (fun _ => rfl) (by simp)

theorem turn_read (h : Inv cfg p) (hcfg : cfg.Positive) {r : Received}
    (hs : p.read cfg r = some p') : Turn cfg p p' := by
  unfold Parker.read at hs
  split at hs
  · cases hs
  · rename_i hreading
    cases r with
    | timeout =>
      cases hs
      exact turn_failed p _
    | endOfStream =>
      cases hs
      exact turn_failed p _
    | osError =>
      cases hs
      exact turn_failed p _
    | byte value =>
      cases hs
      exact turn_said h hcfg (not_not.mp hreading) _

theorem turn_recheck {eligible : Bool} (hs : p.recheck eligible = some p') : Turn cfg p p' := by
  unfold Parker.recheck at hs
  split at hs
  · cases hs
  · rename_i hspliced
    have hengaged : p.stage.engaged = true := by
      rw [not_not.mp hspliced]
      rfl
    split at hs
    · cases hs
      exact turn_failed p _
    · split at hs
      · rename_i htaken
        cases hs
        exact .handsOver htaken ⟨rfl, rfl, rfl, rfl, rfl, rfl, rfl⟩ hengaged rfl
      · rename_i htaken
        cases hs
        exact .refuses (by simpa using htaken) (same_failed _ _) hengaged rfl

theorem turn_conclude (hs : p.conclude = some p') : Turn cfg p p' := by
  unfold Parker.conclude at hs
  split at hs
  · split at hs
    · cases hs
    · split at hs
      · rename_i hreported
        cases hs
        have hgone := same_letGo { p with authenticatedSplices := p.authenticatedSplices + 1 }
        refine .authenticates ?_ hreported rfl
        exact ⟨hgone.now, hgone.opened, hgone.authenticated, hgone.splices, hgone.budget,
          congrArg Backoff.reset hgone.backoff, hgone.began⟩
      · cases hs
        exact turn_failed p _
  · cases hs

theorem turn_note {delay : Seconds} (hs : p.note delay = some p') : Turn cfg p p' := by
  unfold Parker.note at hs
  split at hs
  · rename_i f hstage
    obtain ⟨hdraws, ⟨⟩⟩ := Option.ite_none_right_eq_some.mp hs
    obtain ⟨hnow, hconnections, -, hbudget, hsplices, hauthenticated⟩ := p.noteFailure_fields f
    have hsame : Same { p with began := p.now, backoff := p.backoff.next }
        { p.noteFailure f with
          backoff := p.backoff.next
          began := p.now
          stage := .backingOff (p.now + delay) } :=
      ⟨hnow, congrArg List.length hconnections, hauthenticated, hsplices, hbudget, rfl, rfl⟩
    refine .backsOff delay hdraws hsame ?_ rfl
    rw [hstage]
    rfl
  · cases hs

theorem turn_wake (hs : p.wake = some p') : Turn cfg p p' := by
  have hended : Turn cfg p { p with stage := .ended } :=
    turn_goTo ⟨rfl, rfl, rfl, rfl, rfl, rfl, rfl⟩ (fun _ => rfl) (by simp)
  unfold Parker.wake at hs
  split at hs
  · rename_i deadline hstage
    split at hs
    · cases hs
      exact hended
    · split at hs
      · cases hs
        apply turn_goTo (same_goTo p .loop) _ (by simp)
        intro hengaged
        rw [hstage] at hengaged
        cases hengaged
      · cases hs
  · rename_i deadline hstage
    split at hs
    · cases hs
      exact hended
    · obtain ⟨hover, ⟨⟩⟩ := Option.ite_none_right_eq_some.mp hs
      exact .wakes deadline hstage hover ⟨rfl, rfl, rfl, rfl, rfl, rfl, rfl⟩ rfl
  · cases hs

theorem turn_raises (hs : p.raises = some p') : Turn cfg p p' := by
  have hended : ∀ q, Same p q → Turn cfg p { q with stage := .ended } := by
    intro q hq
    apply turn_goTo (hq.trans (same_goTo q .ended))
    · intro _
      rfl
    · intro d hd
      cases hd
  have hhere := hended p ⟨rfl, rfl, rfl, rfl, rfl, rfl, rfl⟩
  have hgone := hended p.letGo (same_letGo p)
  unfold Parker.raises at hs
  split at hs
  all_goals
    first
    | exact Option.some.inj hs ▸ hgone
    | exact Option.some.inj hs ▸ hhere
    | cases hs

theorem turn_of_step (h : Inv cfg p) (hcfg : cfg.Positive) {a : Action}
    (hs : p.step cfg a = some p') : Turn cfg p p' := by
  have hquiet : ∀ q, Same p q → q.stage = p.stage → Turn cfg p q := by
    intro q hq hstage
    apply Turn.stays hq
    · intro hengaged
      rw [hstage]
      exact hengaged
    · intro d hd
      exact hstage ▸ hd
  cases a with
  | pass elapsed =>
    simp only [Parker.step] at hs
    obtain ⟨hpos, ⟨⟩⟩ := Option.ite_none_right_eq_some.mp hs
    exact .passes (by simpa using hpos) ⟨rfl, rfl, rfl, rfl, rfl, rfl, rfl⟩ rfl
  | stopping =>
    cases hs
    exact hquiet _ ⟨rfl, rfl, rfl, rfl, rfl, rfl, rfl⟩ rfl
  | halt =>
    cases hs
    exact hquiet _ ⟨rfl, rfl, rfl, rfl, rfl, rfl, rfl⟩ rfl
  | haltTakes =>
    simp only [Parker.step, Parker.haltTakes] at hs
    split at hs
    · cases hs
      exact hquiet _ ⟨rfl, rfl, rfl, rfl, rfl, rfl, rfl⟩ rfl
    · cases hs
  | haltCloses c =>
    simp only [Parker.step, Parker.haltCloses] at hs
    split at hs
    · cases hs
      exact hquiet _ (same_modify _ c) rfl
    · cases hs
  | report c authenticated =>
    simp only [Parker.step, Parker.report] at hs
    split at hs
    · cases hs
      exact hquiet _ (same_modify _ c) rfl
    · cases hs
  | look eligible admitted => exact turn_look hs
  | dial d => exact turn_dial hs
  | greet sent => exact turn_greet hs
  | enter => exact turn_enter hs
  | read r => exact turn_read h hcfg hs
  | recheck eligible => exact turn_recheck hs
  | handOver =>
    simp only [Parker.step, Parker.handOver] at hs
    split at hs
    · cases hs
    · cases hs
      have hhanded : Same p (p.onDialled fun c => { c with handedOver := true }) := same_modify _ _
      exact turn_goTo (hhanded.trans (same_goTo _ _)) (fun _ => rfl) (by simp)
  | conclude => exact turn_conclude hs
  | note delay => exact turn_note hs
  | wake => exact turn_wake hs
  | raises => exact turn_raises hs

end QronosAgent.Tunnel

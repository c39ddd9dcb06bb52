import QronosAgent.Telegram.Download
import QronosAgent.Workflow.Driven

/-! What a download keeps: it is lawful over the journal, it has read what was approved before it
starts, and what it reports is what it polled. -/
namespace QronosAgent.Telegram
open Lib
open Journal (Platform)
open Workflow (SideEffectState Failure Want Procedure Phase)

namespace Download

/-- Where it stands with its operation. -/
def phase (d : Download) : Phase :=
  match d.point with
  | .guard | .start | .refused _ => .opened false [.submitting]
  | .unclear _ | .deadline | .polling | .regular .. | .late | .sleeping | .concluding .. =>
    .opened true [.submitting]
  | .rescue _ | .look | .raised true => .opened true [.submitting, .confirmed, .uncertain]
  | .reported (.succeeded ..) => .opened true [.confirmed]
  | .reported .uncertain => .opened true [.confirmed, .uncertain]
  | .raised false => .over
  | _ => .fresh

/-- The points in their order; what is behind it is not lost. -/
def rank (d : Download) : ℕ :=
  match d.point with
  | .entry | .raised false => 0
  | .reverify => 1
  | .title => 2
  | .messages => 3
  | .directory => 4
  | .before => 5
  | .ready => 6
  | .begin => 7
  | .guard => 8
  | .start => 9
  | _ => 10

end Download

inductive Turn (texts : Texts) (d : Download) : Reading → Download → Prop
  | entry (granted : Bool) (token : PyStr) (hp : d.point = .entry)
      (happroved : d.approval.requireFor d.prepared = true)
      (htoken : token = d.prepared.identityToken) :
      Turn texts d (.entry granted token) (d.goTo .reverify)
  | reverify (c : Checkpoint) (hp : d.point = .reverify) (hc : c.passes = true) :
      Turn texts d (.checkpoint c) (d.check c .title (.raised false))
  | title (t : PyStr) (hp : d.point = .title)
      (hkey : nameKey texts t = nameKey texts d.prepared.contact) :
      Turn texts d (.title t)
        { d with readings := { d.readings with title := some t }, point := .messages }
  | messages (ms : List MessageView) (m : MessageView) (hp : d.point = .messages)
      (hm : newestIncomingDocument texts ms = some m)
      (hsame : sameMessage m d.prepared.message = true) :
      Turn texts d (.messages ms)
        { d with readings := { d.readings with document := some m }, point := .directory }
  | directory (hp : d.point = .directory) :
      Turn texts d (.directory true)
        { d with readings := { d.readings with directory := some true }, point := .before }
  | before (l : Listing) (hp : d.point = .before) :
      Turn texts d (.listing l) { d with before := l, point := .ready }
  | ready (c : Checkpoint) (hp : d.point = .ready) (hc : c.passes = true) :
      Turn texts d (.checkpoint c) (d.check c .begin (.raised false))
  | guard (c : Checkpoint) (hp : d.point = .guard) (hc : c.passes = true) :
      Turn texts d (.checkpoint c) (d.check c .start (.refused c.detail))
  | stops (r : Reading) (readings : Readings) (hphase : d.phase = .fresh) :
      Turn texts d r { d with readings := readings, point := .raised false }
  | stopped (c : Checkpoint) (hp : d.point = .guard) (hc : c.passes = false) :
      Turn texts d (.checkpoint c) (d.check c .start (.refused c.detail))
  | unclear (name : PyStr) (hp : d.point = .guard) :
      Turn texts d (.raised name) (d.goTo (.unclear name))
  | deadline (isLate : Bool) (hp : d.point = .deadline) :
      Turn texts d (.clock isLate) (d.goTo .polling)
  | nothing (l : Listing) (hp : d.point = .polling) (hnew : d.new texts l = []) :
      Turn texts d (.listing l) { d with polls := d.polls ++ [l], point := .late }
  | again (l : Listing) (f : PyStr × ℕ) (hp : d.point = .polling) (hnew : d.new texts l = [f])
      (hstable : d.stable = some f) (hpos : 0 < f.2)
      (hfits : fits (d.sizeBounds texts) f.2 = true) :
      Turn texts d (.listing l) { d with polls := d.polls ++ [l], point := .regular f.1 f.2 }
  | seen (l : Listing) (f : PyStr × ℕ) (hp : d.point = .polling) (hnew : d.new texts l = [f]) :
      Turn texts d (.listing l)
        { d with polls := d.polls ++ [l], stable := some f, point := .late }
  | late (hp : d.point = .late) : Turn texts d (.clock false) (d.goTo .sleeping)
  | slept (hp : d.point = .sleeping) : Turn texts d (.slept false) (d.goTo .polling)
  | regular (name : PyStr) (size : ℕ) (hp : d.point = .regular name size) :
      Turn texts d (.regular true) { d with
        readings := { d.readings with regular := some (name, true) }
        point := .concluding name (.succeeded name size) }
  | concludes (r : Reading) (regular : Option (PyStr × Bool)) (polls : List Listing)
      (detail : PyStr) (hphase : d.phase = .opened true [.submitting]) :
      Turn texts d r { d with
        readings := { d.readings with regular := regular }
        polls := polls
        point := .concluding detail .uncertain }
  | rescue (name : PyStr) (hphase : d.phase = .opened true [.submitting]) :
      Turn texts d (.raised name) (d.goTo (.rescue name))

section
variable {texts : Texts} {d d' : Download}

theorem poll_turn {l : Listing} (hp : d.point = .polling) :
    Turn texts d (.listing l) (d.poll texts l) := by
  have hsame : Download.new texts { d with polls := d.polls ++ [l] } l = d.new texts l := rfl
  have hbounds : Download.sizeBounds texts { d with polls := d.polls ++ [l] } =
    d.sizeBounds texts := rfl
  unfold Download.poll
  simp only [hsame, hbounds]
  split
  · rename_i hnew
    exact .nothing l hp hnew
  · rename_i f hnew
    split
    · rename_i hcond
      simp only [Bool.and_eq_true, decide_eq_true_eq] at hcond
      exact .again l f hp hnew hcond.1.1 hcond.1.2 hcond.2
    · exact .seen l f hp hnew
  · exact .concludes _ d.readings.regular _ _ (by rw [Download.phase, hp])

theorem look_turn {r : Reading} (h : d.look texts r = some d') : Turn texts d r d' := by
  unfold Download.look at h
  cases r with
  | entry granted token =>
    obtain ⟨hp, ⟨⟩⟩ := Option.ite_none_right_eq_some.mp h
    split
    · rename_i hcond
      simp only [Bool.and_eq_true, decide_eq_true_eq] at hcond
      exact .entry granted token hp hcond.1.1 hcond.2
    · exact .stops _ d.readings (by rw [Download.phase, hp])
  | checkpoint c =>
    simp only at h
    split at h
    · rename_i hp
      cases h
      by_cases hc : c.passes = true
      · exact .reverify c hp hc
      · unfold Download.check
        rw [if_neg hc]
        exact .stops _ _ (by rw [Download.phase, hp])
    · rename_i hp
      cases h
      by_cases hc : c.passes = true
      · exact .ready c hp hc
      · unfold Download.check
        rw [if_neg hc]
        exact .stops _ _ (by rw [Download.phase, hp])
    · rename_i hp
      cases h
      by_cases hc : c.passes = true
      · exact .guard c hp hc
      · exact .stopped c hp (by simpa using hc)
    · cases h
  | title t =>
    obtain ⟨hp, ⟨⟩⟩ := Option.ite_none_right_eq_some.mp h
    split
    · rename_i hkey
      exact .title t hp hkey
    · exact .stops _ _ (by rw [Download.phase, hp])
  | messages ms =>
    obtain ⟨hp, ⟨⟩⟩ := Option.ite_none_right_eq_some.mp h
    split
    · exact .stops _ d.readings (by rw [Download.phase, hp])
    · rename_i m hm
      split
      · rename_i hsame
        exact .messages ms m hp hm hsame
      · exact .stops _ _ (by rw [Download.phase, hp])
  | directory real =>
    obtain ⟨hp, ⟨⟩⟩ := Option.ite_none_right_eq_some.mp h
    cases real with
    | true => exact .directory hp
    | false => exact .stops _ _ (by rw [Download.phase, hp])
  | listing l =>
    simp only at h
    split at h
    · rename_i hp
      cases h
      exact .before l hp
    · rename_i hp
      cases h
      exact poll_turn hp
    · cases h
  | started => cases h
  | clock isLate =>
    simp only at h
    split at h
    · rename_i hp
      cases h
      exact .deadline isLate hp
    · rename_i hp
      cases h
      cases isLate with
      | true =>
        exact .concludes _ d.readings.regular d.polls _ (by rw [Download.phase, hp])
      | false => exact .late hp
    · cases h
  | slept cancelled =>
    obtain ⟨hp, ⟨⟩⟩ := Option.ite_none_right_eq_some.mp h
    cases cancelled with
    | true =>
      exact .concludes _ d.readings.regular d.polls _ (by rw [Download.phase, hp])
    | false => exact .slept hp
  | regular real =>
    simp only at h
    split at h
    · rename_i name size hp
      cases h
      cases real with
      | true => exact .regular name size hp
      | false =>
        exact .concludes _ _ d.polls _ (by rw [Download.phase, hp])
    · cases h
  | raised name =>
    simp only [Download.fails] at h
    split at h
    all_goals first | (cases h; done) | skip
    all_goals
      rename_i hp
      cases h
      first
        | exact .unclear name hp
        | exact .stops _ d.readings (by rw [Download.phase, hp])
        | exact .rescue name (by rw [Download.phase, hp])

theorem Turn.same {r : Reading} (h : Turn texts d r d') :
    d'.prepared = d.prepared ∧ d'.approval = d.approval := by
  cases h <;> exact ⟨rfl, rfl⟩

theorem Turn.goes {r : Reading} (h : Turn texts d r d') : d.phase.Goes d'.phase := by
  have hopened : d.phase = .opened true [.submitting] → ∀ d' : Download,
      d'.phase = .opened true [.submitting] ∨
        d'.phase = .opened true [.submitting, .confirmed, .uncertain] → d.phase.Goes d'.phase := by
    intro hphase d' hd'
    rw [hphase]
    rcases hd' with hd' | hd' <;> rw [hd']
    · exact .stays _
    · exact .opened (fun h => h) (by simp)
  have hstays : ∀ p : Phase, d.phase = p → d'.phase = p → d.phase.Goes d'.phase := by
    intro p hp hp'
    rw [hp, hp']
    exact .stays _
  cases h with
  | entry _ _ hp | title _ hp | messages _ _ hp | directory hp | before _ hp =>
    apply hstays .fresh
    · rw [Download.phase, hp]
    · rfl
  | reverify c hp hc | ready c hp hc =>
    apply hstays .fresh
    · rw [Download.phase, hp]
    · simp [Download.phase, Download.check, hc]
  | guard c hp hc | stopped c hp hc =>
    apply hstays (.opened false [.submitting])
    · rw [Download.phase, hp]
    · simp [Download.phase, Download.check, hc]
  | stops => exact .over _
  | unclear name hp =>
    have hphase : d.phase = .opened false [.submitting] := by rw [Download.phase, hp]
    rw [hphase]
    exact .opened (fun h => by cases h) (List.Subset.refl _)
  | deadline _ hp | nothing _ hp | again _ _ hp | seen _ _ hp | late hp | slept hp
  | regular _ _ hp =>
    apply hstays (.opened true [.submitting])
    · rw [Download.phase, hp]
    · rfl
  | concludes r regular polls detail hphase => exact hopened hphase _ (.inl rfl)
  | rescue name hphase => exact hopened hphase _ (.inr rfl)

theorem read_cases {r : Reading} {gs : List Download} (h : d.read texts r = some (d', gs)) :
    (gs = [] ∧ Turn texts d r d') ∨
      ∃ o, r = .started o ∧ d.point = .start ∧ d' = (d.begins texts o).1 ∧
        gs = (d.begins texts o).2 := by
  cases r with
  | started o =>
    simp only [Download.read] at h
    split at h
    · rename_i hp
      obtain rfl := congrArg Prod.fst (Option.some.inj h)
      obtain rfl := congrArg Prod.snd (Option.some.inj h)
      exact .inr ⟨o, rfl, hp, rfl, rfl⟩
    · cases h
  | _ =>
    obtain ⟨d₁, hlook, heq⟩ := Option.map_eq_some_iff.mp h
    cases heq
    exact .inl ⟨rfl, look_turn hlook⟩

def Point.ends : Point → Bool
  | .raised _ | .reported .uncertain | .rescue _ | .look => true
  | _ => false

inductive Told (d : Download) : Download → Prop
  | same : Told d d
  | begun (hp : d.point = .begin) : Told d (d.goTo .guard)
  | reported (detail : PyStr) (report : Report) (hp : d.point = .concluding detail report) :
      Told d (d.goTo (.reported report))
  | ends (p : Point) (hends : p.ends = true) (hrank : d.rank = 10 ∨ p = .raised false) :
      Told d (d.goTo p)

theorem rank_of_point {p : Point} (hp : d.point = p) : d.rank = (d.goTo p).rank := by
  rw [Download.rank, Download.rank, hp]
  rfl

theorem told_cases (r : Except Failure (Option SideEffectState)) : Told d (d.told r) := by
  unfold Download.told
  split <;> first
    | exact .begun ‹_›
    | exact .reported _ _ ‹_›
    | exact .ends _ rfl (.inr rfl)
    | exact .ends _ (by first | rfl | (split <;> rfl)) (.inl (rank_of_point ‹_›))
    | exact .same

theorem told_same (r : Except Failure (Option SideEffectState)) :
    (d.told r).prepared = d.prepared ∧ (d.told r).approval = d.approval := by
  unfold Download.told
  split <;> exact ⟨rfl, rfl⟩

theorem begins_same (o : Started) :
    (d.begins texts o).1.prepared = d.prepared ∧ (d.begins texts o).1.approval = d.approval := by
  cases o <;> exact ⟨rfl, rfl⟩

/-- A download keeps to the order of an approved side effect. -/
theorem downloads_lawful (operationKey : PyStr → PyStr → PyStr) :
    (downloads texts operationKey).Lawful Download.phase where
  first := by
    intro d h
    simp only [downloads, Download.isFirst, Bool.and_eq_true, decide_eq_true_eq] at h
    rw [Download.phase, h.1.1.1.1.1.1.1]
  key_told := by
    intro d r
    simp only [downloads, told_same r]
  key_input := by
    intro d r d' gs h
    rcases read_cases h with ⟨-, hturn⟩ | ⟨o, -, -, rfl, -⟩
    · simp only [downloads, hturn.same]
    · simp only [downloads, begins_same o]
  content_told := by
    intro d r
    simp only [downloads, Download.parts, told_same r]
  content_input := by
    intro d r d' gs h
    left
    rcases read_cases h with ⟨-, hturn⟩ | ⟨o, -, -, rfl, -⟩
    · simp only [downloads, Download.parts, hturn.same]
    · simp only [downloads, Download.parts, begins_same o]
  begin := by
    intro d kind parts detail h
    simp only [downloads, Download.wants] at h
    split at h
    · rename_i hp
      cases h
      refine ⟨rfl, by rw [Download.phase, hp], fun x => ?_, fun e => ?_⟩
      · simp only [downloads, Download.told, hp]
        rfl
      · simp only [downloads, Download.told, hp]
        rfl
    all_goals cases h
  settle := by
    intro d state detail h
    simp only [downloads, Download.wants] at h
    split at h
    all_goals first | (cases h; done) | skip
    all_goals
      rename_i hp
      cases h
      simp only [downloads, Download.told, hp]
    · refine ⟨false, [.submitting], by rw [Download.phase, hp], fun x => .over _, fun e => .over _⟩
    · refine ⟨true, [.submitting], by rw [Download.phase, hp], fun x => ?_, fun e => ?_⟩
      · exact .opened (fun h => h) (by simp)
      · exact .opened (fun h => h) (by simp)
    · rename_i report
      refine ⟨true, [.submitting], by rw [Download.phase, hp], fun x => ?_, fun e => ?_⟩
      · cases report
        · exact .opened (fun h => h) (by simp [Report.state])
        · exact .opened (fun h => h) (by simp [Report.state])
      · cases report
        · exact .opened (fun h => h) (by simp [Report.state])
        · exact .opened (fun h => h) (by simp [Report.state])
    · refine ⟨true, [.submitting, .confirmed, .uncertain], by rw [Download.phase, hp], fun x => ?_,
        fun e => ?_⟩
      · exact .opened (fun h => h) (by simp)
      · by_cases he : e.isWorkflowError = true
        · rw [if_pos he]
          exact .opened (fun h => h) (by simp)
        · rw [if_neg he]
          exact .opened (fun h => h) (by simp)
  get := by
    intro d h
    simp only [downloads, Download.wants] at h
    split at h
    all_goals first | (cases h; done) | skip
    rename_i hp
    refine ⟨true, [.submitting, .confirmed, .uncertain], by rw [Download.phase, hp],
      fun r spent' states' hnew => ?_⟩
    simp only [downloads, Download.told, hp] at hnew
    cases r with
    | error e =>
      cases hnew
      exact ⟨(fun h => by cases h), fun state _ hallows => hallows⟩
    | ok x =>
      by_cases hx : x.all SideEffectState.unresolved = true
      · simp only [hx, if_true] at hnew
        cases hnew
        exact ⟨(fun h => by cases h), fun state _ hallows => hallows⟩
      · simp only [hx] at hnew
        cases hnew
        refine ⟨(fun h => by cases h), fun state hr hallows => ?_⟩
        rcases hr with hr | hr
        · cases hr
          rcases hallows with hmem | ⟨rfl, -⟩
          · simp only [List.mem_cons, List.not_mem_nil, or_false] at hmem
            rcases hmem with rfl | rfl | rfl
            · exact absurd rfl hx
            · exact .inl (by simp)
            · exact .inl (by simp)
          · exact .inr ⟨rfl, by simp⟩
        · exact absurd rfl (hr x)
  input := by
    intro d r d' gs h
    rcases read_cases h with ⟨rfl, hturn⟩ | ⟨o, rfl, hp, rfl, rfl⟩
    · exact .inl ⟨rfl, hturn.goes⟩
    · have hphase : d.phase = .opened false [.submitting] := by rw [Download.phase, hp]
      cases o with
      | returns =>
        refine .inr ⟨d, [.submitting], ?_⟩
        unfold Download.begins
        by_cases hsize : (approximateSize texts d.prepared.message.sizeText).isSome = true
        · refine ⟨[.submitting], rfl, hphase, ?_, List.Subset.refl _⟩
          simp only [hsize, if_true]
          rfl
        · refine ⟨[.submitting, .confirmed, .uncertain], rfl, hphase, ?_, by simp⟩
          simp only [hsize]
          rfl
      | notStarted detail =>
        refine .inl ⟨rfl, ?_⟩
        rw [hphase]
        exact .stays _
      | raises name => exact .inr ⟨d, _, [.submitting], rfl, hphase, rfl, List.Subset.refl _⟩

end
end QronosAgent.Telegram

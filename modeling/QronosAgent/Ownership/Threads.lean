import QronosAgent.Ownership.Acquire

/-! What the holder threads keep: what an `OwnedMutex` says of itself, what Windows gives it, and
that each of its steps brings it closer to its end. -/
namespace QronosAgent.Ownership
open Lib

namespace HoldPoint

/-- How many of its own steps the thread has at most before it. -/
def rank : HoldPoint → ℕ
  | .create => 10
  | .wait => 9
  | .refusing _ | .granted _ => 8
  | .reporting _ => 7
  | .holding => 6
  | .releasing => 5
  | .closing _ => 4
  | .failing _ => 3
  | .finishing => 2
  | .exiting => 1
  | .ended => 0

def isEarly : HoldPoint → Bool
  | .create | .wait | .refusing _ | .granted _ | .reporting _ => true
  | _ => false

def owns : HoldPoint → Bool
  | .granted _ | .reporting .owned | .holding | .releasing => true
  | _ => false

def hasHandle : HoldPoint → Bool
  | .wait | .refusing _ | .granted _ | .reporting .owned | .holding | .releasing => true
  | _ => false

/-- It gives back what it has, or has done so. -/
def isLeaving : HoldPoint → Bool
  | .closing _ | .failing _ | .finishing | .exiting | .ended => true
  | _ => false

def isOver : HoldPoint → Bool
  | .finishing | .exiting | .ended => true
  | _ => false

end HoldPoint

section
variable {N : Type} [DecidableEq N]

structure MutexOk (m : OwnedMutex N) : Prop where
  early : m.point.isEarly = true → m.outcome = none
  granting : m.point = .reporting .owned → m.owned = true
  owned : m.outcome = some .owned →
    m.owned = true ∧ (m.point = .holding ∨ m.release = true ∨ m.point = .ended)
  refused : ∀ o, m.outcome = some o → o ≠ .owned → m.point.isOver = true
  told : m.point = .releasing → m.release = true
  unfreed : m.point.isLeaving = false → m.freed = 0
  freed : m.freed ≤ 1
  closing : m.point = .closing true → m.freed = 1
  confirmed : m.releaseConfirmed = true → m.freed = 1 ∧ m.closed = true ∧ m.point.isOver = true

structure HolderOk (kernel : Kernel N) (k : ℕ) (m : OwnedMutex N) : Prop where
  handle : m.point.hasHandle = true → (m.name, .mutex k) ∈ kernel.handles
  owns : m.point.owns = true → kernel.Holds m.name (.mutex k)

structure Held (m m' : OwnedMutex N) : Prop where
  name : m'.name = m.name
  caller : m'.caller = m.caller
  released : m'.released = m.released
  release : m'.release = m.release
  outcome : ∀ o, m.outcome = some o → m'.outcome = some o
  confirmed : m.releaseConfirmed = true → m'.releaseConfirmed = true
  rank : m'.point.rank < m.point.rank

theorem newMutex_ok (name : N) (caller : ℕ) : MutexOk (newMutex name caller) where
  early := fun _ => rfl
  granting := by rintro ⟨⟩
  owned := by rintro ⟨⟩
  refused := by rintro _ ⟨⟩
  told := by rintro ⟨⟩
  unfreed := fun _ => rfl
  freed := Nat.zero_le _
  closing := by rintro ⟨⟩
  confirmed := by rintro ⟨⟩

variable {m m' : OwnedMutex N} {kernel kernel' : Kernel N} {k : ℕ} {a : Native}

theorem MutexOk.goTo (h : MutexOk m) {point : HoldPoint}
    (hearly : point.isEarly = true → m.point.isEarly = true) (hgranting : point ≠ .reporting .owned)
    (howned : m.point = .holding → m.release = true) (hover : m.point.isOver = false)
    (htold : point = .releasing → m.release = true)
    (hleaving : point.isLeaving = false → m.point.isLeaving = false)
    (hclosing : point ≠ .closing true) : MutexOk { m with point := point } where
  early := fun hp => h.early (hearly hp)
  granting := fun hp => absurd hp hgranting
  owned := by
    intro ho
    obtain ⟨hown, hp | hrelease | hp⟩ := h.owned ho
    · exact ⟨hown, .inr (.inl (howned hp))⟩
    · exact ⟨hown, .inr (.inl hrelease)⟩
    · rw [hp] at hover
      cases hover
  refused := by
    intro o ho hne
    rw [h.refused o ho hne] at hover
    cases hover
  told := htold
  unfreed := fun hp => h.unfreed (hleaving hp)
  freed := h.freed
  closing := fun hp => absurd hp hclosing
  confirmed := by
    intro hc
    rw [(h.confirmed hc).2.2] at hover
    cases hover

/-- One of the thread's steps before it has answered. -/
theorem MutexOk.tries (h : MutexOk m) {old point : HoldPoint} (hp : m.point = old)
    (hold : old.isEarly = true) (hpoint : point.isEarly = true ∨ point.isLeaving = true)
    (hgranting : point ≠ .reporting .owned) (hclosing : point ≠ .closing true)
    (hrank : point.rank < old.rank) :
    MutexOk { m with point := point } ∧ Held m { m with point := point } := by
  subst hp
  constructor
  · apply h.goTo (fun _ => hold) hgranting
    · intro hp
      rw [hp] at hold
      cases hold
    · cases hp : m.point <;> rw [hp] at hold <;> first | rfl | cases hold
    · rintro rfl
      rcases hpoint with hpoint | hpoint <;> cases hpoint
    · intro
      cases hp : m.point <;> rw [hp] at hold <;> first | rfl | cases hold
    · exact hclosing
  · exact ⟨rfl, rfl, rfl, rfl, fun _ ho => ho, fun hc => hc, hrank⟩

/-- Once it gives back what it has, it was told to. -/
theorem MutexOk.leaving (h : MutexOk m) {point : HoldPoint} (hp : m.point = point)
    (hover : point.isOver = false) (hpoint : decide (point = .holding) = false) :
    (∀ o, o ≠ .owned → m.outcome ≠ some o) ∧
      (m.outcome = some .owned → m.owned = true ∧ m.release = true) := by
  subst hp
  constructor
  · intro o hne ho
    rw [h.refused o ho hne] at hover
    cases hover
  · intro ho
    obtain ⟨hown, hholding | hrelease | hended⟩ := h.owned ho
    · exact absurd hholding (of_decide_eq_false hpoint)
    · exact ⟨hown, hrelease⟩
    · rw [hended] at hover
      cases hover

theorem MutexOk.unconfirmed (h : MutexOk m) {point : HoldPoint} (hp : m.point = point)
    (hover : point.isOver = false) : m.releaseConfirmed ≠ true := by
  subst hp
  intro hc
  rw [(h.confirmed hc).2.2] at hover
  cases hover

/-- The last steps. -/
theorem MutexOk.over (h : MutexOk m) {point : HoldPoint} {done : Bool}
    (hover : m.point.isOver = true) (hended : m.point ≠ .ended)
    (hpoint : point = .exiting ∨ point = .ended) :
    MutexOk { m with done := done, point := point } := by
  have howned : m.outcome = some .owned → m.owned = true ∧ m.release = true := by
    intro ho
    obtain ⟨hown, hp | hrelease | hp⟩ := h.owned ho
    · rw [hp] at hover
      cases hover
    · exact ⟨hown, hrelease⟩
    · exact absurd hp hended
  have hpoint' : point.isOver = true ∧ point.isEarly = false ∧ point.isLeaving = true := by
    rcases hpoint with rfl | rfl <;> exact ⟨rfl, rfl, rfl⟩
  obtain ⟨hnew, hearly, hleaving⟩ := hpoint'
  refine ⟨fun hn => ?_, fun hn => ?_, fun ho => ⟨(howned ho).1, .inr (.inl (howned ho).2)⟩,
    fun _ _ _ => hnew, fun hn => ?_, fun hn => ?_, h.freed, fun hn => ?_,
    fun hc => ⟨(h.confirmed hc).1, (h.confirmed hc).2.1, hnew⟩⟩
  · rw [hearly] at hn
    cases hn
  · subst hn
    cases hnew
  · subst hn
    cases hnew
  · rw [hleaving] at hn
    cases hn
  · subst hn
    cases hnew

theorem held (h : MutexOk m) (hs : m.hold kernel k a = some (m', kernel')) :
    MutexOk m' ∧ Held m m' := by
  unfold OwnedMutex.hold at hs
  cases hp : m.point with
  | create =>
    simp only [hp] at hs
    cases hs
    cases a with
    | works | fails => exact h.tries hp rfl (.inl rfl) (by simp) (by simp) (by simp [HoldPoint.rank])
    | raises did => exact h.tries hp rfl (.inr rfl) (by simp) (by simp) (by simp [HoldPoint.rank])
  | wait =>
    simp only [hp] at hs
    cases hs
    cases a with
    | works =>
      simp only
      split <;> exact h.tries hp rfl (.inl rfl) (by simp) (by simp) (by simp [HoldPoint.rank])
    | fails => exact h.tries hp rfl (.inl rfl) (by simp) (by simp) (by simp [HoldPoint.rank])
    | raises did => exact h.tries hp rfl (.inr rfl) (by simp) (by simp) (by simp [HoldPoint.rank])
  | refusing busy =>
    simp only [hp] at hs
    cases hs
    have hbusy : (if busy then Outcome.busy else Outcome.error) ≠ .owned := by
      cases busy <;> decide
    cases a with
    | works | fails =>
      refine h.tries hp rfl (.inl rfl) (fun hn => ?_) (by rintro ⟨⟩) (by simp [HoldPoint.rank])
      exact hbusy (HoldPoint.reporting.inj hn)
    | raises did => exact h.tries hp rfl (.inr rfl) (by simp) (by simp) (by simp [HoldPoint.rank])
  | granted abandoned =>
    simp only [hp] at hs
    cases hs
    have hnone : m.outcome = none := h.early (by rw [hp]; rfl)
    refine ⟨⟨fun _ => hnone, fun _ => rfl, ?_, ?_, (by rintro ⟨⟩), fun _ => h.unfreed (by rw [hp]; rfl),
      h.freed, (by rintro ⟨⟩), ?_⟩, ⟨rfl, rfl, rfl, rfl, fun _ ho => ho, fun hc => hc, ?_⟩⟩
    · intro ho
      rw [hnone] at ho
      cases ho
    · intro o ho
      rw [hnone] at ho
      cases ho
    · intro hc
      have hover := (h.confirmed hc).2.2
      rw [hp] at hover
      cases hover
    · rw [hp]
      simp [HoldPoint.rank]
  | reporting outcome =>
    simp only [hp] at hs
    cases hs
    have hnone : m.outcome = none := h.early (by rw [hp]; rfl)
    have hunfreed : m.freed = 0 := h.unfreed (by rw [hp]; rfl)
    have hnot : m.releaseConfirmed = true → False := by
      intro hc
      have hover := (h.confirmed hc).2.2
      rw [hp] at hover
      cases hover
    have hheld : ∀ point : HoldPoint, point.rank < 7 →
        Held m { m with outcome := some outcome, point := point } := by
      intro point hrank
      refine ⟨rfl, rfl, rfl, rfl, fun o ho => ?_, fun hc => hc, ?_⟩
      · rw [hnone] at ho
        cases ho
      · rw [hp]
        exact hrank
    by_cases howned : outcome = .owned
    · subst howned
      refine ⟨⟨(by rintro ⟨⟩), (by rintro ⟨⟩), fun _ => ⟨h.granting hp, .inl rfl⟩, ?_,
        (by rintro ⟨⟩), fun _ => hunfreed, h.freed, (by rintro ⟨⟩), fun hc => (hnot hc).elim⟩,
        hheld _ (by decide)⟩
      intro o ho hne
      exact absurd (Option.some.inj ho).symm hne
    · rw [if_neg howned]
      refine ⟨⟨(by rintro ⟨⟩), (by rintro ⟨⟩), ?_, fun _ _ _ => rfl,
        (by rintro ⟨⟩), (by rintro ⟨⟩), h.freed, (by rintro ⟨⟩), fun hc => (hnot hc).elim⟩,
        hheld _ (by decide)⟩
      intro ho
      exact absurd (Option.some.inj ho) howned
  | holding =>
    simp only [hp] at hs
    split at hs
    · rename_i hrelease
      cases hs
      refine ⟨h.goTo (by rintro ⟨⟩) (by rintro ⟨⟩) (fun _ => hrelease)
        (by rw [hp]; rfl) (fun _ => hrelease) (fun _ => by rw [hp]; rfl) (by rintro ⟨⟩), ?_⟩
      exact ⟨rfl, rfl, rfl, rfl, fun _ ho => ho, fun hc => hc, by rw [hp]; simp [HoldPoint.rank]⟩
    · cases hs
  | releasing =>
    simp only [hp] at hs
    cases hs
    have hzero : m.freed = 0 := h.unfreed (by rw [hp]; rfl)
    obtain ⟨hnone, howned⟩ := h.leaving hp rfl rfl
    have hgo : ∀ frees : Bool, ∀ point : HoldPoint, point = .failing true ∨ point = .closing frees →
        MutexOk { m with freed := if frees then m.freed + 1 else m.freed, point := point } := by
      intro frees point hpoint
      have hfreed : (if frees then m.freed + 1 else m.freed) = if frees then 1 else 0 := by
        rw [hzero]
      rcases hpoint with rfl | rfl
      · refine ⟨(by rintro ⟨⟩), (by rintro ⟨⟩), fun ho => ?_, ?_,
          (by rintro ⟨⟩), (by rintro ⟨⟩), ?_, (by rintro ⟨⟩), ?_⟩
        · exact ⟨(howned ho).1, .inr (.inl (howned ho).2)⟩
        · exact fun o ho hne => absurd ho (hnone o hne)
        · simp only [hfreed]
          split <;> omega
        · exact fun hc => absurd hc (h.unconfirmed hp rfl)
      · refine ⟨(by rintro ⟨⟩), (by rintro ⟨⟩), fun ho => ?_, ?_,
          (by rintro ⟨⟩), (by rintro ⟨⟩), ?_, ?_, ?_⟩
        · exact ⟨(howned ho).1, .inr (.inl (howned ho).2)⟩
        · exact fun o ho hne => absurd ho (hnone o hne)
        · simp only [hfreed]
          split <;> omega
        · intro hclosing
          obtain rfl := HoldPoint.closing.inj hclosing
          exact hfreed
        · exact fun hc => absurd hc (h.unconfirmed hp rfl)
    refine ⟨hgo _ _ ?_, ⟨rfl, rfl, rfl, rfl, fun _ ho => ho, fun hc => hc, ?_⟩⟩
    · cases a with
      | raises did => exact .inl rfl
      | _ => exact .inr rfl
    · rw [hp]
      cases a <;> simp [HoldPoint.rank]
  | closing released =>
    simp only [hp] at hs
    cases hs
    obtain ⟨hnone, howned⟩ := h.leaving hp rfl rfl
    refine ⟨⟨?_, ?_, fun ho => ⟨(howned ho).1, .inr (.inl (howned ho).2)⟩,
      fun o ho hne => absurd ho (hnone o hne), ?_, ?_, h.freed, ?_, ?_⟩,
      ⟨rfl, rfl, rfl, rfl, fun _ ho => ho, fun hc => absurd hc (h.unconfirmed hp rfl), ?_⟩⟩
    iterate 5 · cases a <;> rintro ⟨⟩
    · intro hc
      simp only [Bool.and_eq_true, decide_eq_true_eq] at hc
      obtain ⟨rfl, rfl⟩ := hc
      exact ⟨h.closing hp, rfl, rfl⟩
    · rw [hp]
      cases a <;> simp [HoldPoint.rank]
  | failing handle =>
    simp only [hp] at hs
    cases hs
    obtain ⟨hnone, howned⟩ := h.leaving hp rfl rfl
    refine ⟨⟨(by rintro ⟨⟩), (by rintro ⟨⟩), ?_, fun _ _ _ => rfl,
      (by rintro ⟨⟩), (by rintro ⟨⟩), h.freed, (by rintro ⟨⟩), ?_⟩,
      ⟨rfl, rfl, rfl, rfl, fun o ho => ?_, fun hc => hc, by rw [hp]; simp [HoldPoint.rank]⟩⟩
    · intro ho
      cases hout : m.outcome with
      | none =>
        simp [hout] at ho
      | some o =>
        simp only [hout, Option.some_or] at ho
        cases ho
        exact ⟨(howned hout).1, .inr (.inl (howned hout).2)⟩
    · exact fun hc => absurd hc (h.unconfirmed hp rfl)
    · simp only [ho, Option.some_or]
  | finishing =>
    simp only [hp] at hs
    cases hs
    refine ⟨h.over (by rw [hp]; rfl) (by rw [hp]; decide) (.inl rfl), ?_⟩
    exact ⟨rfl, rfl, rfl, rfl, fun _ ho => ho, fun hc => hc, by rw [hp]; simp [HoldPoint.rank]⟩
  | exiting =>
    simp only [hp] at hs
    cases hs
    refine ⟨h.over (by rw [hp]; rfl) (by rw [hp]; decide) (.inr rfl), ?_⟩
    exact ⟨rfl, rfl, rfl, rfl, fun _ ho => ho, fun hc => hc, by rw [hp]; simp [HoldPoint.rank]⟩
  | ended =>
    simp only [hp] at hs
    cases hs

/-- A call that takes effect or not changes only what the thread has. -/
theorem acts_if {t : Party} {b : Bool} (h : b = true → NamedMutexes.Acts (· = t) kernel kernel') :
    NamedMutexes.Acts (· = t) kernel (if b then kernel' else kernel) := by
  split
  · rename_i hb
    exact h hb
  · exact NamedMutexes.acts_refl _

theorem held_acts (hs : m.hold kernel k a = some (m', kernel')) :
    NamedMutexes.Acts (· = .mutex k) kernel kernel' := by
  unfold OwnedMutex.hold at hs
  cases hp : m.point with
  | create =>
    simp only [hp] at hs
    cases hs
    exact acts_if fun _ => NamedMutexes.acts_create _ _
  | wait =>
    simp only [hp] at hs
    cases hs
    apply acts_if
    intro hcan
    rw [Bool.and_eq_true] at hcan
    exact NamedMutexes.acts_acquire hcan.2
  | releasing =>
    simp only [hp] at hs
    cases hs
    exact acts_if fun _ => NamedMutexes.acts_release _ _
  | refusing _ | closing _ | failing _ =>
    simp only [hp] at hs
    cases hs
    exact acts_if fun _ => NamedMutexes.acts_close _ _
  | granted _ | reporting _ | finishing =>
    simp only [hp] at hs
    cases hs
    exact NamedMutexes.acts_refl _
  | holding =>
    simp only [hp] at hs
    split at hs
    · cases hs
      exact NamedMutexes.acts_refl _
    · cases hs
  | exiting =>
    simp only [hp] at hs
    cases hs
    have habandon := NamedMutexes.acts_abandon (m := kernel) (fun t => decide (t = .mutex k))
    simp only [decide_eq_true_eq] at habandon
    exact habandon
  | ended =>
    simp only [hp] at hs
    cases hs

theorem held_ended (hs : m.hold kernel k a = some (m', kernel')) (hended : m'.point = .ended) :
    ∀ name, kernel'.owner name ≠ some (.mutex k) := by
  unfold OwnedMutex.hold at hs
  cases hp : m.point with
  | exiting =>
    simp only [hp] at hs
    cases hs
    intro name howner
    have hgone := (NamedMutexes.owner_abandon howner).2
    simp at hgone
  | create | refusing _ | releasing | closing _ =>
    simp only [hp] at hs
    cases hs
    cases a <;> cases hended
  | wait =>
    simp only [hp] at hs
    cases hs
    cases a with
    | works =>
      simp only at hended
      split at hended <;> cases hended
    | _ => cases hended
  | granted _ | failing _ | finishing =>
    simp only [hp] at hs
    cases hs
    cases hended
  | reporting outcome =>
    simp only [hp] at hs
    cases hs
    simp only at hended
    split at hended <;> cases hended
  | holding =>
    simp only [hp] at hs
    split at hs
    · cases hs
      cases hended
    · cases hs
  | ended =>
    simp only [hp] at hs
    cases hs

theorem HolderOk.none {point : HoldPoint} (hp : m.point = point) (hhandle : point.hasHandle = false)
    (howns : point.owns = false) : HolderOk kernel k m := by
  subst hp
  constructor <;> intro hn
  · rw [hhandle] at hn
    cases hn
  · rw [howns] at hn
    cases hn

theorem HolderOk.acts (h : HolderOk kernel k m) {acting : Party → Prop}
    (ha : NamedMutexes.Acts acting kernel kernel') (hk : ¬ acting (.mutex k)) :
    HolderOk kernel' k m :=
  ⟨fun hp => (ha.handles _ _ hk).mpr (h.handle hp), fun hp => ha.holds _ _ hk (h.owns hp)⟩

theorem HolderOk.held (h : HolderOk kernel k m) (hs : m.hold kernel k a = some (m', kernel')) :
    HolderOk kernel' k m' := by
  unfold OwnedMutex.hold at hs
  cases hp : m.point with
  | create =>
    simp only [hp] at hs
    cases hs
    cases a with
    | works => exact ⟨fun _ => List.mem_cons_self, by rintro ⟨⟩⟩
    | _ => exact .none rfl rfl rfl
  | wait =>
    have hhandle := h.handle (by rw [hp]; rfl)
    simp only [hp] at hs
    cases hs
    cases a with
    | works =>
      by_cases hcan : kernel.canAcquire m.name (.mutex k) = true
      · simp only [hcan, if_true, Bool.and_true, Native.takesEffect]
        exact ⟨fun _ => hhandle, fun _ => NamedMutexes.acquire_holds hhandle⟩
      · simp only [hcan, Bool.and_false, Bool.false_eq_true, if_false]
        exact ⟨fun _ => hhandle, by rintro ⟨⟩⟩
    | fails => exact ⟨fun _ => hhandle, by rintro ⟨⟩⟩
    | raises did => exact .none rfl rfl rfl
  | refusing busy =>
    simp only [hp] at hs
    cases hs
    cases a with
    | raises did => exact .none rfl rfl rfl
    | _ => cases busy <;> exact .none rfl rfl rfl
  | granted abandoned =>
    have hhandle := h.handle (by rw [hp]; rfl)
    have howns := h.owns (by rw [hp]; rfl)
    simp only [hp] at hs
    cases hs
    exact ⟨fun _ => hhandle, fun _ => howns⟩
  | reporting outcome =>
    simp only [hp] at hs
    cases hs
    cases outcome with
    | owned => exact ⟨fun _ => h.handle (by rw [hp]; rfl), fun _ => h.owns (by rw [hp]; rfl)⟩
    | _ => exact .none rfl rfl rfl
  | holding =>
    have hhandle := h.handle (by rw [hp]; rfl)
    have howns := h.owns (by rw [hp]; rfl)
    simp only [hp] at hs
    split at hs
    · cases hs
      exact ⟨fun _ => hhandle, fun _ => howns⟩
    · cases hs
  | releasing | closing _ =>
    simp only [hp] at hs
    cases hs
    cases a <;> exact .none rfl rfl rfl
  | failing _ | finishing | exiting =>
    simp only [hp] at hs
    cases hs
    exact .none rfl rfl rfl
  | ended =>
    simp only [hp] at hs
    cases hs

structure Tells (m m' : OwnedMutex N) : Prop where
  name : m'.name = m.name
  caller : m'.caller = m.caller
  point : m'.point = m.point
  outcome : m'.outcome = m.outcome
  owned : m'.owned = m.owned
  confirmed : m'.releaseConfirmed = m.releaseConfirmed
  freed : m'.freed = m.freed
  closed : m'.closed = m.closed
  released : m.released = true → m'.released = true
  release : m.release = true → m'.release = true

theorem Tells.ok (ht : Tells m m') (h : MutexOk m) : MutexOk m' where
  early := by
    rw [ht.point, ht.outcome]
    exact h.early
  granting := by
    rw [ht.point, ht.owned]
    exact h.granting
  owned := by
    rw [ht.point, ht.outcome, ht.owned]
    exact fun ho => ⟨(h.owned ho).1, (h.owned ho).2.imp_right (Or.imp_left ht.release)⟩
  refused := by
    rw [ht.point, ht.outcome]
    exact h.refused
  told := by
    rw [ht.point]
    exact fun hp => ht.release (h.told hp)
  unfreed := by
    rw [ht.point, ht.freed]
    exact h.unfreed
  freed := by
    rw [ht.freed]
    exact h.freed
  closing := by
    rw [ht.point, ht.freed]
    exact h.closing
  confirmed := by
    rw [ht.point, ht.freed, ht.closed, ht.confirmed]
    exact h.confirmed

theorem Tells.holder (ht : Tells m m') (h : HolderOk kernel k m) : HolderOk kernel k m' := by
  constructor
  · rw [ht.point, ht.name]
    exact h.handle
  · rw [ht.point, ht.name]
    exact h.owns

inductive Releases (m : OwnedMutex N) : ReleasePoint → OwnedMutex N → ReleasePoint → Prop
  | again (h : m.owned = false ∨ m.released = true) :
      Releases m .asked m (.reported m.releaseConfirmed)
  | marks (howned : m.owned = true) (hreleased : m.released = false) :
      Releases m .asked { m with released := true } .marked
  | tells : Releases m .marked { m with release := true } .waiting
  | inTime (hdone : m.done = true) : Releases m .waiting m (.reported m.releaseConfirmed)
  | late : Releases m .waiting m (.reported false)

theorem releases_of {late : Bool} {point point' : ReleasePoint}
    (hs : m.releaseStep late point = some (m', point')) : Releases m point m' point' := by
  cases point with
  | asked =>
    simp only [OwnedMutex.releaseStep] at hs
    split at hs
    · rename_i hcond
      cases hs
      simp only [Bool.or_eq_true, Bool.not_eq_true'] at hcond
      exact .again hcond
    · rename_i hcond
      cases hs
      simp only [Bool.or_eq_true, Bool.not_eq_true', not_or, Bool.not_eq_false,
        Bool.not_eq_true] at hcond
      exact .marks hcond.1 hcond.2
  | marked =>
    cases hs
    exact .tells
  | waiting =>
    simp only [OwnedMutex.releaseStep] at hs
    split at hs
    · rename_i hdone
      cases hs
      exact .inTime hdone
    · split at hs
      · cases hs
        exact .late
      · cases hs
  | reported confirmed => cases hs

theorem Releases.tells_of {point point' : ReleasePoint} (h : Releases m point m' point') :
    Tells m m' := by
  cases h with
  | marks => exact ⟨rfl, rfl, rfl, rfl, rfl, rfl, rfl, rfl, fun _ => rfl, fun h => h⟩
  | tells => exact ⟨rfl, rfl, rfl, rfl, rfl, rfl, rfl, rfl, fun h => h, fun _ => rfl⟩
  | _ => exact ⟨rfl, rfl, rfl, rfl, rfl, rfl, rfl, rfl, fun h => h, fun h => h⟩

structure LaunchOk (names : Names N) (kernel : Kernel N) (u : ℕ) (l : Launch N) : Prop where
  working : ∀ left, l.point = .working left → l.owned ++ left = names.fence :: names.runtime ∧
    l.acquired = false ∧ ∀ n ∈ l.owned, kernel.Holds n (.updater u)
  waits : ∀ name left, l.point = .waits name left →
    l.owned ++ name :: left = names.fence :: names.runtime ∧ l.acquired = false ∧
      (∀ n ∈ l.owned, kernel.Holds n (.updater u)) ∧ (name, .updater u) ∈ kernel.handles

variable {names : Names N} {u : ℕ} {l l' : Launch N}

theorem LaunchOk.done (hworking : ∀ left, l.point ≠ .working left)
    (hwaits : ∀ name left, l.point ≠ .waits name left) : LaunchOk names kernel u l :=
  ⟨fun left hp => absurd hp (hworking left), fun name left hp => absurd hp (hwaits name left)⟩

theorem LaunchOk.acts (h : LaunchOk names kernel u l) {acting : Party → Prop}
    (ha : NamedMutexes.Acts acting kernel kernel') (hu : ¬ acting (.updater u)) :
    LaunchOk names kernel' u l := by
  constructor
  · intro left hp
    obtain ⟨hnames, hacquired, hholds⟩ := h.working left hp
    exact ⟨hnames, hacquired, fun n hn => ha.holds n _ hu (hholds n hn)⟩
  · intro name left hp
    obtain ⟨hnames, hacquired, hholds, hhandle⟩ := h.waits name left hp
    exact ⟨hnames, hacquired, fun n hn => ha.holds n _ hu (hholds n hn),
      (ha.handles _ _ hu).mpr hhandle⟩

/-- It does what it does with its own handles; once every name is acquired, it owns them all. -/
theorem launch_held (h : LaunchOk names kernel u l) (hs : l.hold kernel u a = some (l', kernel')) :
    LaunchOk names kernel' u l' ∧ NamedMutexes.Acts (· = .updater u) kernel kernel' ∧
      (l'.acquired = true → l.acquired = true ∨
        kernel' = kernel ∧ ∀ n ∈ names.runtime, kernel.Holds n (.updater u)) := by
  unfold Launch.hold at hs
  split at hs
  · rename_i hp
    obtain ⟨hnames, -, hholds⟩ := h.working _ hp
    cases hs
    refine ⟨.done (by rintro _ ⟨⟩) (by rintro _ _ ⟨⟩), NamedMutexes.acts_refl _,
      fun _ => .inr ⟨rfl, fun n hn => hholds n ?_⟩⟩
    rw [List.append_nil] at hnames
    rw [hnames]
    exact List.mem_cons_of_mem _ hn
  · rename_i name left hp
    obtain ⟨hnames, hacquired, hholds⟩ := h.working _ hp
    simp only at hs
    split at hs
    · cases hs
      refine ⟨?_, NamedMutexes.acts_create _ _, fun hn => .inl hn⟩
      by_cases hexists : kernel.exists? name = true
      · simp only [hexists, if_true]
        exact .done (by rintro _ ⟨⟩) (by rintro _ _ ⟨⟩)
      · simp only [hexists, Bool.false_eq_true, if_false]
        refine ⟨(by rintro _ ⟨⟩), fun _ _ hn => ?_⟩
        cases hn
        exact ⟨hnames, hacquired, fun n hn => (hholds n hn).create _ _, List.mem_cons_self⟩
    · cases hs
      exact ⟨.done (by rintro _ ⟨⟩) (by rintro _ _ ⟨⟩),
        acts_if fun _ => NamedMutexes.acts_create _ _, fun hn => .inl hn⟩
    · cases hs
      exact ⟨.done (by rintro _ ⟨⟩) (by rintro _ _ ⟨⟩),
        acts_if fun _ => NamedMutexes.acts_create _ _, fun hn => .inl hn⟩
  · rename_i name left hp
    obtain ⟨hnames, hacquired, hholds, hhandle⟩ := h.waits _ _ hp
    have hacts : ∀ b : Bool, NamedMutexes.Acts (· = .updater u) kernel
        (if b && kernel.canAcquire name (.updater u) then kernel.acquire name (.updater u)
          else kernel) := by
      intro b
      apply acts_if
      intro hcan
      rw [Bool.and_eq_true] at hcan
      exact NamedMutexes.acts_acquire hcan.2
    simp only at hs
    split at hs
    · split at hs
      · rename_i hcond
        rw [Bool.and_eq_true] at hcond
        cases hs
        refine ⟨?_, hacts _, fun hn => .inl hn⟩
        simp only [Native.takesEffect, hcond.1, Bool.and_true, if_true]
        refine ⟨fun _ hn => ?_, by rintro _ _ ⟨⟩⟩
        cases hn
        refine ⟨by rw [← hnames]; simp, hacquired, fun n hn => ?_⟩
        rcases List.mem_append.mp hn with hn | hn
        · exact (hholds n hn).acquire_same name
        · cases List.mem_singleton.mp hn
          exact NamedMutexes.acquire_holds hhandle
      · cases hs
        exact ⟨.done (by rintro _ ⟨⟩) (by rintro _ _ ⟨⟩), hacts _,
          fun hn => .inl hn⟩
    · cases hs
      exact ⟨.done (by rintro _ ⟨⟩) (by rintro _ _ ⟨⟩), hacts _,
        fun hn => .inl hn⟩
    · cases hs
      exact ⟨.done (by rintro _ ⟨⟩) (by rintro _ _ ⟨⟩), hacts _,
        fun hn => .inl hn⟩
  · simp only at hs
    split at hs <;> cases hs <;>
      exact ⟨.done (by rintro _ ⟨⟩) (by rintro _ _ ⟨⟩),
        acts_if fun _ => NamedMutexes.acts_release _ _, fun hn => .inl hn⟩
  · simp only at hs
    split at hs <;> cases hs <;>
      exact ⟨.done (by rintro _ ⟨⟩) (by rintro _ _ ⟨⟩),
        acts_if fun _ => NamedMutexes.acts_close _ _, fun hn => .inl hn⟩
  · cases hs
    refine ⟨?_, NamedMutexes.acts_refl _, fun hn => .inl hn⟩
    split <;> exact .done (by rintro _ ⟨⟩) (by rintro _ _ ⟨⟩)
  · cases hs
    exact ⟨.done (by rintro _ ⟨⟩) (by rintro _ _ ⟨⟩), NamedMutexes.acts_refl _,
      fun hn => .inl hn⟩
  · split at hs
    · cases hs
      exact ⟨.done (by rintro _ ⟨⟩) (by rintro _ _ ⟨⟩),
        NamedMutexes.acts_refl _, fun hn => .inl hn⟩
    · cases hs
  · cases hs
    have habandon := NamedMutexes.acts_abandon (m := kernel) (fun t => decide (t = .updater u))
    simp only [decide_eq_true_eq] at habandon
    exact ⟨.done (by rintro _ ⟨⟩) (by rintro _ _ ⟨⟩), habandon,
      fun hn => .inl hn⟩
  · cases hs

theorem launch_handles (h : LaunchOk names kernel u l) (hacquired : l.acquired = true)
    (hs : l.hold kernel u a = some (l', kernel')) {name : N}
    (hhandle : (name, .updater u) ∈ kernel'.handles) : (name, .updater u) ∈ kernel.handles := by
  unfold Launch.hold at hs
  split at hs
  · cases hs
    exact hhandle
  · rename_i name left hp
    rw [(h.working _ hp).2.1] at hacquired
    cases hacquired
  · rename_i name left hp
    rw [(h.waits _ _ hp).2.1] at hacquired
    cases hacquired
  · simp only at hs
    split at hs <;> cases hs <;> split at hhandle
    all_goals
      first
      | exact hhandle
      | rw [NamedMutexes.handles_release] at hhandle
        exact hhandle
  · simp only at hs
    split at hs <;> cases hs <;> split at hhandle <;>
      first | exact hhandle | exact NamedMutexes.handles_close hhandle
  · cases hs
    exact hhandle
  · cases hs
    exact hhandle
  · split at hs
    · cases hs
      exact hhandle
    · cases hs
  · cases hs
    exact hhandle
  · cases hs

end
end QronosAgent.Ownership

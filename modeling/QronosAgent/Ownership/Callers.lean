import QronosAgent.Ownership.Threads

/-! What the calls keep: each call knows its own mutex, a mutex is released by others only once it
was returned, and a call leaves nothing behind that was not told to end. -/
namespace QronosAgent.Ownership
open Lib

namespace CallPoint

def current : CallPoint → Option ℕ
  | .awaiting k | .givingUp k | .fenceCheck k | .releasing k _ _ | .returned k => some k
  | _ => none

def isActive : CallPoint → Bool
  | .returned _ | .raised _ | .dead => false
  | _ => true

end CallPoint

section
variable {N : Type} [DecidableEq N]

def CallOk (mutexes : ℕ → Option (OwnedMutex N)) (c : ℕ) : CallPoint → Prop
  | .awaiting k | .givingUp k => ∃ m, mutexes k = some m ∧ m.caller = c ∧ m.released = false ∧
    m.release = false
  | .fenceCheck k | .releasing k .asked _ => ∃ m, mutexes k = some m ∧ m.caller = c ∧
    m.released = false ∧ m.release = false ∧ m.outcome = some .owned
  | .releasing k .marked _ => ∃ m, mutexes k = some m ∧ m.caller = c
  | .releasing k _ _ => ∃ m, mutexes k = some m ∧ m.caller = c ∧ m.release = true
  | .returned k => ∃ m, mutexes k = some m ∧ m.caller = c ∧ m.outcome = some .owned ∧
    (m.release = true → m.released = true)
  | _ => True

/-- A `release` is of a mutex that was returned. -/
def ReleaseOk (mutexes : ℕ → Option (OwnedMutex N)) (calls : ℕ → Option (Call N))
    (release : Release) : Prop :=
  ∃ m call, mutexes release.mutex = some m ∧ calls m.caller = some call ∧
    (call.point = .returned release.mutex ∨ call.point = .dead) ∧
      (release.point = .marked → m.released = true) ∧
        (release.point = .reported true → m.releaseConfirmed = true)

def Told (m : OwnedMutex N) : Prop :=
  m.release = true ∨ ∃ o, m.outcome = some o ∧ o ≠ .owned

def LeftOk (calls : ℕ → Option (Call N)) (k : ℕ) (m : OwnedMutex N) : Prop :=
  ∃ call, calls m.caller = some call ∧
    (call.point.current = some k ∨ call.point = .dead ∨ Told m)

structure CallersOk (mutexes : ℕ → Option (OwnedMutex N)) (calls : ℕ → Option (Call N))
    (releases : ℕ → Option Release) : Prop where
  knows : ∀ c call, calls c = some call → CallOk mutexes c call.point
  ofReturned : ∀ r release, releases r = some release → ReleaseOk mutexes calls release
  left : ∀ k m, mutexes k = some m → LeftOk calls k m

structure Grows (m m' : OwnedMutex N) : Prop where
  caller : m'.caller = m.caller
  outcome : ∀ o, m.outcome = some o → m'.outcome = some o
  released : m.released = true → m'.released = true
  release : m.release = true → m'.release = true
  confirmed : m.releaseConfirmed = true → m'.releaseConfirmed = true

variable {m m' : OwnedMutex N} {mutexes mutexes' : ℕ → Option (OwnedMutex N)}
variable {calls calls' : ℕ → Option (Call N)} {releases releases' : ℕ → Option Release}

theorem Grows.refl (m : OwnedMutex N) : Grows m m :=
  ⟨rfl, fun _ h => h, fun h => h, fun h => h, fun h => h⟩

theorem Held.grows (h : Held m m') : Grows m m' :=
  ⟨h.caller, h.outcome, fun hr => h.released.trans hr, fun hr => h.release.trans hr, h.confirmed⟩

theorem Tells.grows (h : Tells m m') : Grows m m' :=
  ⟨h.caller, fun _ ho => h.outcome.trans ho, h.released, h.release,
    fun hc => h.confirmed.trans hc⟩

theorem Grows.told (h : Grows m m') (ht : Told m) : Told m' := by
  rcases ht with hrelease | ⟨o, ho, hne⟩
  · exact .inl (h.release hrelease)
  · exact .inr ⟨o, h.outcome o ho, hne⟩

variable {c k r : ℕ} {point : CallPoint}

theorem CallOk.caller (h : CallOk mutexes c point) (hk : point.current = some k) :
    ∃ m, mutexes k = some m ∧ m.caller = c := by
  cases point with
  | awaiting k' | givingUp k' | fenceCheck k' | returned k' =>
    cases hk
    obtain ⟨m, hm, hcaller, -⟩ := h
    exact ⟨m, hm, hcaller⟩
  | releasing k' point unknown =>
    cases hk
    cases point with
    | marked => exact h
    | _ =>
      obtain ⟨m, hm, hcaller, -⟩ := h
      exact ⟨m, hm, hcaller⟩
  | _ => cases hk

theorem CallOk.congr (h : CallOk mutexes c point)
    (heq : ∀ k, point.current = some k → mutexes' k = mutexes k) : CallOk mutexes' c point := by
  cases point with
  | awaiting k | givingUp k | fenceCheck k | returned k =>
    simpa only [CallOk, heq k rfl] using h
  | releasing k point unknown =>
    cases point <;> simpa only [CallOk, heq k rfl] using h
  | _ => trivial

structure Later (m m' : OwnedMutex N) : Prop where
  grows : Grows m m'
  released : m'.released = m.released
  release : m'.release = m.release

theorem CallOk.later (h : CallOk mutexes c point)
    (hl : ∀ k m, mutexes k = some m → ∃ m', mutexes' k = some m' ∧ Later m m') :
    CallOk mutexes' c point := by
  cases point with
  | awaiting k | givingUp k =>
    obtain ⟨m, hm, hcaller, hreleased, hrelease⟩ := h
    obtain ⟨m', hm', hlater⟩ := hl k m hm
    exact ⟨m', hm', hlater.grows.caller.trans hcaller, hlater.released.trans hreleased,
      hlater.release.trans hrelease⟩
  | fenceCheck k =>
    obtain ⟨m, hm, hcaller, hreleased, hrelease, hout⟩ := h
    obtain ⟨m', hm', hlater⟩ := hl k m hm
    exact ⟨m', hm', hlater.grows.caller.trans hcaller, hlater.released.trans hreleased,
      hlater.release.trans hrelease, hlater.grows.outcome _ hout⟩
  | releasing k point unknown =>
    cases point with
    | asked =>
      obtain ⟨m, hm, hcaller, hreleased, hrelease, hout⟩ := h
      obtain ⟨m', hm', hlater⟩ := hl k m hm
      exact ⟨m', hm', hlater.grows.caller.trans hcaller, hlater.released.trans hreleased,
        hlater.release.trans hrelease, hlater.grows.outcome _ hout⟩
    | marked =>
      obtain ⟨m, hm, hcaller⟩ := h
      obtain ⟨m', hm', hlater⟩ := hl k m hm
      exact ⟨m', hm', hlater.grows.caller.trans hcaller⟩
    | waiting | reported _ =>
      obtain ⟨m, hm, hcaller, hrelease⟩ := h
      obtain ⟨m', hm', hlater⟩ := hl k m hm
      exact ⟨m', hm', hlater.grows.caller.trans hcaller, hlater.release.trans hrelease⟩
  | returned k =>
    obtain ⟨m, hm, hcaller, hout, hreleased⟩ := h
    obtain ⟨m', hm', hlater⟩ := hl k m hm
    refine ⟨m', hm', hlater.grows.caller.trans hcaller, hlater.grows.outcome _ hout, ?_⟩
    rw [hlater.release, hlater.released]
    exact hreleased
  | _ => trivial

theorem ReleaseOk.grows {release : Release} (h : ReleaseOk mutexes calls release)
    (hg : ∀ k m, mutexes k = some m → ∃ m', mutexes' k = some m' ∧ Grows m m') :
    ReleaseOk mutexes' calls release := by
  obtain ⟨m, call, hm, hcall, hpoint, hmarked, hreported⟩ := h
  obtain ⟨m', hm', hgrows⟩ := hg _ m hm
  exact ⟨m', call, hm', hgrows.caller ▸ hcall, hpoint, fun hp => hgrows.released (hmarked hp),
    fun hp => hgrows.confirmed (hreported hp)⟩

theorem LeftOk.grows (h : LeftOk calls k m) (hg : Grows m m') : LeftOk calls k m' := by
  obtain ⟨call, hcall, hleft⟩ := h
  exact ⟨call, hg.caller ▸ hcall, hleft.imp_right (Or.imp_right hg.told)⟩

theorem grows_update (hm : mutexes k = some m) (hg : Grows m m') :
    (∀ j x, mutexes j = some x →
        ∃ x', Function.update mutexes k (some m') j = some x' ∧ Grows x x') ∧
      ∀ j x', Function.update mutexes k (some m') j = some x' →
        ∃ x, mutexes j = some x ∧ Grows x x' := by
  constructor
  · intro j x hj
    by_cases hjk : j = k
    · subst hjk
      cases hm.symm.trans hj
      exact ⟨m', Function.update_self .., hg⟩
    · exact ⟨x, by rw [Function.update_of_ne hjk, hj], .refl x⟩
  · intro j x' hj
    by_cases hjk : j = k
    · subst hjk
      rw [Function.update_self] at hj
      cases hj
      exact ⟨m, hm, hg⟩
    · rw [Function.update_of_ne hjk] at hj
      exact ⟨x', hj, .refl x'⟩

theorem CallersOk.grows (h : CallersOk mutexes calls releases)
    (hg : ∀ k m, mutexes k = some m → ∃ m', mutexes' k = some m' ∧ Grows m m')
    (hback : ∀ k m', mutexes' k = some m' → ∃ m, mutexes k = some m ∧ Grows m m')
    (hcalls : ∀ c call, calls c = some call → CallOk mutexes' c call.point) :
    CallersOk mutexes' calls releases := by
  refine ⟨hcalls, fun r release hr => (h.ofReturned r release hr).grows hg, fun k m' hm' => ?_⟩
  obtain ⟨m, hm, hgrows⟩ := hback k m' hm'
  exact (h.left k m hm).grows hgrows

theorem CallersOk.step (h : CallersOk mutexes calls releases)
    (hg : ∀ k m, mutexes k = some m → ∃ m', mutexes' k = some m' ∧ Grows m m') {call : Call N}
    (hback : ∀ k m', mutexes' k = some m' → (∃ m, mutexes k = some m ∧ Grows m m') ∨
      m'.caller = c ∧ point.current = some k) (hc : calls c = some call)
    (hactive : call.point.isActive = true) (hok : CallOk mutexes' c point)
    (hothers : ∀ c' call', c' ≠ c → calls c' = some call' → CallOk mutexes' c' call'.point)
    (hleft : ∀ k m', mutexes' k = some m' → call.point.current = some k →
      point.current = some k ∨ Told m') :
    CallersOk mutexes' (Function.update calls c (some { call with point := point })) releases := by
  have hother : ∀ c', c' ≠ c →
      Function.update calls c (some { call with point := point }) c' = calls c' :=
    fun c' hne => Function.update_of_ne hne _ _
  refine ⟨fun c' call' hc' => ?_, fun r release hr => ?_, fun k m' hm' => ?_⟩
  · by_cases hne : c' = c
    · subst hne
      rw [Function.update_self] at hc'
      cases hc'
      exact hok
    · rw [hother c' hne] at hc'
      exact hothers c' call' hne hc'
  · obtain ⟨m, call', hm, hcall', hpoint, hmarked, hreported⟩ := (h.ofReturned r release hr).grows hg
    refine ⟨m, call', hm, ?_, hpoint, hmarked, hreported⟩
    rw [hother _ fun heq => ?_]
    · exact hcall'
    · -- the call of a mutex that is released is over
      rw [heq, hc] at hcall'
      cases hcall'
      rcases hpoint with hpoint | hpoint <;> rw [hpoint] at hactive <;> cases hactive
  · rcases hback k m' hm' with ⟨m, hm, hgrows⟩ | ⟨hcaller, hcurrent⟩
    swap
    · exact ⟨{ call with point := point }, by rw [hcaller, Function.update_self], .inl hcurrent⟩
    obtain ⟨call', hcall', hold⟩ := (h.left k m hm).grows hgrows
    by_cases heq : m'.caller = c
    · refine ⟨{ call with point := point }, by rw [heq, Function.update_self], ?_⟩
      rw [heq, hc] at hcall'
      cases hcall'
      rcases hold with hold | hold | hold
      · exact (hleft k m' hm' hold).imp_right .inr
      · rw [hold] at hactive
        cases hactive
      · exact .inr (.inr hold)
    · exact ⟨call', by rw [hother _ heq, hcall'], hold⟩

theorem CallersOk.goTo (h : CallersOk mutexes calls releases) {call : Call N}
    (hc : calls c = some call) (hactive : call.point.isActive = true)
    (hok : CallOk mutexes c point)
    (hleft : ∀ k m, mutexes k = some m → call.point.current = some k →
      point.current = some k ∨ Told m) :
    CallersOk mutexes (Function.update calls c (some { call with point := point })) releases :=
  h.step (fun _ m hm => ⟨m, hm, .refl m⟩) (fun _ m hm => .inl ⟨m, hm, .refl m⟩) hc hactive hok
    (fun c' call' _ hc' => h.knows c' call' hc') hleft

theorem CallersOk.tells (h : CallersOk mutexes calls releases) {call : Call N}
    (hc : calls c = some call) (hactive : call.point.isActive = true)
    (hk : call.point.current = some k) (hm : mutexes k = some m) (hg : Grows m m')
    (hok : CallOk (Function.update mutexes k (some m')) c point)
    (hleft : point.current = some k ∨ Told m') :
    CallersOk (Function.update mutexes k (some m'))
      (Function.update calls c (some { call with point := point })) releases := by
  obtain ⟨hforth, hback⟩ := grows_update hm hg
  refine h.step hforth (fun j x hj => .inl (hback j x hj)) hc hactive hok
    (fun c' call' hne hc' => ?_) fun j x hj hcurrent => ?_
  · apply (h.knows c' call' hc').congr
    intro j hj
    obtain ⟨x, hx, hcaller⟩ := (h.knows c' call' hc').caller hj
    obtain ⟨x', hx', hcaller'⟩ := (h.knows c call hc).caller hk
    apply Function.update_of_ne
    rintro rfl
    cases hx.symm.trans hx'
    exact hne (hcaller.symm.trans hcaller')
  · cases hk.symm.trans hcurrent
    rw [Function.update_self] at hj
    cases hj
    exact hleft

theorem CallersOk.acquire (h : CallersOk mutexes calls releases) {call : Call N}
    (hc : calls c = some call) (hp : call.point = .acquiring) (hk : mutexes k = none) :
    CallersOk (Function.update mutexes k (some (newMutex call.name c)))
      (Function.update calls c (some { call with point := .awaiting k })) releases := by
  have hother : ∀ j m, mutexes j = some m →
      Function.update mutexes k (some (newMutex call.name c)) j = some m := by
    intro j m hj
    rw [Function.update_of_ne, hj]
    rintro rfl
    rw [hk] at hj
    cases hj
  refine h.step (fun j m hj => ⟨m, hother j m hj, .refl m⟩) (fun j m hj => ?_) hc (by rw [hp]; rfl)
    ⟨newMutex call.name c, Function.update_self .., rfl, rfl, rfl⟩ (fun c' call' _ hc' => ?_)
    (fun j m hj hcurrent => ?_)
  · by_cases hjk : j = k
    · subst hjk
      rw [Function.update_self] at hj
      cases hj
      exact .inr ⟨rfl, rfl⟩
    · rw [Function.update_of_ne hjk] at hj
      exact .inl ⟨m, hj, .refl m⟩
  · apply (h.knows c' call' hc').congr
    intro j hj
    obtain ⟨m, hm, -⟩ := (h.knows c' call' hc').caller hj
    rw [hother j m hm, hm]
  · rw [hp] at hcurrent
    cases hcurrent

theorem CallersOk.call (h : CallersOk mutexes calls releases) (hc : calls c = none) (name : N) :
    CallersOk mutexes (Function.update calls c (some ⟨name, .acquiring⟩)) releases := by
  have hother : ∀ c' call', calls c' = some call' →
      Function.update calls c (some ⟨name, .acquiring⟩) c' = some call' := by
    intro c' call' hc'
    rw [Function.update_of_ne, hc']
    rintro rfl
    rw [hc] at hc'
    cases hc'
  refine ⟨fun c' call' hc' => ?_, fun r release hr => ?_, fun k m hm => ?_⟩
  · by_cases hne : c' = c
    · subst hne
      rw [Function.update_self] at hc'
      cases hc'
      trivial
    · rw [Function.update_of_ne hne] at hc'
      exact h.knows c' call' hc'
  · obtain ⟨m, call', hm, hcall', hrest⟩ := h.ofReturned r release hr
    exact ⟨m, call', hm, hother _ _ hcall', hrest⟩
  · obtain ⟨call', hcall', hleft⟩ := h.left k m hm
    exact ⟨call', hother _ _ hcall', hleft⟩

/-- A `release` of a mutex that was returned begins. -/
theorem CallersOk.release (h : CallersOk mutexes calls releases) {call : Call N}
    (hm : mutexes k = some m) (hcall : calls m.caller = some call) (hp : call.point = .returned k)
    :
    CallersOk mutexes calls (Function.update releases r (some ⟨k, .asked⟩)) := by
  refine ⟨h.knows, fun r' release hr => ?_, h.left⟩
  by_cases hne : r' = r
  · subst hne
    rw [Function.update_self] at hr
    cases hr
    exact ⟨m, call, hm, hcall, .inl hp, (fun hn => by cases hn), (fun hn => by cases hn)⟩
  · rw [Function.update_of_ne hne] at hr
    exact h.ofReturned r' release hr

theorem CallersOk.releaseStep (h : CallersOk mutexes calls releases) {release : Release}
    (hr : releases r = some release) (hm : mutexes release.mutex = some m) {point' : ReleasePoint}
    (hs : Releases m release.point m' point') :
    CallersOk (Function.update mutexes release.mutex (some m')) calls
      (Function.update releases r (some { release with point := point' })) := by
  have htells := hs.tells_of
  obtain ⟨hforth, hback⟩ := grows_update hm htells.grows
  obtain ⟨m₀, call, hm₀, hcall, hover, hmarked, hreported⟩ := h.ofReturned r release hr
  cases hm.symm.trans hm₀
  have hknows : ∀ c call', calls c = some call' →
      CallOk (Function.update mutexes release.mutex (some m')) c call'.point := by
    intro c call' hc
    by_cases hcurrent : call'.point.current = some release.mutex
    · obtain ⟨x, hx, hcaller⟩ := (h.knows c call' hc).caller hcurrent
      cases hm.symm.trans hx
      subst hcaller
      cases hcall.symm.trans hc
      rcases hover with hp | hp
      · have hold := h.knows _ call hc
        rw [hp] at hold ⊢
        obtain ⟨x, hx, -, hout, hreleased⟩ := hold
        cases hm.symm.trans hx
        refine ⟨m', Function.update_self .., htells.caller, htells.outcome.trans hout, ?_⟩
        generalize release.point = point at hs hmarked
        cases hs with
        | marks => exact fun _ => rfl
        | tells => exact fun _ => hmarked rfl
        | _ => exact hreleased
      · rw [hp] at hcurrent
        cases hcurrent
    · apply (h.knows c call' hc).congr
      intro j hj
      apply Function.update_of_ne
      rintro rfl
      exact hcurrent hj
  have hgrown := h.grows hforth hback hknows
  refine ⟨hgrown.knows, fun r' release' hr' => ?_, hgrown.left⟩
  by_cases hne : r' = r
  · subst hne
    rw [Function.update_self] at hr'
    cases hr'
    refine ⟨m', call, Function.update_self .., htells.caller ▸ hcall, hover, ?_, ?_⟩
    · intro hp
      generalize release.point = point at hs
      simp only at hp
      subst hp
      cases hs
      rfl
    · intro hp
      generalize release.point = point at hs
      simp only at hp
      generalize hnew : point' = new at hs hp
      cases hs with
      | again | inTime => exact ReleasePoint.reported.inj hp
      | _ => cases hp
  · rw [Function.update_of_ne hne] at hr'
    exact hgrown.ofReturned r' release' hr'

theorem CallersOk.ends (h : CallersOk mutexes calls releases)
    (hmutexes : ∀ k, mutexes' k = mutexes k ∨ ∃ m m', mutexes k = some m ∧ mutexes' k = some m' ∧
      Later m m')
    (hcalls : ∀ c, calls' c = calls c ∨ ∃ call, calls c = some call ∧
      calls' c = some { call with point := .dead })
    (hreleases : ∀ r release, releases' r = some release → releases r = some release) :
    CallersOk mutexes' calls' releases' := by
  have hlater : ∀ k m, mutexes k = some m → ∃ m', mutexes' k = some m' ∧ Later m m' := by
    intro k m hm
    rcases hmutexes k with heq | ⟨x, x', hx, hx', hl⟩
    · exact ⟨m, heq.trans hm, .refl m, rfl, rfl⟩
    · cases hx.symm.trans hm
      exact ⟨x', hx', hl⟩
  have hcall : ∀ c call, calls c = some call → ∃ call', calls' c = some call' ∧
      (call' = call ∨ call'.point = .dead) := by
    intro c call hc
    rcases hcalls c with heq | ⟨x, hx, hx'⟩
    · exact ⟨call, heq.trans hc, .inl rfl⟩
    · exact ⟨_, hx', .inr rfl⟩
  refine ⟨fun c call' hc' => ?_, fun r release hr => ?_, fun k m' hm' => ?_⟩
  · rcases hcalls c with heq | ⟨x, hx, hx'⟩
    · exact (h.knows c call' (heq.symm.trans hc')).later hlater
    · cases hx'.symm.trans hc'
      trivial
  · obtain ⟨m, call, hm, hc, hover, hrest⟩ := (h.ofReturned r release (hreleases r release hr)).grows
      fun k m hm => (hlater k m hm).imp fun m' hm' => ⟨hm'.1, hm'.2.grows⟩
    obtain ⟨call', hc', rfl | hdead⟩ := hcall _ call hc
    · exact ⟨m, _, hm, hc', hover, hrest⟩
    · exact ⟨m, call', hm, hc', .inr hdead, hrest⟩
  · have hold : ∃ m, mutexes k = some m ∧ Grows m m' := by
      rcases hmutexes k with heq | ⟨x, x', hx, hx', hl⟩
      · exact ⟨m', heq.symm.trans hm', .refl m'⟩
      · cases hx'.symm.trans hm'
        exact ⟨x, hx, hl.grows⟩
    obtain ⟨m, hm, hgrows⟩ := hold
    obtain ⟨call, hc, hleft⟩ := (h.left k m hm).grows hgrows
    obtain ⟨call', hc', rfl | hdead⟩ := hcall _ call hc
    · exact ⟨_, hc', hleft⟩
    · exact ⟨call', hc', .inr (.inl hdead)⟩

end
end QronosAgent.Ownership

import QronosAgent.Ownership.Callers

/-! What is kept of a runtime and an updater: the mutexes that were returned are owned, and none of
them is the runtime's while an update that has acquired them has its fence. -/
namespace QronosAgent.Ownership
open Lib

section
variable {N : Type} [DecidableEq N] (names : Names N) (s : Sys N)

/-- A mutex that was returned and not released, whose holder thread lives. -/
def Sys.Live (k : ℕ) (m : OwnedMutex N) : Prop :=
  s.mutexes k = some m ∧ m.released = false ∧ m.point ≠ .ended ∧
    ∃ call, s.calls m.caller = some call ∧ call.point = .returned k

/-- The fence of a launch is open, in its own process or in its installer. -/
def Sys.Fenced (u : ℕ) : Prop :=
  (names.fence, .updater u) ∈ s.kernel.handles ∨
    ∃ i, s.installers i = some u ∧ (names.fence, .installer i) ∈ s.kernel.handles

structure ThreadsOk (kernel : Kernel N) (mutexes : ℕ → Option (OwnedMutex N))
    (launches : ℕ → Option (Launch N)) : Prop where
  ok : ∀ k m, mutexes k = some m → MutexOk m
  holder : ∀ k m, mutexes k = some m → HolderOk kernel k m
  owner : ∀ name k, kernel.owner name = some (.mutex k) → ∃ m, mutexes k = some m ∧ m.point ≠ .ended
  launch : ∀ u l, launches u = some l → LaunchOk names kernel u l

structure Inv : Prop where
  threads : ThreadsOk names s.kernel s.mutexes s.launches
  callers : CallersOk s.mutexes s.calls s.releases
  apart : ∀ u l, s.launches u = some l → l.acquired = true → s.Fenced names u →
    ∀ k m, s.Live k m → m.name ∉ names.runtime

end

section
variable {N : Type} [DecidableEq N] {names : Names N} {process : Party → ℕ} {s s' : Sys N}

variable {k u c : ℕ} {m m' : OwnedMutex N} {a : Native} {gone : Party → Bool} {call : Call N}
  {point : CallPoint} {move : Move N} {l l' : Launch N}

/-- What was returned and not released holds the mutex. -/
theorem Inv.live (h : Inv names s) (hl : s.Live k m) :
    s.kernel.Holds m.name (.mutex k) := by
  obtain ⟨hm, hreleased, hended, call, hcall, hp⟩ := hl
  have hok := h.threads.ok k m hm
  have hknown := h.callers.knows m.caller call hcall
  rw [hp] at hknown
  obtain ⟨x, hx, -, hout, hrelease⟩ := hknown
  obtain rfl := Option.some.inj (hx.symm.trans hm)
  have hholding : x.point = .holding := by
    rcases (hok.owned hout).2 with hholding | htold | hover
    · exact hholding
    · rw [hrelease htold] at hreleased
      cases hreleased
    · exact absurd hover hended
  exact (h.threads.holder k x hm).owns (by rw [hholding]; rfl)

variable {kernel kernel' : Kernel N} {mutexes : ℕ → Option (OwnedMutex N)}
variable {launches : ℕ → Option (Launch N)}

theorem ThreadsOk.tells (h : ThreadsOk names kernel mutexes launches) (hm : mutexes k = some m)
    (ht : Tells m m') :
    ThreadsOk names kernel (Function.update mutexes k (some m')) launches := by
  have hcases : ∀ j x, Function.update mutexes k (some m') j = some x →
      j = k ∧ x = m' ∨ mutexes j = some x := by
    intro j x hj
    by_cases hjk : j = k
    · subst hjk
      rw [Function.update_self] at hj
      exact .inl ⟨rfl, (Option.some.inj hj).symm⟩
    · rw [Function.update_of_ne hjk] at hj
      exact .inr hj
  refine ⟨fun j x hj => ?_, fun j x hj => ?_, fun name j howner => ?_, h.launch⟩
  · rcases hcases j x hj with ⟨rfl, rfl⟩ | hj
    · exact ht.ok (h.ok _ m hm)
    · exact h.ok j x hj
  · rcases hcases j x hj with ⟨rfl, rfl⟩ | hj
    · exact ht.holder (h.holder _ m hm)
    · exact h.holder j x hj
  · obtain ⟨x, hx, hended⟩ := h.owner name j howner
    by_cases hjk : j = k
    · subst hjk
      cases hm.symm.trans hx
      exact ⟨m', Function.update_self .., ht.point ▸ hended⟩
    · exact ⟨x, by rw [Function.update_of_ne hjk, hx], hended⟩

theorem ThreadsOk.hold (h : ThreadsOk names kernel mutexes launches) (hm : mutexes k = some m)
    (hs : m.hold kernel k a = some (m', kernel')) :
    ThreadsOk names kernel' (Function.update mutexes k (some m')) launches := by
  have hacts := held_acts hs
  have hne : ∀ j, j ≠ k → ¬ Party.mutex j = .mutex k := fun j hjk heq => hjk (Party.mutex.inj heq)
  refine ⟨fun j x hj => ?_, fun j x hj => ?_, fun name j howner => ?_, fun u l hl => ?_⟩
  · by_cases hjk : j = k
    · subst hjk
      rw [Function.update_self] at hj
      cases hj
      exact (held (h.ok j m hm) hs).1
    · rw [Function.update_of_ne hjk] at hj
      exact h.ok j x hj
  · by_cases hjk : j = k
    · subst hjk
      rw [Function.update_self] at hj
      cases hj
      exact (h.holder j m hm).held hs
    · rw [Function.update_of_ne hjk] at hj
      exact (h.holder j x hj).acts hacts (hne j hjk)
  · by_cases hjk : j = k
    · subst hjk
      exact ⟨m', Function.update_self .., fun hended => held_ended hs hended name howner⟩
    · obtain ⟨x, hx, hended⟩ := h.owner name j (hacts.owner name _ (hne j hjk) howner)
      exact ⟨x, by rw [Function.update_of_ne hjk, hx], hended⟩
  · exact (h.launch u l hl).acts hacts fun heq => by cases heq

theorem ThreadsOk.acts (h : ThreadsOk names kernel mutexes launches) {t : Party}
    (ha : NamedMutexes.Acts (· = t) kernel kernel') (ht : ∀ k, t ≠ .mutex k)
    {launches' : ℕ → Option (Launch N)}
    (hlaunch : ∀ u l, launches' u = some l → LaunchOk names kernel' u l) :
    ThreadsOk names kernel' mutexes launches' :=
  ⟨h.ok, fun k m hm => (h.holder k m hm).acts ha fun heq => ht k heq.symm,
    fun name k howner => h.owner name k (ha.owner name _ (fun heq => ht k heq.symm) howner), hlaunch⟩

theorem ThreadsOk.acquire (h : ThreadsOk names kernel mutexes launches) (name : N) (c : ℕ)
    (hk : mutexes k = none) :
    ThreadsOk names kernel (Function.update mutexes k (some (newMutex name c))) launches := by
  refine ⟨fun j x hj => ?_, fun j x hj => ?_, fun n j howner => ?_, h.launch⟩
  · by_cases hjk : j = k
    · subst hjk
      rw [Function.update_self] at hj
      cases hj
      exact newMutex_ok name c
    · rw [Function.update_of_ne hjk] at hj
      exact h.ok j x hj
  · by_cases hjk : j = k
    · subst hjk
      rw [Function.update_self] at hj
      cases hj
      exact .none rfl rfl rfl
    · rw [Function.update_of_ne hjk] at hj
      exact h.holder j x hj
  · obtain ⟨x, hx, hended⟩ := h.owner n j howner
    refine ⟨x, ?_, hended⟩
    rw [Function.update_of_ne, hx]
    rintro rfl
    rw [hk] at hx
    cases hx

theorem MutexOk.ends (h : MutexOk m) : MutexOk { m with point := .ended } where
  early := fun hn => by cases hn
  granting := fun hn => by cases hn
  owned := fun ho => ⟨(h.owned ho).1, .inr (.inr rfl)⟩
  refused := fun _ _ _ => rfl
  told := fun hn => by cases hn
  unfreed := fun hn => by cases hn
  freed := h.freed
  closing := fun hn => by cases hn
  confirmed := fun hc => ⟨(h.confirmed hc).1, (h.confirmed hc).2.1, rfl⟩

theorem ThreadsOk.ends (h : ThreadsOk names s.kernel s.mutexes s.launches) (whole : Bool)
    (ha : NamedMutexes.Acts (gone · = true) s.kernel kernel')
    (howner : ∀ name t, kernel'.owner name = some t → gone t = false) :
    ThreadsOk names kernel' (s.endThreads gone whole).mutexes (s.endThreads gone whole).launches := by
  refine ⟨fun k m' hm' => ?_, fun k m' hm' => ?_, fun name k hname => ?_, fun u l' hl' => ?_⟩
  · obtain ⟨m, hm, rfl⟩ := Option.map_eq_some_iff.mp hm'
    split
    · exact (h.ok k m hm).ends
    · exact h.ok k m hm
  · obtain ⟨m, hm, rfl⟩ := Option.map_eq_some_iff.mp hm'
    split
    · exact .none rfl rfl rfl
    · rename_i hgone
      exact (h.holder k m hm).acts ha hgone
  · have hgone := howner name _ hname
    obtain ⟨m, hm, hended⟩ := h.owner name k (ha.owner name _ (by rw [hgone]; simp) hname)
    refine ⟨m, ?_, hended⟩
    simp only [Sys.endThreads, hm, Option.map_some, hgone, Bool.false_eq_true, if_false]
  · obtain ⟨l, hl, rfl⟩ := Option.map_eq_some_iff.mp hl'
    split
    · exact .done (by simp) (by simp)
    · rename_i hgone
      exact (h.launch u l hl).acts ha hgone

structure Ages (m m' : OwnedMutex N) : Prop where
  name : m'.name = m.name
  caller : m'.caller = m.caller
  released : m.released = true → m'.released = true
  ended : m.point = .ended → m'.point = .ended

theorem Ages.refl (m : OwnedMutex N) : Ages m m := ⟨rfl, rfl, fun h => h, fun h => h⟩

theorem Held.ages (h : Held m m') : Ages m m' := by
  refine ⟨h.name, h.caller, fun hr => h.released.trans hr, fun hended => ?_⟩
  have hrank := h.rank
  rw [hended] at hrank
  exact absurd hrank (Nat.not_lt_zero _)

theorem Tells.ages (h : Tells m m') : Ages m m' :=
  ⟨h.name, h.caller, h.released, fun hended => h.point.trans hended⟩

theorem Sys.Live.back (hl : s'.Live k m')
    (hm : ∀ m', s'.mutexes k = some m' → ∃ m, s.mutexes k = some m ∧ Ages m m')
    (hcalls : ∀ c call, s'.calls c = some call → call.point = .returned k →
      s.calls c = some call) : ∃ m, s.Live k m ∧ m.name = m'.name := by
  obtain ⟨hm', hreleased, hended, call, hcall, hp⟩ := hl
  obtain ⟨m, hold, hages⟩ := hm m' hm'
  refine ⟨m, ⟨hold, ?_, fun h => hended (hages.ended h), call, ?_, hp⟩, hages.name.symm⟩
  · cases hr : m.released with
    | false => rfl
    | true =>
      rw [hages.released hr] at hreleased
      cases hreleased
  · rw [← hages.caller]
    exact hcalls _ call hcall hp

theorem Inv.apart_of (h : Inv names s)
    (hlaunch : ∀ u l', s'.launches u = some l' → l'.acquired = true → s'.Fenced names u →
      ∃ l, s.launches u = some l ∧ l.acquired = true ∧ s.Fenced names u)
    (hm : ∀ k m', s'.mutexes k = some m' → ∃ m, s.mutexes k = some m ∧ Ages m m')
    (hcalls : ∀ c call k, s'.calls c = some call → call.point = .returned k →
      s.calls c = some call) :
    ∀ u l, s'.launches u = some l → l.acquired = true → s'.Fenced names u →
      ∀ k m, s'.Live k m → m.name ∉ names.runtime := by
  intro u l' hl' hacquired' hfenced' k m' hlive'
  obtain ⟨l, hl, hacquired, hfenced⟩ := hlaunch u l' hl' hacquired' hfenced'
  obtain ⟨m, hlive, hname⟩ := hlive'.back (hm k) fun c call hc hp => hcalls c call k hc hp
  rw [← hname]
  exact h.apart u l hl hacquired hfenced k m hlive

theorem Sys.Fenced.back (hf : s'.Fenced names u)
    (hupdater : (names.fence, .updater u) ∈ s'.kernel.handles →
      (names.fence, .updater u) ∈ s.kernel.handles)
    (hinstallers : ∀ i, s'.installers i = some u → s.installers i = some u)
    (hinstaller : ∀ i, (names.fence, .installer i) ∈ s'.kernel.handles →
      (names.fence, .installer i) ∈ s.kernel.handles) : s.Fenced names u := by
  rcases hf with hf | ⟨i, hi, hf⟩
  · exact .inl (hupdater hf)
  · exact .inr ⟨i, hinstallers i hi, hinstaller i hf⟩

theorem not_returned {calls : ℕ → Option (Call N)} (hpoint : ∀ k, point ≠ .returned k) :
    ∀ c' call' k,
      Function.update calls c (some { call with point := point }) c' = some call' →
        call'.point = .returned k → calls c' = some call' := by
  intro c' call' k hc' hp
  by_cases hne : c' = c
  · subst hne
    rw [Function.update_self] at hc'
    cases hc'
    exact absurd hp (hpoint k)
  · rw [Function.update_of_ne hne] at hc'
    exact hc'

/-- A call goes on, and nothing else changes. -/
theorem Inv.goTo (h : Inv names s) (hc : s.calls c = some call)
    (hactive : call.point.isActive = true) (hpoint : ∀ k, point ≠ .returned k)
    (hok : CallOk s.mutexes c point)
    (hleft : ∀ k m, s.mutexes k = some m → call.point.current = some k →
      point.current = some k ∨ Told m) : Inv names (s.goTo c call point) where
  threads := h.threads
  callers := h.callers.goTo hc hactive hok hleft
  apart := h.apart_of (fun _ l hl hacquired hf => ⟨l, hl, hacquired, hf⟩)
    (fun _ m hm => ⟨m, hm, .refl m⟩) (not_returned hpoint)

theorem Inv.tells (h : Inv names s) (hc : s.calls c = some call)
    (hactive : call.point.isActive = true) (hk : call.point.current = some k)
    (hm : s.mutexes k = some m) (ht : Tells m m') (hpoint : ∀ k, point ≠ .returned k)
    (hok : CallOk (s.setMutex k m').mutexes c point) (hleft : point.current = some k ∨ Told m') :
    Inv names ((s.setMutex k m').goTo c call point) where
  threads := h.threads.tells hm ht
  callers := h.callers.tells hc hactive hk hm ht.grows hok hleft
  apart := by
    refine h.apart_of (fun _ l hl hacquired hf => ⟨l, hl, hacquired, hf⟩) (fun j x hj => ?_)
      (not_returned hpoint)
    have hj' : Function.update s.mutexes k (some m') j = some x := hj
    by_cases hjk : j = k
    · subst hjk
      rw [Function.update_self] at hj'
      cases hj'
      exact ⟨m, hm, ht.ages⟩
    · rw [Function.update_of_ne hjk] at hj'
      exact ⟨x, hj', .refl x⟩

theorem Inv.hear (h : Inv names s) (hc : s.calls c = some call) (hp : call.point = .awaiting k)
    (hm : s.mutexes k = some m) (hs : s.hear c call k m = some s') : Inv names s' := by
  obtain ⟨outcome, hout, rfl⟩ := Option.map_eq_some_iff.mp hs
  have hknown := h.callers.knows c call hc
  rw [hp] at hknown
  obtain ⟨x, hx, hcaller, hreleased, hrelease⟩ := hknown
  obtain rfl := Option.some.inj (hx.symm.trans hm)
  have hactive : call.point.isActive = true := by rw [hp]; rfl
  have htold : outcome ≠ .owned → ∀ j y, s.mutexes j = some y → call.point.current = some j →
      Told y := by
    intro hne j y hj hcurrent
    rw [hp] at hcurrent
    cases hcurrent
    obtain rfl := Option.some.inj (hx.symm.trans hj)
    exact .inr ⟨outcome, hout, hne⟩
  cases outcome with
  | owned =>
    refine h.goTo hc hactive (by simp)
      ⟨x, hm, hcaller, hreleased, hrelease, hout⟩ fun j y _ hcurrent => .inl ?_
    rw [hp] at hcurrent
    exact hcurrent
  | busy =>
    exact h.goTo hc hactive (by simp) trivial
      fun j y hj hcurrent => .inr (htold (by decide) j y hj hcurrent)
  | error =>
    exact h.goTo hc hactive (by simp) trivial
      fun j y hj hcurrent => .inr (htold (by decide) j y hj hcurrent)

theorem Inv.checkFence (h : Inv names s) {answered : Bool} (hc : s.calls c = some call)
    (hs : s.checkFence c call (if answered then some (s.kernel.exists? names.fence) else none) =
      some s') : Inv names s' := by
  unfold Sys.checkFence at hs
  generalize hanswer : (if answered then some (s.kernel.exists? names.fence) else none) = answer at hs
  split at hs
  · rename_i hp
    cases hs
    have hactive : call.point.isActive = true := by rw [hp]; rfl
    have hnone : ∀ (point : CallPoint) k m, s.mutexes k = some m → call.point.current = some k →
        point.current = some k ∨ Told m := by
      intro point k m _ hcurrent
      rw [hp] at hcurrent
      cases hcurrent
    split <;>
      exact h.goTo hc hactive (by simp) trivial (hnone _)
  · rename_i k hp
    cases hs
    have hactive : call.point.isActive = true := by rw [hp]; rfl
    have hknown := h.callers.knows c call hc
    rw [hp] at hknown
    have hcurrent : ∀ point : CallPoint, point.current = some k → ∀ j m, s.mutexes j = some m →
        call.point.current = some j → point.current = some j ∨ Told m := by
      intro point hpoint j m _ hj
      rw [hp] at hj
      cases hj
      exact .inl hpoint
    split
    · exact h.goTo hc hactive (by simp) hknown (hcurrent _ rfl)
    · exact h.goTo hc hactive (by simp) hknown (hcurrent _ rfl)
    · -- no launch has its fence
      have hfree : s.kernel.exists? names.fence = false := by
        cases answered with
        | false => cases hanswer
        | true => exact Option.some.inj hanswer
      obtain ⟨m, hm, hcaller, -, hrelease, hout⟩ := hknown
      refine ⟨h.threads, h.callers.goTo hc hactive ⟨m, hm, hcaller, hout, fun hr => ?_⟩
        (hcurrent _ rfl), fun u l _ _ hf => ?_⟩
      · rw [hrelease] at hr
        cases hr
      · have hexists : s.kernel.exists? names.fence = true := by
          rcases hf with hf | ⟨i, -, hf⟩
          · exact NamedMutexes.exists?_iff.mpr ⟨_, hf⟩
          · exact NamedMutexes.exists?_iff.mpr ⟨_, hf⟩
        rw [hfree] at hexists
        cases hexists
  · cases hs

theorem Inv.callRelease (h : Inv names s) {late : Bool} (hc : s.calls c = some call)
    (hs : s.callRelease c call late = some s') : Inv names s' := by
  unfold Sys.callRelease at hs
  have hknown := h.callers.knows c call hc
  split at hs
  · rename_i k confirmed unknown hp
    cases hs
    rw [hp] at hknown
    obtain ⟨m, hm, -, hrelease⟩ := hknown
    have htold : ∀ (point : CallPoint) j y, s.mutexes j = some y → call.point.current = some j →
        point.current = some j ∨ Told y := by
      intro point j y hj hcurrent
      rw [hp] at hcurrent
      cases hcurrent
      cases hm.symm.trans hj
      exact .inr (.inl hrelease)
    split <;>
      exact h.goTo hc (by rw [hp]; rfl) (by simp) trivial (htold _)
  · rename_i k point unknown hnot hp
    obtain ⟨m, hm, hs⟩ := Option.bind_eq_some_iff.mp hs
    obtain ⟨⟨m', point'⟩, hstep, rfl⟩ := Option.map_eq_some_iff.mp hs
    have hreleases := releases_of hstep
    have htells := hreleases.tells_of
    have hself : Function.update s.mutexes k (some m') k = some m' := Function.update_self ..
    refine h.tells hc (by rw [hp]; rfl) (by rw [hp]; rfl) hm htells (by simp) ?_
      (.inl rfl)
    rw [hp] at hknown
    cases hreleases with
    | again hcond =>
      obtain ⟨x, hx, hcaller, hreleased, hrelease, hout⟩ := hknown
      cases hm.symm.trans hx
      rcases hcond with hcond | hcond
      · rw [((h.threads.ok k m hm).owned hout).1] at hcond
        cases hcond
      · rw [hreleased] at hcond
        cases hcond
    | marks =>
      obtain ⟨x, hx, hcaller, -⟩ := hknown
      cases hm.symm.trans hx
      exact ⟨_, hself, hcaller⟩
    | tells =>
      obtain ⟨x, hx, hcaller⟩ := hknown
      cases hm.symm.trans hx
      exact ⟨_, hself, hcaller, rfl⟩
    | inTime | late =>
      obtain ⟨x, hx, hcaller, hrelease⟩ := hknown
      cases hm.symm.trans hx
      exact ⟨_, hself, hcaller, hrelease⟩
  · cases hs

theorem Inv.callStep (h : Inv names s) (hc : s.calls c = some call)
    (hs : s.callStep names process c call move = some s') :
    Inv names s' := by
  have hknown := h.callers.knows c call hc
  cases move with
  | acquire _ k started =>
    simp only [Sys.callStep] at hs
    obtain ⟨hp, hs⟩ := Option.ite_none_right_eq_some.mp hs
    have hnone : ∀ (point : CallPoint) j m, s.mutexes j = some m → call.point.current = some j →
        point.current = some j ∨ Told m := by
      intro point j m _ hcurrent
      rw [hp] at hcurrent
      cases hcurrent
    split at hs
    · cases hs
      exact h.goTo hc (by rw [hp]; rfl) (by simp) trivial (hnone _)
    · obtain ⟨hfree, ⟨⟩⟩ := Option.ite_none_right_eq_some.mp hs
      refine ⟨h.threads.acquire _ _ hfree.1, h.callers.acquire hc hp hfree.1, ?_⟩
      intro u l hl hacquired hf j m hlive
      have hne : j ≠ k := by
        rintro rfl
        obtain ⟨hm, -, -, call', hcall', hp'⟩ := hlive
        have hm' : Function.update s.mutexes j (some (newMutex call.name c)) j = some m := hm
        rw [Function.update_self] at hm'
        cases hm'
        have hcall'' : Function.update s.calls c (some { call with point := .awaiting j }) c =
          some call' := hcall'
        rw [Function.update_self] at hcall''
        cases hcall''
        cases hp'
      have hback : ∃ m₀, s.Live j m₀ ∧ m₀.name = m.name := by
        apply hlive.back
        · intro m' hm'
          have hm'' : Function.update s.mutexes k (some (newMutex call.name c)) j = some m' := hm'
          rw [Function.update_of_ne hne] at hm''
          exact ⟨m', hm'', .refl m'⟩
        · exact fun c' call' hc' hp' => not_returned (by simp) c' call' j hc' hp'
      obtain ⟨m₀, hlive₀, hname⟩ := hback
      rw [← hname]
      exact h.apart u l hl hacquired hf j m₀ hlive₀
  | hear _ =>
    simp only [Sys.callStep] at hs
    split at hs
    · rename_i k hp
      obtain ⟨m, hm, hs⟩ := Option.bind_eq_some_iff.mp hs
      exact h.hear hc hp hm hs
    · cases hs
  | timeOut _ =>
    simp only [Sys.callStep] at hs
    split at hs
    · rename_i k hp
      obtain ⟨m, hm, hs⟩ := Option.bind_eq_some_iff.mp hs
      split at hs
      · cases hs
        rw [hp] at hknown
        refine h.goTo hc (by rw [hp]; rfl) (by simp) hknown fun j _ _ hcurrent => ?_
        rw [hp] at hcurrent
        exact .inl hcurrent
      · cases hs
    · cases hs
  | giveUp _ =>
    simp only [Sys.callStep] at hs
    split at hs
    · rename_i k hp
      obtain ⟨m, hm, rfl⟩ := Option.map_eq_some_iff.mp hs
      exact h.tells hc (by rw [hp]; rfl) (by rw [hp]; rfl) hm
        ⟨rfl, rfl, rfl, rfl, rfl, rfl, rfl, rfl, fun hr => hr, fun _ => rfl⟩ (by simp)
        trivial (.inr (.inl rfl))
    · cases hs
  | checkFence _ answered => exact h.checkFence hc hs
  | callRelease _ late => exact h.callRelease hc hs
  | deadline _ passed =>
    simp only [Sys.callStep] at hs
    obtain ⟨hp, ⟨⟩⟩ := Option.ite_none_right_eq_some.mp hs
    have hnone : ∀ (point : CallPoint) j m, s.mutexes j = some m → call.point.current = some j →
        point.current = some j ∨ Told m := by
      intro point j m _ hcurrent
      rw [hp] at hcurrent
      cases hcurrent
    split <;>
      exact h.goTo hc (by rw [hp]; rfl) (by simp) trivial (hnone _)
  | _ => cases hs

theorem Inv.hold (h : Inv names s) (hm : s.mutexes k = some m)
    (hs : m.hold s.kernel k a = some (m', kernel')) :
    Inv names { s.setMutex k m' with kernel := kernel' } := by
  have hheld := (held (h.threads.ok k m hm) hs).2
  have hacts := held_acts hs
  obtain ⟨hforth, hback⟩ := grows_update hm hheld.grows
  refine ⟨h.threads.hold hm hs, h.callers.grows hforth hback fun c call hc => ?_, ?_⟩
  · apply (h.callers.knows c call hc).later
    intro j x hj
    by_cases hjk : j = k
    · subst hjk
      cases hm.symm.trans hj
      exact ⟨m', Function.update_self .., hheld.grows, hheld.released, hheld.release⟩
    · refine ⟨x, ?_, .refl x, rfl, rfl⟩
      show Function.update s.mutexes k (some m') j = some x
      rw [Function.update_of_ne hjk, hj]
  · refine h.apart_of (fun u l hl hacquired hf => ⟨l, hl, hacquired, ?_⟩) (fun j x hj => ?_)
      (fun _ _ _ hc _ => hc)
    · apply hf.back
      · exact (hacts.handles _ _ fun heq => by cases heq).mp
      · exact fun _ hi => hi
      · exact fun i => (hacts.handles _ _ fun heq => by cases heq).mp
    · have hj' : Function.update s.mutexes k (some m') j = some x := hj
      by_cases hjk : j = k
      · subst hjk
        rw [Function.update_self] at hj'
        cases hj'
        exact ⟨m, hm, hheld.ages⟩
      · rw [Function.update_of_ne hjk] at hj'
        exact ⟨x, hj', .refl x⟩

theorem Inv.launchMain (h : Inv names s) (hl : s.launches u = some l)
    (hpoint : l'.point = l.point) (howned : l'.owned = l.owned)
    (hacquired : l'.acquired = l.acquired) : Inv names (s.setLaunch u l') := by
  have hcases : ∀ v x, Function.update s.launches u (some l') v = some x →
      v = u ∧ x = l' ∨ s.launches v = some x := by
    intro v x hv
    by_cases hvu : v = u
    · subst hvu
      rw [Function.update_self] at hv
      exact .inl ⟨rfl, (Option.some.inj hv).symm⟩
    · rw [Function.update_of_ne hvu] at hv
      exact .inr hv
  refine ⟨⟨h.threads.ok, h.threads.holder, h.threads.owner, fun v x hv => ?_⟩, h.callers, ?_⟩
  · rcases hcases v x hv with ⟨rfl, rfl⟩ | hv
    · constructor
      · rw [hpoint, howned, hacquired]
        exact (h.threads.launch _ l hl).working
      · rw [hpoint, howned, hacquired]
        exact (h.threads.launch _ l hl).waits
    · exact h.threads.launch v x hv
  · refine h.apart_of (fun v x hv hx hf => ?_) (fun _ m hm => ⟨m, hm, .refl m⟩)
      (fun _ _ _ hc _ => hc)
    rcases hcases v x hv with ⟨rfl, rfl⟩ | hv
    · exact ⟨l, hl, hacquired ▸ hx, hf⟩
    · exact ⟨x, hv, hx, hf⟩

theorem Inv.launchHold (h : Inv names s) (hl : s.launches u = some l)
    (hs : l.hold s.kernel u a = some (l', kernel')) :
    Inv names { s.setLaunch u l' with kernel := kernel' } := by
  obtain ⟨hok, hacts, hacquires⟩ := launch_held (h.threads.launch u l hl) hs
  refine ⟨h.threads.acts hacts (fun k hn => by cases hn) fun v x hv => ?_, h.callers, ?_⟩
  · have hv' : Function.update s.launches u (some l') v = some x := hv
    by_cases hvu : v = u
    · subst hvu
      rw [Function.update_self] at hv'
      cases hv'
      exact hok
    · rw [Function.update_of_ne hvu] at hv'
      exact (h.threads.launch v x hv').acts hacts fun heq => hvu (Party.updater.inj heq)
  · intro v x hv hx hf k m hlive
    have hv' : Function.update s.launches u (some l') v = some x := hv
    have hinstaller : ∀ i, (names.fence, .installer i) ∈ kernel'.handles →
        (names.fence, .installer i) ∈ s.kernel.handles :=
      fun i => (hacts.handles _ _ fun heq => by cases heq).mp
    by_cases hvu : v = u
    · subst hvu
      rw [Function.update_self] at hv'
      cases hv'
      rcases hacquires hx with hold | ⟨-, hholds⟩
      · exact h.apart v l hl hold (hf.back (launch_handles (h.threads.launch v l hl) hold hs)
          (fun _ hi => hi) hinstaller) k m hlive
      · -- it owns every name now, so nothing that is live has one of them
        intro hname
        have hunique := (hholds _ hname).unique (h.live hlive)
        cases hunique
    · rw [Function.update_of_ne hvu] at hv'
      exact h.apart v x hv' hx (hf.back
        (hacts.handles _ _ fun heq => hvu (Party.updater.inj heq)).mp (fun _ hi => hi) hinstaller) k m
        hlive

theorem Inv.handOver (h : Inv names s) {i : ℕ}
    (hhandle : (names.fence, .updater u) ∈ s.kernel.handles) :
    Inv names { s with
      kernel := s.kernel.create names.fence (.installer i)
      installers := Function.update s.installers i (some u) } := by
  have hacts := NamedMutexes.acts_create (m := s.kernel) names.fence (Party.installer i)
  have hlaunch : ∀ v x, s.launches v = some x → LaunchOk names
      (s.kernel.create names.fence (.installer i)) v x :=
    fun v x hv => (h.threads.launch v x hv).acts hacts fun heq => by cases heq
  refine ⟨h.threads.acts hacts (fun k hn => by cases hn) hlaunch, h.callers, ?_⟩
  refine h.apart_of (fun v x hv hx hf => ⟨x, hv, hx, ?_⟩) (fun _ m hm => ⟨m, hm, .refl m⟩)
    (fun _ _ _ hc _ => hc)
  rcases hf with hf | ⟨j, hj, hf⟩
  · exact .inl ((hacts.handles _ _ fun heq => by cases heq).mp hf)
  · have hj' : Function.update s.installers i (some u) j = some v := hj
    by_cases hji : j = i
    · subst hji
      rw [Function.update_self] at hj'
      cases hj'
      exact .inl hhandle
    · rw [Function.update_of_ne hji] at hj'
      exact .inr ⟨j, hj', (hacts.handles _ _ fun heq => hji (Party.installer.inj heq)).mp hf⟩

theorem Inv.launchStep (h : Inv names s) (hl : s.launches u = some l)
    (hs : s.launchStep names u l move = some s') : Inv names s' := by
  cases move with
  | launchHold _ a =>
    obtain ⟨⟨l', kernel'⟩, hstep, rfl⟩ := Option.map_eq_some_iff.mp hs
    exact h.launchHold hl hstep
  | hearLaunch _ =>
    simp only [Sys.launchStep] at hs
    split at hs
    · obtain ⟨holds, -, rfl⟩ := Option.map_eq_some_iff.mp hs
      exact h.launchMain hl rfl rfl rfl
    · cases hs
  | launchTimeOut _ =>
    simp only [Sys.launchStep] at hs
    split at hs
    · cases hs
      exact h.launchMain hl rfl rfl rfl
    · cases hs
  | launchRelease _ =>
    simp only [Sys.launchStep] at hs
    split at hs
    · cases hs
      exact h.launchMain hl rfl rfl rfl
    · cases hs
  | handOver _ i =>
    simp only [Sys.launchStep] at hs
    obtain ⟨hcond, ⟨⟩⟩ := Option.ite_none_right_eq_some.mp hs
    exact h.handOver hcond.2.2
  | _ => cases hs

theorem Inv.launch (h : Inv names s) (hu : s.launches u = none) :
    Inv names (s.setLaunch u (newLaunch names)) := by
  have hcases : ∀ v x, Function.update s.launches u (some (newLaunch names)) v = some x →
      x = newLaunch names ∨ s.launches v = some x := by
    intro v x hv
    by_cases hvu : v = u
    · subst hvu
      rw [Function.update_self] at hv
      exact .inl (Option.some.inj hv).symm
    · rw [Function.update_of_ne hvu] at hv
      exact .inr hv
  refine ⟨⟨h.threads.ok, h.threads.holder, h.threads.owner, fun v x hv => ?_⟩, h.callers, ?_⟩
  · rcases hcases v x hv with rfl | hv
    · refine ⟨fun left hn => ?_, fun _ _ hn => by cases hn⟩
      cases hn
      exact ⟨rfl, rfl, fun _ hn => by cases hn⟩
    · exact h.threads.launch v x hv
  · refine h.apart_of (fun v x hv hx hf => ?_) (fun _ m hm => ⟨m, hm, .refl m⟩)
      (fun _ _ _ hc _ => hc)
    rcases hcases v x hv with rfl | hv
    · cases hx
    · exact ⟨x, hv, hx, hf⟩

theorem Inv.ends (h : Inv names s) (whole : Bool)
    (ha : NamedMutexes.Acts (gone · = true) s.kernel kernel')
    (howner : ∀ name t, kernel'.owner name = some t → gone t = false)
    (hhandles : ∀ name t, (name, t) ∈ kernel'.handles → (name, t) ∈ s.kernel.handles) :
    Inv names { s.endThreads gone whole with kernel := kernel' } := by
  have hmutexes : ∀ k, (s.endThreads gone whole).mutexes k = s.mutexes k ∨
      ∃ m, s.mutexes k = some m ∧
        (s.endThreads gone whole).mutexes k = some { m with point := .ended } := by
    intro k
    cases hm : s.mutexes k with
    | none => exact .inl (by simp [Sys.endThreads, hm])
    | some m =>
      cases hgone : gone (.mutex k) with
      | false => exact .inl (by simp [Sys.endThreads, hm, hgone])
      | true => exact .inr ⟨m, rfl, by simp [Sys.endThreads, hm, hgone]⟩
  have hcalls : ∀ c, (s.endThreads gone whole).calls c = s.calls c ∨
      ∃ call, s.calls c = some call ∧
        (s.endThreads gone whole).calls c = some { call with point := .dead } := by
    intro c
    cases hc : s.calls c with
    | none => exact .inl (by simp [Sys.endThreads, hc])
    | some call =>
      cases hgone : gone (.call c) with
      | false => exact .inl (by simp [Sys.endThreads, hc, hgone])
      | true => exact .inr ⟨call, rfl, by simp [Sys.endThreads, hc, hgone]⟩
  have hlater : ∀ k, (s.endThreads gone whole).mutexes k = s.mutexes k ∨ ∃ m m',
      s.mutexes k = some m ∧ (s.endThreads gone whole).mutexes k = some m' ∧ Later m m' := by
    intro k
    rcases hmutexes k with heq | ⟨m, hm, hm'⟩
    · exact .inl heq
    · exact .inr ⟨m, _, hm, hm', ⟨rfl, fun _ ho => ho, fun hr => hr, fun hr => hr, fun hc => hc⟩,
        rfl, rfl⟩
  refine ⟨h.threads.ends whole ha howner, h.callers.ends hlater hcalls fun r release hr => ?_, ?_⟩
  · have hr' : (if gone (.release r) then none else s.releases r) = some release := hr
    split at hr'
    · cases hr'
    · exact hr'
  · refine h.apart_of (fun u l' hl' hx hf => ?_) (fun k m' hm' => ?_) (fun c call k hc hp => ?_)
    · obtain ⟨l, hl, rfl⟩ := Option.map_eq_some_iff.mp hl'
      refine ⟨l, hl, ?_, hf.back (hhandles _ _) (fun i hi => ?_) fun i => hhandles _ _⟩
      · split at hx <;> exact hx
      · have hi' : (if gone (.installer i) then none else s.installers i) = some u := hi
        split at hi'
        · cases hi'
        · exact hi'
    · have hm'' : (s.endThreads gone whole).mutexes k = some m' := hm'
      rcases hmutexes k with heq | ⟨m, hm, hnew⟩
      · exact ⟨m', heq.symm.trans hm'', .refl m'⟩
      · cases hnew.symm.trans hm''
        exact ⟨m, hm, rfl, rfl, fun hr => hr, fun _ => rfl⟩
    · have hc' : (s.endThreads gone whole).calls c = some call := hc
      rcases hcalls c with heq | ⟨call₀, -, hnew⟩
      · exact heq.symm.trans hc'
      · cases hnew.symm.trans hc'
        cases hp

end
end QronosAgent.Ownership

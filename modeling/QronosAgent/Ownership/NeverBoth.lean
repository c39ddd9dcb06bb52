import QronosAgent.Ownership.Kept

/-! A runtime and an updater never both proceed, whatever happens in between. -/
namespace QronosAgent.Ownership
open Lib

section
variable {N : Type} [DecidableEq N] (names : Names N) (process : Party → ℕ) (s : Sys N)

def Move.isHold (k : ℕ) : Move N → Bool
  | .hold j _ => j = k
  | _ => false

end

section
variable {N : Type} [DecidableEq N] {names : Names N} {process : Party → ℕ} {s s' : Sys N}

theorem Inv.start (h : (ownershipMachine names process).start s) : Inv names s := by
  obtain ⟨-, howner, hmutexes, hcalls, hreleases, hlaunches, -⟩ := h
  have hnone : ∀ {α : Type} {f : ℕ → Option α} {i : ℕ} {x : α}, (∀ i, f i = none) →
      f i = some x → False := by
    intro α f i x hf hx
    rw [hf i] at hx
    cases hx
  constructor
  · constructor
    · exact fun k m hm => (hnone hmutexes hm).elim
    · exact fun k m hm => (hnone hmutexes hm).elim
    · intro name k hname
      rw [howner name] at hname
      cases hname
    · exact fun u l hl => (hnone hlaunches hl).elim
  · constructor
    · exact fun c call hc => (hnone hcalls hc).elim
    · exact fun r release hr => (hnone hreleases hr).elim
    · exact fun k m hm => (hnone hmutexes hm).elim
  · exact fun u l hl => (hnone hlaunches hl).elim

variable {c k : ℕ} {m : OwnedMutex N} {move : Move N}

theorem Inv.call (h : Inv names s) (hc : s.calls c = none) (name : N) :
    Inv names (s.setCall c ⟨name, .acquiring⟩) := by
  refine ⟨h.threads, h.callers.call hc name, ?_⟩
  refine h.apart_of (fun _ l hl hacquired hf => ⟨l, hl, hacquired, hf⟩)
    (fun _ m hm => ⟨m, hm, .refl m⟩) fun c' call' k hc' hp => ?_
  by_cases hne : c' = c
  · subst hne
    have hself : Function.update s.calls c' (some ⟨name, .acquiring⟩) c' = some call' := hc'
    rw [Function.update_self] at hself
    cases hself
    cases hp
  · have hother : Function.update s.calls c (some ⟨name, .acquiring⟩) c' = some call' := hc'
    rw [Function.update_of_ne hne] at hother
    exact hother

/-- A step of a `release` on another thread. -/
theorem Inv.releaseStep (h : Inv names s) {r : ℕ} {release : Release} {m' : OwnedMutex N}
    {point' : ReleasePoint} (hr : s.releases r = some release)
    (hm : s.mutexes release.mutex = some m) (hs : Releases m release.point m' point') :
    Inv names ((s.setMutex release.mutex m').setRelease r { release with point := point' }) := by
  have htells := hs.tells_of
  refine ⟨h.threads.tells hm htells, h.callers.releaseStep hr hm hs, ?_⟩
  refine h.apart_of (fun _ l hl hacquired hf => ⟨l, hl, hacquired, hf⟩) (fun j x hj => ?_)
    (fun _ _ _ hc _ => hc)
  have hj' : Function.update s.mutexes release.mutex (some m') j = some x := hj
  by_cases hjk : j = release.mutex
  · subst hjk
    rw [Function.update_self] at hj'
    cases hj'
    exact ⟨m, hm, htells.ages⟩
  · rw [Function.update_of_ne hjk] at hj'
    exact ⟨x, hj', .refl x⟩

theorem Inv.step (h : Inv names s) (hs : s.step names process move = some s') :
    Inv names s' := by
  cases move with
  | call c name =>
    simp only [Sys.step] at hs
    obtain ⟨hc, ⟨⟩⟩ := Option.ite_none_right_eq_some.mp hs
    exact h.call hc name
  | acquire | hear | timeOut | giveUp | checkFence | callRelease | deadline =>
    obtain ⟨call, hc, hs⟩ := Option.bind_eq_some_iff.mp hs
    exact h.callStep hc hs
  | hold k a =>
    obtain ⟨m, hm, hs⟩ := Option.bind_eq_some_iff.mp hs
    obtain ⟨⟨m', kernel'⟩, hhold, rfl⟩ := Option.map_eq_some_iff.mp hs
    exact h.hold hm hhold
  | release r k =>
    obtain ⟨m, hm, hs⟩ := Option.bind_eq_some_iff.mp hs
    obtain ⟨call, hc, hs⟩ := Option.bind_eq_some_iff.mp hs
    obtain ⟨hcond, ⟨⟩⟩ := Option.ite_none_right_eq_some.mp hs
    exact ⟨h.threads, h.callers.release hm hc hcond.1, h.apart⟩
  | releaseStep r late =>
    obtain ⟨release, hr, hs⟩ := Option.bind_eq_some_iff.mp hs
    obtain ⟨m, hm, hs⟩ := Option.bind_eq_some_iff.mp hs
    obtain ⟨⟨m', point'⟩, hstep, rfl⟩ := Option.map_eq_some_iff.mp hs
    exact h.releaseStep hr hm (releases_of hstep)
  | launch u =>
    simp only [Sys.step] at hs
    obtain ⟨hu, ⟨⟩⟩ := Option.ite_none_right_eq_some.mp hs
    exact h.launch hu
  | launchHold | hearLaunch | launchTimeOut | launchRelease | handOver =>
    obtain ⟨l, hl, hs⟩ := Option.bind_eq_some_iff.mp hs
    exact h.launchStep hl hs
  | threadEnds t =>
    have hends : Inv names
        { s.endThreads (· = t) false with kernel := s.kernel.abandon (· = t) } :=
      h.ends false (NamedMutexes.acts_abandon _) (fun _ _ ho => (NamedMutexes.owner_abandon ho).2)
        fun _ _ hh => hh
    cases t with
    | mutex | updater =>
      cases hs
      exact hends
    | _ => cases hs
  | processEnds p =>
    cases hs
    exact h.ends true (NamedMutexes.acts_leave _) (fun _ _ ho => (NamedMutexes.owner_leave ho).2)
      fun _ _ hh => (NamedMutexes.handles_leave hh).1

theorem inv_of_reach (hr : (ownershipMachine names process).Reachable s) : Inv names s := by
  apply Machine.Reach.invariant (I := Inv names) (fun _ => Inv.start) ?_ hr
  intro s move s' h _ hs
  exact h.step hs

/-! How close a holder thread is to its end. -/

/-- A call leaves every holder thread where it is. -/
theorem callStep_point {call : Call N} (hs : s.callStep names process c call move = some s')
    (hm : s.mutexes k = some m) : ∃ m', s'.mutexes k = some m' ∧ m'.point = m.point := by
  have hset : ∀ {j : ℕ} {x x' : OwnedMutex N}, s.mutexes j = some x → x'.point = x.point →
      ∃ m', (s.setMutex j x').mutexes k = some m' ∧ m'.point = m.point := by
    intro j x x' hj hpoint
    by_cases hkj : k = j
    · subst hkj
      cases hm.symm.trans hj
      exact ⟨x', Function.update_self .., hpoint⟩
    · refine ⟨m, ?_, rfl⟩
      show Function.update s.mutexes j (some x') k = some m
      rw [Function.update_of_ne hkj, hm]
  cases move with
  | acquire _ j started =>
    simp only [Sys.callStep] at hs
    split at hs
    · split at hs
      · cases hs
        exact ⟨m, hm, rfl⟩
      · obtain ⟨hfree, ⟨⟩⟩ := Option.ite_none_right_eq_some.mp hs
        refine ⟨m, ?_, rfl⟩
        show Function.update s.mutexes j (some (newMutex call.name c)) k = some m
        rw [Function.update_of_ne, hm]
        rintro rfl
        rw [hfree.1] at hm
        cases hm
    · cases hs
  | hear _ =>
    simp only [Sys.callStep] at hs
    split at hs
    · obtain ⟨x, -, hs⟩ := Option.bind_eq_some_iff.mp hs
      obtain ⟨outcome, -, rfl⟩ := Option.map_eq_some_iff.mp hs
      exact ⟨m, hm, rfl⟩
    · cases hs
  | timeOut _ =>
    simp only [Sys.callStep] at hs
    split at hs
    · obtain ⟨x, -, hs⟩ := Option.bind_eq_some_iff.mp hs
      split at hs
      · cases hs
        exact ⟨m, hm, rfl⟩
      · cases hs
    · cases hs
  | giveUp _ =>
    simp only [Sys.callStep] at hs
    split at hs
    · obtain ⟨x, hx, rfl⟩ := Option.map_eq_some_iff.mp hs
      exact hset hx rfl
    · cases hs
  | checkFence _ answered =>
    simp only [Sys.callStep, Sys.checkFence] at hs
    split at hs
    · cases hs
      exact ⟨m, hm, rfl⟩
    · cases hs
      exact ⟨m, hm, rfl⟩
    · cases hs
  | callRelease _ late =>
    simp only [Sys.callStep, Sys.callRelease] at hs
    split at hs
    · cases hs
      exact ⟨m, hm, rfl⟩
    · obtain ⟨x, hx, hs⟩ := Option.bind_eq_some_iff.mp hs
      obtain ⟨⟨x', point'⟩, hstep, rfl⟩ := Option.map_eq_some_iff.mp hs
      exact hset hx (releases_of hstep).tells_of.point
    · cases hs
  | deadline _ passed =>
    simp only [Sys.callStep] at hs
    split at hs
    · cases hs
      exact ⟨m, hm, rfl⟩
    · cases hs
  | _ => cases hs

theorem launchStep_mutexes {u : ℕ} {l : Launch N} (hs : s.launchStep names u l move = some s') :
    s'.mutexes = s.mutexes := by
  cases move with
  | launchHold _ a =>
    obtain ⟨r, -, rfl⟩ := Option.map_eq_some_iff.mp hs
    rfl
  | hearLaunch _ =>
    simp only [Sys.launchStep] at hs
    split at hs
    · obtain ⟨holds, -, rfl⟩ := Option.map_eq_some_iff.mp hs
      rfl
    · cases hs
  | launchTimeOut _ | launchRelease _ | handOver _ _ =>
    simp only [Sys.launchStep] at hs
    split at hs
    · cases hs
      rfl
    · cases hs
  | _ => cases hs

/-- No step takes a holder thread back, and its own steps bring it closer to its end. -/
theorem Inv.rank (h : Inv names s) (hs : s.step names process move = some s')
    (hm : s.mutexes k = some m) : ∃ m', s'.mutexes k = some m' ∧
      m'.point.rank + (if move.isHold k then 1 else 0) ≤ m.point.rank := by
  have hstays : (∃ m', s'.mutexes k = some m' ∧ m'.point = m.point) → move.isHold k = false →
      ∃ m', s'.mutexes k = some m' ∧
        m'.point.rank + (if move.isHold k then 1 else 0) ≤ m.point.rank := by
    rintro ⟨m', hm', hpoint⟩ hmove
    refine ⟨m', hm', ?_⟩
    rw [hmove, hpoint]
    exact Nat.le_refl _
  have hended : ∀ (gone : Party → Bool) (whole : Bool), ∃ m',
      (s.endThreads gone whole).mutexes k = some m' ∧ m'.point.rank ≤ m.point.rank := by
    intro gone whole
    simp only [Sys.endThreads, hm, Option.map_some]
    refine ⟨_, rfl, ?_⟩
    split
    · exact Nat.zero_le _
    · exact Nat.le_refl _
  cases move with
  | call c name =>
    simp only [Sys.step] at hs
    split at hs
    · cases hs
      exact hstays ⟨m, hm, rfl⟩ rfl
    · cases hs
  | acquire | hear | timeOut | giveUp | checkFence | callRelease | deadline =>
    obtain ⟨call, hc, hs⟩ := Option.bind_eq_some_iff.mp hs
    exact hstays (callStep_point hs hm) rfl
  | hold j a =>
    obtain ⟨x, hx, hs⟩ := Option.bind_eq_some_iff.mp hs
    obtain ⟨⟨x', kernel'⟩, hhold, rfl⟩ := Option.map_eq_some_iff.mp hs
    by_cases hjk : k = j
    · subst hjk
      cases hm.symm.trans hx
      refine ⟨x', Function.update_self .., ?_⟩
      have hrank := (held (h.threads.ok k m hm) hhold).2.rank
      simp only [Move.isHold, decide_true, if_true]
      omega
    · refine hstays ⟨m, ?_, rfl⟩ (decide_eq_false fun heq => hjk heq.symm)
      show Function.update s.mutexes j (some x') k = some m
      rw [Function.update_of_ne hjk, hm]
  | release r j =>
    obtain ⟨x, hx, hs⟩ := Option.bind_eq_some_iff.mp hs
    obtain ⟨call, hc, hs⟩ := Option.bind_eq_some_iff.mp hs
    split at hs
    · cases hs
      exact hstays ⟨m, hm, rfl⟩ rfl
    · cases hs
  | releaseStep r late =>
    obtain ⟨release, hr, hs⟩ := Option.bind_eq_some_iff.mp hs
    obtain ⟨x, hx, hs⟩ := Option.bind_eq_some_iff.mp hs
    obtain ⟨⟨x', point'⟩, hstep, rfl⟩ := Option.map_eq_some_iff.mp hs
    apply hstays ?_ rfl
    by_cases hkj : k = release.mutex
    · subst hkj
      cases hm.symm.trans hx
      exact ⟨x', Function.update_self .., (releases_of hstep).tells_of.point⟩
    · refine ⟨m, ?_, rfl⟩
      show Function.update s.mutexes release.mutex (some x') k = some m
      rw [Function.update_of_ne hkj, hm]
  | launch u =>
    simp only [Sys.step] at hs
    split at hs
    · cases hs
      exact hstays ⟨m, hm, rfl⟩ rfl
    · cases hs
  | launchHold | hearLaunch | launchTimeOut | launchRelease | handOver =>
    obtain ⟨l, hl, hs⟩ := Option.bind_eq_some_iff.mp hs
    exact hstays ⟨m, by rw [launchStep_mutexes hs, hm], rfl⟩ rfl
  | threadEnds t =>
    obtain ⟨m', hm', hrank⟩ := hended (· = t) false
    cases t with
    | mutex | updater =>
      cases hs
      exact ⟨m', hm', hrank⟩
    | _ => cases hs
  | processEnds p =>
    cases hs
    obtain ⟨m', hm', hrank⟩ := hended (process · = p) true
    exact ⟨m', hm', hrank⟩

end

/-- The supervisor owns its name, once an update was refused. -/
def sampleNames : Names String where
  fence := "Local\\Qronos.UpdateInProgress.v1"
  runtime := ["Local\\QronosAgentRuntimeBridge", "Local\\QronosSupervisor"]

def sampleProcess : Party → ℕ
  | .updater _ => 1
  | .installer _ => 2
  | _ => 0

def sampleSys : Sys String where
  kernel := ⟨[], fun _ => none, fun _ => false⟩
  mutexes _ := none
  calls _ := none
  releases _ := none
  launches _ := none
  installers _ := none

def sampleMoves : List (Move String) :=
  [.call 0 "Local\\QronosSupervisor", .acquire 0 0 true, .hold 0 .works, .launch 0,
    .launchHold 0 .works, .hold 0 .works, .hold 0 .works, .hold 0 .works, .hear 0,
    .launchHold 0 .fails, .launchHold 0 .works, .launchHold 0 .works, .launchHold 0 .works,
    .hearLaunch 0, .launchHold 0 .works, .checkFence 0 true]

end QronosAgent.Ownership

import QronosAgent.Lib.Machine
import QronosAgent.Security.Effects

/-! Runs of one monitor after another over one state file: what a containment calls, how long it
holds, and when it becomes a quarantine. -/
namespace QronosAgent.Security
open Lib

inductive Found where
  | asLeft
  | unreadable
  | tooDeep

inductive Op where
  | register (hook : Hook) (callback : CallbackId)
  | observe (r : Reading) (signal : SignalKind) (principal : Principal)
  | reset (r : Reading) (caller : PyStr)
  | restart (found : Found)

/-- The running monitor and its file, with what a run keeps of its past. -/
structure Sys where
  monitor : Option SecurityMonitor
  file : StateFile
  lastSaved : Bool
  /-- The file holds the latches of the last monitor. -/
  recorded : Bool
  /-- Contained or quarantined, and no console reset since. -/
  latched : Bool
  containments : List Seconds

/-- `_save` raised. -/
def Outcome.saveFailed {α : Type} (o : Outcome α) : Bool :=
  match o.result with
  | .error .disk => true
  | _ => false

namespace Sys

def afterObserve (s : Sys) (m : SecurityMonitor) (r : Reading) (o : Outcome Decision) : Sys where
  monitor := some o.monitor
  file := (o.saved.map .document).getD s.file
  lastSaved := o.saved.isSome || (s.lastSaved && !o.saveFailed)
  recorded := o.saved.isSome || (s.recorded && o.monitor.contained == m.contained)
  latched := s.latched || o.monitor.contained || o.monitor.quarantined
  containments :=
    if m.contained = false ∧ o.monitor.contained = true then s.containments ++ [r.wall]
    else s.containments

def afterReset (s : Sys) (o : Outcome Unit) : Sys :=
  match o.result with
  | .error (.refused _) => s
  | _ =>
    { s with
      monitor := some o.monitor
      file := (o.saved.map .document).getD s.file
      lastSaved := o.saved.isSome
      recorded := o.saved.isSome
      latched := false }

def isLatched (m : Option SecurityMonitor) : Bool :=
  (m.map fun m => m.contained || m.quarantined).getD false

def afterRestart (py3 : Conversions) (s : Sys) : Found → Sys
  | .asLeft =>
    let monitor := SecurityMonitor.load py3 s.file
    { s with
      monitor
      recorded := true
      latched := (s.latched && s.lastSaved) || isLatched monitor }
  | .unreadable =>
    { s with monitor := SecurityMonitor.load py3 .unreadable, recorded := false, latched := true }
  | .tooDeep => { s with monitor := SecurityMonitor.load py3 .tooDeep }

def step (cfg : MonitorConfig) (py3 : Conversions) (s : Sys) : Op → Option Sys
  | .register hook callback =>
    s.monitor.map fun m => { s with monitor := some (m.register hook callback) }
  | .observe r signal principal =>
    s.monitor.map fun m => s.afterObserve m r (m.observe cfg r signal principal)
  | .reset r caller => s.monitor.map fun m => s.afterReset (m.reset r caller)
  | .restart found => some (s.afterRestart py3 found)

end Sys

/-- A containment of this call can be logged and saved. -/
def Enforceable (cfg : MonitorConfig) (m : SecurityMonitor) (r : Reading) (signal : SignalKind)
    (principal : Principal) : Prop :=
  m.containsOn cfg r.now signal principal = true →
    principal.describe.Encodable ∧ r.diskTakes = true

/-- The steps under which a latch outlives its process: what contains is saved, and a restart that
can read the file follows no monitor that could not and has saved nothing since. -/
def LatchSaved (cfg : MonitorConfig) (s : Sys) : Op → Prop
  | .observe r signal principal => ∀ m, s.monitor = some m → Enforceable cfg m r signal principal
  | .restart .asLeft => s.lastSaved = true → s.recorded = true
  | _ => True

/-- The steps under which the history is the whole history: the wall clock does not go back from
one containment to the next, and a restart finds the file of a last save that succeeded. -/
def HistoryKept (cfg : MonitorConfig) (s : Sys) : Op → Prop
  | .observe r signal principal => ∀ m, s.monitor = some m →
    m.containsOn cfg r.now signal principal = true →
      principal.describe.Encodable ∧ ∀ t ∈ s.containments, t ≤ r.wall
  | .restart .asLeft => s.recorded = true
  | .restart .unreadable => False
  | _ => True

namespace SecurityMonitor

variable {cfg : MonitorConfig} {m n : SecurityMonitor} {r : Reading} {signal : SignalKind}
  {principal : Principal}

theorem contained_of_latches (h : m.latches = n.latches) :
    m.contained = n.contained ∧ m.quarantined = n.quarantined ∧ m.hooks = n.hooks ∧
      m.ready = n.ready ∧ m.containHistory = n.containHistory := by
  simp only [latches, Latches.mk.injEq] at h
  obtain ⟨h₁, _, h₂, _, h₃, h₄, h₅⟩ := h
  exact ⟨h₁, h₂, h₄, h₅, h₃⟩

/-- What a containing signal leaves, whether or not the disk takes the save. -/
theorem contain_spec (hc : m.containsOn cfg r.now signal principal = true)
    (he : principal.describe.Encodable) :
    ∃ n, (m.observe cfg r signal principal).monitor = n ∧ n.contained = true ∧
      n.hooks = m.hooks ∧ n.ready = m.ready ∧ n.containHistory = m.historyAt r.wall ∧
      (n.quarantined = true ↔ quarantineAfter ≤ (m.historyAt r.wall).length) ∧
      (r.diskTakes = true →
        (m.observe cfg r signal principal).saved = some n.payload ∧
        (m.observe cfg r signal principal).calls =
          m.callbacks (escalation cfg signal (m.historyAt r.wall).length)) ∧
      (r.diskTakes = false →
        (m.observe cfg r signal principal).saved = none ∧
        (m.observe cfg r signal principal).calls = []) := by
  obtain ⟨_, _, _, _, _, hm, hq⟩ := containsOn_iff.mp hc
  obtain ⟨k, hk, hobs⟩ := observe_of_containsOn hc
  obtain ⟨hkc, hkq, hkh, hkr, hkhist⟩ := contained_of_latches hk
  have hist : k.historyAt r.wall = m.historyAt r.wall := by rw [historyAt, historyAt, hkhist]
  obtain ⟨response, n, hlatch, _, hcont, hhooks, hready, hhist, hquar⟩ :=
    latch_encodable cfg k signal he r.wall
  have hnot : (k.contained || k.quarantined) = false := by rw [hkc, hkq, hm, hq]; rfl
  rw [hobs, contain, if_neg (by simp [hnot]), hlatch]
  dsimp only
  rw [hist] at hhist hquar ⊢
  have hcalls : n.callbacks (escalation cfg signal (m.historyAt r.wall).length) =
      m.callbacks (escalation cfg signal (m.historyAt r.wall).length) := by
    rw [callbacks, callbacks, hhooks, hkh]
  refine ⟨n, ?_, hcont, hhooks.trans hkh, hready.trans hkr, hhist, ?_, ?_, ?_⟩
  · split <;> rfl
  · rw [hquar, hkq, hq]
    simp
  · intro hd
    rw [if_pos hd]
    exact ⟨rfl, hcalls⟩
  · intro hd
    rw [if_neg (by simp [hd])]
    exact ⟨rfl, rfl⟩

/-- The latch a call set, if it was not set before. -/
def turned (before after : Bool) : Prop := before = false ∧ after = true

theorem load_ready {py3 : Conversions} {file : StateFile} (h : load py3 file = some m) :
    m.ready = true := by
  unfold load restore at h
  cases file with
  | absent => rw [← Option.some.inj h]; rfl
  | unreadable => rw [← Option.some.inj h]; rfl
  | tooDeep => contradiction
  | document v =>
    cases v <;> dsimp only at h <;> first
      | (rw [← Option.some.inj h]; rfl)
      | skip
    split at h
    · split at h
      · rw [← Option.some.inj h]; rfl
      · rw [← Option.some.inj h]; rfl
      · contradiction
    · rw [← Option.some.inj h]; rfl

/-- The monitor after a save: its successor is latched as it is. -/
theorem load_payload_latched (py3 : Conversions) (h : load py3 (.document n.payload) = some m) :
    m.contained = n.contained ∧ m.quarantined = n.quarantined ∧
      m.containHistory = lastContainments n.containHistory := by
  rw [load_payload] at h
  rw [← Option.some.inj h]
  exact ⟨rfl, rfl, rfl⟩

end SecurityMonitor

open SecurityMonitor

structure LatchKept (py3 : Conversions) (s : Sys) : Prop where
  live : ∀ m, s.monitor = some m →
    (s.latched = true ↔ (m.contained || m.quarantined) = true) ∧ m.ready = true
  filed : s.recorded = true → s.latched = true →
    ∀ m, load py3 s.file = some m → (m.contained || m.quarantined) = true

section Latch
variable {cfg : MonitorConfig} {py3 : Conversions} {s t : Sys} {m : SecurityMonitor}

theorem LatchKept.observe (h : LatchKept py3 s) (hm : s.monitor = some m) {r : Reading}
    {signal : SignalKind} {principal : Principal} (hok : Enforceable cfg m r signal principal) :
    LatchKept py3 (s.afterObserve m r (m.observe cfg r signal principal)) := by
  obtain ⟨hlive, hready⟩ := h.live m hm
  cases hc : m.containsOn cfg r.now signal principal with
  | false =>
    obtain ⟨hl, _, hsaved, _⟩ := observe_of_not_containsOn hc
    obtain ⟨hcont, hquar, _, hrd, _⟩ := contained_of_latches hl
    have hlatched : (s.latched || (m.contained || m.quarantined)) = s.latched := by
      rw [Bool.eq_iff_iff, Bool.or_eq_true, hlive, or_self]
    constructor
    · intro n hn
      obtain rfl := Option.some.inj hn
      simp only [Sys.afterObserve, hcont, hquar, Bool.or_assoc, hlatched]
      exact ⟨hlive, hrd.trans hready⟩
    · simp only [Sys.afterObserve, hsaved, hcont, hquar, Bool.or_assoc, hlatched, beq_self_eq_true,
        Bool.and_true, Option.isSome_none, Bool.false_or, Option.map_none, Option.getD_none]
      exact h.filed
  | true =>
    obtain ⟨he, hd⟩ := hok hc
    obtain ⟨n, hn, hcont, _, hrd, _, _, hsaved, _⟩ := contain_spec hc he
    have hsaved := (hsaved hd).1
    constructor
    · intro n' hn'
      obtain rfl : n = n' := hn.symm.trans (Option.some.inj hn')
      simp only [Sys.afterObserve, hn, hcont, Bool.or_true, Bool.true_or, true_and]
      exact hrd.trans hready
    · intro _ _ n' hn'
      simp only [Sys.afterObserve, hsaved, Option.map_some, Option.getD_some] at hn'
      rw [(load_payload_latched py3 hn').1, hcont]
      rfl

theorem LatchKept.reset (h : LatchKept py3 s) (hm : s.monitor = some m) (r : Reading)
    (caller : PyStr) : LatchKept py3 (s.afterReset (m.reset r caller)) := by
  obtain ⟨_, hready⟩ := h.live m hm
  unfold SecurityMonitor.reset
  by_cases hc : caller ≠ py "console"
  · rw [if_pos hc]
    exact h
  · rw [if_neg hc]
    dsimp only
    by_cases hd : r.diskTakes = true
    · rw [if_pos hd]
      refine ⟨fun n hn => ?_, fun _ hl => ?_⟩
      · rw [← Option.some.inj hn]
        exact ⟨by simp [Sys.afterReset], hready⟩
      · simp [Sys.afterReset] at hl
    · rw [if_neg hd]
      refine ⟨fun n hn => ?_, fun _ hl => ?_⟩
      · rw [← Option.some.inj hn]
        exact ⟨by simp [Sys.afterReset], hready⟩
      · simp [Sys.afterReset] at hl

theorem LatchKept.restart (h : LatchKept py3 s) (cfg : MonitorConfig) (found : Found)
    (hok : LatchSaved cfg s (.restart found)) : LatchKept py3 (s.afterRestart py3 found) := by
  cases found with
  | asLeft =>
    -- What was latched and saved is read back; anything else is latched as the file says.
    have hback : ∀ m, load py3 s.file = some m →
        ((s.latched && s.lastSaved) || Sys.isLatched (load py3 s.file)) = true →
        (m.contained || m.quarantined) = true := by
      intro m hm hl
      rw [hm, Bool.or_eq_true, Bool.and_eq_true] at hl
      obtain ⟨hl, hs⟩ | hl := hl
      · exact h.filed (hok hs) hl m hm
      · exact hl
    refine ⟨fun m hm => ⟨⟨hback m hm, fun hl => ?_⟩, load_ready hm⟩, fun _ hl m hm => hback m hm hl⟩
    have hm : load py3 s.file = some m := hm
    simp only [Sys.afterRestart, Sys.isLatched, hm, Option.map_some, Option.getD_some, hl,
      Bool.or_true]
  | unreadable =>
    refine ⟨fun m hm => ?_, fun hr => by simp [Sys.afterRestart] at hr⟩
    rw [← Option.some.inj hm]
    exact ⟨by simp [Sys.afterRestart, SecurityMonitor.unknown], rfl⟩
  | tooDeep => exact ⟨fun m hm => by simp [Sys.afterRestart, load] at hm, h.filed⟩

end Latch

/-- `kept` is what is left of the containments `all`: either everything that was dropped is out of
the window of the last one, or enough is left to quarantine. -/
def Counts (all kept : List Seconds) : Prop :=
  ∃ dropped, all = dropped ++ kept ∧
    (quarantineAfter ≤ kept.length ∨
      ∀ t ∈ dropped, ∀ last ∈ all.getLast?, quarantineWindow ≤ last - t)

/-- How many of the containments are within the window of one at `wall`. -/
def recent (all : List Seconds) (wall : Seconds) : ℕ :=
  (all.filter fun t => wall - t < quarantineWindow).length

section History
variable {all kept : List Seconds} {wall : Seconds}

/-- In a sorted list what fails an upward closed test comes before what meets it. -/
theorem filter_not_append_filter {p : Seconds → Bool} (hp : ∀ x y, x ≤ y → p x = true → p y = true)
    {l : List Seconds} (hl : l.Pairwise (· ≤ ·)) :
    l.filter (fun t => !p t) ++ l.filter p = l := by
  induction l with
  | nil => rfl
  | cons x l ih =>
    rw [List.pairwise_cons] at hl
    cases hx : p x with
    | false =>
      rw [List.filter_cons_of_pos (by simp [hx]), List.filter_cons_of_neg (by simp [hx]),
        List.cons_append, ih hl.2]
    | true =>
      have hall : ∀ y ∈ l, p y = true := fun y hy => hp x y (hl.1 y hy) hx
      have hnone : l.filter (fun t => !p t) = [] := by
        rw [List.filter_eq_nil_iff]
        intro y hy
        simp [hall y hy]
      rw [List.filter_cons_of_neg (by simp [hx]), List.filter_cons_of_pos hx, hnone,
        List.nil_append, List.filter_eq_self.mpr hall]

theorem Counts.lastContainments (h : Counts all kept) : Counts all (lastContainments kept) := by
  obtain ⟨dropped, hall, h⟩ := h
  unfold Security.lastContainments
  by_cases hlen : kept.length ≤ quarantineAfter
  · rw [Nat.sub_eq_zero_of_le hlen, List.drop_zero]
    exact ⟨dropped, hall, h⟩
  · refine ⟨dropped ++ kept.take (kept.length - quarantineAfter), ?_, .inl ?_⟩
    · rw [List.append_assoc, List.take_append_drop, hall]
    · rw [List.length_drop]
      omega

/-- One more containment, no earlier than the others: what is kept still counts as the whole
history does, and both agree on whether it is the third. -/
theorem Counts.next (h : Counts all kept) (hsorted : (all ++ [wall]).Pairwise (· ≤ ·)) :
    Counts (all ++ [wall]) (kept.filter (fun t => wall - t < quarantineWindow) ++ [wall]) ∧
    (quarantineAfter ≤ (kept.filter (fun t => wall - t < quarantineWindow) ++ [wall]).length ↔
      quarantineAfter ≤ recent all wall + 1) := by
  obtain ⟨dropped, hall, h⟩ := h
  rw [List.pairwise_append] at hsorted
  obtain ⟨hsorted, _, hwall⟩ := hsorted
  have hwall : ∀ t ∈ all, t ≤ wall := fun t ht => hwall t ht wall (by simp)
  rw [hall, List.pairwise_append] at hsorted
  obtain ⟨_, hkept, hcross⟩ := hsorted
  generalize hp : (fun t => decide (wall - t < quarantineWindow)) = p
  have hpt : ∀ t, p t = true ↔ wall - t < quarantineWindow := by
    intro t
    rw [← hp]
    exact decide_eq_true_iff
  have hsplit := filter_not_append_filter (p := p) (fun x y hxy hx => by
    rw [hpt] at hx ⊢
    linarith) hkept
  have hrecent : recent all wall = (dropped.filter p).length + (kept.filter p).length := by
    rw [recent, hp, hall, List.filter_append, List.length_append]
  -- Unless enough was kept and all of it still counts, nothing dropped counts any more.
  have hold : (quarantineAfter ≤ kept.length ∧ kept.filter p = kept) ∨
      ∀ t ∈ dropped, quarantineWindow ≤ wall - t := by
    by_cases hnone : ∀ d ∈ kept, p d = true
    · obtain h | h := h
      · exact .inl ⟨h, List.filter_eq_self.mpr hnone⟩
      · right
        intro t ht
        have hne : all ≠ [] := by
          rw [hall]
          exact List.append_ne_nil_of_left_ne_nil (List.ne_nil_of_mem ht) _
        have hlast := List.getLast?_eq_some_getLast hne
        have h₁ := h t ht _ hlast
        have h₂ := hwall _ (List.getLast_mem hne)
        linarith
    · right
      simp only [not_forall] at hnone
      obtain ⟨d, hd, hpd⟩ := hnone
      intro t ht
      have h₁ := hcross t ht d hd
      rw [hpt, not_lt] at hpd
      linarith
  constructor
  · refine ⟨dropped ++ kept.filter (fun t => !p t), ?_, ?_⟩
    · rw [hall]
      conv_lhs => rw [← hsplit]
      simp only [List.append_assoc]
    · obtain ⟨hlen, hself⟩ | hold := hold
      · left
        rw [hself, List.length_append]
        omega
      · right
        intro t ht last hlast
        rw [List.getLast?_append, List.getLast?_singleton, Option.some_or] at hlast
        obtain rfl := Option.some.inj hlast
        obtain ht | ht := List.mem_append.mp ht
        · exact hold t ht
        · have := (List.mem_filter.mp ht).2
          rw [Bool.not_eq_true', ← Bool.not_eq_true, hpt, not_lt] at this
          exact this
  · rw [hrecent, List.length_append, List.length_singleton]
    obtain ⟨hlen, hself⟩ | hold := hold
    · rw [hself]
      omega
    · have hdrop : dropped.filter p = [] := by
        rw [List.filter_eq_nil_iff]
        intro t ht
        rw [hpt, not_lt]
        exact hold t ht
      rw [hdrop, List.length_nil, Nat.zero_add]

end History

structure HistoryWhole (py3 : Conversions) (s : Sys) : Prop where
  live : ∀ m, s.monitor = some m → Counts s.containments m.containHistory
  filed : s.recorded = true → ∀ m, load py3 s.file = some m →
    Counts s.containments m.containHistory
  sorted : s.containments.Pairwise (· ≤ ·)

section Quarantine
variable {cfg : MonitorConfig} {py3 : Conversions} {s t : Sys} {m : SecurityMonitor} {r : Reading}
  {signal : SignalKind} {principal : Principal}

theorem HistoryWhole.next (h : HistoryWhole py3 s) (hw : ∀ t ∈ s.containments, t ≤ r.wall) :
    (s.containments ++ [r.wall]).Pairwise (· ≤ ·) := by
  rw [List.pairwise_append]
  refine ⟨h.sorted, List.pairwise_singleton _ _, fun t ht w hwall => ?_⟩
  rw [List.mem_singleton.mp hwall]
  exact hw t ht

theorem HistoryWhole.observe (h : HistoryWhole py3 s) (hm : s.monitor = some m)
    (hok : HistoryKept cfg s (.observe r signal principal)) :
    HistoryWhole py3 (s.afterObserve m r (m.observe cfg r signal principal)) := by
  cases hc : m.containsOn cfg r.now signal principal with
  | false =>
    obtain ⟨hl, _, hsaved, _⟩ := observe_of_not_containsOn hc
    obtain ⟨hcont, _, _, _, hhist⟩ := contained_of_latches hl
    have hsame : (s.afterObserve m r (m.observe cfg r signal principal)).containments =
        s.containments := by
      rw [Sys.afterObserve, hcont]
      cases m.contained <;> simp
    refine ⟨fun n hn => ?_, fun hrec => ?_, hsame ▸ h.sorted⟩
    · rw [hsame, ← Option.some.inj hn, hhist]
      exact h.live m hm
    · rw [hsame]
      simp only [Sys.afterObserve, hsaved, hcont, beq_self_eq_true, Bool.and_true,
        Option.isSome_none, Bool.false_or, Option.map_none, Option.getD_none] at hrec ⊢
      exact h.filed hrec
  | true =>
    obtain ⟨he, hw⟩ := hok m hm hc
    obtain ⟨_, _, _, _, _, hmc, _⟩ := containsOn_iff.mp hc
    obtain ⟨n, hn, hcont, _, _, hhist, _, hsaved, hnot⟩ := contain_spec hc he
    have hnext : (s.afterObserve m r (m.observe cfg r signal principal)).containments =
        s.containments ++ [r.wall] := by
      simp only [Sys.afterObserve, hn, hcont, hmc, and_self, if_true]
    have hcounts : Counts (s.containments ++ [r.wall]) n.containHistory := by
      rw [hhist]
      exact ((h.live m hm).next (h.next hw)).1
    refine ⟨fun n' hn' => ?_, fun hrec n' hn' => ?_, ?_⟩
    · rw [hnext, ← Option.some.inj hn', hn]
      exact hcounts
    · rw [hnext]
      cases hd : r.diskTakes with
      | true =>
        simp only [Sys.afterObserve, (hsaved hd).1, Option.map_some, Option.getD_some] at hn'
        rw [(load_payload_latched py3 hn').2.2]
        exact hcounts.lastContainments
      | false => simp [Sys.afterObserve, (hnot hd).1, hn, hcont, hmc] at hrec
    · rw [hnext]
      exact h.next hw

theorem HistoryWhole.reset (h : HistoryWhole py3 s) (hm : s.monitor = some m) (r : Reading)
    (caller : PyStr) : HistoryWhole py3 (s.afterReset (m.reset r caller)) := by
  unfold SecurityMonitor.reset
  by_cases hc : caller ≠ py "console"
  · rw [if_pos hc]
    exact h
  · rw [if_neg hc]
    dsimp only
    by_cases hd : r.diskTakes = true
    · rw [if_pos hd]
      refine ⟨fun n hn => ?_, fun _ n hn => ?_, h.sorted⟩
      · rw [← Option.some.inj hn]
        exact h.live m hm
      · rw [(load_payload_latched py3 hn).2.2]
        exact (h.live m hm).lastContainments
    · rw [if_neg hd]
      refine ⟨fun n hn => ?_, fun hrec => by simp [Sys.afterReset] at hrec, h.sorted⟩
      rw [← Option.some.inj hn]
      exact h.live m hm

end Quarantine

def guarded : SecurityMonitor := SecurityMonitor.fresh.register .contain 0

end QronosAgent.Security

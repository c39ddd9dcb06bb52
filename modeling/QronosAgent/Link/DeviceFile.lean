import QronosAgent.Link.DeviceProcesses

/-! The device file under its lock: who holds which lock, which signatures the processes know,
what the holder of the lock knows of the file, and what the file says of a revoked device. -/
namespace QronosAgent.Link
open Lib

def LoadStage.table? : LoadStage → Option DeviceTable
  | .record _ t | .store t => some t
  | _ => none

/-- The signature that a load has taken and not recorded yet. -/
def LoadStage.signature? : LoadStage → Option Signature
  | .read signature => some signature
  | .record signature _ => signature
  | _ => none

def Loader.lookup? : Loader → Option LookupId
  | .refresh l => some l
  | .change _ => none

namespace Busy

def holdsFile : Busy → Bool
  | .load who _ => who.lookup?.isNone
  | .apply _ | .save _ _ | .sign _ | .leave _ => true
  | _ => false

def lookup? : Busy → Option LookupId
  | .restat l | .recompare l _ => some l
  | .load who _ => who.lookup?
  | _ => none

def table? : Busy → Option DeviceTable
  | .load _ stage => stage.table?
  | _ => none

def signature? : Busy → Option Signature
  | .load _ stage => stage.signature?
  | _ => none

end Busy

/-- The signatures of the file since a device was revoked; none when it was not, or has been
removed after that. -/
def barredSince : List Commit → DeviceId → List Signature
  | [], _ => []
  | c :: log, id =>
    if c.op.removes = some id then []
    else if c.op.revokes = some id ∨ barredSince log id ≠ [] then
      c.signature :: barredSince log id
    else []

theorem removes_ne_of_revokes {op : DeviceOp} {id : DeviceId} (h : op.revokes = some id) :
    op.removes ≠ some id := by
  cases op <;> simp_all [DeviceOp.revokes, DeviceOp.removes]

section BarredSince
variable {c : Commit} {log : List Commit} {id : DeviceId} {g : Signature}

theorem barredSince_cons (h : c.op.revokes = some id ∨ barredSince log id ≠ [])
    (hop : c.op.removes ≠ some id) :
    barredSince (c :: log) id = c.signature :: barredSince log id := by
  rw [barredSince, if_neg hop, if_pos h]

theorem signature_mem_barredSince (h : c.op.revokes = some id ∨ barredSince log id ≠ [])
    (hop : c.op.removes ≠ some id) : c.signature ∈ barredSince (c :: log) id := by
  rw [barredSince_cons h hop]
  exact List.mem_cons_self

theorem mem_barredSince_cons (hg : g ∈ barredSince log id) (hop : c.op.removes ≠ some id) :
    g ∈ barredSince (c :: log) id := by
  rw [barredSince_cons (.inr (List.ne_nil_of_mem hg)) hop]
  exact List.mem_cons_of_mem _ hg

theorem of_mem_barredSince_cons (hg : g ∈ barredSince (c :: log) id) :
    c.op.removes ≠ some id ∧ (c.op.revokes = some id ∨ barredSince log id ≠ []) ∧
      (g = c.signature ∨ g ∈ barredSince log id) := by
  rw [barredSince] at hg
  split at hg
  · contradiction
  · split at hg
    · exact ⟨‹_›, ‹_›, List.mem_cons.mp hg⟩
    · contradiction

end BarredSince

namespace Fleet
variable {s s' : Fleet} {m : FleetMove}

structure Held (s : Fleet) : Prop where
  file : ∀ p, (s.processes p).busy.holdsFile = true → s.fileLock = some p
  lookup : ∀ p l, (s.processes p).busy.lookup? = some l →
    (s.lookups l).process = p ∧ (s.lookups l).stage = .locked

theorem processes_setProcess (s : Fleet) (p : ProcessId) (proc : Process) (q : ProcessId) :
    (s.setProcess p proc).processes q = if q = p then proc else s.processes q :=
  Function.update_apply _ _ _ _

namespace Held

variable {p : ProcessId} {proc : Process} {l : LookupId}

theorem setProcess (hs : Held s) (hf : proc.busy.holdsFile = true → s.fileLock = some p)
    (hl : ∀ l, proc.busy.lookup? = some l →
      (s.lookups l).process = p ∧ (s.lookups l).stage = .locked) : Held (s.setProcess p proc) := by
  constructor
  · intro q hq
    rw [processes_setProcess] at hq
    split at hq
    · rename_i hqp
      rw [hqp]
      exact hf hq
    · exact hs.file q hq
  · intro q l hq
    rw [processes_setProcess] at hq
    split at hq
    · rename_i hqp
      rw [hqp]
      exact hl l hq
    · exact hs.lookup q l hq

theorem goOn (hs : Held s)
    (hf : proc.busy.holdsFile = true → (s.processes p).busy.holdsFile = true)
    (hl : ∀ l, proc.busy.lookup? = some l → (s.processes p).busy.lookup? = some l) :
    Held (s.setProcess p proc) :=
  hs.setProcess (fun h => hs.file p (hf h)) fun l h => hs.lookup p l (hl l h)

theorem release (hs : Held s) (p : ProcessId) : Held (s.setBusy p .free) :=
  hs.goOn (fun h => absurd h (by simp [Busy.holdsFile])) fun l h => absurd h (by simp [Busy.lookup?])

theorem updateLookup (hs : Held s) (x : Lookup) (h : ∀ q, (s.processes q).busy.lookup? ≠ some l) :
    Held { s with lookups := Function.update s.lookups l x } := by
  constructor
  · exact hs.file
  · intro q l' hq
    have hne : l' ≠ l := fun he => h q (he ▸ hq)
    simp only [Function.update_of_ne hne]
    exact hs.lookup q l' hq

/-- A lookup that does not hold its process's lock is the lookup of no process. -/
theorem unlocked (hs : Held s) {stage : LookupStage} (h : (s.lookups l).stage = stage)
    (hstage : stage ≠ .locked) (q : ProcessId) :
    (s.processes q).busy.lookup? ≠ some l :=
  fun hq => hstage (h.symm.trans (hs.lookup q l hq).2)

theorem released (hs : Held s) (hp : (s.processes p).busy.lookup? = some l)
    (hfree : proc.busy.lookup? = none) (q : ProcessId) :
    ((s.setProcess p proc).processes q).busy.lookup? ≠ some l := by
  intro hq
  rw [processes_setProcess] at hq
  split at hq
  · rw [hfree] at hq
    contradiction
  · rename_i hqp
    exact hqp ((hs.lookup q l hq).1.symm.trans (hs.lookup p l hp).1)

theorem unlockFile (hs : Held s) (h : (s.processes p).busy.holdsFile = true) :
    Held (s.setBusy p .free).unlockFile := by
  constructor
  · intro q hq
    change ((s.setProcess p _).processes q).busy.holdsFile = true at hq
    rw [processes_setProcess] at hq
    split at hq
    · contradiction
    · rename_i hqp
      have hlock := (hs.file q hq).symm.trans (hs.file p h)
      exact absurd (Option.some.inj hlock) hqp
  · exact (hs.release p).lookup

theorem takeFile (hs : Held s) (hfree : s.fileLock = none) {busy : Busy}
    (hl : busy.lookup? = none) : Held { s.setBusy p busy with fileLock := some p } := by
  constructor
  · intro q hq
    change ((s.setProcess p _).processes q).busy.holdsFile = true at hq
    rw [processes_setProcess] at hq
    split at hq
    · rename_i hqp
      rw [hqp]
    · have hlock := hs.file q hq
      rw [hfree] at hlock
      contradiction
  · intro q l hq
    change ((s.setProcess p _).processes q).busy.lookup? = some l at hq
    rw [processes_setProcess] at hq
    split at hq
    · rw [hl] at hq
      contradiction
    · exact hs.lookup q l hq

theorem commit (hs : Held s) (c : Commit) (t : DeviceTable) : Held (s.commit c t) :=
  ⟨hs.file, hs.lookup⟩

theorem returned (hs : Held s) (op : DeviceOp) : Held (s.returned op) :=
  ⟨hs.file, hs.lookup⟩

theorem step (hs : Held s) (h : Fires s m s') : Held s' := by
  cases h with
  | lookup hstage | stat hstage | current hstage | changed hstage | answer hstage =>
    exact hs.updateLookup _ (hs.unlocked hstage (by simp))
  | @enter l hstage hfree =>
    have hwait := hs.updateLookup { s.lookups l with stage := .locked }
      (hs.unlocked hstage (by simp))
    apply hwait.setProcess
    · intro h
      contradiction
    · intro l' hl'
      cases hl'
      simp
  | restat hb | rechanged hb | loadStat hb | loadRead hb | loadRecord hb | loaded hb | apply hb
  | sign hb | change hb =>
    apply hs.goOn <;> rw [hb] <;> simp [Busy.holdsFile, Busy.lookup?, Loader.lookup?]
  | recurrent hb | refreshed hb | refreshFails hb =>
    refine updateLookup (hs.goOn ?_ ?_) _ (hs.released (by rw [hb]; rfl) rfl)
    · intro h
      contradiction
    · intro l h
      contradiction
  | loadFails hb | refused hb | saveFails hb =>
    exact hs.unlockFile (by rw [hb]; rfl)
  | lockFile hb hfree => exact hs.takeFile hfree rfl
  | lockFails hb => exact hs.release _
  | replace hb =>
    apply (hs.commit _ _).goOn
    · intro _
      change (s.processes _).busy.holdsFile = true
      rw [hb]
      rfl
    · intro l h
      contradiction
  | leave hb =>
    apply (hs.returned _).unlockFile
    change (s.processes _).busy.holdsFile = true
    rw [hb]
    rfl

end Held

variable {ok : Fleet → FleetMove → Prop} {proc : Process} {t : DeviceTable}
  {file : Option DeviceFile} {log : List Commit} {id : DeviceId}

theorem Held.reach (hr : fleetMachine.Reach ok s) : Held s := by
  refine Machine.Reach.invariant (fun s hs => ?_) (fun s m s' hI _ h => hI.step (fires h)) hr
  constructor
  · intro p hp
    rw [hs.2.1 p] at hp
    contradiction
  · intro p l hp
    rw [hs.2.1 p] at hp
    contradiction

/-! The signatures that a process knows. -/

structure SignedBy (used : List Signature) (proc : Process) : Prop where
  copy : ∀ g, proc.signature = some g → g ∈ used
  load : ∀ g, proc.busy.signature? = some g → g ∈ used

structure Signed (s : Fleet) : Prop where
  file : ∀ g, s.stat = some g → g ∈ s.used
  process : ∀ p, SignedBy s.used (s.processes p)

theorem signature?_afterStat (g : Option Signature) : (afterStat g).signature? = g := by
  cases g <;> rfl

/-- What holds of every process still does when one of them is replaced by another that has it. -/
theorem forall_setProcess {P : Process → Prop} {p : ProcessId} (hs : ∀ q, P (s.processes q))
    (hproc : P proc) (q : ProcessId) :
    P ((s.setProcess p proc).processes q) := by
  by_cases hq : q = p
  · subst hq
    simpa only [setProcess, Function.update_self] using hproc
  · simpa only [setProcess, Function.update_of_ne hq] using hs q

theorem Signed.step (hs : Signed s) (h : Fires s m s') : Signed s' := by
  obtain ⟨hfile, hprocess⟩ := hs
  have hquiet : ∀ p busy, busy.signature? = none →
      SignedBy s.used ⟨(s.processes p).records, (s.processes p).signature, busy⟩ :=
    fun p busy hb => ⟨(hprocess p).copy, fun g hg => nomatch hb.symm.trans hg⟩
  cases h with
  | lookup | stat | current | changed | answer => exact ⟨hfile, hprocess⟩
  | enter | restat | recurrent | rechanged | refreshFails | loadFails | change | lockFile
  | lockFails | refused | saveFails | leave =>
    exact ⟨hfile, forall_setProcess hprocess (hquiet _ _ rfl)⟩
  | @loadStat p who hbusy =>
    refine ⟨hfile, forall_setProcess hprocess ⟨(hprocess p).copy, fun g hg => hfile g ?_⟩⟩
    rwa [← signature?_afterStat s.stat]
  | @loadRead p who signature t hbusy =>
    refine ⟨hfile, forall_setProcess hprocess ⟨(hprocess p).copy, fun g hg => ?_⟩⟩
    exact (hprocess p).load g (by rw [hbusy]; exact hg)
  | @loadRecord p who signature t hbusy =>
    refine ⟨hfile, forall_setProcess hprocess ⟨fun g hg => ?_, fun g hg => (nomatch hg)⟩⟩
    exact (hprocess p).load g (by rw [hbusy]; exact hg)
  | @refreshed p | @loaded p | @apply p =>
    exact ⟨hfile, forall_setProcess hprocess ⟨(hprocess p).copy, fun g hg => (nomatch hg)⟩⟩
  | @sign p =>
    exact ⟨hfile, forall_setProcess hprocess ⟨fun g hg => hfile g hg, fun g hg => (nomatch hg)⟩⟩
  | @replace p signature now op hbusy =>
    have hgrown : ∀ g, g ∈ s.used → g ∈ signature :: s.used := fun g => List.mem_cons_of_mem _
    refine ⟨fun g hg => ?_, forall_setProcess (fun q => ?_) ?_⟩
    · cases hg
      exact List.mem_cons_self
    · exact ⟨fun g hg => hgrown g ((hprocess q).copy g hg),
        fun g hg => hgrown g ((hprocess q).load g hg)⟩
    · exact ⟨fun g hg => hgrown g ((hprocess p).copy g hg), fun g hg => (nomatch hg)⟩

theorem Signed.reach (hr : fleetMachine.Reach ok s) :
    Signed s := by
  refine Machine.Reach.invariant (fun s hs => ?_) (fun s m s' hI _ h => hI.step (fires h)) hr
  obtain ⟨-, hproc, -, hbase, hlog, -⟩ := hs
  refine ⟨fun g hg => ?_, fun p => ?_⟩
  · simpa [used, hlog, hbase, stat] using hg
  · rw [hproc p]
    exact ⟨fun g hg => (nomatch hg), fun g hg => (nomatch hg)⟩

/-! What the holder of the file's lock knows of the file. -/

structure Knows (file : Option DeviceFile) (log : List Commit) (proc : Process) : Prop where
  read : proc.busy.holdsFile = true → ∀ t, proc.busy.table? = some t → fileTable file = .ok t
  loaded : ∀ op, proc.busy = .apply op → fileTable file = .ok proc.records
  applied : ∀ now op, proc.busy = .save now op → ∃ t c, fileTable file = .ok t ∧
    op.apply now t = .ok c ∧ c.table = proc.records
  written : ∀ op, proc.busy = .sign op ∨ proc.busy = .leave op →
    (∃ t, fileTable file = .ok t ∧ ∀ id, t.get? id = proc.records.get? id) ∧
      (∃ c ∈ log, c.op = op) ∧ ∀ id, op.revokes = some id → barredSince log id ≠ []

theorem fileTable_readFile (h : s.readFile = some t) :
    fileTable s.file = .ok t := by
  unfold readFile at h
  split at h
  · rename_i g records hf
    rw [hf, ← Option.some.inj h]
    rfl
  · contradiction

/-- A thread that does not hold the file's lock knows nothing of it. -/
theorem Knows.of_idle (h : proc.busy.holdsFile = false) : Knows file log proc := by
  refine ⟨fun hh => ?_, fun op hop => ?_, fun now op hop => ?_, fun op hop => ?_⟩
  · rw [h] at hh
    contradiction
  · rw [hop] at h
    contradiction
  · rw [hop] at h
    contradiction
  · obtain hop | hop := hop <;>
    · rw [hop] at h
      contradiction

theorem fileTable_commit {now : Seconds} {op : DeviceOp} {c : Changed}
    (ht : fileTable s.file = .ok t) (hop : op.apply now t = .ok c) (g : Signature) :
    ∃ u, fileTable (some ⟨g, .devices c.table.byCreation⟩) = .ok u ∧
      ∀ id, u.get? id = c.table.get? id := by
  have hkeyed : c.table.Keyed :=
    (DeviceTable.keyed_of_fileTable ht).apply (DeviceOp.apply_ok hop)
  exact ⟨_, rfl, fun id => DeviceTable.get?_tableOf_byCreation hkeyed id⟩

theorem fileTable_afterStat (h : (afterStat s.stat).table? = some t) :
    fileTable s.file = .ok t := by
  cases hf : s.file with
  | none =>
    simp only [stat, hf, Option.map_none, afterStat, LoadStage.table?, Option.some.injEq] at h
    rw [← h]
    rfl
  | some f => simp [stat, hf, afterStat, LoadStage.table?] at h

theorem Knows.of_load {g : Option Signature} {who : Loader} {stage : LoadStage}
    (h : (Busy.load who stage).holdsFile = true → ∀ t', stage.table? = some t' →
      fileTable file = .ok t') : Knows file log ⟨t, g, .load who stage⟩ where
  read := h
  loaded _ hop := nomatch hop
  applied _ _ hop := nomatch hop
  written _ hop := nomatch hop

theorem knows_step (hheld : Held s) (hs : ∀ p, Knows s.file s.log (s.processes p))
    (h : Fires s m s') : ∀ p, Knows s'.file s'.log (s'.processes p) := by
  cases h with
  | lookup | stat | current | changed | answer => exact hs
  | enter | restat | recurrent | rechanged | refreshed | refreshFails | loadFails | change
  | lockFails | refused | saveFails | leave => exact forall_setProcess hs (.of_idle rfl)
  | lockFile => exact forall_setProcess hs (.of_load fun _ t ht => (nomatch ht))
  | loadStat => exact forall_setProcess hs (.of_load fun _ t ht => fileTable_afterStat ht)
  | loadRead _ hread =>
    refine forall_setProcess hs (.of_load fun _ t ht => ?_)
    exact Option.some.inj ht ▸ fileTable_readFile hread
  | @loadRecord p who signature t hbusy =>
    refine forall_setProcess hs (.of_load fun hholds t' ht => ?_)
    exact (hs p).read (by rw [hbusy]; exact hholds) t' (by rw [hbusy]; exact ht)
  | @loaded p op t hbusy =>
    have ht := (hs p).read (by rw [hbusy]; rfl) t (by rw [hbusy]; rfl)
    exact forall_setProcess hs ⟨fun _ _ h => (nomatch h), fun _ _ => ht, fun _ _ h => (nomatch h),
      fun _ h => (nomatch h)⟩
  | @apply p now op c hbusy happly =>
    refine forall_setProcess hs ⟨fun _ _ h => (nomatch h), fun _ h => (nomatch h),
      fun now' op' h => ?_, fun _ h => (nomatch h)⟩
    obtain ⟨rfl, rfl⟩ := Busy.save.inj h
    exact ⟨_, c, (hs p).loaded op hbusy, happly, rfl⟩
  | @sign p op hbusy =>
    refine forall_setProcess hs ⟨fun _ _ h => (nomatch h), fun _ h => (nomatch h),
      fun _ _ h => (nomatch h), fun op' h => ?_⟩
    obtain rfl := Busy.leave.inj (h.resolve_left (nomatch ·))
    exact (hs p).written op (.inl hbusy)
  | @replace p signature now op hbusy =>
    intro q
    by_cases hq : q = p
    · subst hq
      obtain ⟨t, c, ht, hop, hc⟩ := (hs q).applied now op hbusy
      have hsame := fileTable_commit ht hop signature
      rw [hc] at hsame
      simp only [setBusy, setProcess, commit, Function.update_self]
      refine ⟨fun _ _ h => (nomatch h), fun _ h => (nomatch h), fun _ _ h => (nomatch h),
        fun op' h => ?_⟩
      obtain rfl := Busy.sign.inj (h.resolve_right (nomatch ·))
      refine ⟨hsame, ⟨_, List.mem_cons_self, rfl⟩, fun id hid => ?_⟩
      exact List.ne_nil_of_mem (signature_mem_barredSince (.inl hid) (removes_ne_of_revokes hid))
    · simp only [setBusy, setProcess, commit, Function.update_of_ne hq]
      apply Knows.of_idle
      rw [Bool.eq_false_iff]
      intro hholds
      have hp := hheld.file p (by rw [hbusy]; rfl)
      rw [hheld.file q hholds, Option.some.injEq] at hp
      exact hq hp

/-! What the file says of a device that was revoked. -/

theorem Fires.quiet (h : Fires s m s') (hm : ∀ p g, m ≠ .replace p g) :
    s'.file = s.file ∧ s'.log = s.log ∧ s'.base = s.base := by
  cases h with
  | replace => exact absurd rfl (hm _ _)
  | _ => exact ⟨rfl, rfl, rfl⟩

structure FileBars (s : Fleet) (id : DeviceId) : Prop where
  signature : ∃ g ∈ barredSince s.log id, s.stat = some g
  record : ∃ t r, fileTable s.file = .ok t ∧ t.get? id = some r ∧ r.Barred

theorem FileBars.bars (h : FileBars s id) (ht : fileTable s.file = .ok t) : t.Bars id := by
  obtain ⟨u, r, hu, hr, hb⟩ := h.record
  cases ht.symm.trans hu
  intro r' hr'
  exact Option.some.inj (hr.symm.trans hr') ▸ hb

theorem fileBars_step (hknows : ∀ p, Knows s.file s.log (s.processes p))
    (hs : barredSince s.log id ≠ [] → FileBars s id) (h : Fires s m s')
    (hid : barredSince s'.log id ≠ []) : FileBars s' id := by
  by_cases hm : ∀ p g, m ≠ .replace p g
  · obtain ⟨hfile, hlog, -⟩ := h.quiet hm
    rw [hlog] at hid
    obtain ⟨⟨g, hg, hstat⟩, hrecord⟩ := hs hid
    refine ⟨⟨g, by rwa [hlog], ?_⟩, by rwa [hfile]⟩
    rwa [stat, hfile]
  · push Not at hm
    obtain ⟨p, g, rfl⟩ := hm
    cases h with
    | @replace _ _ now op hbusy =>
      obtain ⟨t, c, ht, hop, hc⟩ := (hknows p).applied now op hbusy
      have happlied := DeviceOp.apply_ok hop
      obtain ⟨u, hu, hsame⟩ := fileTable_commit ht hop g
      obtain ⟨g', hg'⟩ := List.exists_mem_of_ne_nil _ hid
      obtain ⟨hremoves, hwas, -⟩ := of_mem_barredSince_cons hg'
      refine ⟨⟨g, signature_mem_barredSince hwas hremoves, rfl⟩, u, ?_⟩
      have hrec : ∃ r, c.table.get? id = some r ∧ r.Barred := by
        obtain hrevokes | hbarred := hwas
        · exact happlied.revokes_bars hrevokes
        · obtain ⟨t', r, ht', hr, hb⟩ := (hs hbarred).record
          cases ht.symm.trans ht'
          exact happlied.keeps_barred hr hb hremoves
      obtain ⟨r, hr, hb⟩ := hrec
      exact ⟨r, by rw [← hu, hc]; rfl, (hsame id).trans hr, hb⟩

end Fleet
end QronosAgent.Link

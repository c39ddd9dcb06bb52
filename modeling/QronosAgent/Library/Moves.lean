import QronosAgent.Library.Operations

/-! What the file steps leave, by how they end. -/
namespace QronosAgent.Library
open Lib

section
variable {F : Type} [DecidableEq F] {sys : System} {given : Given} {refusal : Call → Option OsError}
variable {s : State F} {p q source target copy : Place F} {kind : Option Kind} {bytes : List UInt8}
variable {w : Way} {artifact : Artifact F}

namespace State

@[simp] theorem at?_put_self : (s.put sys p kind).at? sys p = kind := Function.update_self ..

theorem at?_put_ne (h : q.key sys ≠ p.key sys) : (s.put sys p kind).at? sys q = s.at? sys q :=
  Function.update_of_ne h ..

@[simp] theorem bytes?_write_self : (s.write sys p bytes).bytes? sys p = some bytes := by
  unfold bytes? write
  rw [at?_put_self]
  rfl

theorem bytes?_put_ne (h : q.key sys ≠ p.key sys) :
    (s.put sys p kind).bytes? sys q = s.bytes? sys q := by
  unfold bytes?
  rw [at?_put_ne h]

theorem bytes?_congr {t : State F} (h : t.at? sys p = s.at? sys q) :
    t.bytes? sys p = s.bytes? sys q := by
  unfold bytes?
  rw [h]

theorem at?_of_bytes? (h : s.bytes? sys p = some bytes) : s.at? sys p = some (.file bytes) := by
  unfold bytes? at h
  obtain ⟨kind, hkind, hfile⟩ := Option.bind_eq_some_iff.mp h
  split at hfile
  · cases hfile
    exact hkind
  · cases hfile

theorem bytes?_of_at? (h : s.at? sys p = some (.file bytes)) : s.bytes? sys p = some bytes := by
  unfold bytes?
  rw [h]
  rfl

theorem bytes?_of_none (h : s.at? sys p = none) : s.bytes? sys p = none := by
  unfold bytes?
  rw [h]
  rfl

@[simp] theorem put_put {kind' : Option Kind} :
    (s.put sys p kind).put sys p kind' = s.put sys p kind' := by
  unfold put
  simp only [Function.update_idem]

theorem put_comm {kind' : Option Kind} (h : p.key sys ≠ q.key sys) :
    (s.put sys p kind).put sys q kind' = (s.put sys q kind').put sys p kind := by
  unfold put
  simp only [Function.update_comm h]

/-- Nothing changes. -/
theorem put_same (h : s.at? sys p = kind) : s.put sys p kind = s := by
  unfold put
  rw [← h]
  unfold at?
  rw [Function.update_eq_self]

@[simp] theorem records_put : (s.put sys p kind).records = s.records := rfl

@[simp] theorem recycleBin_put : (s.put sys p kind).recycleBin = s.recycleBin := rfl

theorem key_ne (hp : s.at? sys p ≠ none) (hq : s.at? sys q = none) : p.key sys ≠ q.key sys := by
  intro heq
  apply hp
  unfold at? at hq ⊢
  rw [heq, hq]

/-- What the system admits as a new name. -/
theorem refuses_eq_ok {same : Bool} (hsource : s.at? sys source ≠ none) :
    s.refuses sys same source target = .ok () ↔
      s.at? sys target = none ∨ same = true ∧ source.key sys = target.key sys := by
  unfold refuses
  rw [if_neg (by simpa using hsource)]
  by_cases h : ((s.at? sys target).isNone || same && source.key sys = target.key sys) = true
  · rw [if_pos h]
    simpa using h
  · rw [if_neg h]
    simpa using h

end State

variable {call : Call} {candidates : List (Place F)} {base : State F} {bs : List UInt8} {α : Type}
  {m : OnLibrary F α}

theorem run_refusing_exists :
    (exists? sys call p).run (Fated.refusing refusal) s =
      (.returned (works refusal call && (s.at? sys p).any Kind.leads), s) := by
  unfold exists? asks works
  rw [Fated.run_rescue, Fated.run_bind, Fated.run_effect]
  cases refusal call <;> rfl

theorem run_refusing_isFile :
    (isFile sys call p).run (Fated.refusing refusal) s =
      (.returned (works refusal call && (s.at? sys p).any Kind.isFile), s) := by
  unfold isFile asks works
  rw [Fated.run_rescue, Fated.run_bind, Fated.run_effect]
  cases refusal call <;> rfl

theorem run_refusing_isLink :
    (isLinkOrReparsePoint sys call p).run (Fated.refusing refusal) s =
      (.returned (!works refusal call || (s.at? sys p).any Kind.isLink), s) := by
  unfold isLinkOrReparsePoint asks works
  rw [Fated.run_rescue, Fated.run_bind, Fated.run_effect]
  cases refusal call <;> rfl

theorem run_reads (hbytes : s.bytes? sys p = some bytes) :
    (reads sys call p).run (Fated.refusing refusal) s = match refusal call with
      | none => (.returned bytes, s)
      | some e => (.raised (.os e), s) := by
  unfold reads
  rw [Fated.run_bind, Fated.run_effect]
  cases refusal call with
  | none =>
    simp only [Fated.run_bind, Fated.run_look, id, hbytes]
    rfl
  | some e => rfl

variable (sys refusal w target) in
theorem run_renameNoReplace (n : Named) (hsource : s.at? sys source ≠ none) :
    (renameNoReplace sys w n source target).run (Fated.refusing refusal) s =
      match renameEnd sys refusal w n (s.refuses sys sys.windows source target) with
      | .moved => (.returned (), s.renamed sys source target)
      | .refused e => (.raised (.os e), s)
      | .doubled => (.raised (.os .other), s.linked sys source target) := by
  unfold renameNoReplace renameEnd
  rw [Fated.run_bind, Fated.run_look]
  simp only
  rw [Fated.run_bind, Fated.run_ofExcept]
  cases hadmitted : s.refuses sys sys.windows source target with
  | error e => rfl
  | ok u =>
    simp only [Except.mapError]
    by_cases hwindows : sys.windows = true
    · simp only [if_pos hwindows, Fated.run_effect]
      cases refusal (.rename w n) <;> rfl
    · rw [if_neg hwindows, if_neg hwindows, Fated.run_bind, Fated.run_effect]
      cases hlink : refusal (.link w n) with
      | some e => rfl
      | none =>
        rcases hunlink : refusal (.unlinkOld w n) with _ | e
        · simp only [Fated.run_effect, works, hunlink]
          -- linked, and unlinked from the old name
          have hne : source.key sys ≠ target.key sys := by
            rw [Bool.not_eq_true] at hwindows
            rw [hwindows, State.refuses_eq_ok hsource] at hadmitted
            rcases hadmitted with hfree | ⟨hfalse, -⟩
            · exact State.key_ne hsource hfree
            · cases hfalse
          simp only [Option.isNone_none, if_true]
          unfold State.linked State.renamed
          rw [State.put_comm hne.symm]
        · simp only [Fated.run_effect, works, hunlink]
          rfl

def CopyRuns (sys : System) (s : State F) (copy : Place F) (bytes : List UInt8)
    (r : Ending LibraryError Unit × State F) (opened whole : Bool) : Prop :=
  if !opened then ∃ e, e.isPlain = true ∧ r = (.raised e, s)
  else if !whole then ∃ e bs, e.isPlain = true ∧ r = (.raised e, s.write sys copy bs)
  else r = (.returned (), s.write sys copy bytes)

variable (given refusal copy w) in
theorem run_copy2 (hbytes : s.bytes? sys source = some bytes) : CopyRuns sys s copy bytes
    ((copy2 sys given w source copy).run (Fated.refusing refusal) s) (works refusal (.copyOpen w))
    (works refusal (.copyPart w) && works refusal (.copyRest w) && works refusal (.copyStat w)) := by
  unfold copy2 CopyRuns works
  simp only [Fated.run_bind, Fated.run_look, Fated.run_demand, Fated.run_effect, hbytes]
  have hwrite : ∀ bs bs', (s.write sys copy bs).write sys copy bs' = s.write sys copy bs' := by
    intro bs bs'
    exact State.put_put
  rcases hopen : refusal (.copyOpen w) with _ | e
  swap
  · exact ⟨.os e, rfl, rfl⟩
  rcases hpart : refusal (.copyPart w) with _ | e
  swap
  · exact ⟨.os e, [], rfl, rfl⟩
  rcases hrest : refusal (.copyRest w) with _ | e
  swap
  · exact ⟨.os e, bytes.take (given.part w), rfl, by simp only [hwrite]⟩
  rcases hstat : refusal (.copyStat w) with _ | e
  swap
  · exact ⟨.os e, bytes, rfl, by simp only [hwrite]⟩
  simp only [Option.isNone_none, Bool.and_self, Bool.not_true, Bool.false_eq_true, if_false, hwrite,
    id]

variable (refusal) in
theorem run_hashMatches (stat hash : Call) (expected : PyStr)
    (hbytes : s.bytes? sys p = some bytes) :
    (works refusal stat && bytes.length ≤ hashInlineMaxBytes && works refusal hash &&
        sys.sha256 bytes = expected) = true ∧
      (hashMatches sys stat hash expected none p).run (Fated.refusing refusal) s =
        (.returned true, s) ∨
    (works refusal stat && bytes.length ≤ hashInlineMaxBytes && works refusal hash &&
        sys.sha256 bytes = expected) = false ∧
      ((hashMatches sys stat hash expected none p).run (Fated.refusing refusal) s =
          (.returned false, s) ∨
        ∃ e : LibraryError, e.isPlain = true ∧
          (hashMatches sys stat hash expected none p).run (Fated.refusing refusal) s =
            (.raised e, s)) := by
  unfold hashMatches works
  rw [Fated.run_bind, run_reads hbytes]
  rcases hstat : refusal stat with _ | e
  swap
  · exact .inr ⟨rfl, .inr ⟨_, rfl, rfl⟩⟩
  simp only [Option.any_none, Bool.false_or, decide_eq_true_eq]
  by_cases hlong : bytes.length > hashInlineMaxBytes
  · rw [if_pos hlong]
    have hnot : decide (bytes.length ≤ hashInlineMaxBytes) = false :=
      decide_eq_false (Nat.not_le.mpr hlong)
    exact .inr ⟨by simp [hnot], .inl rfl⟩
  · have hshort : decide (bytes.length ≤ hashInlineMaxBytes) = true :=
      decide_eq_true (Nat.not_lt.mp hlong)
    rw [if_neg hlong, Fated.run_bind, run_reads hbytes]
    rcases hhash : refusal hash with _ | e
    swap
    · exact .inr ⟨by simp, .inr ⟨_, rfl, rfl⟩⟩
    by_cases hsame : sys.sha256 bytes = expected
    · exact .inl ⟨by simp [hshort, hsame], by simp [Fated.run_pure, hsame]⟩
    · exact .inr ⟨by simp [hsame], .inl (by simp [Fated.run_pure, hsame])⟩

variable (refusal w artifact) in
theorem run_verifyCopy (hsource : s.bytes? sys source = some bytes)
    (hcopy : s.bytes? sys copy = some bytes) :
    if verifies sys refusal w artifact bytes then
      (verifyCopy sys w artifact source copy).run (Fated.refusing refusal) s = (.returned (), s)
    else ∃ e : LibraryError, e.isPlain = true ∧
      (verifyCopy sys w artifact source copy).run (Fated.refusing refusal) s =
        (.raised e, s) := by
  unfold verifyCopy verifies
  rw [Fated.run_bind, run_reads hcopy]
  rcases hpartial : refusal (.partialStat w) with _ | e
  swap
  · rw [if_neg (by simp [works, hpartial])]
    exact ⟨_, rfl, rfl⟩
  simp only
  rw [Fated.run_bind, run_reads hsource]
  rcases horiginal : refusal (.sourceStat w) with _ | e
  swap
  · rw [if_neg (by simp [works, horiginal])]
    exact ⟨_, rfl, rfl⟩
  simp only
  rw [Fated.run_bind, Fated.run_require, if_pos rfl]
  simp only
  by_cases hexpected : expectedHash artifact.identity artifact.contentHash = []
  · rw [if_pos hexpected, if_pos (by simp [works, hpartial, horiginal, hexpected])]
    rfl
  · rw [if_neg hexpected, Fated.run_bind]
    rcases run_hashMatches refusal (.identityStat w) (.partialHash w)
      (expectedHash artifact.identity artifact.contentHash) hcopy with
      ⟨hyes, hrun⟩ | ⟨hno, hrun | ⟨e, hplain, hrun⟩⟩
    · rw [hrun, if_pos]
      · rfl
      · simp only [works, hpartial, horiginal, Option.isNone_none, Bool.and_self, Bool.true_and,
          Bool.or_eq_true]
        exact .inr hyes
    · rw [hrun, if_neg]
      · exact ⟨_, rfl, rfl⟩
      · simp only [works, hpartial, horiginal, hexpected, Option.isNone_none, Bool.and_self,
          Bool.true_and, decide_false, Bool.false_or]
        exact (Bool.not_eq_true _).mpr hno
    · rw [hrun, if_neg]
      · exact ⟨_, hplain, rfl⟩
      · simp only [works, hpartial, horiginal, hexpected, Option.isNone_none, Bool.and_self,
          Bool.true_and, decide_false, Bool.false_or]
        exact (Bool.not_eq_true _).mpr hno

def NameRuns (sys : System) (s : State F) (copy : Place F) (candidates : List (Place F))
    (r : Ending LibraryError (Place F) × State F) : NameEnd F → Prop
  | .named c => r = (.returned c, s.renamed sys copy c) ∧ c ∈ candidates ∧ s.at? sys c = none
  | .nowhere => ∃ e, e.isPlain = true ∧ r = (.raised e, s)
  | .doubled c => (∃ e, e.isPlain = true ∧ r = (.raised e, s.linked sys copy c)) ∧
    c ∈ candidates ∧ s.at? sys c = none

theorem NameRuns.cons {candidate : Place F} {r : Ending LibraryError (Place F) × State F}
    {ending : NameEnd F} (h : NameRuns sys s copy candidates r ending) :
    NameRuns sys s copy (candidate :: candidates) r ending := by
  cases ending with
  | named c => exact ⟨h.1, List.mem_cons_of_mem _ h.2.1, h.2.2⟩
  | nowhere => exact h
  | doubled c => exact ⟨h.1, List.mem_cons_of_mem _ h.2.1, h.2.2⟩

variable (refusal w) in
theorem run_nameCopy (hcopy : s.at? sys copy ≠ none) {i : ℕ}
    (hne : ∀ c ∈ candidates, copy.key sys ≠ c.key sys) :
    NameRuns sys s copy candidates
      ((nameCopy sys w copy i candidates).run (Fated.refusing refusal) s)
      (nameEnd sys refusal w s copy i candidates) := by
  induction candidates generalizing i with
  | nil => exact ⟨_, rfl, rfl⟩
  | cons c cs ih =>
    have hnext : ∀ i, NameRuns sys s copy (c :: cs)
        ((nameCopy sys w copy i cs).run (Fated.refusing refusal) s)
        (nameEnd sys refusal w s copy i cs) := fun i =>
      (ih fun d hd => hne d (List.mem_cons_of_mem _ hd)).cons
    unfold nameCopy nameEnd
    rw [Fated.run_bind, run_refusing_isLink]
    simp only
    by_cases hlink :
        (!works refusal (.candidateLstat w i) || (s.at? sys c).any Kind.isLink) = true
    · rw [if_pos hlink, if_pos hlink]
      exact hnext (i + 1)
    · rw [if_neg hlink, if_neg hlink, Fated.run_rescue, Fated.run_bind,
        run_renameNoReplace sys refusal c w (.copy i) hcopy]
      have hfree : ∀ u, s.refuses sys sys.windows copy c = .ok u → s.at? sys c = none := by
        intro u hu
        rcases (State.refuses_eq_ok hcopy).mp hu with hfree | ⟨-, hsame⟩
        · exact hfree
        · exact absurd hsame (hne c List.mem_cons_self)
      rcases hend : renameEnd sys refusal w (.copy i) (s.refuses sys sys.windows copy c) with
        _ | e | _
      · refine ⟨rfl, List.mem_cons_self, ?_⟩
        rcases hadmitted : s.refuses sys sys.windows copy c with e | u
        · rw [hadmitted] at hend
          cases hend
        · exact hfree u hadmitted
      · simp only
        by_cases hexists : e = .fileExists
        · subst hexists
          exact hnext (i + 1)
        · rw [if_neg hexists, if_neg fun h => hexists (LibraryError.os.inj h)]
          exact ⟨_, rfl, rfl⟩
      · refine ⟨⟨_, rfl, rfl⟩, List.mem_cons_self, ?_⟩
        rcases hadmitted : s.refuses sys sys.windows copy c with e | u
        · rw [hadmitted] at hend
          cases hend
        · exact hfree u hadmitted

structure Leaves (sys : System) (s : State F) (copy : Place F) (bytes : List UInt8) (candidates : List (Place F))
    (named : Option (Place F)) (left : Bool) (t : State F) : Prop where
  free : ∀ c ∈ named, c ∈ candidates ∧ s.at? sys c = none
  eq : ∃ bs, t = (if left then (named.elim s fun c => s.write sys c bytes).write sys copy bs
    else named.elim s fun c => s.write sys c bytes)

/-- What `_copy_verified` leaves. -/
def CopyVerified (sys : System) (s : State F) (copy : Place F) (bytes : List UInt8) (candidates : List (Place F))
    (r : Ending LibraryError (Place F) × State F) : CopyEnd F → Prop
  | .made c => r = (.returned c, s.write sys c bytes) ∧ c ∈ candidates ∧ s.at? sys c = none
  | .failed named left => ∃ e t, e.isPlain = true ∧ r = (.raised e, t) ∧
    Leaves sys s copy bytes candidates named left t

theorem run_removePartial (hbase : base.at? sys copy = none) :
    (removePartial sys w copy).run (Fated.refusing refusal) (base.write sys copy bs) =
      if !works refusal (.partialExists w) then (.returned (), base.write sys copy bs)
      else match refusal (.unlinkPartial w) with
        | none => (.returned (), base)
        | some e => (.raised (.os e), base.write sys copy bs) := by
  have hthere : ((base.write sys copy bs).at? sys copy).any Kind.leads = true := by
    unfold State.write
    rw [State.at?_put_self]
    rfl
  have hclean : (base.write sys copy bs).put sys copy none = base := by
    unfold State.write
    rw [State.put_put, State.put_same hbase]
  unfold removePartial
  rw [Fated.run_bind, run_refusing_exists, hthere, Bool.and_true]
  simp only
  by_cases hworks : works refusal (.partialExists w) = true
  · rw [hworks, if_pos rfl, Fated.run_effect, hclean]
    cases refusal (.unlinkPartial w) <;> rfl
  · rw [Bool.not_eq_true] at hworks
    rw [hworks]
    rfl

theorem run_always {e : LibraryError}
    (hm : m.run (Fated.refusing refusal) s = (.raised e, base.write sys copy bs))
    (hplain : e.isPlain = true) (hbase : base.at? sys copy = none) :
    ∃ e' : LibraryError, e'.isPlain = true ∧
      (always m (removePartial sys w copy)).run (Fated.refusing refusal) s = (.raised e', if !(works refusal (.partialExists w) && works refusal (.unlinkPartial w)) then
        base.write sys copy bs else base) := by
  have hm' : m (Fated.refusing refusal) s = (.raised e, base.write sys copy bs) := hm
  have hrun : (always m (removePartial sys w copy)).run (Fated.refusing refusal) s =
      (removePartial sys w copy >>= fun _ => (Fated.raise e : OnLibrary F α)).run
        (Fated.refusing refusal) (base.write sys copy bs) := by
    unfold always Fated.run
    simp only [hm']
  rw [hrun, Fated.run_bind, run_removePartial hbase]
  by_cases hworks : works refusal (.partialExists w) = true
  · rw [hworks]
    simp only [Bool.not_true, Bool.false_eq_true, if_false, Bool.true_and, works]
    rcases refusal (.unlinkPartial w) with _ | e'
    · exact ⟨_, hplain, rfl⟩
    · exact ⟨_, rfl, rfl⟩
  · rw [Bool.not_eq_true] at hworks
    rw [hworks]
    exact ⟨_, hplain, rfl⟩

theorem run_always_clean {t : State F} {r : Ending LibraryError α}
    (hm : m.run (Fated.refusing refusal) s = (r, t)) (hr : r ≠ .stopped)
    (hbase : t.at? sys copy = none) :
    (always m (removePartial sys w copy)).run (Fated.refusing refusal) s = (r, t) := by
  have hm' : m (Fated.refusing refusal) s = (r, t) := hm
  have hremove : (removePartial sys w copy).run (Fated.refusing refusal) t = (.returned (), t) := by
    unfold removePartial
    rw [Fated.run_bind, run_refusing_exists, hbase]
    simp only [Option.any_none, Bool.and_false, Bool.false_eq_true, if_false]
    rfl
  cases r with
  | returned a =>
    have hrun : (always m (removePartial sys w copy)).run (Fated.refusing refusal) s =
        (removePartial sys w copy >>= fun _ => (pure a : OnLibrary F α)).run
          (Fated.refusing refusal) t := by
      unfold always Fated.run
      simp only [hm']
    rw [hrun, Fated.run_then hremove]
    rfl
  | raised e =>
    have hrun : (always m (removePartial sys w copy)).run (Fated.refusing refusal) s =
        (removePartial sys w copy >>= fun _ => (Fated.raise e : OnLibrary F α)).run
          (Fated.refusing refusal) t := by
      unfold always Fated.run
      simp only [hm']
    rw [hrun, Fated.run_then hremove]
    rfl
  | stopped => exact absurd rfl hr

variable (refusal artifact w) in
theorem run_copyVerified {first : Place F} (hsource : s.bytes? sys source = some bytes)
    (hfree : s.at? sys (partialCopy given w first) = none)
    (hne : ∀ c ∈ first :: candidates, (partialCopy given w first).key sys ≠ c.key sys) :
    CopyVerified sys s (partialCopy given w first) bytes (first :: candidates)
      ((copyVerified sys given w artifact source first candidates).run (Fated.refusing refusal) s)
      (copyEnd sys given refusal w artifact s bytes first candidates) := by
  unfold copyVerified copyEnd
  generalize partialCopy given w first = copy at hfree hne
  have hrun := run_copy2 given refusal copy w hsource
  have hkey : source.key sys ≠ copy.key sys := by
    apply State.key_ne _ hfree
    rw [State.at?_of_bytes? hsource]
    exact fun hn => by cases hn
  unfold CopyRuns at hrun
  by_cases hopen : works refusal (.copyOpen w) = true
  swap
  · rw [Bool.not_eq_true] at hopen
    rw [hopen] at hrun
    obtain ⟨e, hplain, hrun⟩ := hrun
    simp only [hopen, Bool.not_false, if_true]
    refine ⟨e, s, hplain, ?_, ⟨(fun c hc => by cases hc), [], rfl⟩⟩
    apply run_always_clean _ (fun hn => by cases hn) hfree
    unfold copyThrough
    rw [Fated.run_abort hrun]
  rw [hopen] at hrun
  simp only [hopen, Bool.not_true, Bool.false_eq_true, if_false] at hrun ⊢
  -- what failed before the copy was complete and checked
  have hfails : ∀ (e : LibraryError) bs, e.isPlain = true → (copyThrough sys given w artifact source copy (first :: candidates)).run
      (Fated.refusing refusal) s = (.raised e, s.write sys copy bs) →
      CopyVerified sys s copy bytes (first :: candidates)
        ((always (copyThrough sys given w artifact source copy (first :: candidates))
          (removePartial sys w copy)).run (Fated.refusing refusal) s)
        (.failed none !(works refusal (.partialExists w) && works refusal (.unlinkPartial w))) := by
    intro e bs hplain hrun
    obtain ⟨e', hplain, hrun⟩ := run_always (w := w) hrun hplain hfree
    exact ⟨e', _, hplain, hrun, ⟨(fun c hc => by cases hc), bs, rfl⟩⟩
  by_cases hwhole : (works refusal (.copyPart w) && works refusal (.copyRest w) &&
      works refusal (.copyStat w)) = true
  swap
  · rw [Bool.not_eq_true] at hwhole
    rw [hwhole] at hrun ⊢
    obtain ⟨e, bs, hplain, hrun⟩ := hrun
    simp only [Bool.false_and, Bool.not_false, if_true]
    exact hfails e bs hplain (by
      unfold copyThrough
      rw [Fated.run_abort hrun])
  rw [hwhole] at hrun ⊢
  simp only [Bool.true_and, Bool.not_true, Bool.false_eq_true, if_false] at hrun ⊢
  have horiginal : (s.write sys copy bytes).bytes? sys source = some bytes := by
    rw [← hsource]
    exact State.bytes?_put_ne hkey
  have hverify := run_verifyCopy refusal w artifact horiginal
    (State.bytes?_write_self (p := copy))
  by_cases hverifies : verifies sys refusal w artifact bytes = true
  swap
  · rw [Bool.not_eq_true] at hverifies
    rw [hverifies] at hverify ⊢
    obtain ⟨e, hplain, hverify⟩ := hverify
    simp only [Bool.not_false, if_true]
    exact hfails e bytes hplain (by
      unfold copyThrough
      rw [Fated.run_then hrun, Fated.run_abort hverify])
  rw [hverifies] at hverify ⊢
  simp only [Bool.not_true, Bool.false_eq_true, if_false, if_true] at hverify ⊢
  have hcopied : (s.write sys copy bytes).at? sys copy = some (.file bytes) := by
    unfold State.write
    exact State.at?_put_self
  have hthere : (s.write sys copy bytes).at? sys copy ≠ none := by
    rw [hcopied]
    exact fun hn => by cases hn
  have hname := run_nameCopy refusal w (i := 0) hthere hne
  have hbodyRun : (copyThrough sys given w artifact source copy (first :: candidates)).run
      (Fated.refusing refusal) s =
      (nameCopy sys w copy 0 (first :: candidates)).run (Fated.refusing refusal)
        (s.write sys copy bytes) := by
    unfold copyThrough
    rw [Fated.run_then hrun, Fated.run_then hverify]
  -- a candidate that is free is free without the partial copy too
  have hcandidate : ∀ c ∈ first :: candidates, (s.write sys copy bytes).at? sys c = none →
      s.at? sys c = none := by
    intro c hc hnone
    unfold State.write at hnone
    rwa [State.at?_put_ne (hne c hc).symm] at hnone
  rcases hend : nameEnd sys refusal w (s.write sys copy bytes) copy 0 (first :: candidates) with
    c | _ | c
  · rw [hend] at hname
    obtain ⟨hname, hc, hnone⟩ := hname
    have hrenamed : (s.write sys copy bytes).renamed sys copy c = s.write sys c bytes := by
      unfold State.renamed
      rw [hcopied]
      unfold State.write
      rw [State.put_put, State.put_same hfree]
    rw [hrenamed] at hname
    refine ⟨?_, hc, hcandidate c hc hnone⟩
    apply run_always_clean (by rw [hbodyRun, hname]) (fun hn => by cases hn)
    unfold State.write
    rw [State.at?_put_ne (hne c hc), hfree]
  · rw [hend] at hname
    obtain ⟨e, hplain, hname⟩ := hname
    exact hfails e bytes hplain (by rw [hbodyRun, hname])
  · rw [hend] at hname
    obtain ⟨⟨e, hplain, hname⟩, hc, hnone⟩ := hname
    have hlinked : (s.write sys copy bytes).linked sys copy c =
        (s.write sys c bytes).write sys copy bytes := by
      unfold State.linked
      rw [hcopied]
      exact State.put_comm (hne c hc)
    rw [hlinked] at hname
    have hbase : (s.write sys c bytes).at? sys copy = none := by
      unfold State.write
      rw [State.at?_put_ne (hne c hc), hfree]
    obtain ⟨e', hplain', hrun'⟩ := run_always (w := w) (hbodyRun.trans hname) hplain hbase
    refine ⟨e', _, hplain', hrun', ⟨fun d hd => ?_, bytes, rfl⟩⟩
    cases hd
    exact ⟨hc, hcandidate c hc hnone⟩

/-- What `_move_file` leaves. -/
def Shifted (sys : System) (s : State F) (source target copy : Place F) {α : Type}
    (r : Ending LibraryError α × State F) : Shift → Prop
  | .moved _ => ∃ a, r = (.returned a, s.renamed sys source target)
  | .stayed clean => ∃ e t, e.isPlain = true ∧ r = (.raised e, t) ∧
    if clean then t = s else ∃ bs, t = s.write sys copy bs
  | .doubled => ∃ e t, e.isPlain = true ∧ r = (.raised e, t) ∧ s.at? sys target = none ∧
    (t = s.linked sys source target ∨ ∃ bs, t = (s.linked sys source target).write sys copy bs)

theorem linked_eq_write (hsource : s.bytes? sys source = some bytes) :
    s.linked sys source target = s.write sys target bytes := by
  unfold State.linked State.write
  rw [State.at?_of_bytes? hsource]

theorem renamed_eq_write (hsource : s.bytes? sys source = some bytes)
    (hne : source.key sys ≠ target.key sys) :
    (s.write sys target bytes).put sys source none = s.renamed sys source target := by
  unfold State.renamed State.write
  rw [State.at?_of_bytes? hsource, State.put_comm hne]

theorem run_renameNoReplace_shifted (hsource : s.at? sys source ≠ none)
    (hdoubled : renameEnd sys refusal w .artifact (s.refuses sys sys.windows source target) = .doubled →
      s.at? sys target = none) :
    Shifted sys s source target copy
      ((renameNoReplace sys w .artifact source target).run (Fated.refusing refusal) s)
      (renameEnd sys refusal w .artifact (s.refuses sys sys.windows source target)).shift := by
  rw [run_renameNoReplace sys refusal target w .artifact hsource]
  rcases hend : renameEnd sys refusal w .artifact (s.refuses sys sys.windows source target) with
    _ | e | _
  · exact ⟨_, rfl⟩
  · exact ⟨_, _, rfl, rfl, rfl⟩
  · exact ⟨_, _, rfl, rfl, hdoubled hend, .inl rfl⟩

/-- Only a new name that was free can be the second one. -/
theorem free_of_doubled {n : Named} (hsource : s.at? sys source ≠ none)
    (hend : renameEnd sys refusal w n (s.refuses sys sys.windows source target) = .doubled) :
    s.at? sys target = none := by
  unfold renameEnd at hend
  split at hend
  · cases hend
  · rename_i u hadmitted
    split at hend
    · split at hend <;> cases hend
    · rename_i hwindows
      rw [Bool.not_eq_true] at hwindows
      rw [hwindows, State.refuses_eq_ok hsource] at hadmitted
      exact hadmitted.resolve_right fun h => by cases h.1

variable (refusal w artifact) in
theorem run_moveFile (hsource : s.bytes? sys source = some bytes)
    (hne : source.key sys ≠ target.key sys)
    (hfree : s.at? sys (partialCopy given w target) = none)
    (hcopy : (partialCopy given w target).key sys ≠ target.key sys) :
    Shifted sys s source target (partialCopy given w target)
        ((moveFile sys given w artifact source target).run (Fated.refusing refusal) s)
        (moveEnd sys given refusal w artifact s bytes source target) ∧
      ∀ cross, moveEnd sys given refusal w artifact s bytes source target = .moved cross →
        (moveFile sys given w artifact source target).run (Fated.refusing refusal) s =
          (.returned cross, s.renamed sys source target) := by
  have hthere : s.at? sys source ≠ none := by
    rw [State.at?_of_bytes? hsource]
    exact fun hn => by cases hn
  unfold moveFile moveEnd
  rw [Fated.run_rescue, Fated.run_bind, run_renameNoReplace sys refusal target w .artifact hthere]
  rcases hend : renameEnd sys refusal w .artifact (s.refuses sys sys.windows source target) with
    _ | e | _
  · refine ⟨⟨_, rfl⟩, fun cross hcross => ?_⟩
    cases hcross
    rfl
  · simp only
    by_cases hcross : e = .crossDevice
    swap
    · rw [if_pos hcross, if_pos fun h => hcross (LibraryError.os.inj h)]
      exact ⟨⟨_, _, rfl, rfl, rfl⟩, fun cross hn => by cases hn⟩
    subst hcross
    simp only [ne_eq, not_true_eq_false, if_false]
    rw [Fated.run_bind]
    have honly : ∀ c ∈ [target], (partialCopy given w target).key sys ≠ c.key sys := by
      intro c hc
      cases List.mem_singleton.mp hc
      exact hcopy
    have hcopied := run_copyVerified refusal w artifact hsource hfree honly
    rcases hcopyEnd : copyEnd sys given refusal w artifact s bytes target [] with c | ⟨named, left⟩
    · rw [hcopyEnd] at hcopied
      obtain ⟨hcopied, hc, hnone⟩ := hcopied
      obtain rfl := List.mem_singleton.mp hc
      rw [hcopied]
      simp only
      rw [Fated.run_bind, Fated.run_rescue, Fated.run_effect]
      rcases hunlink : refusal (.unlinkSource w) with _ | e
      · simp only [works, hunlink, Option.isNone_none, if_true, renamed_eq_write hsource hne]
        refine ⟨⟨_, rfl⟩, fun cross hcross => ?_⟩
        cases hcross
        rfl
      · rcases hcreated : refusal (.unlinkCreated w) with _ | e'
        all_goals
          simp only [works, hunlink, hcreated, Option.isNone_some, Option.isNone_none,
            Bool.false_eq_true, if_false, if_true, Fated.run_bind, Fated.run_effect]
        · refine ⟨⟨_, _, rfl, rfl, ?_⟩, fun cross hn => by simp at hn⟩
          show (s.write sys c bytes).put sys c none = s
          unfold State.write
          rw [State.put_put, State.put_same hnone]
        · refine ⟨⟨_, _, rfl, rfl, hnone, .inl (linked_eq_write hsource).symm⟩, fun cross hn => by
            simp at hn⟩
    · rw [hcopyEnd] at hcopied
      obtain ⟨e, t, hplain, hrun, hleaves⟩ := hcopied
      rw [hrun]
      obtain ⟨bs, heq⟩ := hleaves.eq
      cases named with
      | none =>
        refine ⟨⟨e, t, hplain, rfl, ?_⟩, fun cross hn => by cases hn⟩
        cases left with
        | false => exact heq
        | true => exact ⟨bs, heq⟩
      | some c =>
        obtain ⟨hc, hnone⟩ := hleaves.free c rfl
        cases List.mem_singleton.mp hc
        refine ⟨⟨e, t, hplain, rfl, hnone, ?_⟩, fun cross hn => by cases hn⟩
        rw [linked_eq_write hsource]
        cases left with
        | false => exact .inl heq
        | true => exact .inr ⟨bs, heq⟩
  · simp only
    rw [if_pos (by decide)]
    exact ⟨⟨_, _, rfl, rfl, free_of_doubled hthere hend, .inl rfl⟩, fun cross hn => by cases hn⟩

end
end QronosAgent.Library

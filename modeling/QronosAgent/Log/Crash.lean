import QronosAgent.Log.Runs

/-! A write that was cut off: what `read_records` still finds, depending on where the cut
falls and on what was appended behind it. -/
namespace QronosAgent.Log
open Lib
variable {F : Type} [PyFloat F]

structure Interpreter where
  limits : JsonLimits
  digits : 640 ≤ limits.intDigits

/-- The calls on a disk that never refuses. -/
def appends (ps : List (Payload F)) : List (Call F) := ps.map fun p => ⟨p, Disk.working⟩

/-- The state in which the write of `p` has been cut off behind `n` bytes. -/
def cutState (log : AppendOnlyLog) (limits : JsonLimits) (before : List (Payload F))
    (p : Payload F) (n : ℕ) : LogState F :=
  (afterCalls log limits .fresh (appends before)).after log limits ⟨p, Disk.cutAt n⟩

def crashRun (log : AppendOnlyLog) (limits : JsonLimits) (before : List (Payload F))
    (p : Payload F) (n : ℕ) (after : List (Payload F)) : LogState F :=
  afterCalls log limits (cutState log limits before p n) (appends after)

/-- `read_records` does not raise, and every record whose append completed is among what it
returns. -/
def Survives (log : AppendOnlyLog) (limits : JsonLimits) (s : LogState F) : Prop :=
  ∃ records, log.readRecords limits Disk.working s.files = .ok records ∧
    s.since.Sublist records

/-- The cut falls between two records, or a rotation took the cut file away, or the cut falls
between two characters and no record came behind it. -/
def Spared (log : AppendOnlyLog) (limits : JsonLimits) (before : List (Payload F))
    (p : Payload F) (n : ℕ) (after : List (Payload F)) : Prop :=
  ∀ line, p.bytes limits = .ok line →
    n = 0 ∨ line.size ≤ n ∨
    (cutState log limits before p n).rotations < (crashRun log limits before p n after).rotations ∨
    WholeChars (line.extract 0 n) ∧ ∀ q ∈ after, ∀ later, q.bytes limits ≠ .ok later

section States
variable {log : AppendOnlyLog} {limits : JsonLimits} {s : LogState F} {p : Payload F}
  {line : ByteArray}

/-- The live file consists of whole records, at least those that it should hold. -/
def Clean (limits : JsonLimits) (s : LogState F) : Prop :=
  s.files.live = none ∧ s.since = [] ∨
    ∃ b records, s.files.live = some b ∧ Shows limits b records [] ∧ s.since.Sublist records

variable {since records : List (Members F)} {ps us : List (Payload F)} {b b' cut : ByteArray}
  {t : PyStr} {n : ℕ} {xs : List PyStr} {u : Payload F}

theorem clean_alone {files : Files} {older : Option (List (Members F))} {rotations : ℕ}
    (hp : p.Unseparated) (hline : p.bytes limits = .ok line) (hlive : files.live = some line)
    (hsince : since.Sublist [p.members]) :
    Clean limits (⟨files, since, older, rotations⟩ : LogState F) := by
  have halone := shows_empty.append_line hp hline
  exact .inr ⟨line, [p.members], hlive, by simpa using halone, hsince⟩

/-- Appending the whole of a record, whether the call completes or is cut off behind it. -/
theorem Clean.wrote {completed : List (Members F)} {t : LogState F} (h : Clean limits s)
    (hp : p.Unseparated) (hline : p.bytes limits = .ok line)
    (hcompleted : completed.Sublist [p.members])
    (hwrote : Wrote log s line.size line completed t) : Clean limits t := by
  cases hwrote with
  | behind hroom =>
    rcases h with ⟨hl, hsince⟩ | ⟨b, records, hl, hb, hsub⟩
    · rw [hl, hsince]
      exact clean_alone hp hline (by simp) (by simpa using hcompleted)
    · refine .inr ⟨b ++ line, records ++ [p.members], by simp [hl], hb.append_line hp hline, ?_⟩
      exact hsub.append hcompleted
  | rotated b hl hfull => exact clean_alone hp hline rfl hcompleted

theorem after_cases (limits : JsonLimits) (hpath : log.path ≠ none) (s : LogState F)
    (p : Payload F) :
    s.after log limits ⟨p, Disk.working⟩ = s ∧ (∀ line, p.bytes limits ≠ .ok line) ∨
    ∃ line, p.bytes limits = .ok line ∧
      Wrote log s line.size line [p.members] (s.after log limits ⟨p, Disk.working⟩) := by
  cases hb : p.bytes limits with
  | error e => exact .inl ⟨after_raises hpath hb, by simp⟩
  | ok line => exact .inr ⟨line, rfl, wrote_append hpath hb⟩

theorem Clean.after (h : Clean limits s) (hpath : log.path ≠ none) (hp : p.Unseparated) :
    Clean limits (s.after log limits ⟨p, Disk.working⟩) := by
  rcases after_cases limits hpath s p with ⟨he, _⟩ | ⟨line, hline, hwrote⟩
  · rw [he]
    exact h
  · exact h.wrote hp hline (List.Sublist.refl _) hwrote

theorem Clean.afterCalls (h : Clean limits s) (hpath : log.path ≠ none)
    (hps : ∀ p ∈ ps, p.Unseparated) : Clean limits (afterCalls log limits s (appends ps)) := by
  induction ps generalizing s with
  | nil => exact h
  | cons p ps ih =>
    exact ih (h.after hpath (hps p (by simp))) fun q hq => hps q (by simp [hq])

theorem Clean.survives (h : Clean limits s) (hpath : log.path ≠ none) :
    Survives log limits s := by
  rw [Survives, AppendOnlyLog.readRecords, if_neg hpath]
  rcases h with ⟨hl, hsince⟩ | ⟨b, records, hl, hb, hsub⟩
  · exact ⟨[], by simp only [hl], by rw [hsince]⟩
  · refine ⟨records, ?_, hsub⟩
    simp only [hl, Disk.working, Bool.not_true, Bool.false_eq_true, if_false]
    exact hb.recordsIn_whole

/-- A rotation leaves nothing of what was in the live file. -/
theorem clean_of_rotation (hpath : log.path ≠ none) (hps : ∀ p ∈ ps, p.Unseparated)
    (h : s.rotations < (afterCalls log limits s (appends ps)).rotations) :
    Clean limits (afterCalls log limits s (appends ps)) := by
  induction ps generalizing s with
  | nil => exact absurd h (lt_irrefl _)
  | cons p ps ih =>
    have hrest : ∀ q ∈ ps, q.Unseparated := fun q hq => hps q (by simp [hq])
    change s.rotations < (afterCalls log limits (s.after log limits ⟨p, Disk.working⟩)
      (appends ps)).rotations at h
    change Clean limits (afterCalls log limits (s.after log limits ⟨p, Disk.working⟩)
      (appends ps))
    have hcases := after_cases limits hpath s p
    generalize s.after log limits ⟨p, Disk.working⟩ = t at h hcases ⊢
    rcases hcases with ⟨rfl, _⟩ | ⟨line, hline, hwrote⟩
    · exact ih hrest h
    · cases hwrote with
      | behind hroom => exact ih hrest h
      | rotated b hl hfull =>
        exact Clean.afterCalls (clean_alone (hps p (by simp)) hline rfl (List.Sublist.refl _))
          hpath hrest

theorem Kept.clean (h : Kept log limits s) : Clean limits s := by
  rcases h.live with hnone | ⟨b, hl, hb⟩
  · exact .inl hnone
  · exact .inr ⟨b, s.since, hl, hb, List.Sublist.refl _⟩

theorem Kept.afterCalls (h : Kept log limits s) (hpath : log.path ≠ none)
    (hps : ∀ p ∈ ps, p.Unseparated) :
    Kept log limits (afterCalls log limits s (appends ps)) := by
  induction ps generalizing s with
  | nil => exact h
  | cons p ps ih =>
    refine ih ?_ fun q hq => hps q (by simp [hq])
    cases hb : p.bytes limits with
    | error e =>
      rw [after_raises hpath hb]
      exact h
    | ok line => exact h.append hpath (hps p (by simp)) hb

/-- Whole records, and the part of the record that was cut off. -/
theorem live_of_cut (h : Kept log limits s) (hpath : log.path ≠ none)
    (hline : p.bytes limits = .ok line) (n : ℕ) :
    ∃ b, (s.after log limits ⟨p, Disk.cutAt n⟩).files.live = some (b ++ line.extract 0 n) ∧
      Shows limits b (s.after log limits ⟨p, Disk.cutAt n⟩).since [] := by
  have hwrote : Wrote log s line.size (line.extract 0 n) []
      (s.after log limits ⟨p, Disk.cutAt n⟩) := by
    simpa [Disk.cutAt] using wrote_after s (Disk.cutAt n) hpath hline rfl
  generalize s.after log limits ⟨p, Disk.cutAt n⟩ = t at hwrote ⊢
  cases hwrote with
  | behind hroom =>
    rcases h.live with ⟨hl, hsince⟩ | ⟨b, hl, hb⟩
    · exact ⟨ByteArray.empty, by simp [hl], by simpa [hsince] using shows_empty⟩
    · exact ⟨b, by simp [hl], by simpa using hb⟩
  | rotated b hl hfull => exact ⟨ByteArray.empty, by simp, shows_empty⟩

theorem rotations_le_after (log : AppendOnlyLog) (limits : JsonLimits) (s : LogState F)
    (c : Call F) :
    s.rotations ≤ (s.after log limits c).rotations := by
  simp only [LogState.after]
  split <;> simp

theorem rotations_le_afterCalls (log : AppendOnlyLog) (limits : JsonLimits) (s : LogState F)
    (cs : List (Call F)) :
    s.rotations ≤ (afterCalls log limits s cs).rotations := by
  induction cs generalizing s with
  | nil => exact le_rfl
  | cons c cs ih => exact (rotations_le_after log limits s c).trans (ih _)

/-- Without a rotation the records that are written come behind the file as it was. -/
theorem live_unrotated (hpath : log.path ≠ none) (hl : s.files.live = some b)
    (h : ¬s.rotations < (afterCalls log limits s (appends ps)).rotations) :
    ∃ us : List (Payload F), (∀ u ∈ us, u ∈ ps ∧ ∃ line, u.bytes limits = .ok line) ∧
      (us = [] → ∀ q ∈ ps, ∀ line, q.bytes limits ≠ .ok line) ∧
      (∃ b', PyStr.encodeUtf8 (framed (us.map Payload.text)) = some b' ∧
        (afterCalls log limits s (appends ps)).files.live = some (b ++ b')) ∧
      (afterCalls log limits s (appends ps)).since = s.since ++ us.map Payload.members := by
  induction ps generalizing s b with
  | nil =>
    exact ⟨[], by simp, by simp, ⟨ByteArray.empty, rfl, by simp [appends, afterCalls, hl]⟩,
      by simp [appends, afterCalls]⟩
  | cons p ps ih =>
    change ¬s.rotations < (afterCalls log limits (s.after log limits ⟨p, Disk.working⟩)
      (appends ps)).rotations at h
    change ∃ us : List (Payload F), _ ∧ _ ∧ (∃ b', _ ∧ (afterCalls log limits
      (s.after log limits ⟨p, Disk.working⟩) (appends ps)).files.live = some (b ++ b')) ∧
      (afterCalls log limits (s.after log limits ⟨p, Disk.working⟩) (appends ps)).since = _
    have hcases := after_cases limits hpath s p
    generalize s.after log limits ⟨p, Disk.working⟩ = t at h hcases ⊢
    rcases hcases with ⟨rfl, hraises⟩ | ⟨line, hline, hwrote⟩
    · obtain ⟨us, hus, hnone, hlive, hsince⟩ := ih hl h
      refine ⟨us, fun u hu => ⟨by simp [(hus u hu).1], (hus u hu).2⟩, ?_, hlive, hsince⟩
      intro hnil q hq
      rcases List.mem_cons.mp hq with rfl | hq
      · exact hraises
      · exact hnone hnil q hq
    · cases hwrote with
      | behind hroom =>
        have hl' : s.files.live.getD ByteArray.empty = b := by rw [hl, Option.getD_some]
        rw [hl'] at h ⊢
        obtain ⟨us, hus, -, ⟨b', hb', hlive⟩, hsince⟩ :=
          ih (s := ⟨⟨some (b ++ line), s.files.previous⟩, s.since ++ [p.members], s.older,
            s.rotations⟩) rfl h
        refine ⟨p :: us, ?_, by simp, ⟨line ++ b', ?_, ?_⟩, ?_⟩
        · intro u hu
          rcases List.mem_cons.mp hu with rfl | hu
          · exact ⟨by simp, line, hline⟩
          · exact ⟨by simp [(hus u hu).1], (hus u hu).2⟩
        · have he := PyStr.encodeUtf8_append (bytes_ok hline).2 hb'
          simpa [framed_cons] using he
        · rw [hlive, ByteArray.append_assoc]
        · rw [hsince]
          simp
      | rotated b₀ hl₀ hfull =>
        have hle := rotations_le_afterCalls log limits ⟨⟨some line, some b₀⟩, [p.members],
          some s.since, s.rotations + 1⟩ (appends ps)
        exact absurd (lt_of_lt_of_le (Nat.lt_succ_self _) hle) h

theorem readLine_cut (python : Interpreter) (hp : p.Serialisable python.limits)
    (ht : t <+: p.text) : ∃ m, AppendOnlyLog.readLine (F := F) python.limits t = .ok m := by
  have hdigits := python.digits
  rw [AppendOnlyLog.readLine]
  by_cases hblank : t.blank = true
  · exact ⟨none, by rw [if_pos hblank]⟩
  · rw [if_neg hblank]
    have hstorable := Json.storable_of_serialisable hp p.keys
    by_cases hne : t = p.text
    · have hloads : Json.loads python.limits p.text = .ok (Json.obj p.members) :=
        Json.loads_text .oneLine hstorable
      exact ⟨some p.members, by rw [hne, hloads]⟩
    · exact ⟨none, by rw [Json.loads_cut (by omega) hstorable p.floats ht hne]⟩

/-- A cut between two characters leaves the beginning of the record's text. -/
theorem text_of_cut (hline : p.bytes limits = .ok line)
    (ht : PyStr.encodeUtf8 t = some (line.extract 0 n)) (hn : 0 < n) (hlt : n < line.size) :
    t <+: p.text ∧ t ≠ [] := by
  have hsize : (line.extract 0 n).size = n := by
    rw [ByteArray.size_extract]
    omega
  have hjoin : line.extract 0 n ++ line.extract n line.size = line := by
    rw [← ByteArray.extract_eq_extract_append_extract n (Nat.zero_le n) hlt.le,
      ByteArray.extract_zero_size]
  have hpre : t <+: p.text ++ [lf] := by
    apply prefix_of_encode (c := line.extract n line.size) ht
    rw [hjoin]
    exact (bytes_ok hline).2
  constructor
  · rcases prefix_append_cases hpre with ⟨h, _⟩ | ⟨u, rfl, hu⟩
    · exact h
    · cases u with
      | nil => simp
      | cons c u =>
        obtain ⟨rfl, hnil⟩ := List.cons_prefix_cons.mp hu
        rw [List.prefix_nil.mp hnil, (bytes_ok hline).2, Option.some.injEq] at ht
        rw [← ht] at hsize
        omega
  · rintro rfl
    have : ByteArray.empty = line.extract 0 n := Option.some.inj ht
    rw [← this] at hsize
    exact absurd hsize (by simp; omega)

theorem survives_torn {python : Interpreter} (hpath : log.path ≠ none) (hp : p.Unseparated)
    (hline : p.bytes python.limits = .ok line) (hl : s.files.live = some (b ++ line.extract 0 n))
    (hb : Shows python.limits b s.since []) (ht : PyStr.encodeUtf8 t = some (line.extract 0 n))
    (hn : 0 < n) (hlt : n < line.size) :
    Survives log python.limits s := by
  obtain ⟨hpre, hne⟩ := text_of_cut hline ht hn hlt
  obtain ⟨m, hm⟩ := readLine_cut python (bytes_ok hline).1 hpre
  obtain ⟨ts, hts, hunbroken, hrecords⟩ := hb
  have htorn : Shows python.limits (b ++ line.extract 0 n) s.since t := by
    refine ⟨ts, ?_, hunbroken, hrecords⟩
    rw [List.append_nil] at hts
    exact PyStr.encodeUtf8_append hts ht
  refine ⟨s.since ++ m.toList, ?_, List.sublist_append_left _ _⟩
  rw [AppendOnlyLog.readRecords, if_neg hpath]
  simp only [hl, Disk.working, Bool.not_true, Bool.false_eq_true, if_false]
  exact htorn.recordsIn ((unbroken_text hp).of_isPrefix hpre) (fun _ => hm)
    fun hnil => absurd hnil hne

theorem readLines_cons_inv {x : PyStr}
    (h : AppendOnlyLog.readLines limits (x :: xs) = .ok records) :
    ∃ m rest, AppendOnlyLog.readLine limits x = .ok m ∧
      AppendOnlyLog.readLines limits xs = .ok rest ∧ records = m.toList ++ rest := by
  rw [AppendOnlyLog.readLines] at h
  cases hx : AppendOnlyLog.readLine (F := F) limits x with
  | error e => simp [hx] at h
  | ok m =>
    cases m with
    | none =>
      simp only [hx] at h
      exact ⟨none, records, rfl, h, rfl⟩
    | some ms =>
      cases hxs : AppendOnlyLog.readLines (F := F) limits xs with
      | error e => simp [hx, hxs, Except.map] at h
      | ok rest =>
        simp only [hx, hxs, Except.map, Except.ok.injEq] at h
        exact ⟨some ms, rest, rfl, rfl, h.symm⟩

theorem readLines_append_inv {ys : List PyStr}
    (h : AppendOnlyLog.readLines limits (xs ++ ys) = .ok records) :
    ∃ as bs, AppendOnlyLog.readLines limits xs = .ok as ∧
      AppendOnlyLog.readLines limits ys = .ok bs ∧ records = as ++ bs := by
  induction xs generalizing records with
  | nil => exact ⟨[], records, rfl, h, rfl⟩
  | cons x xs ih =>
    obtain ⟨m, rest, hx, hrest, rfl⟩ := readLines_cons_inv h
    obtain ⟨as, bs, has, hbs, rfl⟩ := ih hrest
    exact ⟨m.toList ++ as, bs, readLines_append (readLines_singleton hx) has, hbs,
      (List.append_assoc ..).symm⟩

/-- A record that runs on behind a cut one is no record. -/
theorem readLine_runs_on {m : Option (Members F)} (hu : u.Serialisable limits)
    (ht : ∃ r, t = .scalar '\x7b' :: r) (h : AppendOnlyLog.readLine limits (t ++ u.text) = .ok m) :
    m = none := by
  obtain ⟨r, rfl⟩ := ht
  have hno : ∀ v : Json F, Json.loads limits (.scalar '\x7b' :: (r ++ u.text)) ≠ .ok v :=
    Json.loads_runs_on (Json.storable_of_serialisable hu u.keys) r
  rw [AppendOnlyLog.readLine, blank_append_text] at h
  cases hl : Json.loads (F := F) limits (.scalar '\x7b' :: r ++ u.text) with
  | ok v => exact absurd hl (hno v)
  | error e =>
    rw [hl] at h
    cases e <;> simp at h
    exact h.symm

theorem readLines_of_recordsIn {ts : List PyStr} (hb : PyStr.encodeUtf8 (framed ts) = some b)
    (hts : ∀ t ∈ ts, Unbroken t) (h : AppendOnlyLog.recordsIn limits b = .ok records) :
    AppendOnlyLog.readLines limits ts = .ok records := by
  have hcr : cr ∉ framed ts := by
    intro hc
    simp only [framed, List.mem_flatMap, List.mem_append, List.mem_singleton] at hc
    obtain ⟨t, ht, hc | hc⟩ := hc
    · exact absurd (hts t ht cr hc) (by decide)
    · contradiction
  have htext : readText b = some (framed ts) := by
    rw [readText, PyStr.decodeUtf8_encodeUtf8 hb, Option.map_some, universalNewlines_eq hcr]
  have hlines : (framed ts).splitlines = ts := by
    have := splitlines_framed hts (show Unbroken [] by simp [Unbroken])
    simpa using this
  rw [AppendOnlyLog.recordsIn, htext] at h
  simp only [hlines] at h
  cases hr : AppendOnlyLog.readLines (F := F) limits ts with
  | error e => simp [hr] at h
  | ok rs =>
    simp only [hr, Except.ok.injEq] at h
    rw [h]

theorem readLines_payloads (hus : ∀ u ∈ us, u.Serialisable limits) :
    AppendOnlyLog.readLines limits (us.map Payload.text) = .ok (us.map Payload.members) := by
  induction us with
  | nil => rfl
  | cons u us ih =>
    have hu := readLines_singleton (readLine_text (hus u (by simp)))
    exact readLines_append hu (ih fun q hq => hus q (by simp [hq]))

theorem not_survives_behind (hpath : log.path ≠ none) (hb : Shows limits b since [])
    (hcut : PyStr.encodeUtf8 t = some cut) (ht : Unbroken t)
    (hopen : ∃ r, t = .scalar '\x7b' :: r)
    (hus : ∀ q ∈ u :: us, q.Unseparated ∧ q.Serialisable limits)
    (hb' : PyStr.encodeUtf8 (framed ((u :: us).map Payload.text)) = some b')
    (hl : s.files.live = some (b ++ cut ++ b'))
    (hsince : s.since = since ++ (u :: us).map Payload.members) :
    ¬Survives log limits s := by
  rintro ⟨records, hrecords, hsub⟩
  obtain ⟨ts, hts, hunbroken, hread⟩ := hb
  rw [List.append_nil] at hts
  have htext : PyStr.encodeUtf8 (framed (ts ++ (t ++ u.text) :: us.map Payload.text)) =
      some (b ++ cut ++ b') := by
    have := PyStr.encodeUtf8_append (PyStr.encodeUtf8_append hts hcut) hb'
    simpa [framed_append, framed_cons] using this
  have hwhole : ∀ x ∈ ts ++ (t ++ u.text) :: us.map Payload.text, Unbroken x := by
    intro x hx
    rcases List.mem_append.mp hx with hx | hx
    · exact hunbroken x hx
    rcases List.mem_cons.mp hx with rfl | hx
    · exact ht.append (unbroken_text (hus u (by simp)).1)
    · obtain ⟨q, hq, rfl⟩ := List.mem_map.mp hx
      exact unbroken_text (hus q (by simp [hq])).1
  rw [AppendOnlyLog.readRecords, if_neg hpath] at hrecords
  simp only [hl, Disk.working, Bool.not_true, Bool.false_eq_true, if_false] at hrecords
  obtain ⟨as, bs, has, hbs, rfl⟩ :=
    readLines_append_inv (readLines_of_recordsIn htext hwhole hrecords)
  obtain ⟨m, rest, hm, hrest, rfl⟩ := readLines_cons_inv hbs
  obtain rfl : as = since := by simpa [hread] using has.symm
  obtain rfl := readLine_runs_on (hus u (by simp)).2 hopen hm
  have hlater : AppendOnlyLog.readLines limits (us.map Payload.text) =
      .ok (us.map Payload.members) := readLines_payloads fun q hq => (hus q (by simp [hq])).2
  obtain rfl : rest = us.map Payload.members := by simpa [hlater] using hrest.symm
  have hlen := hsub.length_le
  rw [hsince] at hlen
  simp at hlen

theorem wholeChars_of_survives (hpath : log.path ≠ none) (hb : WholeChars b) (hb' : WholeChars b')
    (hl : s.files.live = some (b ++ cut ++ b')) (h : Survives log limits s) : WholeChars cut := by
  obtain ⟨records, hrecords, -⟩ := h
  rw [AppendOnlyLog.readRecords, if_neg hpath] at hrecords
  simp only [hl, Disk.working, Bool.not_true, Bool.false_eq_true, if_false] at hrecords
  rw [AppendOnlyLog.recordsIn] at hrecords
  cases ht : readText (b ++ cut ++ b') with
  | none => simp [ht] at hrecords
  | some text =>
    obtain ⟨t, hdecode, -⟩ := Option.map_eq_some_iff.mp ht
    exact hb.middle hb' (wholeChars_of_decode hdecode)

end States

section Crash
variable {log : AppendOnlyLog} {python : Interpreter} {before after : List (Payload F)}
  {p : Payload F} {n : ℕ}

theorem kept_before (hpath : log.path ≠ none) (hsep : ∀ q ∈ before ++ p :: after, q.Unseparated) :
    Kept log python.limits (afterCalls log python.limits .fresh (appends before)) :=
  kept_fresh.afterCalls hpath fun q hq => hsep q (List.mem_append_left _ hq)

/-- A cut between two records costs nothing. -/
theorem clean_of_whole_cut {line : ByteArray} (hpath : log.path ≠ none)
    (hsep : ∀ q ∈ before ++ p :: after, q.Unseparated) (hline : p.bytes python.limits = .ok line)
    (h : n = 0 ∨ line.size ≤ n) : Clean python.limits (cutState log python.limits before p n) := by
  obtain ⟨b, hl, hb⟩ := live_of_cut (kept_before hpath hsep) hpath hline n
  rw [← cutState] at hl hb
  rcases h with rfl | h
  · refine .inr ⟨b, _, ?_, hb, List.Sublist.refl _⟩
    rw [hl, ByteArray.extract_same, ByteArray.append_empty]
  · have hall : line.extract 0 n = line := by
      have := ByteArray.extract_zero_max_size (a := line) (i := n)
      rwa [max_eq_left h] at this
    rw [hall] at hl
    exact .inr ⟨b ++ line, _, hl, hb.append_line (hsep p (by simp)) hline,
      List.sublist_append_left _ _⟩

theorem afterCalls_of_raises {log : AppendOnlyLog} {limits : JsonLimits} {s : LogState F}
    {ps : List (Payload F)} (hpath : log.path ≠ none)
    (h : ∀ q ∈ ps, ∀ line, q.bytes limits ≠ .ok line) :
    afterCalls log limits s (appends ps) = s := by
  induction ps with
  | nil => rfl
  | cons q ps ih =>
    have hq : s.after log limits ⟨q, Disk.working⟩ = s := by
      cases hb : q.bytes limits with
      | error e => exact after_raises hpath hb
      | ok line => exact absurd hb (h q (by simp) line)
    change afterCalls log limits (s.after log limits ⟨q, Disk.working⟩) (appends ps) = s
    rw [hq]
    exact ih fun r hr => h r (by simp [hr])

theorem survives_of_spared (hpath : log.path ≠ none)
    (hsep : ∀ q ∈ before ++ p :: after, q.Unseparated)
    (h : Spared log python.limits before p n after) :
    Survives log python.limits (crashRun log python.limits before p n after) := by
  have hafter : ∀ q ∈ after, q.Unseparated := fun q hq => hsep q (by simp [hq])
  have hkept : Kept log python.limits (afterCalls log python.limits .fresh (appends before)) :=
    kept_before hpath hsep
  cases hline : p.bytes python.limits with
  | error e =>
    have hcut : cutState log python.limits before p n =
        afterCalls log python.limits .fresh (appends before) := after_raises hpath hline
    rw [crashRun, hcut]
    exact (hkept.clean.afterCalls hpath hafter).survives hpath
  | ok line =>
    by_cases hwhole : n = 0 ∨ line.size ≤ n
    · exact ((clean_of_whole_cut hpath hsep hline hwhole).afterCalls hpath hafter).survives hpath
    have hn : 0 < n ∧ n < line.size := by omega
    rcases h line hline with hn' | hn' | hrotated | ⟨⟨t, ht⟩, hnone⟩
    · exact absurd (.inl hn') hwhole
    · exact absurd (.inr hn') hwhole
    · exact (clean_of_rotation hpath hafter hrotated).survives hpath
    · obtain ⟨b, hl, hb⟩ := live_of_cut hkept hpath hline n
      rw [crashRun, afterCalls_of_raises hpath hnone]
      exact survives_torn hpath (hsep p (by simp)) hline hl hb ht hn.1 hn.2

theorem spared_of_survives (hpath : log.path ≠ none)
    (hsep : ∀ q ∈ before ++ p :: after, q.Unseparated)
    (h : Survives log python.limits (crashRun log python.limits before p n after)) :
    Spared log python.limits before p n after := by
  intro line hline
  by_cases hwhole : n = 0 ∨ line.size ≤ n
  · rcases hwhole with hn | hn
    · exact .inl hn
    · exact .inr (.inl hn)
  have hn : 0 < n ∧ n < line.size := by omega
  by_cases hrotated : (cutState log python.limits before p n).rotations <
      (crashRun log python.limits before p n after).rotations
  · exact .inr (.inr (.inl hrotated))
  have hkept : Kept log python.limits (afterCalls log python.limits .fresh (appends before)) :=
    kept_before hpath hsep
  obtain ⟨b, hl, hb⟩ := live_of_cut hkept hpath hline n
  obtain ⟨us, hus, hnone, ⟨b', hb', hlive⟩, hsince⟩ := live_unrotated hpath hl hrotated
  have hbytes : WholeChars b := by
    obtain ⟨ts, hts, -⟩ := hb
    exact ⟨_, hts⟩
  have hcut : WholeChars (line.extract 0 n) :=
    wholeChars_of_survives hpath hbytes ⟨_, hb'⟩ hlive h
  refine .inr (.inr (.inr ⟨hcut, ?_⟩))
  obtain ⟨t, ht⟩ := hcut
  obtain ⟨hpre, hne⟩ := text_of_cut hline ht hn.1 hn.2
  cases us with
  | nil => exact hnone rfl
  | cons u us =>
    have hopen : ∃ r, t = .scalar '\x7b' :: r := by
      obtain ⟨r, hr⟩ := text_head p
      cases t with
      | nil => exact absurd rfl hne
      | cons c t =>
        rw [hr] at hpre
        exact ⟨t, by rw [(List.cons_prefix_cons.mp hpre).1]⟩
    have hok : ∀ q ∈ u :: us, q.Unseparated ∧ q.Serialisable python.limits := by
      intro q hq
      obtain ⟨hmem, l, hl⟩ := hus q hq
      exact ⟨hsep q (by simp [hmem]), (bytes_ok hl).1⟩
    exact absurd h (not_survives_behind hpath hb ht
      ((unbroken_text (hsep p (by simp))).of_isPrefix hpre) hopen hok hb' hlive hsince)

end Crash

/-- A crash in mid-write costs only the record being written exactly when the cut falls
between two records, or the cut file was rotated away since, or the cut falls between two
characters and nothing was appended behind it. -/
theorem crash_costs_one_record (log : AppendOnlyLog) (python : Interpreter)
    (before : List (Payload F)) (p : Payload F) (n : ℕ) (after : List (Payload F))
    (hpath : log.path ≠ none) (hsep : ∀ q ∈ before ++ p :: after, q.Unseparated) :
    Survives log python.limits (crashRun log python.limits before p n after) ↔
      Spared log python.limits before p n after :=
  ⟨spared_of_survives hpath hsep, survives_of_spared hpath hsep⟩

def usualInterpreter : Interpreter := ⟨usualLimits, by decide⟩

theorem crash_costs_one_record_sample : Survives usualLog usualInterpreter.limits
    (crashRun usualLog usualInterpreter.limits [note (py "ab")] (note (py "cd")) 0
      [note (py "ef")]) := by
  apply (crash_costs_one_record usualLog usualInterpreter [note (py "ab")] (note (py "cd")) 0
    [note (py "ef")] (by decide) (by decide)).mpr
  exact fun line _ => .inl rfl

/-- Three bytes of a record are written, then a whole one: it is not read back. -/
theorem cut_loses_next_record : ¬Survives usualLog usualLimits
    (crashRun usualLog usualLimits [] (note (py "ab")) 3 [note (py "cd")]) := by
  rintro ⟨records, hrecords, hsub⟩
  have hread : ((usualLog.readRecords (F := WholeFloat) usualLimits Disk.working
      (crashRun usualLog usualLimits [] (note (py "ab")) 3 [note (py "cd")]).files).toOption.map
        List.length) = some 0 := by
    decide +kernel
  have hsince : (crashRun usualLog usualLimits [] (note (py "ab")) 3
      [note (py "cd")]).since.length = 1 := by
    decide +kernel
  rw [hrecords] at hread
  have hlen := hsub.length_le
  rw [hsince] at hlen
  simp only [Except.toOption, Option.map_some, Option.some.injEq] at hread
  omega

end QronosAgent.Log

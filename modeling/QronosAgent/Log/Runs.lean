import QronosAgent.Lib.JsonTruncated
import QronosAgent.Log.AppendOnlyLog

/-! Runs of a log: calls of `append` one after the other, and which records each file should
hold. With legible payloads every record is read back. -/
namespace QronosAgent.Log
open Lib
variable {F : Type} [PyFloat F]

/-- A payload: a `dict`, so no key twice. `float.__repr__` writes at most 16 digits before
the point. -/
structure Payload (F : Type) [PyFloat F] where
  members : Members F
  keys : (Json.obj members).UniqueKeys
  floats : (Json.obj members).FloatsFit 16

namespace Payload

def chars (p : Payload F) : PyStr := (Json.obj p.members).chars

/-- A code point that ends a line for `str.splitlines` and that `json.dumps` leaves as it is. -/
def separates (c : PyChar) : Prop := c.code = 0x85 ∨ c.code = 0x2028 ∨ c.code = 0x2029

instance (c : PyChar) : Decidable (separates c) := inferInstanceAs (Decidable (_ ∨ _))

def Serialisable (limits : JsonLimits) (p : Payload F) : Prop :=
  (Json.obj p.members).serialisable limits = true

def Unseparated (p : Payload F) : Prop := ∀ c ∈ p.chars, ¬separates c

instance (limits : JsonLimits) (p : Payload F) : Decidable (p.Serialisable limits) :=
  inferInstanceAs (Decidable (_ = true))

instance (p : Payload F) : Decidable p.Unseparated :=
  inferInstanceAs (Decidable (∀ c ∈ p.chars, ¬separates c))

def Legible (p : Payload F) : Prop := PyStr.Encodable p.chars ∧ p.Unseparated

instance (p : Payload F) : Decidable p.Legible := inferInstanceAs (Decidable (_ ∧ _))

def text (p : Payload F) : PyStr := (Json.obj p.members).text .oneLine 0

end Payload

structure Call (F : Type) [PyFloat F] where
  payload : Payload F
  disk : Disk

/-- The files, with the records whose append completed since the last rotation and those of
the rotation before it. -/
structure LogState (F : Type) where
  files : Files
  since : List (Members F)
  older : Option (List (Members F))
  rotations : ℕ

def LogState.fresh : LogState F := ⟨⟨none, none⟩, [], none, 0⟩

section Model
variable (log : AppendOnlyLog) (limits : JsonLimits)

/-- A record counts once `append` has returned `True`. -/
def LogState.after (s : LogState F) (c : Call F) : LogState F :=
  let r := log.append limits c.disk c.payload.members s.files
  let completed := if r.1 = .ok true then [c.payload.members] else []
  if r.2.2 then ⟨r.2.1, completed, some s.since, s.rotations + 1⟩
  else ⟨r.2.1, s.since ++ completed, s.older, s.rotations⟩

/-- The state after some calls, raising or not. -/
def afterCalls (s : LogState F) (cs : List (Call F)) : LogState F :=
  cs.foldl (LogState.after log limits) s

/-- Appends on a disk that never refuses; the first that raises ends the run. -/
def appendAll : LogState F → List (Payload F) → Except Raised (LogState F)
  | s, [] => .ok s
  | s, p :: ps =>
    match (log.append limits Disk.working p.members s.files).1 with
    | .error e => .error e
    | .ok _ => appendAll (s.after log limits ⟨p, Disk.working⟩) ps

def Payload.bytes (p : Payload F) : Except Raised ByteArray :=
  AppendOnlyLog.encode limits p.members

end Model

section Line
variable {limits : JsonLimits} {p : Payload F}

theorem not_separates_isLineBreak {c : PyChar} (hlow : 0x20 ≤ c.code)
    (h : ¬Payload.separates c) : c.isLineBreak = false := by
  simp only [Payload.separates, not_or] at h
  simp only [PyChar.isLineBreak, Bool.or_eq_false_iff, Bool.and_eq_false_iff,
    decide_eq_false_iff_not, beq_eq_false_iff_ne]
  omega

theorem unbroken_text (h : p.Unseparated) : Unbroken p.text := by
  intro c hc
  rcases Json.mem_text_oneLine hc with ⟨h0, h1⟩ | ⟨hm, h0⟩
  · apply not_separates_isLineBreak h0
    simp only [Payload.separates]
    omega
  · exact not_separates_isLineBreak h0 (h c hm)

theorem text_head (p : Payload F) : ∃ r, p.text = .scalar '\x7b' :: r := by
  rw [Payload.text]
  cases p.members with
  | nil => exact ⟨_, by rw [Json.text]; rfl⟩
  | cons m ms => exact ⟨_, by rw [Json.text]; rfl⟩

theorem blank_append_text (p : Payload F) (t : PyStr) : PyStr.blank (t ++ p.text) = false := by
  obtain ⟨r, hr⟩ := text_head p
  by_contra h
  rw [Bool.not_eq_false, PyStr.blank_iff] at h
  exact absurd (h (.scalar '\x7b') (by simp [hr])) (by decide)

theorem readLine_text (h : p.Serialisable limits) :
    AppendOnlyLog.readLine limits p.text = .ok (some p.members) := by
  have hblank : PyStr.blank p.text = false := blank_append_text p []
  have hloads : Json.loads limits p.text = .ok (Json.obj p.members) :=
    Json.loads_text .oneLine (Json.storable_of_serialisable h p.keys)
  rw [AppendOnlyLog.readLine, hblank, hloads]
  rfl

theorem readLines_append {xs ys : List PyStr} {as bs : List (Members F)}
    (hx : AppendOnlyLog.readLines limits xs = .ok as)
    (hy : AppendOnlyLog.readLines limits ys = .ok bs) :
    AppendOnlyLog.readLines limits (xs ++ ys) = .ok (as ++ bs) := by
  induction xs generalizing as with
  | nil =>
    simp only [AppendOnlyLog.readLines, Except.ok.injEq] at hx
    rw [List.nil_append, hy, ← hx, List.nil_append]
  | cons x xs ih =>
    rw [AppendOnlyLog.readLines] at hx
    rw [List.cons_append, AppendOnlyLog.readLines]
    cases hl : AppendOnlyLog.readLine (F := F) limits x with
    | error e => simp [hl] at hx
    | ok m =>
      cases m with
      | none =>
        simp only [hl] at hx ⊢
        exact ih hx
      | some ms =>
        simp only [hl] at hx ⊢
        cases hxs : AppendOnlyLog.readLines (F := F) limits xs with
        | error e => simp [hxs, Except.map] at hx
        | ok rest =>
          simp only [hxs, Except.map, Except.ok.injEq] at hx
          rw [ih hxs, ← hx]
          rfl

theorem readLines_singleton {t : PyStr} {m : Option (Members F)}
    (h : AppendOnlyLog.readLine limits t = .ok m) :
    AppendOnlyLog.readLines limits [t] = .ok m.toList := by
  cases m <;> simp [AppendOnlyLog.readLines, h, Except.map]

theorem bytes_ok {line : ByteArray} (h : p.bytes limits = .ok line) :
    p.Serialisable limits ∧ PyStr.encodeUtf8 (p.text ++ [lf]) = some line := by
  rw [Payload.bytes, AppendOnlyLog.encode, Json.dumpsLine] at h
  by_cases hs : (Json.obj p.members).serialisable limits = true
  · rw [if_pos hs] at h
    refine ⟨hs, ?_⟩
    rw [Payload.text]
    cases he : PyStr.encodeUtf8 ((Json.obj p.members).text .oneLine 0 ++ [lf]) with
    | none => simp [he] at h
    | some b =>
      simp only [he, Except.ok.injEq] at h
      rw [h]
  · simp [hs] at h

theorem bytes_of_encodable (hs : p.Serialisable limits) (he : PyStr.Encodable p.chars) :
    ∃ line, p.bytes limits = .ok line := by
  have htext : PyStr.Encodable (p.text ++ [lf]) := by
    rw [PyStr.encodable_append]
    exact ⟨(Json.encodable_text .oneLine).mpr he, by decide⟩
  obtain ⟨line, hline⟩ := PyStr.encodable_iff.mp htext
  refine ⟨line, ?_⟩
  rw [Payload.text] at hline
  have hs' : (Json.obj p.members).serialisable limits = true := hs
  rw [Payload.bytes, AppendOnlyLog.encode, Json.dumpsLine, if_pos hs']
  simp only [hline]

end Line

section Shows
variable {limits : JsonLimits} {b : ByteArray} {records : List (Members F)}

/-- The file consists of whole lines with these records in them, and of `tail` behind them. -/
def Shows (limits : JsonLimits) (b : ByteArray) (records : List (Members F)) (tail : PyStr) :
    Prop :=
  ∃ ts, PyStr.encodeUtf8 (framed ts ++ tail) = some b ∧ (∀ t ∈ ts, Unbroken t) ∧
    AppendOnlyLog.readLines limits ts = .ok records

theorem shows_empty : Shows (F := F) limits ByteArray.empty [] [] :=
  ⟨[], rfl, by simp, rfl⟩

theorem Shows.append_line {p : Payload F} {line : ByteArray} (h : Shows limits b records [])
    (hp : p.Unseparated) (hline : p.bytes limits = .ok line) :
    Shows limits (b ++ line) (records ++ [p.members]) [] := by
  obtain ⟨ts, hb, hts, hrecords⟩ := h
  obtain ⟨hs, he⟩ := bytes_ok hline
  refine ⟨ts ++ [p.text], ?_, ?_, ?_⟩
  · rw [List.append_nil] at hb ⊢
    rw [framed_append]
    exact PyStr.encodeUtf8_append hb (by simpa [framed] using he)
  · intro t ht
    rcases List.mem_append.mp ht with ht | ht
    · exact hts t ht
    · rw [List.mem_singleton.mp ht]
      exact unbroken_text hp
  · exact readLines_append hrecords (readLines_singleton (readLine_text hs))

/-- What `read_records` makes of such a file. -/
theorem Shows.recordsIn {tail : PyStr} {m : Option (Members F)}
    (h : Shows limits b records tail) (htail : Unbroken tail)
    (hm : tail ≠ [] → AppendOnlyLog.readLine limits tail = .ok m) (hnil : tail = [] → m = none) :
    AppendOnlyLog.recordsIn limits b = .ok (records ++ m.toList) := by
  obtain ⟨ts, hb, hts, hrecords⟩ := h
  have hcr : cr ∉ framed ts ++ tail := by
    intro hc
    simp only [framed, List.mem_append, List.mem_flatMap, List.mem_singleton] at hc
    rcases hc with ⟨t, ht, hc | hc⟩ | hc
    · exact absurd (hts t ht cr hc) (by decide)
    · contradiction
    · exact absurd (htail cr hc) (by decide)
  have htext : readText b = some (framed ts ++ tail) := by
    rw [readText, PyStr.decodeUtf8_encodeUtf8 hb, Option.map_some, universalNewlines_eq hcr]
  have hlines : AppendOnlyLog.readLines limits (ts ++ if tail = [] then [] else [tail]) =
      .ok (records ++ m.toList) := by
    apply readLines_append hrecords
    by_cases ht : tail = []
    · rw [if_pos ht, hnil ht]
      rfl
    · rw [if_neg ht]
      exact readLines_singleton (hm ht)
  rw [AppendOnlyLog.recordsIn, htext]
  simp only [splitlines_framed hts htail, hlines]

theorem Shows.recordsIn_whole (h : Shows limits b records []) :
    AppendOnlyLog.recordsIn limits b = .ok records := by
  have := h.recordsIn (m := none) (fun c hc => absurd hc (by simp)) (fun h => absurd rfl h)
    fun _ => rfl
  simpa using this

end Shows

section Call
variable {log : AppendOnlyLog} {limits : JsonLimits} {s : LogState F}
  {p : Payload F} {line : ByteArray}

/-- What a call leaves that puts `part` of a record of `size` bytes in the file: behind the
live file as it is, or in a new one. -/
inductive Wrote (log : AppendOnlyLog) (s : LogState F) (size : ℕ) (part : ByteArray)
    (completed : List (Members F)) : LogState F → Prop where
  | behind : (∀ b, s.files.live = some b → (b.size : ℤ) + size ≤ log.maxBytes) →
      Wrote log s size part completed
        ⟨⟨some (s.files.live.getD ByteArray.empty ++ part), s.files.previous⟩,
          s.since ++ completed, s.older, s.rotations⟩
  | rotated (b : ByteArray) : s.files.live = some b → log.maxBytes < (b.size : ℤ) + size →
      Wrote log s size part completed
        ⟨⟨some part, some b⟩, completed, some s.since, s.rotations + 1⟩

theorem after_raises {disk : Disk} {e : Raised} (hpath : log.path ≠ none)
    (h : p.bytes limits = .error e) : s.after log limits ⟨p, disk⟩ = s := by
  rw [Payload.bytes] at h
  simp [LogState.after, AppendOnlyLog.append, hpath, h]

theorem wrote_after (s : LogState F) (disk : Disk) (hpath : log.path ≠ none)
    (hline : p.bytes limits = .ok line)
    (hdisk : disk = { Disk.working with written := disk.written }) :
    Wrote log s line.size (line.extract 0 (disk.written.getD line.size))
      (if disk.written = none then [p.members] else []) (s.after log limits ⟨p, disk⟩) := by
  rw [Payload.bytes] at hline
  have hmkdir : disk.mkdir = true := by rw [hdisk]; rfl
  have hopen : disk.openAppend = true := by rw [hdisk]; rfl
  have hstat : disk.stat = true := by rw [hdisk]; rfl
  have hreplace : disk.replace = true := by rw [hdisk]; rfl
  generalize hpart : line.extract 0 (disk.written.getD line.size) = part
  generalize hcompleted : (if disk.written = none then [p.members] else []) = completed
  cases hl : s.files.live with
  | none =>
    have hbehind : Wrote log s line.size part completed _ := .behind (by simp [hl])
    simpa [LogState.after, AppendOnlyLog.append, AppendOnlyLog.rotateIfNeeded,
      AppendOnlyLog.write, hpath, hline, hmkdir, hopen, hl, hpart, hcompleted] using hbehind
  | some b =>
    by_cases hsize : (b.size : ℤ) + line.size ≤ log.maxBytes
    · have hbehind : Wrote log s line.size part completed _ :=
        .behind (by simpa [hl] using hsize)
      simpa [LogState.after, AppendOnlyLog.append, AppendOnlyLog.rotateIfNeeded,
        AppendOnlyLog.write, hpath, hline, hmkdir, hopen, hstat, hreplace, hl, hsize, hpart,
        hcompleted] using hbehind
    · have hrotated : Wrote log s line.size part completed _ := .rotated b hl (not_le.mp hsize)
      simpa [LogState.after, AppendOnlyLog.append, AppendOnlyLog.rotateIfNeeded,
        AppendOnlyLog.write, hpath, hline, hmkdir, hopen, hstat, hreplace, hl, hsize, hpart,
        hcompleted] using hrotated

theorem append_working (hpath : log.path ≠ none) (hline : p.bytes limits = .ok line) :
    (log.append limits Disk.working p.members s.files).1 = .ok true := by
  rw [Payload.bytes] at hline
  simp [AppendOnlyLog.append, hpath, hline, Disk.working]

theorem wrote_append (hpath : log.path ≠ none) (hline : p.bytes limits = .ok line) :
    Wrote log s line.size line [p.members] (s.after log limits ⟨p, Disk.working⟩) := by
  simpa [Disk.working] using wrote_after s Disk.working hpath hline rfl

end Call

section Kept
variable {log : AppendOnlyLog} {limits : JsonLimits}

structure Kept (log : AppendOnlyLog) (limits : JsonLimits) (s : LogState F) : Prop where
  live : s.files.live = none ∧ s.since = [] ∨
    ∃ b, s.files.live = some b ∧ Shows limits b s.since []
  previous : ∀ records, s.older = some records →
    ∃ b, s.files.previous = some b ∧ Shows limits b records []
  capped : ∀ b, s.files.live = some b → log.maxBytes < b.size →
    ∃ p : Payload F, s.since = [p.members] ∧ ∃ line, p.bytes limits = .ok line ∧
      log.maxBytes < line.size

theorem kept_fresh : Kept (F := F) log limits .fresh where
  live := .inl ⟨rfl, rfl⟩
  previous _ h := absurd h (by simp [LogState.fresh])
  capped _ h := absurd h (by simp [LogState.fresh])

theorem Kept.append {s : LogState F} {p : Payload F} {line : ByteArray}
    (h : Kept log limits s) (hpath : log.path ≠ none) (hp : p.Unseparated)
    (hline : p.bytes limits = .ok line) :
    Kept log limits (s.after log limits ⟨p, Disk.working⟩) := by
  have halone : Shows limits line [p.members] [] := by
    simpa using shows_empty.append_line hp hline
  have hwrote := wrote_append (s := s) hpath hline
  generalize s.after log limits ⟨p, Disk.working⟩ = t at hwrote ⊢
  cases hwrote with
  | behind hroom =>
    rcases h.live with ⟨hl, hsince⟩ | ⟨b, hl, hb⟩
    · rw [hl, hsince]
      refine ⟨.inr ⟨_, rfl, by simpa using halone⟩, h.previous, ?_⟩
      intro b hb hmax
      obtain rfl : ByteArray.empty ++ line = b := by simpa using hb
      exact ⟨p, rfl, line, hline, by simpa using hmax⟩
    · refine ⟨.inr ⟨b ++ line, by simp [hl], hb.append_line hp hline⟩, h.previous, ?_⟩
      intro b' hb' hmax
      obtain rfl : b ++ line = b' := by simpa [hl] using hb'
      have := hroom b hl
      rw [ByteArray.size_append] at hmax
      omega
  | rotated b hl hfull =>
    refine ⟨.inr ⟨line, rfl, halone⟩, ?_, ?_⟩
    · intro records hrecords
      obtain rfl : s.since = records := by simpa using hrecords
      rcases h.live with ⟨hnone, _⟩ | ⟨b', hl', hb'⟩
      · cases hnone.symm.trans hl
      · obtain rfl : b' = b := by simpa [hl'] using hl
        exact ⟨b', rfl, hb'⟩
    · intro b' hb' hmax
      obtain rfl : line = b' := by simpa using hb'
      exact ⟨p, rfl, line, hline, hmax⟩

theorem Kept.appendAll {s : LogState F} (h : Kept log limits s) (hpath : log.path ≠ none)
    {ps : List (Payload F)} (hserialisable : ∀ p ∈ ps, p.Serialisable limits)
    (hlegible : ∀ p ∈ ps, p.Legible) :
    ∃ t, appendAll log limits s ps = .ok t ∧ Kept log limits t := by
  induction ps generalizing s with
  | nil => exact ⟨s, rfl, h⟩
  | cons p ps ih =>
    obtain ⟨he, hp⟩ := hlegible p (by simp)
    obtain ⟨line, hline⟩ := bytes_of_encodable (hserialisable p (by simp)) he
    obtain ⟨t, ht, hkept⟩ := ih (h.append hpath hp hline)
      (fun q hq => hserialisable q (by simp [hq])) (fun q hq => hlegible q (by simp [hq]))
    refine ⟨t, ?_, hkept⟩
    rw [Log.appendAll, append_working hpath hline]
    exact ht

end Kept

def usualLog : AppendOnlyLog := ⟨some (py "audit.jsonl"), 2097152⟩

def usualLimits : JsonLimits := ⟨1000, 4300⟩

/-- `{"note": text}`. -/
def note (text : PyStr) : Payload WholeFloat where
  members := [(py "note", .str text)]
  keys := by simp [Json.UniqueKeys, Json.UniqueKeysMembers]
  floats := by simp [Json.FloatsFit, Json.FloatsFitMembers]

end QronosAgent.Log

import QronosAgent.Desktop.Relay
import QronosAgent.Lib.Replacing

/-! `DesktopRelay.pump_errors` in `core/supervisor_relay.py`: the bridge's standard error goes on to
the desktop in the pieces that `readline` returns, except those that hold a pairing URI. A line of
more than one piece is not looked at as a whole. -/
namespace QronosAgent.Desktop
open Lib Lib.Url

/-- `_READ_CHUNK`. -/
def readChunk : ℕ := 64 * 1024

/-- `PAIRING_URI_PREFIX`. -/
def pairingUriPrefix : Bytes := "qronos://pair?".toList.map fun c => UInt8.ofNat c.toNat

/-- `PAIRING_URI_PREFIX in chunk`. -/
def holdsUri (chunk : Bytes) : Bool := decide (pairingUriPrefix <:+: chunk)

structure ErrorPump where
  /-- `_err` is not `None`. -/
  connected : Bool
  /-- What `_err` took, chunk by chunk. -/
  wrote : List Bytes
  /-- The calls `out.notice("stderr_secret")`. -/
  withheld : ℕ

/-- What is done with a chunk; `takes` tells which writes to `_err` work. -/
def ErrorPump.forward (takes : ℕ → Bool) (p : ErrorPump) (chunk : Bytes) : ErrorPump :=
  if holdsUri chunk then { p with withheld := p.withheld + 1 }
  else if !p.connected then p
  else if takes p.wrote.length then { p with wrote := p.wrote ++ [replaceInvalid chunk] }
  else { p with connected := false }

/-- What the reads return until the stream ends, or one of them raises; `fuel` is more than the
number of bytes. -/
def chunks (limit : ℕ) : ℕ → Bytes → List Bytes
  | 0, _ => []
  | fuel + 1, s =>
    let r := readline limit s
    if r.1 = [] then [] else r.1 :: chunks limit fuel r.2

def pumpErrors (takes : ℕ → Bool) (s : Bytes) : ErrorPump :=
  (chunks readChunk (s.length + 1) s).foldl (.forward takes) ⟨true, [], 0⟩

def lines : Bytes → List Bytes
  | [] => []
  | b :: s =>
    if b = newline then [b] :: lines s
    else
      match lines s with
      | [] => [[b]]
      | line :: rest => (b :: line) :: rest

/-- What is left of the pieces, or lines, without a pairing URI. -/
def shown (pieces : List Bytes) : Bytes := (pieces.filter (!holdsUri ·)).flatMap replaceInvalid

/-- Lines with a pairing URI are withheld and counted once each, every other one is forwarded. -/
def Filtered (takes : ℕ → Bool) (s : Bytes) : Prop :=
  (pumpErrors takes s).wrote.flatten = shown (lines s) ∧
    (pumpErrors takes s).withheld = (lines s).countP holdsUri

/-- A line with a pairing URI is read at once, and no other one is cut inside a character or a
malformed sequence. -/
def Fits (limit : ℕ) (line : Bytes) : Prop :=
  if holdsUri line then line.length ≤ limit
  else ∀ n, limit * n < line.length → ¬ Splits line (limit * n)

/-- How lines are read: a long one piece by piece. -/
inductive Pieces (limit : ℕ) : List Bytes → List Bytes → Prop
  | nil : Pieces limit [] []
  | short {line : Bytes} {rest pieces : List Bytes} : line.length ≤ limit →
      Pieces limit rest pieces → Pieces limit (line :: rest) (line :: pieces)
  | long {line : Bytes} {rest pieces : List Bytes} : limit < line.length →
      Pieces limit (line.drop limit :: rest) pieces →
      Pieces limit (line :: rest) (line.take limit :: pieces)

variable {limit fuel : ℕ} {takes : ℕ → Bool} {s line : Bytes} {rest pieces : List Bytes}

theorem shown_cons (c : Bytes) (cs : List Bytes) :
    shown (c :: cs) = (if holdsUri c then [] else replaceInvalid c) ++ shown cs := by
  cases huri : holdsUri c <;> simp [shown, huri]

theorem foldl_forward (htakes : ∀ n, takes n = true) (pieces : List Bytes) {p : ErrorPump}
    (hp : p.connected = true) :
    (pieces.foldl (.forward takes) p).wrote.flatten = p.wrote.flatten ++ shown pieces ∧
      (pieces.foldl (.forward takes) p).withheld = p.withheld + pieces.countP holdsUri := by
  induction pieces generalizing p with
  | nil => simp [shown]
  | cons c cs ih =>
    have hconnected : (p.forward takes c).connected = true := by
      simp only [ErrorPump.forward, htakes, hp]
      split <;> simp
    rw [List.foldl_cons, (ih hconnected).1, (ih hconnected).2, shown_cons, List.countP_cons]
    cases huri : holdsUri c <;> simp [ErrorPump.forward, huri, hp, htakes, Nat.add_right_comm]
    omega

theorem lines_flatten (s : Bytes) : (lines s).flatten = s := by
  induction s with
  | nil => rfl
  | cons b s ih =>
    rw [lines]
    split
    · simp [ih]
    · cases hs : lines s with
      | nil => simpa [hs] using ih
      | cons line rest => simpa [hs] using ih

theorem lines_ne_nil (hs : lines s = line :: rest) : line ≠ [] := by
  cases s with
  | nil => cases hs
  | cons b s =>
    rw [lines] at hs
    split at hs
    · cases hs
      simp
    · split at hs <;> cases hs <;> simp

theorem readline_lines (hs : lines s = line :: rest) (n : ℕ) :
    readline n s = (line.take n, line.drop n ++ rest.flatten) ∧
      lines (line.drop n ++ rest.flatten) =
        if line.length ≤ n then rest else line.drop n :: rest := by
  induction n generalizing s line rest with
  | zero =>
    have hflat := lines_flatten s
    rw [hs, List.flatten_cons] at hflat
    rw [if_neg (by simpa using lines_ne_nil hs), List.drop_zero, hflat, hs]
    exact ⟨rfl, rfl⟩
  | succ n ih =>
    cases s with
    | nil => cases hs
    | cons b s =>
      have hflat := lines_flatten s
      rw [lines] at hs
      rw [readline]
      split at hs
      · rename_i hb
        cases hs
        simp [hb, hflat]
      · rename_i hb
        rw [if_neg hb]
        cases ht : lines s with
        | nil =>
          rw [ht] at hs hflat
          cases hs
          cases hflat
          cases n <;> simp [readline, lines]
        | cons line' rest' =>
          rw [ht] at hs
          cases hs
          obtain ⟨hread, hlines⟩ := ih ht
          simp [hread, hlines]

theorem pieces_chunks (hlimit : 0 < limit) (hfuel : s.length < fuel) :
    Pieces limit (lines s) (chunks limit fuel s) := by
  induction fuel generalizing s with
  | zero => omega
  | succ fuel ih =>
    have hflat := lines_flatten s
    cases hs : lines s with
    | nil =>
      rw [hs] at hflat
      cases hflat
      cases limit <;> exact .nil
    | cons line rest =>
      have hne := lines_ne_nil hs
      have hpos := List.length_pos_iff.mpr hne
      rw [hs] at hflat
      obtain ⟨hread, hlines⟩ := readline_lines hs limit
      have hrec := ih (s := line.drop limit ++ rest.flatten) (by
        have hlength := congrArg List.length hflat
        simp only [List.flatten_cons, List.length_append] at hlength
        rw [List.length_append, List.length_drop]
        omega)
      rw [chunks, hread, if_neg (by simpa using ⟨by omega, hne⟩)]
      rw [hlines] at hrec
      split at hrec
      · rename_i hshort
        rw [List.take_of_length_le hshort]
        exact .short hshort hrec
      · rename_i hlong
        exact .long (by omega) hrec

theorem holdsUri_of_isInfix {chunk : Bytes} (h : chunk <:+: line) (hline : holdsUri line = false) :
    holdsUri chunk = false := by
  simp only [holdsUri, decide_eq_false_iff_not] at hline ⊢
  exact fun hchunk => hline (hchunk.trans h)

theorem fits_long (huri : holdsUri line = false) (hlong : limit < line.length) :
    Fits limit line ↔ ¬ Splits line limit ∧ Fits limit (line.drop limit) := by
  have hdrop := holdsUri_of_isInfix (List.drop_suffix limit line).isInfix huri
  have hshift : ∀ {n}, ¬ Splits line limit →
      (Splits (line.drop limit) n ↔ Splits line (limit + n)) := by
    intro n hcut
    simp only [Splits, List.drop_drop] at hcut ⊢
    constructor
    · rintro ⟨i, hi, hlt⟩
      exact ⟨limit + i, by omega, by omega⟩
    · rintro ⟨i, hi, hlt⟩
      obtain ⟨i, rfl⟩ : ∃ j, i = limit + j := by
        refine ⟨i - limit, (Nat.add_sub_of_le ?_).symm⟩
        by_contra hbefore
        exact hcut ⟨i, by omega, by omega⟩
      exact ⟨i, by omega, by omega⟩
  simp only [Fits, huri, hdrop, Bool.false_eq_true, if_false, List.length_drop]
  constructor
  · intro h
    have hcut : ¬ Splits line limit := by simpa using h 1 (by omega)
    refine ⟨hcut, fun n hn hsplits => h (n + 1) (by rw [Nat.mul_succ]; omega) ?_⟩
    rw [Nat.mul_succ, Nat.add_comm]
    exact (hshift hcut).mp hsplits
  · rintro ⟨hcut, h⟩ n hn hsplits
    rcases n with _ | n
    · obtain ⟨i, hi, -⟩ := hsplits
      omega
    rw [Nat.mul_succ] at hn
    rw [Nat.mul_succ, Nat.add_comm] at hsplits
    exact h n (by omega) ((hshift hcut).mpr hsplits)

theorem fits_short (hshort : line.length ≤ limit) : Fits limit line := by
  unfold Fits
  split
  · exact hshort
  · rintro (_ | n) hn ⟨i, hi, -⟩
    · omega
    · rw [Nat.mul_succ] at hn
      omega

/-- Where every line fits, the pieces show what the lines do. -/
theorem Pieces.shown_eq {lines : List Bytes} (hpieces : Pieces limit lines pieces)
    (h : ∀ line ∈ lines, Fits limit line) :
    shown pieces = shown lines ∧ pieces.countP holdsUri = lines.countP holdsUri := by
  induction hpieces with
  | nil => exact ⟨rfl, rfl⟩
  | short hshort _ ih =>
    obtain ⟨hshown, hcount⟩ := ih (List.forall_mem_cons.mp h).2
    rw [shown_cons, shown_cons, hshown, List.countP_cons, List.countP_cons, hcount]
    exact ⟨rfl, rfl⟩
  | @long line rest pieces hlong _ ih =>
    obtain ⟨hfits, hrest⟩ := List.forall_mem_cons.mp h
    have huri : holdsUri line = false := by
      by_contra huri
      rw [Fits, if_pos (by simpa using huri)] at hfits
      omega
    obtain ⟨hcut, hfits⟩ := (fits_long huri hlong).mp hfits
    obtain ⟨hshown, hcount⟩ := ih (List.forall_mem_cons.mpr ⟨hfits, hrest⟩)
    have htake := holdsUri_of_isInfix (List.take_prefix limit line).isInfix huri
    have hdrop := holdsUri_of_isInfix (List.drop_suffix limit line).isInfix huri
    rw [shown_cons, List.countP_cons, hshown, hcount, shown_cons, List.countP_cons]
    simp [shown_cons, huri, htake, hdrop, replaceInvalid_append hcut]

/-- Pieces never show less than the lines do, and where they show as much they are not counted
less; where both are equal every line fits. -/
theorem Pieces.fits {lines : List Bytes} (hlimit : 0 < limit)
    (hpieces : Pieces limit lines pieces) : (shown lines).length ≤ (shown pieces).length ∧
      ((shown pieces).length ≤ (shown lines).length →
        lines.countP holdsUri ≤ pieces.countP holdsUri ∧
          (pieces.countP holdsUri ≤ lines.countP holdsUri → ∀ line ∈ lines, Fits limit line)) := by
  induction hpieces with
  | nil => simp
  | short hshort _ ih =>
    obtain ⟨hle, ih⟩ := ih
    simp only [shown_cons, List.countP_cons, List.length_append, List.forall_mem_cons]
    refine ⟨by omega, fun hshown => ?_⟩
    obtain ⟨hcount, hfits⟩ := ih (by omega)
    exact ⟨by omega, fun hcounts => ⟨fits_short hshort, hfits (by omega)⟩⟩
  | @long line rest pieces hlong _ ih =>
    simp only [shown_cons, List.countP_cons, List.length_append, List.forall_mem_cons] at ih ⊢
    have htake := length_replaceInvalid_pos (s := line.take limit)
      (List.ne_nil_of_length_pos (by rw [List.length_take]; omega))
    have hdrop := length_replaceInvalid_pos (s := line.drop limit)
      (List.ne_nil_of_length_pos (by rw [List.length_drop]; omega))
    cases huri : holdsUri line with
    | true =>
      -- another piece shows what the line does not, or is counted once more
      cases htakes : holdsUri (line.take limit) <;> cases hdrops : holdsUri (line.drop limit) <;>
        simp only [hdrops, if_true, Bool.false_eq_true, if_false, List.length_nil] at ih ⊢ <;> omega
    | false =>
      have htakes := holdsUri_of_isInfix (List.take_prefix limit line).isInfix huri
      have hdrops := holdsUri_of_isInfix (List.drop_suffix limit line).isInfix huri
      simp only [htakes, hdrops, Bool.false_eq_true, if_false] at ih ⊢
      rw [fits_long huri hlong]
      by_cases hcut : Splits line limit
      · have hlt := length_replaceInvalid_lt hcut
        omega
      · rw [replaceInvalid_append hcut, List.length_append]
        refine ⟨by omega, fun hshown => ?_⟩
        obtain ⟨hcount, hfits⟩ := ih.2 (by omega)
        exact ⟨by omega, fun hcounts => ⟨⟨hcut, (hfits (by omega)).1⟩, (hfits (by omega)).2⟩⟩

theorem filtered_iff (htakes : ∀ n, takes n = true) : Filtered takes s ↔
    shown (chunks readChunk (s.length + 1) s) = shown (lines s) ∧
      (chunks readChunk (s.length + 1) s).countP holdsUri = (lines s).countP holdsUri := by
  obtain ⟨hwrote, hwithheld⟩ := foldl_forward htakes
    (chunks readChunk (s.length + 1) s) (p := ⟨true, [], 0⟩) rfl
  rw [Filtered, pumpErrors, hwrote, hwithheld, List.flatten_nil, List.nil_append, Nat.zero_add]

theorem fits_of_filtered (htakes : ∀ n, takes n = true) (h : Filtered takes s) :
    ∀ line ∈ lines s, Fits readChunk line := by
  obtain ⟨hshown, hcount⟩ := (filtered_iff htakes).mp h
  have hfits := (pieces_chunks (by decide) (Nat.lt_succ_self s.length)).fits (by decide : 0 < readChunk)
  rw [hshown, hcount] at hfits
  exact (hfits.2 le_rfl).2 le_rfl

/-- A secret is kept back, and every other line forwarded, exactly where every line with a pairing
URI is read at once and no other one is cut inside a character or a malformed sequence. -/
theorem secrets_withheld_iff (htakes : ∀ n, takes n = true) :
    Filtered takes s ↔ ∀ line ∈ lines s, Fits readChunk line :=
  ⟨fits_of_filtered htakes, fun h =>
    (filtered_iff htakes).mpr ((pieces_chunks (by decide) (Nat.lt_succ_self _)).shown_eq h)⟩

def sampleErrors : Bytes := pairingUriPrefix ++ [107, newline, 117, 112, newline]

theorem secrets_withheld_two_lines : Filtered (fun _ => true) sampleErrors := by
  have hshort : ∀ line ∈ lines sampleErrors, line.length ≤ readChunk := by decide
  exact (secrets_withheld_iff fun _ => rfl).mpr fun line hline => fits_short (hshort line hline)

theorem lines_whole (h : newline ∉ s) : lines (s ++ [newline]) = [s ++ [newline]] := by
  induction s with
  | nil => rfl
  | cons b s ih =>
    rw [List.mem_cons, not_or] at h
    simp [lines, Ne.symm h.1, ih h.2]

theorem not_filtered_of_long {tail : Bytes} (hno : newline ∉ tail)
    (huri : holdsUri (tail ++ [newline]) = true) (hlong : readChunk ≤ tail.length) :
    ¬ Filtered (fun _ => true) (tail ++ [newline]) := by
  intro h
  have hfits := fits_of_filtered (fun _ => rfl) h (tail ++ [newline]) (by simp [lines_whole hno])
  rw [Fits, if_pos huri, List.length_append, List.length_singleton] at hfits
  omega

/-- The first piece of a line that holds a pairing URI in the second one is forwarded. -/
theorem secret_line_forwarded : ¬ Filtered (fun _ => true)
    (List.replicate readChunk 97 ++ pairingUriPrefix ++ [newline]) := by
  apply not_filtered_of_long
  · rw [List.mem_append, not_or, List.mem_replicate]
    exact ⟨fun h => absurd h.2 (by decide), by decide⟩
  · exact decide_eq_true ⟨_, _, rfl⟩
  · simp

end QronosAgent.Desktop

import QronosAgent.Lib.JsonBytes

/-! Streams of length-prefixed frames: a four-byte big-endian length, then the body. -/
namespace QronosAgent.Lib.Framed

inductive Stop where
  | ended
  | shortPrefix (got : ℕ)
  | zeroLength
  | oversize (length : ℕ)
  | shortBody (length got : ℕ)

inductive Head where
  | frame (body : Bytes)
  | stop (s : Stop)

def lengthOf (a b c d : UInt8) : ℕ :=
  ((a.toNat * 256 + b.toNat) * 256 + c.toNat) * 256 + d.toNat

def head (limit : ℕ) : Bytes → Head × Bytes
  | [] => (.stop .ended, [])
  | a :: b :: c :: d :: rest =>
    let length := lengthOf a b c d
    if length = 0 then (.stop .zeroLength, rest)
    else if limit < length then (.stop (.oversize length), rest)
    else if rest.length < length then (.stop (.shortBody length rest.length), [])
    else (.frame (rest.take length), rest.drop length)
  | short => (.stop (.shortPrefix short.length), [])

theorem length_head_lt {limit : ℕ} {s body rest : Bytes} (h : head limit s = (.frame body, rest)) :
    rest.length < s.length := by
  unfold head at h
  split at h
  · cases h
  · simp only at h
    split at h
    · cases h
    · split at h
      · cases h
      · split at h
        · cases h
        · cases h
          simp only [List.length_drop, List.length_cons]
          omega
  · cases h

def frames (limit : ℕ) (s : Bytes) : List Bytes × Stop :=
  match _h : head limit s with
  | (.frame body, rest) =>
    let more := frames limit rest
    (body :: more.1, more.2)
  | (.stop stop, _) => ([], stop)
termination_by s.length
decreasing_by exact length_head_lt _h

section
variable {ρ : Type*}

/-- Read frame after frame until `judge` gives a result for one, or until there is none: the result,
and the bytes that were not read. -/
def readUntil (limit : ℕ) (judge : Bytes → Option ρ) (stopped : Stop → ρ) (s : Bytes) : ρ × Bytes :=
  match _h : head limit s with
  | (.frame body, rest) =>
    match judge body with
    | some r => (r, rest)
    | none => readUntil limit judge stopped rest
  | (.stop stop, rest) => (stopped stop, rest)
termination_by s.length
decreasing_by exact length_head_lt _h

theorem readUntil_result (limit : ℕ) (judge : Bytes → Option ρ) (stopped : Stop → ρ) (s : Bytes) :
    (readUntil limit judge stopped s).1 =
      ((frames limit s).1.findSome? judge).getD (stopped (frames limit s).2) := by
  induction s using readUntil.induct limit judge with
  | case1 s body rest hhead r hjudge =>
    rw [readUntil, frames]
    split
    · rename_i hhead'
      rw [hhead] at hhead'
      cases hhead'
      simp [hjudge]
    · rename_i hhead'
      rw [hhead] at hhead'
      cases hhead'
  | case2 s body rest hhead hjudge ih =>
    rw [readUntil, frames]
    split
    · rename_i hhead'
      rw [hhead] at hhead'
      cases hhead'
      simp [hjudge, ih]
    · rename_i hhead'
      rw [hhead] at hhead'
      cases hhead'
  | case3 s stop rest hhead =>
    rw [readUntil, frames]
    split
    · rename_i hhead'
      rw [hhead] at hhead'
      cases hhead'
    · rename_i hhead'
      rw [hhead] at hhead'
      cases hhead'
      rfl

def endingFrame (limit : ℕ) (judge : Bytes → Option ρ) (s : Bytes) : Option Bytes :=
  (frames limit s).1.find? fun body => (judge body).isSome

theorem findSome?_eq_bind {f : Bytes → Option ρ} (l : List Bytes) :
    l.findSome? f = (l.find? fun a => (f a).isSome).bind f := by
  induction l with
  | nil => rfl
  | cons a l ih =>
    rw [List.findSome?_cons, List.find?_cons]
    cases hf : f a with
    | none => simpa [hf] using ih
    | some b => simp [hf]

theorem readUntil_eq_iff {limit : ℕ} {judge : Bytes → Option ρ} {stopped : Stop → ρ} {s : Bytes}
    {x : ρ} : (readUntil limit judge stopped s).1 = x ↔
      (∃ body, endingFrame limit judge s = some body ∧ judge body = some x) ∨
        endingFrame limit judge s = none ∧ stopped (frames limit s).2 = x := by
  rw [readUntil_result, findSome?_eq_bind, endingFrame]
  cases hfind : (frames limit s).1.find? (fun body => (judge body).isSome) with
  | none => simp
  | some body =>
    have hjudged := List.find?_some hfind
    obtain ⟨y, hy⟩ := Option.isSome_iff_exists.mp hjudged
    simp [hy]

end
end QronosAgent.Lib.Framed

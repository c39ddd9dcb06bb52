import QronosAgent.Lib.JsonRoundTrip
import QronosAgent.Lib.Lines

/-! `core/append_only_log.py`: one JSON object per line, appended, rotated when the file grows
too large. The two files are byte strings; what the disk does in one call is an argument. -/
namespace QronosAgent.Log
open Lib

abbrev Members (F : Type) := List (PyStr × Json F)

structure AppendOnlyLog where
  path : Option PyStr
  maxBytes : ℤ

/-- The live file and the one previous file; `none` when there is no such file. -/
structure Files where
  live : Option ByteArray
  previous : Option ByteArray

/-- Which calls of the disk work, and how many bytes of a write reach the file when not all
do: the process dies or the write is refused behind them. -/
structure Disk where
  mkdir : Bool
  stat : Bool
  replace : Bool
  openAppend : Bool
  written : Option ℕ
  read : Bool

def Disk.working : Disk := ⟨true, true, true, true, none, true⟩

/-- The disk works until the first `n` bytes of the record are in the file. -/
def Disk.cutAt (n : ℕ) : Disk := { Disk.working with written := some n }

inductive Raised where
  /-- What `json.dumps` raises: `ValueError` or `RecursionError` -/
  | notSerialisable
  | unicodeEncode
  | unicodeDecode
  /-- What `json.loads` raises other than `JSONDecodeError` -/
  | json (e : JsonError)
  deriving DecidableEq

namespace AppendOnlyLog
variable {F : Type} [PyFloat F]

/-- `_rotate_if_needed`, and whether it rotated. -/
def rotateIfNeeded (log : AppendOnlyLog) (disk : Disk) (incoming : ℕ) (files : Files) :
    Files × Bool :=
  match files.live with
  | none => (files, false)
  | some current =>
    if !disk.stat then (files, false)
    else if (current.size : ℤ) + incoming ≤ log.maxBytes then (files, false)
    else if !disk.replace then (files, false)
    else (⟨none, some current⟩, true)

/-- `handle.write(encoded)` on the file opened with `"ab"`. -/
def write (disk : Disk) (encoded : ByteArray) (files : Files) : Files :=
  { files with
    live := some (files.live.getD ByteArray.empty ++
      encoded.extract 0 (disk.written.getD encoded.size)) }

/-- The text of a record and its bytes. -/
def encode (limits : JsonLimits) (payload : Members F) : Except Raised ByteArray :=
  match (Json.obj payload).dumpsLine limits with
  | none => .error .notSerialisable
  | some text =>
    match PyStr.encodeUtf8 (text ++ [lf]) with
    | none => .error .unicodeEncode
    | some encoded => .ok encoded

/-- `append`: what it raises or returns, the files, and whether it rotated them. -/
def append (log : AppendOnlyLog) (limits : JsonLimits) (disk : Disk) (payload : Members F)
    (files : Files) : Except Raised Bool × Files × Bool :=
  if log.path = none then (.ok false, files, false)
  else
    match encode limits payload with
    | .error e => (.error e, files, false)
    | .ok encoded =>
      if !disk.mkdir then (.ok false, files, false)
      else
        let rotated := log.rotateIfNeeded disk encoded.size files
        if !disk.openAppend then (.ok false, rotated)
        else (.ok (disk.written = none), write disk encoded rotated.1, rotated.2)

def readLine (limits : JsonLimits) (line : PyStr) : Except JsonError (Option (Members F)) :=
  if line.blank then .ok none
  else
    match Json.loads limits line with
    | .error .decode => .ok none
    | .error e => .error e
    | .ok (.obj ms) => .ok (some ms)
    | .ok _ => .ok none

def readLines (limits : JsonLimits) : List PyStr → Except JsonError (List (Members F))
  | [] => .ok []
  | line :: lines =>
    match readLine limits line with
    | .error e => .error e
    | .ok none => readLines limits lines
    | .ok (some ms) => (readLines limits lines).map (ms :: ·)

def recordsIn (limits : JsonLimits) (b : ByteArray) : Except Raised (List (Members F)) :=
  match readText b with
  | none => .error .unicodeDecode
  | some text =>
    match readLines limits text.splitlines with
    | .error e => .error (.json e)
    | .ok records => .ok records

def readRecords (log : AppendOnlyLog) (limits : JsonLimits) (disk : Disk) (files : Files) :
    Except Raised (List (Members F)) :=
  if log.path = none then .ok []
  else
    match files.live with
    | none => .ok []
    | some b => if !disk.read then .ok [] else recordsIn limits b

end AppendOnlyLog
end QronosAgent.Log

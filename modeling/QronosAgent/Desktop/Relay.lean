import Mathlib.Logic.Function.Basic
import QronosAgent.Lib.JsonBytes
import QronosAgent.Lib.Machine

/-! The desktop's commands in `core/supervisor_relay.py`: the thread that reads them, the thread
that delivers them, and the supervisor, which attaches bridges, stops accepting and finishes a
bridge's input. A section under one lock is one step. -/
namespace QronosAgent.Desktop
open Lib

/-- `MAX_COMMAND_BYTES`, `MAX_PENDING_COMMANDS` and `PENDING_COMMAND_BUDGET_BYTES`. -/
structure RelayLimits where
  maxCommandBytes : ℕ
  maxPending : ℕ
  pendingBudget : ℕ

def desktopLimits : RelayLimits := ⟨1024 * 1024, 256, 4 * 1024 * 1024⟩

def newline : UInt8 := 10

/-- `stream.readline(limit)`, and what of the stream it leaves. -/
def readline : ℕ → Bytes → Bytes × Bytes
  | 0, s => ([], s)
  | _ + 1, [] => ([], [])
  | n + 1, b :: s =>
    if b = newline then ([b], s)
    else
      let r := readline n s
      (b :: r.1, r.2)

/-- `line.endswith(b"\n")`. -/
def endsLine (line : Bytes) : Bool := line.getLast? == some newline

/-- `not line.strip()`. -/
def blank (line : Bytes) : Bool :=
  line.all fun b => (9 ≤ b && b ≤ 13) || b == 32

/-- `is_shutdown_command`; `none` is the `RecursionError` that `json.loads` raises on a deeply
nested line. -/
def isShutdownCommand (F : Type) [PyFloat F] (python : JsonLimits) (line : Bytes) : Option Bool :=
  match decodeJson line with
  | none => some false
  | some text =>
    match Json.loads (F := F) python text with
    | .error .recursion => none
    | .error _ => some false
    | .ok (.obj ms) =>
      match Json.member? ms (py "command") with
      | some (.str command) => some (command == py "shutdown")
      | _ => some false
    | .ok _ => some false

inductive Notice where
  | notDelivered
  | busy
  | tooLarge
  | incomplete
  | unconfirmed
  deriving DecidableEq

/-- The counted reports of `Outbound`: the pending entry of each kind, and the entries that the
writer has taken. -/
structure Outbound where
  closed : Bool
  notices : Notice → ℕ
  reported : List (Notice × ℕ)

namespace Outbound

def notice (o : Outbound) (kind : Notice) : Outbound :=
  if o.closed then o
  else { o with notices := Function.update o.notices kind (o.notices kind + 1) }

/-- `_take` of a counted report. -/
def take (o : Outbound) (kind : Notice) : Outbound :=
  { o with
    notices := Function.update o.notices kind 0
    reported := (kind, o.notices kind) :: o.reported }

def close (o : Outbound) : Outbound := { o with closed := true, notices := fun _ => 0 }

def total (o : Outbound) (kind : Notice) : ℕ :=
  o.notices kind + ((o.reported.filter fun r => r.1 = kind).map Prod.snd).sum

end Outbound

inductive Delivery where
  | written
  | refused
  | unconfirmed

structure ChildInput where
  closed : Bool
  /-- What was written whole, the last write first. -/
  wrote : List Bytes

namespace ChildInput

/-- `ChildInput.write`; `works` tells whether the stream takes the line. -/
def write (c : ChildInput) (line : Bytes) (works : Bool) : ChildInput × Delivery :=
  if c.closed then (c, .refused)
  else if works then ({ c with wrote := line :: c.wrote }, .written)
  else ({ c with closed := true }, .unconfirmed)

def finish (c : ChildInput) (lastLine : Bytes) (works : Bool) : ChildInput :=
  if c.closed then c
  else if works then ⟨true, lastLine :: c.wrote⟩
  else { c with closed := true }

end ChildInput

/-- Where the reading thread is. A line goes with its number in the input. -/
inductive Reader where
  | reading
  | submitting (n : ℕ) (line : Bytes)
  | noticing (n : ℕ) (kind : Notice)
  /-- It is about to request a stop, and to return if `ends`. -/
  | stopping (ends : Bool)
  | ended
  | died

inductive Deliverer where
  | waiting
  | holding (n : ℕ) (line : Bytes) (target : Option ℕ)
  | noticing (n : ℕ) (kind : Notice)

inductive StopReason where
  | inputClosed
  | asked
  | stoppedReading

inductive Event where
  | readFailed
  | stopRequested
  | attached (child : ℕ)
  | refused (n : ℕ)
  | popped (n : ℕ) (target : Option ℕ)
  | wrote (n child : ℕ) (line : Bytes)
  | finished (child : ℕ) (lastLine : Bytes)
  | counted (n : ℕ) (kind : Notice)

structure DesktopRelay where
  rest : Bytes
  oversized : Bool
  reader : Reader
  deliverer : Deliverer
  pending : List (ℕ × Bytes)
  pendingBytes : ℕ
  input : Option ℕ
  accepting : Bool
  generation : ℕ
  stopReason : Option StopReason
  out : Outbound
  children : List ChildInput
  /-- The lines that `set_accepting` has dropped and not yet counted. -/
  dropped : List ℕ
  /-- The lines read to their end, and what was read of the next one. -/
  done : List Bytes
  part : Bytes
  log : List Event

namespace DesktopRelay

def start (input : Bytes) : DesktopRelay where
  rest := input
  oversized := false
  reader := .reading
  deliverer := .waiting
  pending := []
  pendingBytes := 0
  input := none
  accepting := true
  generation := 0
  stopReason := none
  out := ⟨false, fun _ => 0, []⟩
  children := []
  dropped := []
  done := []
  part := []
  log := []

/-- `self.out.notice(kind)` for line `n`. -/
def notice (s : DesktopRelay) (n : ℕ) (kind : Notice) : DesktopRelay :=
  { s with out := s.out.notice kind, log := .counted n kind :: s.log }

/-- `_request_stop`. -/
def requestStop (s : DesktopRelay) (reason : StopReason) : DesktopRelay :=
  { s with stopReason := s.stopReason <|> some reason, log := .stopRequested :: s.log }

/-- What `_read_desktop` does with what `readline` returned. -/
def takeLine (F : Type) [PyFloat F] (limits : RelayLimits) (python : JsonLimits)
    (s : DesktopRelay) (line : Bytes) : DesktopRelay :=
  if line = [] then { s with reader := .stopping true }
  else if s.oversized then
    if endsLine line then
      { s with oversized := false, done := s.done ++ [s.part ++ line], part := [] }
    else { s with part := s.part ++ line }
  else if endsLine line = false then
    if limits.maxCommandBytes < line.length then
      { s with oversized := true, part := line, reader := .noticing s.done.length .tooLarge }
    else { s with part := line, reader := .noticing s.done.length .incomplete }
  else if blank line then { s with done := s.done ++ [line] }
  else
    match isShutdownCommand F python line with
    | none => { s with done := s.done ++ [line], reader := .died }
    | some true => { s with done := s.done ++ [line], reader := .stopping false }
    | some false =>
      { s with done := s.done ++ [line], reader := .submitting s.done.length line }

/-- `_submit` under the lock. -/
def submit (limits : RelayLimits) (s : DesktopRelay) (n : ℕ) (line : Bytes) : DesktopRelay :=
  if s.accepting ∧ s.pending.length < limits.maxPending ∧
      s.pendingBytes + line.length ≤ limits.pendingBudget then
    { s with
      pending := s.pending ++ [(n, line)]
      pendingBytes := s.pendingBytes + line.length
      reader := .reading }
  else
    { s with
      reader := .noticing n (if s.accepting then .busy else .notDelivered)
      log := .refused n :: s.log }

/-- `_deliver` under the lock; it waits on an empty queue, and for a bridge while accepting. -/
def pop (s : DesktopRelay) : Option DesktopRelay :=
  match s.pending with
  | [] => none
  | (n, line) :: rest =>
    if s.accepting ∧ s.input = none then none
    else
      let target := if s.accepting then s.input else none
      some { s with
        pending := rest
        pendingBytes := s.pendingBytes - line.length
        deliverer := .holding n line target
        log := .popped n target :: s.log }

/-- `target.write(line)`, or `Delivery.REFUSED` without a target. -/
def deliver (s : DesktopRelay) (n : ℕ) (line : Bytes) (target : Option ℕ) (works : Bool) :
    DesktopRelay :=
  match target with
  | none => { s with deliverer := .noticing n .notDelivered }
  | some child =>
    match s.children[child]? with
    | none => { s with deliverer := .noticing n .notDelivered }
    | some c =>
      let r := c.write line works
      let s := { s with children := s.children.set child r.1 }
      match r.2 with
      | .written => { s with deliverer := .waiting, log := .wrote n child line :: s.log }
      | .refused => { s with deliverer := .noticing n .notDelivered }
      | .unconfirmed => { s with deliverer := .noticing n .unconfirmed }

/-- A new bridge's input becomes the current one. -/
def attach (s : DesktopRelay) (generation : ℕ) : DesktopRelay :=
  { s with
    children := s.children ++ [⟨false, []⟩]
    input := some s.children.length
    generation := generation
    log := .attached s.children.length :: s.log }

/-- `set_accepting` under the lock. -/
def setAccepting (s : DesktopRelay) (accepting : Bool) : DesktopRelay :=
  if accepting then { s with accepting := true }
  else
    { s with
      accepting := false
      input := none
      dropped := s.dropped ++ s.pending.map Prod.fst
      pending := []
      pendingBytes := 0
      log := (s.pending.map fun p => .refused p.1) ++ s.log }

end DesktopRelay

inductive RelayMove where
  | read (fails : Bool)
  | submit
  | readerNotice
  | readerStop
  | pop
  | deliver (works : Bool)
  | delivererNotice
  | attach (generation : ℕ)
  | setAccepting (accepting : Bool)
  /-- `set_accepting` counts a line that it has dropped. -/
  | droppedNotice
  | finish (child : ℕ) (lastLine : Bytes) (works : Bool)
  /-- The writer of the desktop's output takes a counted report. -/
  | take (kind : Notice)
  | close
  | broken

namespace DesktopRelay

def step (F : Type) [PyFloat F] (limits : RelayLimits) (python : JsonLimits)
    (s : DesktopRelay) : RelayMove → Option DesktopRelay
  | .read fails =>
    match s.reader with
    | .reading =>
      if fails then some { s with reader := .stopping true, log := .readFailed :: s.log }
      else
        let r := readline (limits.maxCommandBytes + 1) s.rest
        some ({ s with rest := r.2 }.takeLine F limits python r.1)
    | _ => none
  | .submit =>
    match s.reader with
    | .submitting n line => some (s.submit limits n line)
    | _ => none
  | .readerNotice =>
    match s.reader with
    | .noticing n kind => some { s.notice n kind with reader := .reading }
    | _ => none
  | .readerStop =>
    match s.reader with
    | .stopping true => some { s.requestStop .inputClosed with reader := .ended }
    | .stopping false => some { s.requestStop .asked with reader := .reading }
    | _ => none
  | .pop =>
    match s.deliverer with
    | .waiting => s.pop
    | _ => none
  | .deliver works =>
    match s.deliverer with
    | .holding n line target => some (s.deliver n line target works)
    | _ => none
  | .delivererNotice =>
    match s.deliverer with
    | .noticing n kind => some { s.notice n kind with deliverer := .waiting }
    | _ => none
  | .attach generation => some (s.attach generation)
  | .setAccepting accepting => some (s.setAccepting accepting)
  | .droppedNotice =>
    match s.dropped with
    | n :: rest => some { s.notice n .notDelivered with dropped := rest }
    | [] => none
  | .finish child lastLine works =>
    match s.children[child]? with
    | some c =>
      some { s with
        children := s.children.set child (c.finish lastLine works)
        log := if c.closed = false ∧ works then .finished child lastLine :: s.log else s.log }
    | none => none
  | .take kind =>
    if s.out.closed ∨ s.out.notices kind = 0 then none
    else some { s with out := s.out.take kind }
  | .close => some { s with out := s.out.close }
  | .broken => some (s.requestStop .stoppedReading)

end DesktopRelay

def relayMachine (F : Type) [PyFloat F] (limits : RelayLimits) (python : JsonLimits)
    (input : Bytes) : Machine DesktopRelay RelayMove where
  start s := s = .start input
  step := DesktopRelay.step F limits python

end QronosAgent.Desktop

import Mathlib.Algebra.Order.Ring.Rat
import QronosAgent.Lib.Dict
import QronosAgent.Lib.PyText

/-! `core/approval_ledger.py`: identities of prompts that wait for a person. Payloads are of any
type. -/
namespace QronosAgent.Approval
open Lib

abbrev ApprovalId := PyStr

/-- Clock readings and durations, as exact numbers. -/
abbrev Seconds := ℚ

inductive ApprovalKind where
  | paintDraw
  | paintUndo
  | screenRead
  | fileAction
  | appWorkflow
  | historyUndo
  | mediaAction
  deriving DecidableEq

namespace ApprovalKind

end ApprovalKind

def maxRememberedSettled : ℕ := 256

def staleMalformed : PyStr := py "malformed"
def staleUnknown : PyStr := py "unknown"
def staleUsed : PyStr := py "already_answered"
def staleExpired : PyStr := py "expired"
def staleClosed : PyStr := py "runtime_shutdown"
def staleWrongKind : PyStr := py "wrong_kind"

/-- `[A-Za-z0-9_-]`. -/
def isIdChar (c : PyChar) : Bool :=
  let n := c.code
  (0x30 ≤ n && n ≤ 0x39) || (0x41 ≤ n && n ≤ 0x5A) || (0x61 ≤ n && n ≤ 0x7A) || n == 0x5F ||
    n == 0x2D

/-- `APPROVAL_ID_PATTERN`, whose `$` also matches before a line feed at the end. -/
def isApprovalId (id : ApprovalId) : Bool :=
  let body := if id.getLast? = some lf then id.dropLast else id
  22 ≤ body.length && body.length ≤ 64 && body.all isIdChar

structure ApprovalTicket (π : Type) where
  approvalId : ApprovalId
  kind : ApprovalKind
  question : PyStr
  payload : π
  window : Option ℤ
  issuedAt : Seconds
  expiresAt : Seconds

inductive PayloadSource (π : Type) where
  | given (payload : π)
  | built (payloadFn : ApprovalId → Option π)

structure IssueArgs (π : Type) where
  kind : ApprovalKind
  question : PyStr
  payload : PayloadSource π
  window : Option ℤ

/-- What `issue` raises: it is closed, the identity is unusable, `payload_fn` has raised. -/
inductive IssueError where
  | stale (reason : PyStr)
  | unusableIdentity
  | payload

structure ApprovalLedger (π : Type) where
  open_ : Dict ApprovalId (ApprovalTicket π)
  settled : Dict ApprovalId PyStr
  closed : Bool

variable {π : Type}

def PayloadSource.payload? (source : PayloadSource π) (id : ApprovalId) : Option π :=
  match source with
  | given payload => some payload
  | built payloadFn => payloadFn id

def IssueArgs.ticket (args : IssueArgs π) (ttl : Seconds) (id : ApprovalId) (now : Seconds)
    (payload : π) : ApprovalTicket π :=
  ⟨id, args.kind, args.question, payload, args.window, now, now + ttl⟩

namespace ApprovalLedger

def empty : ApprovalLedger π := ⟨Dict.empty, Dict.empty, false⟩

/-- `_settle_locked`: remember why an identity is no longer usable, and forget the oldest. -/
def settle (settled : Dict ApprovalId PyStr) (id : ApprovalId) (reason : PyStr) :
    Dict ApprovalId PyStr :=
  let settled := (settled.erase id).set id reason
  settled.drop (settled.items.length - maxRememberedSettled)

/-- Take the tickets that satisfy `p` out of the open ones, in order, and settle them. -/
def settleWhere (l : ApprovalLedger π) (p : ApprovalTicket π → Bool) (reason : PyStr) :
    List (ApprovalTicket π) × ApprovalLedger π :=
  let gone := l.open_.values.filter p
  (gone, { l with
    open_ := l.open_.filter fun _ t => !p t
    settled := gone.foldl (fun settled t => settle settled t.approvalId reason) l.settled })

/-- `_expire_locked`. -/
def expire (l : ApprovalLedger π) (now : Seconds) : ApprovalLedger π :=
  (l.settleWhere (fun t => t.expiresAt ≤ now) staleExpired).2

def issue (l : ApprovalLedger π) (ttl : Seconds) (token : ApprovalId) (now : Seconds)
    (args : IssueArgs π) : Except IssueError (ApprovalTicket π) × ApprovalLedger π :=
  if l.closed then (.error (.stale staleClosed), l)
  else if isApprovalId token = false ∨ (l.open_.get? token).isSome ∨ (l.settled.get? token).isSome
  then (.error .unusableIdentity, l)
  else
    match args.payload.payload? token with
    | none => (.error .payload, l)
    | some payload =>
      let ticket := args.ticket ttl token now payload
      (.ok ticket, { l with open_ := l.open_.set token ticket })

def openTicket (l : ApprovalLedger π) (now : Seconds) (kinds : List ApprovalKind) :
    Option (ApprovalTicket π) × ApprovalLedger π :=
  let l := l.expire now
  (l.open_.values.reverse.find? (·.kind ∈ kinds), l)

def openTickets (l : ApprovalLedger π) (now : Seconds) :
    List (ApprovalTicket π) × ApprovalLedger π :=
  let l := l.expire now
  (l.open_.values, l)

def take (l : ApprovalLedger π) (now : Seconds) (id : ApprovalId)
    (kinds : Option (List ApprovalKind)) :
    Except PyStr (ApprovalTicket π) × ApprovalLedger π :=
  if isApprovalId id = false then (.error staleMalformed, l)
  else if l.closed then (.error staleClosed, l)
  else
    let l := l.expire now
    match l.open_.get? id with
    | none => (.error ((l.settled.get? id).getD staleUnknown), l)
    | some ticket =>
      if kinds.any fun kinds => ticket.kind ∉ kinds then (.error staleWrongKind, l)
      else
        (.ok ticket, { l with
          open_ := l.open_.erase id
          settled := settle l.settled id staleUsed })

def revoke (l : ApprovalLedger π) (id : ApprovalId) (reason : PyStr) :
    Option (ApprovalTicket π) × ApprovalLedger π :=
  match l.open_.get? id with
  | none => (none, l)
  | some ticket =>
    (some ticket, { l with
      open_ := l.open_.erase id
      settled := settle l.settled ticket.approvalId reason })

def revokeKinds (l : ApprovalLedger π) (kinds : List ApprovalKind) (reason : PyStr) :
    List (ApprovalTicket π) × ApprovalLedger π :=
  l.settleWhere (fun t => t.kind ∈ kinds) reason

def close (l : ApprovalLedger π) : List (ApprovalTicket π) × ApprovalLedger π :=
  { l with closed := true }.settleWhere (fun _ => true) staleClosed

end ApprovalLedger
end QronosAgent.Approval

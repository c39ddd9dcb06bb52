import QronosAgent.Broker.Verify
import QronosAgent.Lib.Machine

/-! Broker launches that share one directory of consumed approvals: `handle_request` with
`ConsumedApprovals.claim` step by step, in any interleaving. -/
namespace QronosAgent.Broker
open Lib

/-- What `_prune` keeps: markers not older than twice the longest life of an approval. -/
def markerSeconds : Seconds := 2 * (maxApprovalSeconds + clockSkewSeconds)

inductive Stage (F : Type) where
  | received
  | approved (v : Verified F)
  | trusted (v : Verified F)
  | passed (v : Verified F)
  | pruning (v : Verified F) (horizon : Seconds)
  | unlinking (v : Verified F) (horizon : Seconds) (marker : PyStr)
  | opening (v : Verified F)
  | claimed (v : Verified F)
  | ended

inductive Result where
  | refused (outcome detail : PyStr)
  | raised
  | failed
  | performed

inductive Event (F : Type) where
  | checked (r : ℕ) (now : Seconds)
  | secretAccepted (r : ℕ) (secret : PyStr)
  | gatePassed (r : ℕ) (request : ActionRequest)
  | claimed (r : ℕ) (nonce : PyStr) (at_ : Seconds)
  | performed (r : ℕ) (nonce kind : PyStr) (params : Members F)
  | ended (r : ℕ) (result : Result)

/-- The clock, the directory with the modification time of every marker, the requests, and what
has happened, the last first. -/
structure World (F : Type) where
  clock : Seconds
  markers : Dict PyStr Seconds
  requests : ℕ → Option (Launch F × Stage F)
  log : List (Event F)

inductive GateAnswer where
  | passes
  | refuses (reason : PyStr)
  | raises

inductive OpenAnswer where
  | works
  | raises
  | closeRaises
  deriving DecidableEq

inductive Step (F : Type) where
  | tick (now : Seconds)
  | launch (r : ℕ) (launch : Launch F)
  | check (r : ℕ)
  | secret (r : ℕ) (accepted : Bool)
  | gate (r : ℕ) (answer : GateAnswer)
  | mkdir (r : ℕ) (works : Bool)
  | inspect (r : ℕ) (marker : PyStr)
  | unlink (r : ℕ) (works : Bool)
  | pruned (r : ℕ) (works : Bool)
  | openMarker (r : ℕ) (answer : OpenAnswer)
  | perform (r : ℕ) (works : Bool)

namespace World
variable {F : Type}

def fresh (now : Seconds) : World F := ⟨now, Dict.empty, fun _ => none, []⟩

def set (w : World F) (r : ℕ) (launch : Launch F) (stage : Stage F) (events : List (Event F)) :
    World F :=
  { w with requests := Function.update w.requests r (some (launch, stage)), log := events ++ w.log }

def finish (w : World F) (r : ℕ) (launch : Launch F) (result : Result) : World F :=
  w.set r launch .ended [.ended r result]

end World

def Failure.result : Failure → Result
  | .refusal outcome detail => .refused outcome detail
  | .raised => .raised

variable {F : Type} [PyFloat F] (p : Platform F)

def marker (nonce : PyStr) : PyStr :=
  (p.sha256 ((PyStr.encodeUtf8 nonce).getD ByteArray.empty)).take 40 ++ py ".used"

namespace World

/-- The next step of a request in its stage; `none` when it is not the request's next step. -/
def advance (w : World F) (r : ℕ) (launch : Launch F) : Stage F → Step F → Option (World F)
  | .received, .check _ =>
    match checkRequest p launch w.clock with
    | .error e => some ((w.set r launch .ended [.ended r e.result]))
    | .ok v => some (w.set r launch (.approved v) [.checked r v.now])
  | .approved v, .secret _ accepted =>
    match launch.secret? with
    | some secret =>
      if accepted then some (w.set r launch (.trusted v) [.secretAccepted r secret])
      else some (w.finish r launch
        (.refused (py "secret_rejected") (py "The typed approval secret was not accepted.")))
    | none => some (w.finish r launch
        (.refused (py "secret_rejected") (py "The typed approval secret was not accepted.")))
  | .trusted v, .gate _ answer =>
    if !v.request.valid then
      some (w.finish r launch
        (.refused (py "malformed") (py "The approved action is not a valid action.")))
    else
      match answer with
      | .passes => some (w.set r launch (.passed v) [.gatePassed r v.request])
      | .refuses reason => some (w.finish r launch (.refused (py "forbidden") reason))
      | .raises => some (w.finish r launch .raised)
  | .passed v, .mkdir _ works =>
    if !isHex 32 v.nonce then
      some (w.finish r launch
        (.refused (py "already_used") (py "This approval has already been used.")))
    else if works then some (w.set r launch (.pruning v (w.clock - markerSeconds)) [])
    else some (w.finish r launch .raised)
  | .pruning v horizon, .inspect _ name =>
    match w.markers.get? name with
    | some mtime => if mtime < horizon then some (w.set r launch (.unlinking v horizon name) []) else some w
    | none => some w
  | .unlinking v horizon name, .unlink _ works =>
    some { w.set r launch (.pruning v horizon) [] with
      markers := if works then w.markers.erase name else w.markers }
  | .pruning v _, .pruned _ works =>
    if works then some (w.set r launch (.opening v) []) else some (w.finish r launch .raised)
  | .opening v, .openMarker _ answer =>
    if answer = .raises then some (w.finish r launch .raised)
    else
      match w.markers.get? (marker p v.nonce) with
      | some _ => some (w.finish r launch
          (.refused (py "already_used") (py "This approval has already been used.")))
      | none =>
        if answer = .closeRaises then
          some { w.set r launch .ended [.ended r .raised, .claimed r v.nonce w.clock] with
            markers := w.markers.set (marker p v.nonce) w.clock }
        else
          some { w.set r launch (.claimed v) [.claimed r v.nonce w.clock] with
            markers := w.markers.set (marker p v.nonce) w.clock }
  | .claimed v, .perform _ works =>
    some (w.set r launch .ended
      [.ended r (if works then .performed else .failed), .performed r v.nonce v.kind v.params])
  | _, _ => none

end World

def Step.request : Step F → ℕ
  | .tick _ => 0
  | .launch r _ | .check r | .secret r _ | .gate r _ | .mkdir r _ | .inspect r _ | .unlink r _
  | .pruned r _ | .openMarker r _ | .perform r _ => r

namespace World

/-- The clock does not go back; a launch is a new request. -/
def step (w : World F) (a : Step F) : Option (World F) :=
  match a with
  | .tick now => if w.clock ≤ now then some { w with clock := now } else none
  | .launch r launch =>
    match w.requests r with
    | none => some (w.set r launch .received [])
    | some _ => none
  | a =>
    match w.requests a.request with
    | none => none
    | some (launch, stage) => w.advance p a.request launch stage a

end World

def machine : Machine (World F) (Step F) where
  start w := ∃ now, w = World.fresh now
  step := World.step p

end QronosAgent.Broker

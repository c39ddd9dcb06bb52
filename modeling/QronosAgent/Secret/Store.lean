import Mathlib
import QronosAgent.Lib.Machine
import QronosAgent.Lib.PyText

/-! The store of the approval secret, `core/approval_secret.py`: one SQLite file with the
credential and the counter of wrong guesses. A transaction is a function of the file and of the
statements that fail. -/
namespace QronosAgent.Secret
open Lib

abbrev Seconds := ℚ

def scryptMinN : ℤ := 2 ^ 15

def scryptMaxN : ℤ := 2 ^ 17

def scryptR : ℤ := 8

def scryptMaxP : ℤ := 2

def digestBytes : ℕ := 32

def saltBytes : ℕ := 16

def minSecretChars : ℕ := 8

def maxSecretChars : ℕ := 256

def maxFailuresBeforeLock : ℕ := 5

def baseLockSeconds : Seconds := 60

def maxLockSeconds : Seconds := 3600

def kdfName : PyStr := py "scrypt"

inductive SqlError where
  | operational (busy : Bool)
  | other

inductive Statement where
  | connect
  | begin
  | tables
  | createTables
  | insertVersion
  | insertAttempts
  | version
  | counter
  | credential
  | attempts
  | update
  | delete
  | insert
  | commit
  deriving DecidableEq

abbrev Faults := Statement → Option SqlError

inductive Unavailable where
  | busy
  | corrupt
  | notOpened
  | notRecognised
  | newer
  | unknownSchema
  | counterMissing
  | invalidRecord
  | kdfParams

inductive SecretFailure where
  | notConfigured
  | locked (lockedUntil : Seconds)
  | unavailable (why : Unavailable)
  | rejected
  | invalid
  /-- Another exception: the error of a statement as it is, or text that cannot be encoded. -/
  | raised

/-- `_store_error`. -/
def storeError : SqlError → SecretFailure
  | .operational true => .unavailable .busy
  | .operational false | .other => .unavailable .corrupt

structure KdfParams where
  n : ℤ
  r : ℤ
  p : ℤ
  deriving DecidableEq

/-- `KdfParams.validate`. -/
def KdfParams.valid (k : KdfParams) : Bool :=
  scryptMinN ≤ k.n && k.n ≤ scryptMaxN && k.n.toNat &&& (k.n.toNat - 1) == 0 && k.r == scryptR &&
    1 ≤ k.p && k.p ≤ scryptMaxP

inductive SqlValue where
  | text (s : PyStr)
  | blob (b : ByteArray)
  | other
  deriving DecidableEq

structure CredentialRow where
  kdf : SqlValue
  params : KdfParams
  salt : SqlValue
  digest : SqlValue
  createdAt : Seconds
  changedAt : Seconds
  deriving DecidableEq

structure Attempts where
  failures : ℕ
  lockedUntil : Seconds
  lastFailureAt : Seconds
  deriving DecidableEq

structure SecretStore where
  /-- The stored schema version, `-1` where it is no number. -/
  version : ℤ
  credential : List CredentialRow
  attempts : Option Attempts
  deriving DecidableEq

inductive SecretFile where
  | missing
  | empty
  | unrecognised
  | store (s : SecretStore)
  deriving DecidableEq

/-- `sqlite3.connect` makes the file. -/
def SecretFile.opened : SecretFile → SecretFile
  | .missing => .empty
  | file => file

structure Credential where
  params : KdfParams
  salt : ByteArray
  digest : ByteArray
  createdAt : Seconds

/-- What the module takes from `unicodedata`, `re` and `hashlib`. -/
structure Platform where
  normalize : PyStr → PyStr
  decimal : PyChar → Bool
  scrypt : ByteArray → ByteArray → KdfParams → ByteArray

inductive Submitted where
  | absent
  | text (s : PyStr)
  | other

/-- `_encoded`. -/
def encoded (P : Platform) : Submitted → Except SecretFailure ByteArray
  | .text s =>
    let normalized := P.normalize s
    if maxSecretChars < normalized.length then .error .invalid
    else
      match PyStr.encodeUtf8 normalized with
      | some b => .ok b
      | none => .error .raised
  | .absent | .other => .error .invalid

/-- `_derive`. -/
def derive (P : Platform) (secret salt : ByteArray) (params : KdfParams) :
    Except SecretFailure ByteArray :=
  if params.valid then .ok (P.scrypt secret salt params) else .error (.unavailable .kdfParams)

/-- `_lock_seconds`. -/
def lockSeconds (failures : ℕ) : Seconds :=
  min maxLockSeconds (baseLockSeconds * 2 ^ min (failures - maxFailuresBeforeLock) 16)

def lowerAscii : PyChar → PyChar
  | .scalar c => .scalar c.toLower
  | .surrogate n => .surrogate n

/-- `_PUBLIC_PHRASE.match(text)`. -/
def isPublicPhrase (P : Platform) (text : PyStr) : Bool :=
  let s := text.dropWhile PyChar.isSpace
  let rest := ((s.drop 6).dropWhile PyChar.isSpace).dropWhile P.decimal
  (s.take 6).map lowerAscii == py "delete" && (rest.dropWhile PyChar.isSpace).isEmpty

def run (faults : Faults) (turned : SqlError → SecretFailure) (stmt : Statement) :
    Except SecretFailure Unit :=
  match faults stmt with
  | some e => .error (turned e)
  | none => .ok ()

def asIs (_ : SqlError) : SecretFailure := .raised

def newStore : SecretStore := ⟨1, [], some ⟨0, 0, 0⟩⟩

/-- `_ensure_schema`; no store is a database without tables, in a transaction that only reads. -/
def ensureSchema (faults : Faults) (write : Bool) (file : SecretFile) :
    Except SecretFailure (Option SecretStore) := do
  run faults storeError .tables
  match file with
  | .missing | .empty =>
    if write then
      run faults storeError .createTables
      run faults storeError .insertVersion
      run faults storeError .insertAttempts
      return some newStore
    else return none
  | .unrecognised => throw (.unavailable .notRecognised)
  | .store s =>
    run faults storeError .version
    if 1 < s.version then throw (.unavailable .newer)
    if s.version ≠ 1 then throw (.unavailable .unknownSchema)
    run faults storeError .counter
    if s.attempts.isNone then throw (.unavailable .counterMissing)
    return some s

/-- What `_credential` makes of the rows. -/
def readCredential : List CredentialRow → Except SecretFailure (Option Credential)
  | [] => .ok none
  | [row] =>
    match row.kdf, row.salt, row.digest with
    | .text kdf, .blob salt, .blob digest =>
      if kdf = kdfName ∧ salt.size = saltBytes ∧ digest.size = digestBytes then
        if row.params.valid then .ok (some ⟨row.params, salt, digest, row.createdAt⟩)
        else .error (.unavailable .kdfParams)
      else .error (.unavailable .invalidRecord)
    | _, _, _ => .error (.unavailable .invalidRecord)
  | _ => .error (.unavailable .invalidRecord)

/-- `_credential`. Without tables the statement fails by itself. -/
def credential (faults : Faults) (store : Option SecretStore) :
    Except SecretFailure (Option Credential) :=
  match faults .credential with
  | some (.operational _) => .ok none
  | some .other => .error .raised
  | none =>
    match store with
    | none => .ok none
    | some s => readCredential s.credential

/-- `_attempts`: the count, and the end of the lockout. -/
def attempts (faults : Faults) (store : Option SecretStore) :
    Except SecretFailure (ℕ × Seconds) :=
  match faults .attempts with
  | some (.operational _) => .ok (0, 0)
  | some .other => .error .raised
  | none =>
    match store.bind SecretStore.attempts with
    | none => .ok (0, 0)
    | some a => .ok (a.failures, a.lockedUntil)

/-- `UPDATE attempts … WHERE id=1`. -/
def SecretStore.setAttempts (s : SecretStore) (a : Attempts) : SecretStore :=
  { s with attempts := s.attempts.map fun _ => a }

def countWrong (failures : ℕ) (now : Seconds) : Attempts :=
  let failures := failures + 1
  ⟨failures, if maxFailuresBeforeLock ≤ failures then now + lockSeconds failures else 0, now⟩

/-- `_check`. -/
def check (P : Platform) (faults : Faults) (now : Seconds) (s : SecretStore)
    (candidate : ByteArray) (c : Credential) : Except SecretFailure (SecretStore × Bool) := do
  let (failures, lockedUntil) ← attempts faults (some s)
  if now < lockedUntil then throw (.locked lockedUntil)
  let submitted ← derive P candidate c.salt c.params
  run faults asIs .update
  if submitted = c.digest then return (s.setAttempts ⟨0, 0, 0⟩, true)
  else return (s.setAttempts (countWrong failures now), false)

inductive Decision where
  | verified (ok : Bool)
  | provisioned
  | changed
  | notChanged

/-- `verify` within its transaction. -/
def verifyBody (P : Platform) (faults : Faults) (now : Seconds) (candidate : ByteArray)
    (s : SecretStore) : Except SecretFailure (SecretStore × Decision) := do
  match ← credential faults (some s) with
  | none => throw .notConfigured
  | some c =>
    let (s, ok) ← check P faults now s candidate c
    return (s, .verified ok)

structure NewRecord where
  salt : ByteArray
  kdf : KdfParams
  now : Seconds

def putCredential (P : Platform) (faults : Faults) (new : NewRecord) (proposed : ByteArray)
    (createdAt : Seconds) (s : SecretStore) : Except SecretFailure SecretStore := do
  let digest ← derive P proposed new.salt new.kdf
  run faults asIs .delete
  run faults asIs .insert
  return { s with credential :=
    [⟨.text kdfName, new.kdf, .blob new.salt, .blob digest, createdAt, new.now⟩] }

/-- `current_secret if current_secret is not None else ""`. -/
def Submitted.orEmpty : Submitted → Submitted
  | .absent => .text []
  | given => given

/-- `set_secret` within its transaction. -/
def setBody (P : Platform) (faults : Faults) (now : Seconds) (new : NewRecord)
    (proposed : ByteArray) (current : Submitted) (s : SecretStore) :
    Except SecretFailure (SecretStore × Decision) := do
  match ← credential faults (some s) with
  | none => return (← putCredential P faults new proposed new.now s, .provisioned)
  | some c =>
    let current ← encoded P current.orEmpty
    if current.isEmpty then throw .rejected
    let (s, ok) ← check P faults now s current c
    if ok then return (← putCredential P faults new proposed c.createdAt s, .changed)
    else return (s, .notChanged)

/-- The checks that `set_secret` makes of a new secret. -/
def proposedSecret (P : Platform) (secret : Submitted) : Except SecretFailure ByteArray := do
  let proposed ← encoded P secret
  match PyStr.decodeUtf8 proposed with
  | none => throw .raised
  | some text =>
    if text.length < minSecretChars ∨ PyStr.blank text then throw .invalid
    if isPublicPhrase P text then throw .invalid
    return proposed

/-- `_transaction(write=True)`: the file it leaves, and what it gives. Whatever is raised in it,
the file is rolled back. -/
def writeTransaction (faults : Faults)
    (body : SecretStore → Except SecretFailure (SecretStore × Decision)) (file : SecretFile) :
    SecretFile × Except SecretFailure Decision :=
  match faults .connect with
  | some _ => (file, .error (.unavailable .notOpened))
  | none =>
    let file := file.opened
    let result : Except SecretFailure (SecretStore × Decision) := do
      run faults storeError .begin
      match ← ensureSchema faults true file with
      | none => throw .raised
      | some s =>
        let r ← body s
        run faults storeError .commit
        return r
    match result with
    | .ok (s, decision) => (.store s, .ok decision)
    | .error e => (file, .error e)

/-- `_transaction(write=False)` with the two reads of `status`: whether there is a credential,
the count, and the end of the lockout. -/
def readTransaction (faults : Faults) (file : SecretFile) :
    SecretFile × Except SecretFailure (Bool × ℕ × Seconds) :=
  match faults .connect with
  | some _ => (file, .error (.unavailable .notOpened))
  | none =>
    let file := file.opened
    let result : Except SecretFailure (Bool × ℕ × Seconds) := do
      run faults storeError .begin
      let s ← ensureSchema faults false file
      let c ← credential faults s
      let (failures, lockedUntil) ← attempts faults s
      run faults storeError .commit
      return (c.isSome, failures, lockedUntil)
    (file, result)

structure SecretStatus where
  configured : Bool
  lockedUntil : Seconds
  remainingAttempts : ℕ

/-- The status of a store that does not exist. -/
def noStore : SecretStatus := ⟨false, 0, maxFailuresBeforeLock⟩

/-- `status` after its transaction. -/
def statusOf (now : Seconds) (configured : Bool) (failures : ℕ) (lockedUntil : Seconds) :
    SecretStatus :=
  ⟨configured, if now < lockedUntil then lockedUntil else 0,
    if now < lockedUntil then 0 else max 1 (maxFailuresBeforeLock - failures)⟩

/-! Any number of processes that verify and set the secret of one store. A transaction is one
step; what a call does before and after it are others. -/

/-- One call of `verify`, `set_secret` or `status`. -/
abbrev CallId := ℕ

inductive Request where
  | verify (secret : Submitted)
  | set (new current : Submitted)
  | status

inductive Job where
  | check (candidate : ByteArray)
  | put (proposed : ByteArray) (current : Submitted)

inductive Answer where
  | yes
  | no
  /-- `False`, to an empty text, which is not looked up. -/
  | noText
  /-- `ApprovalSecretRejected`: the current secret is wrong. -/
  | notChanged
  | status (status : SecretStatus)
  | raised (why : SecretFailure)

inductive CallStage where
  | idle
  | transacting (job : Job)
  | decided (result : Except SecretFailure Decision)
  | seeking
  | looking
  | looked (configured : Bool) (failures : ℕ) (lockedUntil : Seconds)
  | done

/-- What was submitted as the secret that is stored. -/
def Job.guess (P : Platform) : Job → Option ByteArray
  | .check candidate => some candidate
  | .put _ current =>
    match encoded P current.orEmpty with
    | .ok current => if current.isEmpty then none else some current
    | .error _ => none

def Job.body (P : Platform) (faults : Faults) (now : Seconds) (new : NewRecord) :
    Job → SecretStore → Except SecretFailure (SecretStore × Decision)
  | .check candidate => verifyBody P faults now candidate
  | .put proposed current => setBody P faults now new proposed current

def compared (P : Platform) (faults : Faults) (now : Seconds) (job : Job) (file : SecretFile) :
    Option Bool :=
  if (faults .connect).isSome then none
  else do
    let o ← (do run faults storeError .begin; ensureSchema faults true file.opened).toOption
    let s ← o
    let c ← (← (credential faults (some s)).toOption)
    let guess ← job.guess P
    let (_, lockedUntil) ← (attempts faults (some s)).toOption
    if now < lockedUntil then none
    else (derive P guess c.salt c.params).toOption.map fun submitted => submitted = c.digest

structure Turn where
  call : CallId
  job : Job
  now : Seconds
  before : SecretFile
  after : SecretFile
  compared : Option Bool
  result : Except SecretFailure Decision

structure Look where
  call : CallId
  before : SecretFile
  after : SecretFile
  result : Except SecretFailure (Bool × ℕ × Seconds)

inductive SecretEvent where
  | turn (t : Turn)
  | look (l : Look)
  | notFound (id : CallId) (file : SecretFile)
  | answered (id : CallId) (answer : Answer)

structure SecretWorld where
  file : SecretFile
  clock : Seconds
  calls : CallId → CallStage
  log : List SecretEvent

inductive SecretMove where
  | tick (now : Seconds)
  | ask (id : CallId) (request : Request)
  | transact (id : CallId) (faults : Faults) (new : NewRecord)
  | answer (id : CallId) (recordFails : Bool)
  | seek (id : CallId)
  | look (id : CallId) (faults : Faults)
  | report (id : CallId)

namespace SecretWorld

def goTo (s : SecretWorld) (id : CallId) (stage : CallStage) : SecretWorld :=
  { s with calls := Function.update s.calls id stage }

def answer (s : SecretWorld) (id : CallId) (a : Answer) : SecretWorld :=
  { s.goTo id .done with log := .answered id a :: s.log }

def ask (P : Platform) (s : SecretWorld) (id : CallId) : Request → SecretWorld
  | .verify secret =>
    match encoded P secret with
    | .error e => s.answer id (.raised e)
    | .ok candidate =>
      if candidate.isEmpty then s.answer id .noText
      else s.goTo id (.transacting (.check candidate))
  | .set new current =>
    match proposedSecret P new with
    | .error e => s.answer id (.raised e)
    | .ok proposed => s.goTo id (.transacting (.put proposed current))
  | .status => s.goTo id .seeking

def turn (P : Platform) (s : SecretWorld) (id : CallId) (job : Job) (faults : Faults)
    (new : NewRecord) : Turn :=
  let r := writeTransaction faults (job.body P faults s.clock new) s.file
  ⟨id, job, s.clock, s.file, r.1, compared P faults s.clock job s.file, r.2⟩

def transact (P : Platform) (s : SecretWorld) (id : CallId) (job : Job) (faults : Faults)
    (new : NewRecord) : SecretWorld :=
  let t := s.turn P id job faults new
  { s.goTo id (.decided t.result) with file := t.after, log := .turn t :: s.log }

def decide (s : SecretWorld) (id : CallId) (recordFails : Bool) :
    Except SecretFailure Decision → SecretWorld
  | .error e => s.answer id (.raised e)
  | .ok (.verified true) => s.answer id .yes
  | .ok (.verified false) =>
    s.answer id (if recordFails then .raised .raised else .no)
  | .ok .notChanged => s.answer id (if recordFails then .raised .raised else .notChanged)
  | .ok .provisioned | .ok .changed =>
    if recordFails then s.answer id (.raised .raised) else s.goTo id .seeking

/-- `status` looks for the file. -/
def seek (s : SecretWorld) (id : CallId) : SecretWorld :=
  if s.file = .missing then
    { s with log := .notFound id s.file :: s.log }.answer id (.status noStore)
  else s.goTo id .looking

def look (s : SecretWorld) (id : CallId) (faults : Faults) : SecretWorld :=
  let r := readTransaction faults s.file
  let s' := { s with file := r.1, log := .look ⟨id, s.file, r.1, r.2⟩ :: s.log }
  match r.2 with
  | .error e => s'.answer id (.raised e)
  | .ok (configured, failures, lockedUntil) =>
    s'.goTo id (.looked configured failures lockedUntil)

def step (P : Platform) (s : SecretWorld) : SecretMove → Option SecretWorld
  | .tick now => if s.clock ≤ now then some { s with clock := now } else none
  | .ask id request =>
    match s.calls id with
    | .idle => some (s.ask P id request)
    | _ => none
  | .transact id faults new =>
    match s.calls id with
    | .transacting job => some (s.transact P id job faults new)
    | _ => none
  | .answer id recordFails =>
    match s.calls id with
    | .decided result => some (s.decide id recordFails result)
    | _ => none
  | .seek id =>
    match s.calls id with
    | .seeking => some (s.seek id)
    | _ => none
  | .look id faults =>
    match s.calls id with
    | .looking => some (s.look id faults)
    | _ => none
  | .report id =>
    match s.calls id with
    | .looked configured failures lockedUntil =>
      some (s.answer id (.status (statusOf s.clock configured failures lockedUntil)))
    | _ => none

end SecretWorld

/-- The processes on a store, whatever is in it. -/
def secretMachine (P : Platform) : Machine SecretWorld SecretMove where
  start s := s.calls = (fun _ => .idle) ∧ s.log = []
  step := SecretWorld.step P

end QronosAgent.Secret

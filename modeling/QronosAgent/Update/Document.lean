import QronosAgent.Update.Version

/-! What the update files have in common: how a JSON document is read from bytes, what reading
one raises, and the texts whose form is checked by a pattern. -/
namespace QronosAgent.Update
open Lib

inductive Code where
  | invalidVersion
  | keyFile
  | malformed
  | noTrustedKey
  | weakKey
  | revokedKey
  | untrustedSignature
  | wrongProduct
  | wrongPlatform
  | notAFile
  | packageMismatch
  | belowSecurityFloor
  | upgradePath
  | unsignedRollback
  | unsupportedSchema
  | dataSchema
  | dataEpoch
  | store
  | busy
  | launchUnavailable
  | updateInProgress
  | recoveryPending
  | recoveryFailed
  | unsupportedMigration
  | rollbackData
  | permissionDenied
  | approvalSecretMissing
  | approvalSecretUnavailable
  | approvalSecretRejected
  | notApproved
  | approvalExpired
  | approvalMismatch
  | notStaged
  | snapshotTooLarge
  | launchFailed
  | launchOutcomeUnknown

inductive Raised where
  | update (code : Code)
  | recursion
  /-- `ValueError` from an integer literal that is too long -/
  | value
  /-- `TypeError`: an unhashable value is looked up in a set -/
  | type
  | os

/-- Lower-case hexadecimal digits, as many as this. -/
def isHex (n : ℕ) (s : PyStr) : Bool :=
  s.length = n && s.all fun c => c ∈ py "0123456789abcdef"

/-- `_SHA256` -/
abbrev Digest := { s : PyStr // isHex 64 s }

/-- `_KEY_ID` -/
abbrev KeyId := { s : PyStr // isHex 32 s }

def Digest.of? (s : PyStr) : Option Digest := if h : isHex 64 s then some ⟨s, h⟩ else none

def KeyId.of? (s : PyStr) : Option KeyId := if h : isHex 32 s then some ⟨s, h⟩ else none

/-- What comes from the interpreter and from the cryptography it is given. -/
structure Platform where
  limits : JsonLimits
  sha256 : ByteArray → Digest
  /-- `base64.b64decode(text, validate=True)`; `none` when it raises. -/
  b64decode : PyStr → Option ByteArray
  /-- `ed25519.verify(public_key, message, signature)`; `none` is `SignatureError`. -/
  verify : ByteArray → ByteArray → ByteArray → Option Bool

section
variable {F : Type}

abbrev Members (F : Type) := List (PyStr × Json F)

def exact (fields : List PyStr) (v : Json F) : Option (Members F) :=
  match v with
  | .obj ms =>
    if (ms.all fun m => m.1 ∈ fields) && fields.all fun f => f ∈ ms.map Prod.fst then some ms
    else none
  | _ => none

/-- `d[name]`, of an object that has the field. -/
def field (ms : Members F) (name : PyStr) : Json F := (ms.lookup name).getD .null

def str? : Json F → Option PyStr
  | .str s => some s
  | _ => none

/-- `type(value) is int` -/
def int? : Json F → Option ℤ
  | .int n => some n
  | _ => none

def bool? : Json F → Option Bool
  | .bool b => some b
  | _ => none

def arr? : Json F → Option (List (Json F))
  | .arr xs => some xs
  | _ => none

def obj? : Json F → Option (Members F)
  | .obj ms => some ms
  | _ => none

/-- `None`, or what `read` accepts. -/
def optional {α : Type} (read : Json F → Option α) : Json F → Option (Option α)
  | .null => some none
  | v => (read v).map some

def versionOf? (v : Json F) : Option VersionText := (str? v).bind VersionText.of?

def digestOf? (v : Json F) : Option Digest := (str? v).bind Digest.of?

def keyIdOf? (v : Json F) : Option KeyId := (str? v).bind KeyId.of?

variable [PyFloat F]

/-- `json.loads(data.decode("utf-8"))`, where `UnicodeDecodeError` and `JSONDecodeError` become the
`UpdateError` of the file. -/
def loads (p : Platform) (code : Code) (data : ByteArray) : Except Raised (Json F) :=
  match PyStr.decodeUtf8 data with
  | none => .error (.update code)
  | some text =>
    match Json.loads p.limits text with
    | .ok v => .ok v
    | .error .decode => .error (.update code)
    | .error .intTooLong => .error .value
    | .error _ => .error .recursion

end
end QronosAgent.Update

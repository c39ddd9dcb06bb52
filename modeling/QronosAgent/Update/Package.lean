import QronosAgent.Lib.Fallible
import QronosAgent.Update.Document

/-! Signed update packages: `_authenticate`, `_payload`, `_check_format`, `_check_data` and
`verify_update` of `core/local_update.py`. -/
namespace QronosAgent.Update
open Lib

structure TrustedKey where
  keyId : KeyId
  publicKey : ByteArray
  owner : PyStr
  revoked : Bool

abbrev Keys := Dict KeyId TrustedKey

def maxEnvelopeBytes : ℕ := 64 * 1024
def maxPayloadBytes : ℕ := 32 * 1024
def maxSignatures : ℕ := 8
def maxPackageBytes : ℕ := 2 * 1024 * 1024 * 1024
def maxStores : ℕ := 64

def envelopeFields : List PyStr := [py "schema", py "payload", py "signatures"]
def signatureFields : List PyStr := [py "keyId", py "signature"]
def packageFields : List PyStr := [py "fileName", py "bytes", py "sha256"]
def dataSchemaFields : List PyStr := [py "writes", py "reads"]

def commonFields : List PyStr :=
  [py "schema", py "product", py "version", py "architecture", py "target", py "package",
    py "minimumVersion", py "securityFloor", py "rollback", py "notes"]

def payloadFields : List PyStr := py "dataSchema" :: commonFields
def payloadFields2 : List PyStr := py "dataStores" :: py "compatibilityEpoch" :: commonFields

def product : PyStr := py "com.qronos.agent"
def architecture : PyStr := py "x64"
def target : PyStr := py "x86_64-pc-windows-msvc"

/-- `_STORE_ID` -/
def isStoreId (s : PyStr) : Bool :=
  match s with
  | [] => false
  | c :: cs =>
    c ∈ py "abcdefghijklmnopqrstuvwxyz" && cs.length ≤ 47 &&
      cs.all fun c => c ∈ py "abcdefghijklmnopqrstuvwxyz0123456789_.-"

/-- `_PACKAGE_NAME` -/
def isPackageName (s : PyStr) : Bool :=
  let name := (s.drop 15).take (s.length - 29)
  s = py "qronos-desktop_" ++ name ++ py "_x64-setup.exe" && 1 ≤ name.length &&
    name.length ≤ 64 && name.all fun c =>
      c.toScalar?.any fun a => a.isDigit || isAsciiLetter a || a = '.' || a = '+' || a = '-'

/-- What `_check_format` accepts: the format written lies in the range that is read. -/
structure Format where
  writes : ℤ
  oldest : ℤ
  newest : ℤ
  ordered : 1 ≤ oldest ∧ oldest ≤ writes ∧ writes ≤ newest

inductive PayloadData where
  | single (format : Format)
  | stores (stores : Dict PyStr Format) (epoch : ℤ)

structure Package where
  fileName : PyStr
  bytes : ℕ
  sha256 : Digest
  named : isPackageName fileName
  sized : 0 < bytes ∧ bytes ≤ maxPackageBytes
  deriving DecidableEq

def Package.of? (fileName : PyStr) (bytes : ℤ) (sha256 : Digest) : Option Package :=
  if h : isPackageName fileName ∧ 0 < bytes.toNat ∧ bytes.toNat ≤ maxPackageBytes then
    some ⟨fileName, bytes.toNat, sha256, h.1, h.2⟩
  else none

structure Payload where
  version : VersionText
  securityFloor : VersionText
  minimumVersion : Option VersionText
  rollback : Bool
  notes : PyStr
  package : Package
  data : PayloadData

structure DataProfile where
  stores : Dict PyStr ℤ
  epoch : ℤ

inductive InstalledData where
  | single (schema : ℤ)
  | profile (profile : DataProfile)

structure InstalledState where
  version : VersionText
  data : InstalledData
  securityFloor : Option VersionText

inductive UpdateKind where
  | upgrade
  | repair
  | rollback
  deriving DecidableEq

/-- `VerifiedUpdate`; its version, digest, size and name are those of the payload. -/
structure VerifiedUpdate where
  kind : UpdateKind
  keyId : KeyId
  payload : Payload

def fail {α : Type} (code : Code) : Except Raised α := .error (.update code)

def require (p : Prop) [Decidable p] (code : Code) : Except Raised Unit :=
  if p then .ok () else fail code

def orFail {α : Type} (code : Code) : Option α → Except Raised α
  | some a => .ok a
  | none => fail code

theorem require_eq_ok {q : Prop} [Decidable q] {code : Code} {u : Unit} :
    require q code = .ok u ↔ q := by
  unfold require fail
  split <;> simp [*]

section
variable {F : Type} [PyFloat F] (p : Platform)

/-- `value == 1`, which holds of `True` and `1.0` too. -/
def equalsOne : Json F → Bool
  | .int n => n = 1
  | .bool b => b
  | .float x => (PyFloat.text x).render = py "1.0"
  | _ => false

/-- `_b64` -/
def b64 (value : Json F) (length : Option ℕ) : Except Raised ByteArray := do
  let text ← orFail .malformed (str? value)
  let data ← orFail .malformed (p.b64decode text)
  require (∀ n, length = some n → data.size = n) .malformed
  return data

/-- The loop over the signatures; `revoked` is set once a revoked key has signed. -/
def checkSignatures (keys : Keys) (payload : ByteArray) :
    Bool → List (Json F) → Except Raised KeyId
  | revoked, [] => fail (if revoked then .revokedKey else .untrustedSignature)
  | revoked, entry :: entries => do
    let entry ← orFail .malformed (exact signatureFields entry)
    let id ← orFail .malformed (keyIdOf? (field entry (py "keyId")))
    let signature ← b64 p (field entry (py "signature")) (some 64)
    match keys.get? id with
    | none => checkSignatures keys payload revoked entries
    | some key => do
      let valid ← orFail .weakKey (p.verify key.publicKey payload signature)
      if !valid then checkSignatures keys payload revoked entries
      else if key.revoked then checkSignatures keys payload true entries
      else return key.keyId

/-- `_authenticate` -/
def authenticate (envelope : ByteArray) (keys : Keys) : Except Raised (ByteArray × KeyId) := do
  require (keys.items ≠ []) .noTrustedKey
  require (envelope.size ≤ maxEnvelopeBytes) .malformed
  let data : Json F ← loads p .malformed envelope
  let data ← orFail .malformed (exact envelopeFields data)
  require (equalsOne (field data (py "schema"))) .malformed
  let signatures ← orFail .malformed (arr? (field data (py "signatures")))
  require (0 < signatures.length ∧ signatures.length ≤ maxSignatures) .malformed
  let payload ← b64 p (field data (py "payload")) none
  require (payload.size ≤ maxPayloadBytes) .malformed
  let signer ← checkSignatures p keys payload false signatures
  return (payload, signer)

/-- `_check_format` -/
def checkFormat (entry : Json F) : Except Raised Format := do
  let schema ← orFail .malformed (exact dataSchemaFields entry)
  let writes ← orFail .malformed (int? (field schema (py "writes")))
  let reads ← orFail .malformed (arr? (field schema (py "reads")))
  match reads.map int? with
  | [some oldest, some newest] =>
    if h : 1 ≤ oldest ∧ oldest ≤ writes ∧ writes ≤ newest then
      return ⟨writes, oldest, newest, h⟩
    else fail .malformed
  | _ => fail .malformed

/-- The loop over `dataStores`. -/
def checkStores : Members F → Except Raised (Dict PyStr Format)
  | [] => .ok .empty
  | (id, entry) :: ms => do
    require (isStoreId id) .malformed
    let format ← checkFormat entry
    let rest ← checkStores ms
    return rest.set id format

def checkPackage (v : Json F) : Except Raised Package := do
  let package ← orFail .malformed (exact packageFields v)
  let name ← orFail .malformed (str? (field package (py "fileName")))
  let bytes ← orFail .malformed (int? (field package (py "bytes")))
  let sha256 ← orFail .malformed (digestOf? (field package (py "sha256")))
  orFail .malformed (Package.of? name bytes sha256)

def checkData (schema : ℤ) (payload : Members F) : Except Raised PayloadData := do
  if schema = 1 then
    return .single (← checkFormat (field payload (py "dataSchema")))
  else
    let stores ← orFail .malformed (obj? (field payload (py "dataStores")))
    require (0 < stores.length ∧ stores.length ≤ maxStores) .malformed
    let formats ← checkStores stores
    let epoch ← orFail .malformed (int? (field payload (py "compatibilityEpoch")))
    require (1 ≤ epoch ∧ epoch ≤ 1000000) .malformed
    return .stores formats epoch

/-- `_payload` -/
def readPayload (data : ByteArray) : Except Raised Payload := do
  let payload : Json F ← loads p .malformed data
  let schema ← orFail .malformed
    (((obj? payload).bind fun ms => ms.lookup (py "schema")).bind int?)
  require (schema = 1 ∨ schema = 2) .malformed
  let payload ← orFail .malformed
    (exact (if schema = 1 then payloadFields else payloadFields2) payload)
  require (str? (field payload (py "product")) = some product) .wrongProduct
  require (str? (field payload (py "architecture")) = some architecture ∧
    str? (field payload (py "target")) = some target) .wrongPlatform
  let version ← orFail .invalidVersion (versionOf? (field payload (py "version")))
  let floor ← orFail .invalidVersion (versionOf? (field payload (py "securityFloor")))
  let minimum ← orFail .invalidVersion (optional versionOf? (field payload (py "minimumVersion")))
  let rollback ← orFail .malformed (bool? (field payload (py "rollback")))
  let notes ← orFail .malformed (str? (field payload (py "notes")))
  let package ← checkPackage (field payload (py "package"))
  let data ← checkData schema payload
  return ⟨version, floor, minimum, rollback, notes, package, data⟩

end

structure Verifier where
  sha256 : ByteArray → Digest
  /-- `_authenticate`, then `_payload` of what was signed -/
  read : ByteArray → Keys → Except Raised (Payload × KeyId)

def Platform.verifier (p : Platform) (F : Type) [PyFloat F] : Verifier where
  sha256 := p.sha256
  read envelope keys := do
    let (data, signer) ← authenticate (F := F) p envelope keys
    let payload ← readPayload (F := F) p data
    return (payload, signer)

section
variable (v : Verifier)

/-- `_hash_package` of a file; `none` is no regular file. -/
def hashPackage (package : Option ByteArray) : Except Raised (ℕ × Digest) := do
  let package ← orFail .notAFile package
  require (package.size ≤ maxPackageBytes) .packageMismatch
  return (package.size, v.sha256 package)

/-- `_check_data` -/
def checkCompatible (payload : Payload) (installed : InstalledData) (kind : UpdateKind) :
    Except Raised Unit :=
  match payload.data, installed with
  | .single _, .profile _ => fail .unsupportedSchema
  | .single format, .single schema => do
    require (¬ (kind = .upgrade ∧ format.writes < schema)) .dataSchema
    require (format.oldest ≤ schema ∧ schema ≤ format.newest) .dataSchema
  | .stores _ _, .single _ => fail .unsupportedSchema
  | .stores stores epoch, .profile profile => do
    require (epoch = profile.epoch) .dataEpoch
    profile.stores.items.forM fun store => do
      let format ← orFail .dataSchema (stores.get? store.1)
      require (format.oldest ≤ store.2 ∧ store.2 ≤ format.newest) .dataSchema
      require (¬ (kind = .upgrade ∧ format.writes < store.2)) .dataSchema

def effectiveFloor (payload : Payload) (installed : InstalledState) : VersionText :=
  match installed.securityFloor with
  | some floor => if 0 < floor.compare payload.securityFloor then floor else payload.securityFloor
  | none => payload.securityFloor

def updateKind (payload : Payload) (installed : InstalledState) : Except Raised UpdateKind :=
  let order := payload.version.compare installed.version
  if 0 < order then do
    require (∀ minimum, payload.minimumVersion = some minimum →
      0 ≤ installed.version.compare minimum) .upgradePath
    return .upgrade
  else if order = 0 then return .repair
  else do
    require payload.rollback .unsignedRollback
    return .rollback

/-- `verify_update` -/
def verifyUpdate (envelope : ByteArray) (package : Option ByteArray) (keys : Keys)
    (installed : InstalledState) : Except Raised VerifiedUpdate := do
  let (payload, signer) ← v.read envelope keys
  let (size, digest) ← hashPackage v package
  require (size = payload.package.bytes ∧ digest = payload.package.sha256) .packageMismatch
  require (0 ≤ payload.version.compare (effectiveFloor payload installed)) .belowSecurityFloor
  let kind ← updateKind payload installed
  checkCompatible payload installed.data kind
  return ⟨kind, signer, payload⟩

variable {envelope : ByteArray} {package : Option ByteArray} {keys : Keys}
  {installed : InstalledState} {u : VerifiedUpdate}

/-- The checks of `verify_update`, each by its own function. -/
theorem verifyUpdate_eq_ok {v : Verifier} :
    verifyUpdate v envelope package keys installed = .ok u ↔
      v.read envelope keys = .ok (u.payload, u.keyId) ∧
        hashPackage v package = .ok (u.payload.package.bytes, u.payload.package.sha256) ∧
        0 ≤ u.payload.version.compare (effectiveFloor u.payload installed) ∧
        updateKind u.payload installed = .ok u.kind ∧
        checkCompatible u.payload installed.data u.kind = .ok () := by
  unfold verifyUpdate
  simp only [bind_eq_ok, require_eq_ok, Prod.exists, pure, Except.pure, Except.ok.injEq]
  constructor
  · rintro ⟨payload, signer, hread, size, digest, hhash, -, ⟨rfl, rfl⟩, -, hfloor, kind, hkind, ⟨⟩,
      hdata, rfl⟩
    exact ⟨hread, hhash, hfloor, hkind, hdata⟩
  · rintro ⟨hread, hhash, hfloor, hkind, hdata⟩
    exact ⟨u.payload, u.keyId, hread, _, _, hhash, (), ⟨rfl, rfl⟩, (), hfloor, u.kind, hkind, (),
      hdata, rfl⟩

/-- Of the package only its size and its digest count. -/
theorem verifyUpdate_congr {v : Verifier} {a b : ByteArray} (hsize : a.size = b.size)
    (hsha : v.sha256 a = v.sha256 b) :
    verifyUpdate v envelope (some a) keys installed =
      verifyUpdate v envelope (some b) keys installed := by
  unfold verifyUpdate hashPackage
  simp only [orFail, hsize, hsha, bind, Except.bind]

/-- What is verified is not below the recorded floor. -/
theorem verifyUpdate_floor {v : Verifier}
    (h : verifyUpdate v envelope package keys installed = .ok u) {floor : VersionText}
    (hfloor : installed.securityFloor = some floor) : 0 ≤ u.payload.version.compare floor := by
  obtain ⟨-, -, hcompare, -⟩ := verifyUpdate_eq_ok.mp h
  unfold effectiveFloor at hcompare
  simp only [hfloor] at hcompare
  split at hcompare
  · exact hcompare
  · rename_i hle
    apply VersionText.compare_nonneg_trans hcompare
    rw [VersionText.compare_nonneg]
    exact not_lt.mp fun hlt => hle (Version.compare_pos.mpr hlt)

theorem verifyUpdate_older {v : Verifier}
    (h : verifyUpdate v envelope package keys installed = .ok u)
    (holder : u.payload.version.compare installed.version < 0) : u.payload.rollback = true := by
  obtain ⟨-, -, -, hkind, -⟩ := verifyUpdate_eq_ok.mp h
  unfold updateKind at hkind
  simp only at hkind
  rw [if_neg (by omega), if_neg (by omega)] at hkind
  obtain ⟨_, hrollback, -⟩ := bind_eq_ok.mp hkind
  exact require_eq_ok.mp hrollback

end

example : isPackageName (py "qronos-desktop_1.2.3_x64-setup.exe") := by decide +kernel

end QronosAgent.Update

import QronosAgent.Broker.Actions

/-! The user's permissions of `core/permission_control.py`: the document, what is read of a file and
what is written, and the level of a category in `security/permissions.py`. -/
namespace QronosAgent.Permission
open Lib
open Broker (ActionCategory)

inductive PermissionLevel where
  | autoAllow
  | voiceConfirmation
  | uiConfirmation
  | typedSecret
  | forbidden
  deriving DecidableEq

inductive PermissionDecision where
  | allow
  | requireVoiceConfirmation
  | requireUiConfirmation
  | requireTypedSecret
  | deny
  deriving DecidableEq

/-- The levels of `ACTION_POLICIES`. -/
def builtInLevel : ActionCategory → PermissionLevel
  | .conversation | .systemStatus | .readNonSensitive | .codeAnalysis => .autoAllow
  | .openApplication | .browserNavigation | .guiAutomation => .voiceConfirmation
  | .readScreen | .watchCamera | .createOrEditFile | .externalCommunication | .uploadData =>
    .uiConfirmation
  | .deleteRecoverable | .installSoftware | .uninstallSoftware | .systemConfiguration
  | .remoteControl | .deviceControl => .typedSecret
  | .codeGeneration | .codeModification | .scriptExecution | .registryModification
  | .bootConfiguration | .rawDiskAccess | .securityConfiguration | .backupDestruction
  | .privilegeEscalation | .cyberAttack | .unauthorizedPersistence | .credentialAccess
  | .securityBypass | .irreversibleDestruction | .hiddenSurveillance | .modifySecurityPolicy =>
    .forbidden

/-- `HARD_LOCKED_CATEGORIES` -/
def hardLocked : List ActionCategory :=
  [.codeGeneration, .codeModification, .scriptExecution, .registryModification,
    .bootConfiguration, .rawDiskAccess, .securityConfiguration, .backupDestruction,
    .privilegeEscalation, .cyberAttack, .unauthorizedPersistence, .credentialAccess,
    .securityBypass, .irreversibleDestruction, .hiddenSurveillance, .modifySecurityPolicy]

inductive PermissionId where
  | files
  | apps
  | browser
  | microphone
  | camera
  | screen
  | clipboard
  | automation
  | system
  deriving DecidableEq

namespace PermissionId

def all : List PermissionId :=
  [files, apps, browser, microphone, camera, screen, clipboard, automation, system]

def id : PermissionId → PyStr
  | files => py "files"
  | apps => py "apps"
  | browser => py "browser"
  | microphone => py "microphone"
  | camera => py "camera"
  | screen => py "screen"
  | clipboard => py "clipboard"
  | automation => py "automation"
  | system => py "system"

def categories : PermissionId → List ActionCategory
  | files => [.readNonSensitive, .createOrEditFile, .deleteRecoverable]
  | apps => [.openApplication, .installSoftware, .uninstallSoftware, .remoteControl,
      .deviceControl]
  | browser => [.browserNavigation, .externalCommunication, .uploadData]
  | microphone => []
  | camera => [.watchCamera]
  | screen => [.readScreen]
  | clipboard => []
  | automation => [.codeAnalysis, .guiAutomation]
  | system => [.systemConfiguration, .registryModification, .bootConfiguration, .rawDiskAccess,
      .securityConfiguration, .backupDestruction, .privilegeEscalation,
      .unauthorizedPersistence, .securityBypass, .irreversibleDestruction,
      .modifySecurityPolicy]

theorem mem_all (p : PermissionId) : p ∈ all := by
  cases p <;> decide

theorem nodup_ids : (all.map id).Nodup := by decide +kernel

theorem nodup_categories (p : PermissionId) : (p.categories.map ActionCategory.value).Nodup := by
  cases p <;> decide +kernel

end PermissionId

/-- `_CATEGORY_TO_PERMISSION.get(category)` -/
def permissionOf? (c : ActionCategory) : Option PermissionId :=
  PermissionId.all.find? fun p => c ∈ p.categories

theorem permissionOf?_eq_some {c : ActionCategory} {p : PermissionId} :
    permissionOf? c = some p ↔ c ∈ p.categories := by
  constructor
  · intro h
    unfold permissionOf? at h
    simpa using List.find?_some h
  · have hall : ∀ p ∈ PermissionId.all, ∀ c ∈ p.categories, permissionOf? c = some p := by decide
    exact hall p p.mem_all c

inductive Policy where
  | deny
  | alwaysAsk
  | session
  | allow
  | custom
  deriving DecidableEq

namespace Policy

def all : List Policy := [deny, alwaysAsk, session, allow, custom]

def text : Policy → PyStr
  | deny => py "DENY"
  | alwaysAsk => py "ALWAYS_ASK"
  | session => py "SESSION"
  | allow => py "ALLOW"
  | custom => py "CUSTOM"

def of? (s : PyStr) : Option Policy := all.find? fun policy => policy.text = s

@[simp]
theorem of?_text (policy : Policy) : of? policy.text = some policy := by
  cases policy <;> decide +kernel

def level (default : PermissionLevel) : Policy → PermissionLevel
  | deny => .forbidden
  | allow => .autoAllow
  | alwaysAsk | session => .uiConfirmation
  | custom => default

end Policy

/-- A custom rule: `CUSTOM` is not valid for one category. -/
abbrev Rule := { policy : Policy // policy ≠ .custom }

def Rule.of? (s : PyStr) : Option Rule :=
  (Policy.of? s).bind fun policy => if h : policy ≠ .custom then some ⟨policy, h⟩ else none

@[simp]
theorem Rule.of?_text (rule : Rule) : Rule.of? rule.val.text = some rule := by
  simp [Rule.of?, rule.property]

def PermissionId.Allows (p : PermissionId) (c : ActionCategory) (rule : Rule) : Prop :=
  c ∈ p.categories ∧ (c ∈ hardLocked → rule.val = .deny)

instance (p : PermissionId) (c : ActionCategory) (rule : Rule) : Decidable (p.Allows c rule) :=
  inferInstanceAs (Decidable (_ ∧ _))

structure PermissionState (p : PermissionId) where
  policy : Policy
  customRules : ActionCategory → Option Rule
  allowed : ∀ c rule, customRules c = some rule → p.Allows c rule

abbrev Document := (p : PermissionId) → Option (PermissionState p)

/-- `_empty_document` -/
def Document.empty : Document := fun _ => none

@[ext]
theorem PermissionState.ext {p : PermissionId} {s t : PermissionState p}
    (hpolicy : s.policy = t.policy) (hrules : s.customRules = t.customRules) : s = t := by
  obtain ⟨_, _, _⟩ := s
  obtain ⟨_, _, _⟩ := t
  cases hpolicy
  cases hrules
  rfl

section
variable {F : Type} (isOne : F → Bool)

/-- `value == 1`, as Python compares. -/
def equalsOne : Json F → Bool
  | .int n => n = 1
  | .bool b => b
  | .float x => isOne x
  | _ => false

/-- The rule for a category among the members of `customRules`. -/
def readRule (p : PermissionId) (rules : Broker.Members F) (c : ActionCategory) : Option Rule :=
  match rules.lookup c.value with
  | some (.str s) => (Rule.of? s).filter fun rule => p.Allows c rule
  | _ => none

/-- `raw_state.get("customRules", {})`, when it is a dictionary. -/
def rulesMember (state : Broker.Members F) : Broker.Members F :=
  match state.lookup (py "customRules") with
  | some (.obj rules) => rules
  | _ => []

/-- What `_validated_document` keeps of one permission. -/
def readState (p : PermissionId) (raw : Json F) : Option (PermissionState p) :=
  match raw with
  | .obj state =>
    match state.lookup (py "policy") with
    | some (.str s) => (Policy.of? s).map fun policy =>
      ⟨policy, readRule p (rulesMember state), fun c rule h => by
        unfold readRule at h
        split at h
        · exact of_decide_eq_true (Option.filter_eq_some_iff.mp h).2
        · contradiction⟩
    | _ => none
  | _ => none

/-- `_validated_document` -/
def validatedDocument (value : Json F) : Document :=
  match value with
  | .obj ms =>
    if (ms.lookup (py "schemaVersion")).any (equalsOne isOne) then
      match ms.lookup (py "permissions") with
      | some (.obj permissions) => fun p => (permissions.lookup p.id).bind (readState p)
      | _ => Document.empty
    else Document.empty
  | _ => Document.empty

inductive ReadFate where
  | reads
  | osError
  | notJson
  | notUtf8
  deriving DecidableEq

/-- `_read_document` on a file that there may not be; `none` is an exception. -/
def readDocument (file : Option (Json F)) (fate : ReadFate) : Option Document :=
  match file, fate with
  | none, _ => some Document.empty
  | some value, .reads => some (validatedDocument isOne value)
  | some _, .osError => some Document.empty
  | some _, .notJson => some Document.empty
  | some _, .notUtf8 => none

def fileDocument (file : Option (Json F)) : Document :=
  file.elim Document.empty (validatedDocument isOne)

variable (F)

def rulesJson {p : PermissionId} (s : PermissionState p) : Broker.Members F :=
  p.categories.filterMap fun c => (s.customRules c).map fun rule => (c.value, .str rule.val.text)

def stateJson {p : PermissionId} (s : PermissionState p) : Json F :=
  .obj [(py "customRules", .obj (rulesJson F s)), (py "policy", .str s.policy.text)]

def permissionsJson (d : Document) : Broker.Members F :=
  PermissionId.all.filterMap fun p => (d p).map fun s => (p.id, stateJson F s)

/-- What `_write_document` puts into the file; the order of the members plays no part. -/
def documentJson (d : Document) : Json F :=
  .obj [(py "permissions", .obj (permissionsJson F d)), (py "schemaVersion", .int 1)]

end

def PermissionState.level {p : PermissionId} (s : PermissionState p) (c : ActionCategory)
    (default : PermissionLevel) : PermissionLevel :=
  if s.policy = .custom then
    match s.customRules c with
    | some rule => rule.val.level default
    | none => default
  else s.policy.level default

/-- `effective_level_name` with what the file gave, which is only read for a category that the user
controls; `none` is an exception. -/
def effectiveLevelName (c : ActionCategory) (default : PermissionLevel) (read : Option Document) :
    Option PermissionLevel :=
  if c ∈ hardLocked then some default
  else match permissionOf? c with
    | none => some default
    | some p => read.map fun d => (d p).elim default fun s => s.level c default

inductive Change where
  | setPolicy (p : PermissionId) (policy : Policy)
  | setRule (p : PermissionId) (c : ActionCategory) (rule : Rule) (allowed : p.Allows c rule)
  | reset (p : PermissionId)
  deriving DecidableEq

def Change.permission : Change → PermissionId
  | .setPolicy p _ => p
  | .setRule p _ _ _ => p
  | .reset p => p

def withPolicy {p : PermissionId} (current : Option (PermissionState p)) (policy : Policy) :
    PermissionState p where
  policy := policy
  customRules c := current.bind fun s => s.customRules c
  allowed c rule h := by
    obtain ⟨s, -, hrule⟩ := Option.bind_eq_some_iff.mp h
    exact s.allowed c rule hrule

def withRule {p : PermissionId} (current : Option (PermissionState p)) (c : ActionCategory)
    (rule : Rule) (allowed : p.Allows c rule) : PermissionState p where
  policy := .custom
  customRules := Function.update (fun c => current.bind fun s => s.customRules c) c (some rule)
  allowed a other h := by
    by_cases ha : a = c
    · subst ha
      rw [Function.update_self, Option.some.injEq] at h
      exact h ▸ allowed
    · rw [Function.update_of_ne ha] at h
      obtain ⟨s, -, hrule⟩ := Option.bind_eq_some_iff.mp h
      exact s.allowed a other hrule

def Change.apply (change : Change) (d : Document) : Document :=
  match change with
  | .setPolicy p policy => Function.update d p (some (withPolicy (d p) policy))
  | .setRule p c rule allowed => Function.update d p (some (withRule (d p) c rule allowed))
  | .reset p => Function.update d p none

section
variable (upper : PyStr → PyStr)

/-- `_require_permission_id`; `none` is `PermissionControlError`. -/
def requirePermissionId (permissionId : PyStr) : Option PermissionId :=
  PermissionId.all.find? fun p => p.id = PyStr.strip permissionId

/-- `_require_policy` -/
def requirePolicy (policy : PyStr) : Option Policy :=
  let value := (upper (PyStr.strip policy)).map fun c =>
    if c = .scalar ' ' then .scalar '_' else c
  Policy.of? (if value = py "ALWAYSASK" then py "ALWAYS_ASK" else value)

inductive Request where
  | setPermissionPolicy (permissionId policy : PyStr)
  | setCustomRule (permissionId category policy : PyStr)
  | resetPermission (permissionId : PyStr)

def Request.check : Request → Option Change
  | .setPermissionPolicy permissionId policy => do
    let p ← requirePermissionId permissionId
    return .setPolicy p (← requirePolicy upper policy)
  | .setCustomRule permissionId category policy => do
    let p ← requirePermissionId permissionId
    let c ← p.categories.find? fun c => c.value = PyStr.strip category
    let policy ← requirePolicy upper policy
    if h : policy ≠ .custom then
      let rule : Rule := ⟨policy, h⟩
      if hallowed : p.Allows c rule then return .setRule p c rule hallowed else none
    else none
  | .resetPermission permissionId => (requirePermissionId permissionId).map .reset

end
end QronosAgent.Permission

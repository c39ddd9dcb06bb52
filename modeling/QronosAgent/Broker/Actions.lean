import Mathlib.Algebra.Order.Ring.Rat
import QronosAgent.Lib.JsonCompact

/-! The closed table of actions of `core/action_broker.py`. -/
namespace QronosAgent.Broker
open Lib

/-- Clock readings and durations, as exact numbers. -/
abbrev Seconds := ℚ

abbrev Members (F : Type) := List (PyStr × Json F)

def maxApprovalSeconds : Seconds := 180
def clockSkewSeconds : Seconds := 5
def maxSecretChars : ℕ := 1024

/-- `BrokerRefusal`, or any other exception, which ends the request without an answer. -/
inductive Failure where
  | refusal (outcome detail : PyStr)
  | raised

def refuse {α : Type} (outcome detail : String) : Except Failure α :=
  .error (.refusal (py outcome) (py detail))

/-- `if not ok: raise BrokerRefusal(outcome, detail)`. -/
def require (ok : Bool) (outcome detail : String) : Except Failure Unit :=
  if ok then .ok () else refuse outcome detail

theorem require_ok {ok : Bool} {outcome detail : String} {u : Unit}
    (h : require ok outcome detail = .ok u) : ok = true := by
  cases ok with
  | true => rfl
  | false => contradiction

/-- A check that passes is followed by the rest. -/
theorem require_then {β : Type} {ok : Bool} {outcome detail : String}
    {x : Unit → Except Failure β} {b : β} (h : require ok outcome detail >>= x = .ok b) :
    ok = true ∧ x () = .ok b := by
  obtain ⟨u, hu, h⟩ := bind_eq_ok.mp h
  exact ⟨require_ok hu, h⟩

inductive ActionCategory where
  | conversation
  | systemStatus
  | readNonSensitive
  | readScreen
  | watchCamera
  | openApplication
  | browserNavigation
  | createOrEditFile
  | externalCommunication
  | uploadData
  | deleteRecoverable
  | installSoftware
  | uninstallSoftware
  | systemConfiguration
  | remoteControl
  | deviceControl
  | guiAutomation
  | codeGeneration
  | codeAnalysis
  | codeModification
  | scriptExecution
  | registryModification
  | bootConfiguration
  | rawDiskAccess
  | securityConfiguration
  | backupDestruction
  | privilegeEscalation
  | cyberAttack
  | unauthorizedPersistence
  | credentialAccess
  | securityBypass
  | irreversibleDestruction
  | hiddenSurveillance
  | modifySecurityPolicy
  deriving DecidableEq

namespace ActionCategory

def value : ActionCategory → PyStr
  | conversation => py "conversation"
  | systemStatus => py "system_status"
  | readNonSensitive => py "read_non_sensitive"
  | readScreen => py "read_screen"
  | watchCamera => py "watch_camera"
  | openApplication => py "open_application"
  | browserNavigation => py "browser_navigation"
  | createOrEditFile => py "create_or_edit_file"
  | externalCommunication => py "external_communication"
  | uploadData => py "upload_data"
  | deleteRecoverable => py "delete_recoverable"
  | installSoftware => py "install_software"
  | uninstallSoftware => py "uninstall_software"
  | systemConfiguration => py "system_configuration"
  | remoteControl => py "remote_control"
  | deviceControl => py "device_control"
  | guiAutomation => py "gui_automation"
  | codeGeneration => py "code_generation"
  | codeAnalysis => py "code_analysis"
  | codeModification => py "code_modification"
  | scriptExecution => py "script_execution"
  | registryModification => py "registry_modification"
  | bootConfiguration => py "boot_configuration"
  | rawDiskAccess => py "raw_disk_access"
  | securityConfiguration => py "security_configuration"
  | backupDestruction => py "backup_destruction"
  | privilegeEscalation => py "privilege_escalation"
  | cyberAttack => py "cyber_attack"
  | unauthorizedPersistence => py "unauthorized_persistence"
  | credentialAccess => py "credential_access"
  | securityBypass => py "security_bypass"
  | irreversibleDestruction => py "irreversible_destruction"
  | hiddenSurveillance => py "hidden_surveillance"
  | modifySecurityPolicy => py "modify_security_policy"

/-- `FORBIDDEN_CATEGORIES`. -/
def forbidden : List ActionCategory :=
  [scriptExecution, codeGeneration, codeAnalysis, codeModification, registryModification,
    bootConfiguration, rawDiskAccess, securityConfiguration, backupDestruction,
    privilegeEscalation, cyberAttack]

end ActionCategory

inductive FieldType where
  | str
  | int
  | bool
  | float

/-- One exact operation. What the operation does is not part of the model. -/
structure ActionSpec (F : Type) where
  kind : PyStr
  category : ActionCategory
  fields : List (PyStr × FieldType)
  target : Members F → Except Failure PyStr
  summary : PyStr
  validate : Members F → Except Failure Unit

def isLower (c : PyChar) : Bool := 0x61 ≤ c.code && c.code ≤ 0x7A
def isUpper (c : PyChar) : Bool := 0x41 ≤ c.code && c.code ≤ 0x5A
def isDecimal (c : PyChar) : Bool := 0x30 ≤ c.code && c.code ≤ 0x39

/-- `_KIND`. -/
def isKind (s : PyStr) : Bool :=
  match s with
  | [] => false
  | c :: r =>
    isLower c && 2 ≤ r.length && r.length ≤ 63 &&
      r.all fun c => isLower c || isDecimal c || c == .scalar '_' || c == .scalar '.'

/-- The name pattern of `ActionRegistry.__init__`. -/
def isFieldName (s : PyStr) : Bool :=
  match s with
  | [] => false
  | c :: r => isLower c && r.length ≤ 31 && r.all fun c => isLower c || isUpper c || isDecimal c

/-- `_COMMAND_WORDS`. -/
def commandWords : List PyStr :=
  ["shell", "cmd", "powershell", "pwsh", "script", "exec", "run", "eval", "python", "command",
    "macro", "registry"].map py

/-- `word in s`. -/
def contains (word s : PyStr) : Bool := s.tails.any word.isPrefixOf

/-- What the table lets in. -/
def ActionSpec.admissible {F : Type} (spec : ActionSpec F) : Bool :=
  isKind spec.kind && !(commandWords.any fun w => contains w spec.kind) &&
    !ActionCategory.forbidden.contains spec.category && spec.fields.all fun f => isFieldName f.1

structure ActionRegistry (F : Type) where
  table : Dict PyStr (ActionSpec F)
  kinds : ∀ kind spec, table.get? kind = some spec → spec.kind = kind
  admissible : ∀ kind spec, table.get? kind = some spec → spec.admissible = true

namespace ActionRegistry
variable {F : Type}

def empty : ActionRegistry F :=
  ⟨Dict.empty, fun _ _ h => (nomatch h), fun _ _ h => (nomatch h)⟩

/-- One round of the constructor's loop; `none` is `ValueError`. -/
def add (registry : ActionRegistry F) (spec : ActionSpec F) : Option (ActionRegistry F) :=
  if h : spec.admissible = true ∧ spec.kind ∉ registry.table.keys then
    some
      { table := registry.table.set spec.kind spec
        kinds := fun kind other hget => by
          rw [Dict.get?_set] at hget
          split at hget
          · exact Option.some.inj hget ▸ ‹kind = spec.kind›.symm
          · exact registry.kinds kind other hget
        admissible := fun kind other hget => by
          rw [Dict.get?_set] at hget
          split at hget
          · exact Option.some.inj hget ▸ h.1
          · exact registry.admissible kind other hget }
  else none

def ofSpecs (specs : List (ActionSpec F)) : Option (ActionRegistry F) :=
  specs.foldlM add empty

def get (registry : ActionRegistry F) (kind : PyStr) : Option (ActionSpec F) :=
  registry.table.get? kind

end ActionRegistry

/-- `_spooler_spec`, the one action of this build. -/
def spoolerSpec (F : Type) : ActionSpec F where
  kind := py "printer.spooler_restart"
  category := .deviceControl
  fields := []
  target _ := .ok (py "Windows Print Spooler service (Spooler)")
  summary := py "Restart the Windows Print Spooler service: stop it, then start it. Nothing else."
  validate _ := .ok ()

/-- `PRODUCTION_ACTIONS`. -/
def productionActions (F : Type) : ActionRegistry F :=
  (ActionRegistry.ofSpecs [spoolerSpec F]).getD ActionRegistry.empty

/-- `CODE_EXTENSIONS`. -/
def codeExtensions : List PyStr :=
  [".ps1", ".psm1", ".psd1", ".bat", ".cmd", ".vbs", ".vbe", ".js", ".jse", ".wsf", ".wsh",
    ".py", ".pyw", ".pyc", ".sh", ".bash", ".exe", ".com", ".scr", ".msi", ".msp", ".dll",
    ".sys", ".reg", ".lnk", ".hta", ".jar", ".cpl", ".inf", ".application",
    ".appref-ms"].map py

/-- `_SHELL_FRAGMENTS`. -/
def shellFragments : List PyStr :=
  ["&&", "||", "|", ";", "\x60", "$(", "%comspec%", "cmd.exe", "cmd /", "powershell",
    "pwsh", "rundll32", "mshta", "wscript", "cscript", "regsvr32", "certutil", "bitsadmin"].map py

/-- `s.rstrip(". ")`. -/
def stripTail (s : PyStr) : PyStr :=
  (s.reverse.dropWhile fun c => c == .scalar '.' || c == .scalar ' ').reverse

/-- `lower` is `str.lower`. -/
def refuseCodeTargets {F : Type} (lower : PyStr → PyStr) (value : Json F) : Except Failure Unit :=
  match value with
  | .str s =>
    let lowered := stripTail (lower s.strip)
    if codeExtensions.any fun e =>
        e.isSuffixOf lowered || contains (e ++ py ":") lowered || contains (e ++ py " ") lowered
    then refuse "code_target" "A parameter names code, a script or a program."
    else if shellFragments.any fun w => contains w lowered
    then refuse "shell_text" "A parameter contains shell or script syntax."
    else .ok ()
  | _ => .ok ()

end QronosAgent.Broker

import QronosAgent.Journal.Store
import QronosAgent.Lib.Machine

/-! `core/settings_service.py`: settings with their definitions, written through to one JSON file
whose version is 2. -/
namespace QronosAgent.Settings
open Lib
open Journal (JsonStore Platform Members SaveFault SaveError LoadError)

variable {F : Type}

/-- A value that a caller gives. An instance of a subclass of `bool`, `int`, `float` or `str` stands
as the value that it is; `other` is any object that `json` does not know. -/
inductive PyValue (F : Type) where
  | json (v : Json F)
  | other

inductive Number (F : Type) where
  | int (n : ℤ)
  | float (x : F)

structure Interpreter (F : Type) where
  plat : Platform
  dumpsDepth : ℕ
  lt : Number F → Number F → Bool
  isNan : F → Bool
  same : Json F → PyValue F → Bool

namespace Interpreter
variable (P : Interpreter F)

def comparable : Number F → Bool
  | .int _ => true
  | .float x => !P.isNan x

/-- `x <= y` -/
def le (x y : Number F) : Bool := P.comparable x && P.comparable y && !P.lt y x

end Interpreter

def isBool : Json F → Bool
  | .bool _ => true
  | _ => false

/-- `isinstance(value, (int, float))`, which holds of the booleans too. -/
def isNumber : Json F → Bool
  | .bool _ | .int _ | .float _ => true
  | _ => false

def isStr : Json F → Bool
  | .str _ => true
  | _ => false

def number? : Json F → Option (Number F)
  | .bool b => some (.int (if b then 1 else 0))
  | .int n => some (.int n)
  | .float x => some (.float x)
  | _ => none

inductive ValidateError where
  | invalid
  | typeError

structure Fields (F : Type) where
  key : PyStr
  default : Json F
  minimum : Option (Number F)
  maximum : Option (Number F)
  choices : Option (List (PyValue F))

namespace Fields
variable (P : Interpreter F) (d : Fields F)

/-- The checks of the type, for a value of `json`. -/
def hasType (v : Json F) : Bool :=
  if isBool v ≠ isBool d.default then false
  else if isNumber d.default && !isBool d.default then isNumber v
  else if isBool d.default then isBool v else isStr v

def checkType : PyValue F → Except ValidateError (Json F)
  | .json v => if d.hasType v then .ok v else .error .invalid
  | .other => .error .invalid

def checkChoices (v : Json F) : Except ValidateError Unit :=
  if d.choices.all fun choices => choices.any (P.same v) then .ok () else .error .invalid

/-- `outside` compares the value with the bound. -/
def checkBound (outside : Number F → Number F → Bool) (bound : Option (Number F)) (v : Json F) :
    Except ValidateError Unit :=
  match bound, number? v with
  | none, _ => .ok ()
  | some _, none => .error .typeError
  | some b, some n => if outside n b then .error .invalid else .ok ()

def validate (x : PyValue F) : Except ValidateError (Json F) := do
  let v ← d.checkType x
  d.checkChoices P v
  checkBound P.lt d.minimum v
  checkBound (fun n b => P.lt b n) d.maximum v
  return v

end Fields

structure SettingDefinition (P : Interpreter F) extends Fields F where
  hasKey : key.strip ≠ []
  plain : isNumber default = true ∨ isStr default = true
  valid : toFields.validate P (.json default) = .ok default

inductive Problem where
  | store (e : LoadError)
  | value (key : PyStr)
  | save (name : PyStr)

structure SettingsService (F : Type) where
  values : Dict PyStr (Json F)
  unknownValues : Dict PyStr (Json F)
  writeBlocked : Option LoadError
  problems : List Problem

inductive ConstructError where
  | duplicate
  | load (e : LoadError)
  | typeError

inductive CallError where
  | unknownSetting
  | validate (e : ValidateError)
  | blocked
  | save (e : SaveError)
  | recursion

inductive Call (F : Type) where
  | set (key : PyStr) (value : PyValue F)
  | update (values : List (PyStr × PyValue F))
  | reset (key : PyStr)
  | resetAll

structure State (F : Type) where
  service : SettingsService F
  file : Option ByteArray

/-- `_migrate_v1_to_v2` -/
def migrateV1 (payload : Members F) : Members F :=
  match Json.member? payload (py "voice.wake_word_enabled") with
  | some (.bool false) => payload.filter fun kv => kv.1 ≠ py "voice.wake_word_enabled"
  | _ => payload

def store (F : Type) : JsonStore F := ⟨2, fun version => if version = 1 then some migrateV1 else none⟩

/-- The exceptions of `load_payload` that `_load` catches. -/
def caught : LoadError → Bool
  | .corrupt | .unreadable | .tooNew | .migrationMissing => true
  | .unicodeDecode | .json _ => false

section
variable [PyFloat F] (P : Interpreter F) (defs : List (SettingDefinition P))

def definition? (key : PyStr) : Option (SettingDefinition P) := defs.find? fun d => d.key = key

/-- The loop of `_load`. -/
def keep : Members F → SettingsService F → Except ConstructError (SettingsService F)
  | [], s => .ok s
  | (key, value) :: rest, s =>
    match definition? P defs key with
    | none => keep rest { s with unknownValues := s.unknownValues.set key value }
    | some d =>
      match d.validate P (.json value) with
      | .ok v => keep rest { s with values := s.values.set key v }
      | .error .invalid => keep rest { s with problems := s.problems ++ [.value key] }
      | .error .typeError => .error .typeError

/-- The constructor; `fault` is an `OSError` from reading the file. -/
def construct (fault : Bool) (file : Option ByteArray) :
    Except ConstructError (SettingsService F) :=
  if ¬ (defs.map fun d => d.key).Nodup then .error .duplicate
  else
    match (store F).load P.plat fault file with
    | .error e =>
      if caught e then .ok ⟨Dict.empty, Dict.empty, some e, [.store e]⟩ else .error (.load e)
    | .ok document =>
      keep P defs ((document.map fun d => d.payload).getD []) ⟨Dict.empty, Dict.empty, none, []⟩

/-- `get`, of a key that is defined. -/
def SettingsService.value (s : SettingsService F) (d : SettingDefinition P) : Json F :=
  (s.values.get? d.key).getD d.default

def get (s : SettingsService F) (key : PyStr) : Except CallError (Json F) :=
  match definition? P defs key with
  | none => .error .unknownSetting
  | some d => .ok (s.value P d)

def allValues (s : SettingsService F) : List (PyStr × Json F) :=
  defs.map fun d => (d.key, s.value P d)

/-- `JsonStore.save`, whose `json.dumps` can meet the recursion limit. -/
def save (payload : Members F) (fault : SaveFault) (file : Option ByteArray) :
    Except CallError Unit × Option ByteArray :=
  if ((store F).document payload).nestsWithin P.dumpsDepth then
    let saved := (store F).save P.plat payload fault file
    (saved.1.mapError .save, saved.2)
  else
    match fault.setup, fault.cleanup with
    | some name, _ | none, some name => (.error (.save (.os name)), file)
    | none, none => (.error .recursion, file)

def payloadOf (unknown candidate : Dict PyStr (Json F)) : Members F :=
  (candidate.items.foldl (fun d kv => d.set kv.1 kv.2) unknown).items

/-- `_persist_candidate`, and the assignment behind it. -/
def commit (candidate : Dict PyStr (Json F)) (fault : SaveFault) (s : State F) :
    Except CallError Unit × State F :=
  if s.service.writeBlocked.isSome then (.error .blocked, s)
  else
    match save P (payloadOf s.service.unknownValues candidate) fault s.file with
    | (.ok (), file) => (.ok (), ⟨{ s.service with values := candidate }, file⟩)
    | (.error e, file) =>
      let problems := match e with
        | .save (.os name) => s.service.problems ++ [.save name]
        | _ => s.service.problems
      (.error e, ⟨{ s.service with problems }, file⟩)

/-- `self._require(key).validate(value)` -/
def accept (key : PyStr) (value : PyValue F) : Except CallError (Json F) :=
  match definition? P defs key with
  | none => .error .unknownSetting
  | some d => (d.validate P value).mapError .validate

/-- `{key: self._require(key).validate(value) for ...}`, laid over the values held. -/
def acceptAll : List (PyStr × PyValue F) → Dict PyStr (Json F) → Except CallError (Dict PyStr (Json F))
  | [], accepted => .ok accepted
  | (key, value) :: rest, accepted =>
    (accept P defs key value).bind fun v => acceptAll rest (accepted.set key v)

def candidate (values : Dict PyStr (Json F)) : Call F → Except CallError (Dict PyStr (Json F))
  | .set key value => (accept P defs key value).map fun v => values.set key v
  | .update given => (acceptAll P defs given Dict.empty).map fun accepted =>
      accepted.items.foldl (fun d kv => d.set kv.1 kv.2) values
  | .reset key =>
    match definition? P defs key with
    | none => .error .unknownSetting
    | some _ => .ok (values.erase key)
  | .resetAll => .ok Dict.empty

def run (call : Call F) (fault : SaveFault) (s : State F) : Except CallError Unit × State F :=
  match candidate P defs s.service.values call with
  | .error e => (.error e, s)
  | .ok values => commit P values fault s

def settingsMachine (fault : Bool) (file : Option ByteArray) : Machine (State F) (Call F × SaveFault) where
  start s := construct P defs fault file = .ok s.service ∧ s.file = file
  step s act := some (run P defs act.1 act.2 s).2

end

end QronosAgent.Settings

import QronosAgent.Broker.Actions

/-! `verify_request` of `core/action_broker.py`, up to the claim of the nonce: what one request
must show before the person's secret and the permission gate are asked, and what it asks them. -/
namespace QronosAgent.Broker
open Lib

structure Platform (F : Type) where
  limits : JsonLimits
  /-- `hmac.new(key, data, "sha256").hexdigest()` -/
  hmac : ByteArray → ByteArray → PyStr
  sha256 : ByteArray → PyStr
  value : F → Seconds
  lower : PyStr → PyStr

inductive ApprovalFieldType where
  | str
  | float

def approvalFields : List (PyStr × ApprovalFieldType) :=
  [(py "actionId", .str), (py "category", .str), (py "target", .str), (py "digest", .str),
    (py "issuedAt", .float), (py "expiresAt", .float), (py "nonce", .str), (py "mac", .str)]

/-- `^[0-9a-f]{n}$`, matched whole. -/
def isHex (n : ℕ) (s : PyStr) : Bool :=
  s.length == n && s.all fun c => isDecimal c || (0x61 ≤ c.code && c.code ≤ 0x66)

section Verify
variable {F : Type}

/-- `set(d) == set(names)`. -/
def sameKeys (ms : Members F) (names : List PyStr) : Bool :=
  (ms.all fun m => names.contains m.1) && names.all fun n => (ms.map Prod.fst).contains n

/-- `d[name]` where it is a string. -/
def strField (ms : Members F) (name : PyStr) : PyStr :=
  match ms.lookup name with
  | some (.str s) => s
  | _ => []

def ApprovalFieldType.accepts (t : ApprovalFieldType) (v : Option (Json F)) : Bool :=
  match t, v with
  | .str, some (.str _) => true
  | .float, some (.int _) => true
  | .float, some (.float _) => true
  | _, _ => false

/-- The loop over `_APPROVAL_FIELDS`. -/
def checkTypes (ms : Members F) : List (PyStr × ApprovalFieldType) → Except Failure Unit
  | [] => .ok ()
  | (name, t) :: fields =>
    if t.accepts (ms.lookup name) then checkTypes ms fields
    else .error (.refusal (py "malformed") (py "Approval field " ++ name ++ py " has the wrong type."))

def checkShape (approval : Json F) : Except Failure (Members F) :=
  match approval with
  | .obj ms => do
    require (sameKeys ms (approvalFields.map Prod.fst)) "malformed"
      "The approval has missing or unknown fields."
    checkTypes ms approvalFields
    require (isHex 64 (strField ms (py "digest")) && isHex 64 (strField ms (py "mac")) &&
      isHex 32 (strField ms (py "nonce"))) "malformed"
      "The approval's digest, MAC or nonce is malformed."
    .ok ms
  | _ => refuse "malformed" "The approval has missing or unknown fields."

def FieldType.accepts (t : FieldType) (v : Json F) : Bool :=
  match t, v with
  | .bool, .bool _ => true
  | .int, .int _ => true
  | .float, .int _ => true
  | .float, .float _ => true
  | .str, .str _ => true
  | _, _ => false

/-- The loop over `spec.fields`. -/
def checkParams (lower : PyStr → PyStr) (params : Members F) :
    List (PyStr × FieldType) → Except Failure Unit
  | [] => .ok ()
  | (name, t) :: fields =>
    match params.lookup name with
    | none => .error .raised
    | some v =>
      if t.accepts v then do
        refuseCodeTargets lower v
        checkParams lower params fields
      else
        .error (.refusal (py "bad_parameters") (py "Parameter " ++ name ++ py " has the wrong type."))

def readAction (action : Json F) : Option (PyStr × Members F) :=
  match action with
  | .obj ms =>
    if sameKeys ms [py "kind", py "params"] then
      match ms.lookup (py "kind"), ms.lookup (py "params") with
      | some (.str kind), some (.obj params) => some (kind, params)
      | _, _ => none
    else none
  | _ => none

/-- What the digest of an approval is of. -/
def actionValue (kind : PyStr) (params : Members F) : Json F :=
  .obj [(py "kind", .str kind), (py "params", .obj params)]

variable [PyFloat F] (p : Platform F)

def orRaise {α : Type} : Option α → Except Failure α
  | none => .error .raised
  | some a => .ok a

def actionDigest (kind : PyStr) (params : Members F) : Except Failure PyStr := do
  let data ← orRaise ((actionValue kind params).canonicalJson p.limits)
  .ok (p.sha256 data)

def approvalMac (key : ByteArray) (approval : Members F) : Except Failure PyStr := do
  let data ← orRaise ((Json.obj (approval.filter fun m => m.1 ≠ py "mac")).canonicalJson p.limits)
  if key.size = 32 then .ok (p.hmac key data) else .error .raised

def checkSignature (key : ByteArray) (approval : Members F) : Except Failure Unit := do
  let mac ← approvalMac p key approval
  require (strField approval (py "mac") == mac) "bad_signature"
    "The approval was not issued in this session."

/-- `float(approval[name])`, which overflows on a large integer. -/
def number (approval : Members F) (name : PyStr) : Except Failure Seconds :=
  match approval.lookup name with
  | some (.int n) => (orRaise (PyFloat.ofInt (F := F) n)).map p.value
  | some (.float x) => .ok (p.value x)
  | _ => .error .raised

def checkFresh (now : Seconds) (approval : Members F) : Except Failure Unit := do
  let issued ← number p approval (py "issuedAt")
  let expires ← number p approval (py "expiresAt")
  require (issued ≤ now + clockSkewSeconds) "not_yet_valid" "The approval is dated in the future."
  require (now ≤ expires) "expired" "The approval has expired."
  require (0 < expires - issued ∧ expires - issued ≤ maxApprovalSeconds) "too_long"
    "The approval's lifetime exceeds the broker limit."

/-- What has been checked about a request, and when the clock was read. -/
structure Verified (F : Type) where
  now : Seconds
  approval : Members F
  kind : PyStr
  params : Members F
  spec : ActionSpec F
  target : PyStr

def Verified.nonce (v : Verified F) : PyStr := strField v.approval (py "nonce")

def checkAction (now : Seconds) (registry : ActionRegistry F) (approval : Members F)
    (action : Json F) : Except Failure (Verified F) :=
  match readAction action with
  | none => refuse "malformed" "The action must be exactly a kind and parameters."
  | some (kind, params) => do
    let digest ← actionDigest p kind params
    require (strField approval (py "digest") == digest) "not_approved"
      "This exact action was not the one approved."
    match registry.get kind with
    | none => refuse "unknown_action" "This build cannot perform that action elevated."
    | some spec =>
      require (sameKeys params (spec.fields.map Prod.fst)) "bad_parameters"
        "The parameters do not match the action."
      checkParams p.lower params spec.fields
      spec.validate params
      let target ← spec.target params
      require (strField approval (py "category") == spec.category.value &&
        strField approval (py "target") == target) "not_approved"
        "The approval names a different category or target."
      .ok ⟨now, approval, kind, params, spec, target⟩

/-- What one launch of the broker is given; the message is a `dict`. -/
structure Launch (F : Type) where
  key : ByteArray
  registry : ActionRegistry F
  message : Members F
  keys : (Json.obj message).UniqueKeys
  verifySecret : Bool

/-- `verify_request` up to the person's secret, with the clock at `now`. -/
def checkRequest (launch : Launch F) (now : Seconds) : Except Failure (Verified F) := do
  let action ← orRaise (launch.message.lookup (py "action"))
  let approval ← orRaise (launch.message.lookup (py "approval"))
  let approval ← checkShape approval
  checkSignature p launch.key approval
  checkFresh p now approval
  checkAction p now launch.registry approval action

/-! What a request that passes has shown. -/

theorem orRaise_ok {α : Type} {x : Option α} {a : α} (h : orRaise x = .ok a) : x = some a := by
  cases x with
  | none => contradiction
  | some b => exact congrArg some (Except.ok.inj h)

variable {ms approval params : Members F} {u : Unit} {now : Seconds} {lower : PyStr → PyStr}
  {fields : List (PyStr × FieldType)} {v action : Json F} {kind : PyStr}

omit [PyFloat F] in
theorem checkShape_ok {approval : Json F} (h : checkShape approval = .ok ms) :
    approval = .obj ms ∧ isHex 32 (strField ms (py "nonce")) = true := by
  cases approval with
  | obj ns =>
    obtain ⟨-, h⟩ := require_then h
    obtain ⟨⟨⟩, -, h⟩ := bind_eq_ok.mp h
    obtain ⟨hhex, h⟩ := require_then h
    cases h
    simp only [Bool.and_eq_true] at hhex
    exact ⟨rfl, hhex.2⟩
  | _ => contradiction

theorem checkSignature_ok {key : ByteArray} (h : checkSignature p key approval = .ok u) :
    approvalMac p key approval = .ok (strField approval (py "mac")) := by
  obtain ⟨mac, hmac, h⟩ := bind_eq_ok.mp h
  rw [hmac, eq_of_beq (require_ok h)]

/-- The approval is within its validity at `now`, and that is short enough. -/
def Fresh (now : Seconds) (approval : Members F) : Prop :=
  ∃ issued expires, number p approval (py "issuedAt") = .ok issued ∧
    number p approval (py "expiresAt") = .ok expires ∧ issued ≤ now + clockSkewSeconds ∧
    now ≤ expires ∧ 0 < expires - issued ∧ expires - issued ≤ maxApprovalSeconds

theorem checkFresh_ok (h : checkFresh p now approval = .ok u) : Fresh p now approval := by
  obtain ⟨issued, hissued, h⟩ := bind_eq_ok.mp h
  obtain ⟨expires, hexpires, h⟩ := bind_eq_ok.mp h
  obtain ⟨hfuture, h⟩ := require_then h
  obtain ⟨hexpired, h⟩ := require_then h
  have hlong := require_ok h
  simp only [decide_eq_true_eq] at hfuture hexpired hlong
  exact ⟨issued, expires, hissued, hexpires, hfuture, hexpired, hlong⟩

omit [PyFloat F] in
theorem checkParams_ok (h : checkParams lower params fields = .ok u) :
    ∀ f ∈ fields, ∃ v, params.lookup f.1 = some v ∧ f.2.accepts v = true := by
  induction fields with
  | nil => simp
  | cons f fields ih =>
    obtain ⟨name, t⟩ := f
    rw [checkParams] at h
    cases hv : params.lookup name with
    | none => simp [hv] at h
    | some v =>
      simp only [hv] at h
      split at h
      · obtain ⟨⟨⟩, -, h⟩ := bind_eq_ok.mp h
        intro f hf
        rcases List.mem_cons.mp hf with rfl | hf
        · exact ⟨v, hv, ‹_›⟩
        · exact ih h f hf
      · contradiction

omit [PyFloat F] in
theorem FieldType.accepts_scalar {t : FieldType} (h : t.accepts v = true) :
    v.isScalar = true := by
  cases t <;> cases v <;> first | rfl | contradiction

omit [PyFloat F] in
theorem scalar_params (hkeys : (params.map Prod.fst).Nodup)
    (hsame : sameKeys params (fields.map Prod.fst) = true)
    (h : checkParams lower params fields = .ok u) : ∀ m ∈ params, m.2.isScalar = true := by
  intro m hm
  simp only [sameKeys, Bool.and_eq_true, List.all_eq_true] at hsame
  have hname := hsame.1 m hm
  simp only [List.contains_eq_mem, List.mem_map, decide_eq_true_eq] at hname
  obtain ⟨f, hf, hfm⟩ := hname
  obtain ⟨v, hv, ht⟩ := checkParams_ok h f hf
  have hmem : (m.1, v) ∈ params := by
    obtain ⟨before, after, hsplit, -⟩ := List.lookup_eq_some_iff.mp hv
    simp [hsplit, hfm]
  have heq : v = m.2 := Dict.item_unique (d := ⟨params, hkeys⟩) hmem hm
  exact heq ▸ FieldType.accepts_scalar ht

theorem action_unique {kind' : PyStr} {params' : Members F} {data : ByteArray}
    (hs : ∀ m ∈ params, m.2.isScalar = true)
    (h : (actionValue kind params).canonicalJson p.limits = some data)
    (h' : (actionValue kind' params').canonicalJson p.limits = some data) :
    kind' = kind ∧ ∀ m, m ∈ params' ↔ m ∈ params := by
  have hsort := Json.canonicalJson_inj h h'
  have hvalue : ∀ (k : PyStr) (ps : Members F), (actionValue k ps).sortKeys =
      .obj [(py "kind", .str k), (py "params", (Json.obj ps).sortKeys)] := fun k ps => by
    simp only [actionValue, Json.sortKeys, Json.sortKeysMembers, sortedBy,
      List.insertionSort_cons, List.insertionSort_nil, List.orderedInsert_nil,
      List.orderedInsert_cons]
    rfl
  rw [hvalue, hvalue] at hsort
  simp only [Json.obj.injEq, List.cons.injEq, Prod.mk.injEq, Json.str.injEq, true_and,
    and_true] at hsort
  exact ⟨hsort.1.symm, fun m => Json.mem_iff_of_sortKeys_eq hsort.2 hs m.1 m.2⟩

structure Approved (launch : Launch F) (v : Verified F) : Prop where
  approval : launch.message.lookup (py "approval") = some (.obj v.approval)
  action : ∃ action, launch.message.lookup (py "action") = some action ∧
    readAction action = some (v.kind, v.params)
  nonce : isHex 32 v.nonce = true
  signed : approvalMac p launch.key v.approval = .ok (strField v.approval (py "mac"))
  fresh : Fresh p v.now v.approval
  digest : actionDigest p v.kind v.params = .ok (strField v.approval (py "digest"))
  spec : launch.registry.get v.kind = some v.spec
  scalar : ∀ m ∈ v.params, m.2.isScalar = true
  category : strField v.approval (py "category") = v.spec.category.value
  target : v.spec.target v.params = .ok v.target
  named : strField v.approval (py "target") = v.target

theorem checkAction_ok {registry : ActionRegistry F} {v : Verified F}
    (h : checkAction p now registry approval action = .ok v) :
    v.now = now ∧ v.approval = approval ∧ readAction action = some (v.kind, v.params) ∧
    actionDigest p v.kind v.params = .ok (strField approval (py "digest")) ∧
    registry.get v.kind = some v.spec ∧
    sameKeys v.params (v.spec.fields.map Prod.fst) = true ∧
    checkParams p.lower v.params v.spec.fields = .ok () ∧
    strField approval (py "category") = v.spec.category.value ∧
    v.spec.target v.params = .ok v.target ∧ strField approval (py "target") = v.target := by
  rw [checkAction] at h
  cases haction : readAction action with
  | none => simp [haction, refuse] at h
  | some kp =>
    obtain ⟨kind, params⟩ := kp
    simp only [haction] at h
    obtain ⟨digest, hdigest, h⟩ := bind_eq_ok.mp h
    obtain ⟨hsame, h⟩ := require_then h
    cases hspec : registry.get kind with
    | none => simp [hspec, refuse] at h
    | some spec =>
      simp only [hspec] at h
      obtain ⟨hkeys, h⟩ := require_then h
      obtain ⟨⟨⟩, hparams, h⟩ := bind_eq_ok.mp h
      obtain ⟨⟨⟩, -, h⟩ := bind_eq_ok.mp h
      obtain ⟨target, htarget, h⟩ := bind_eq_ok.mp h
      obtain ⟨hnames, h⟩ := require_then h
      cases h
      simp only [Bool.and_eq_true, beq_iff_eq] at hsame hnames
      exact ⟨rfl, rfl, rfl, hsame ▸ hdigest, hspec, hkeys, hparams, hnames.1,
        htarget, hnames.2⟩

omit [PyFloat F] in
theorem uniqueKeys_lookup {k : PyStr} (h : (Json.obj ms).UniqueKeys) (hv : ms.lookup k = some v) :
    v.UniqueKeys := by
  obtain ⟨before, after, rfl, -⟩ := List.lookup_eq_some_iff.mp hv
  have hmembers := h.2
  clear hv h
  induction before with
  | nil => exact hmembers.1
  | cons m ms ih => exact ih hmembers.2

omit [PyFloat F] in
theorem readAction_params (hkeys : action.UniqueKeys)
    (h : readAction action = some (kind, params)) :
    (params.map Prod.fst).Nodup := by
  cases action with
  | obj ms =>
    simp only [readAction] at h
    split at h
    · split at h
      · rename_i k ps hkind hparams
        simp only [Option.some.injEq, Prod.mk.injEq] at h
        have hps : (Json.obj ps).UniqueKeys := uniqueKeys_lookup hkeys hparams
        exact h.2 ▸ hps.1
      · contradiction
    · contradiction
  | _ => contradiction

theorem approved_of_checkRequest {launch : Launch F} {v : Verified F}
    (h : checkRequest p launch now = .ok v) : v.now = now ∧ Approved p launch v := by
  obtain ⟨action, haction, h⟩ := bind_eq_ok.mp h
  obtain ⟨approval, happroval, h⟩ := bind_eq_ok.mp h
  obtain ⟨ms, hshape, h⟩ := bind_eq_ok.mp h
  obtain ⟨⟨⟩, hsigned, h⟩ := bind_eq_ok.mp h
  obtain ⟨⟨⟩, hfresh, hchecked⟩ := bind_eq_ok.mp h
  have haction := orRaise_ok haction
  have happroval := orRaise_ok happroval
  obtain ⟨hobj, hnonce⟩ := checkShape_ok hshape
  obtain ⟨hnow, hms, hread, hdigest, hspec, hsame, hparams, hcategory, htarget,
    hnamed⟩ := checkAction_ok p hchecked
  have hkeys := readAction_params (uniqueKeys_lookup launch.keys haction) hread
  subst hnow hms
  exact ⟨rfl,
    { approval := hobj ▸ happroval
      action := ⟨action, haction, hread⟩
      nonce := hnonce
      signed := checkSignature_ok p hsigned
      fresh := checkFresh_ok p hfresh
      digest := hdigest
      spec := hspec
      scalar := scalar_params hkeys hsame hparams
      category := hcategory
      target := htarget
      named := hnamed }⟩

end Verify

/-- The secret `verify_secret` is asked about; `none` is refused without asking. -/
def Launch.secret? {F : Type} (launch : Launch F) : Option PyStr :=
  match launch.message.lookup (py "secret") with
  | some (.str secret) =>
    if launch.verifySecret ∧ 0 < secret.length ∧ secret.length ≤ maxSecretChars then some secret
    else none
  | _ => none

structure ActionRequest where
  category : ActionCategory
  target : PyStr
  summary : PyStr
  actionId : PyStr

def Verified.request {F : Type} (v : Verified F) : ActionRequest :=
  ⟨v.spec.category, v.target, v.spec.summary, strField v.approval (py "actionId")⟩

/-- `ActionRequest.__post_init__` does not raise `InvalidAction`. -/
def ActionRequest.valid (r : ActionRequest) : Bool :=
  !r.target.blank && !r.summary.blank && !r.actionId.blank

end QronosAgent.Broker

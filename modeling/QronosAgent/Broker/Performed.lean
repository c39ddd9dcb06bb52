import QronosAgent.Broker.Once

/-! What a performed action was: approved, accepted, not forbidden, and the only one under its
nonce, as long as requests claim their nonces in time. -/
namespace QronosAgent.Broker
open Lib

section Performed
variable {F : Type} [PyFloat F] (p : Platform F) (texts : Set ByteArray)

/-- The canonical text of an action is one of `texts`. -/
def TextIn (kind : PyStr) (params : Members F) : Prop :=
  ∃ data ∈ texts, (actionValue kind params).canonicalJson p.limits = some data

/-- The action of request `r` was performed as approved: the launch has passed every check at a
reading of the clock, the secret was accepted, the gate did not refuse, and no other action among
`texts` has the digest of the approval. -/
structure PerformedAsApproved (w : World F) (r : ℕ) (nonce kind : PyStr) (params : Members F)
    (launch : Launch F) (v : Verified F) : Prop where
  request : w.requests r = some (launch, .ended)
  approved : Approved p launch v
  checked : Event.checked r v.now ∈ w.log
  nonce : v.nonce = nonce
  action : v.kind = kind ∧ v.params = params
  secret : ∃ secret, launch.message.lookup (py "secret") = some (.str secret) ∧
    Event.secretAccepted r secret ∈ w.log
  gate : ∃ request, request.category = v.spec.category ∧
    request.target = strField v.approval (py "target") ∧ Event.gatePassed r request ∈ w.log
  only : ∀ kind' params', TextIn p texts kind params → TextIn p texts kind' params' →
    actionDigest p kind' params' = .ok (strField v.approval (py "digest")) →
    kind' = kind ∧ ∀ m, m ∈ params' ↔ m ∈ params

variable {p texts}

omit [PyFloat F] in
theorem secret?_lookup {launch : Launch F} {secret : PyStr} (h : launch.secret? = some secret) :
    launch.message.lookup (py "secret") = some (.str secret) := by
  unfold Launch.secret? at h
  split at h
  · split at h
    · cases h
      assumption
    · contradiction
  · contradiction

/-- The digest of an approval determines the action among texts that do not collide. -/
theorem digest_unique (hsha : Set.InjOn p.sha256 texts) {kind kind' digest : PyStr}
    {params params' : Members F} (hs : ∀ m ∈ params, m.2.isScalar = true)
    (ht : TextIn p texts kind params) (ht' : TextIn p texts kind' params')
    (h : actionDigest p kind params = .ok digest)
    (h' : actionDigest p kind' params' = .ok digest) :
    kind' = kind ∧ ∀ m, m ∈ params' ↔ m ∈ params := by
  obtain ⟨data, hdata, hcanonical⟩ := ht
  obtain ⟨data', hdata', hcanonical'⟩ := ht'
  simp only [actionDigest, hcanonical] at h
  simp only [actionDigest, hcanonical'] at h'
  have heq : p.sha256 data = p.sha256 data' := Except.ok.inj (h.trans h'.symm)
  obtain rfl := hsha hdata hdata' heq
  exact action_unique p hs hcanonical hcanonical'

theorem performed_as_approved {w : World F} (hshown : Shown p w)
    (hsha : Set.InjOn p.sha256 texts) {r : ℕ} {nonce kind : PyStr} {params : Members F}
    (h : Event.performed r nonce kind params ∈ w.log) :
    ∃ launch v, PerformedAsApproved p texts w r nonce kind params launch v := by
  obtain ⟨launch, v, hreq, hcleared, hnonce, rfl, rfl, -⟩ := hshown.events _ h
  obtain ⟨-, happroved⟩ := approved_of_checkRequest p hcleared.checked.1
  obtain ⟨secret, hsecret, hlog⟩ := hcleared.secret
  exact ⟨launch, v,
    { request := hreq
      approved := happroved
      checked := hcleared.checked.2
      nonce := hnonce
      action := ⟨rfl, rfl⟩
      secret := ⟨secret, secret?_lookup hsecret, hlog⟩
      gate := ⟨v.request, rfl, happroved.named.symm, hcleared.gate⟩
      only := fun kind' params' ht ht' hd =>
        digest_unique hsha happroved.scalar ht ht' happroved.digest hd }⟩

/-- In every run whose requests claim in time, an action is performed only as approved, once
under a nonce, and a refused request consumes no nonce and performs nothing. -/
theorem action_performed_once (hsha : Set.InjOn p.sha256 texts) (hdiffer : MarkersDiffer p)
    {w : World F} (h : (machine p).Reach InTime w) :
    (∀ r nonce kind params, Event.performed r nonce kind params ∈ w.log →
      ∃ launch v, PerformedAsApproved p texts w r nonce kind params launch v) ∧
    (∀ nonce, performances w.log nonce ≤ 1) ∧
    ∀ r outcome detail, Event.ended r (.refused outcome detail) ∈ w.log →
      (∀ nonce c, Event.claimed r nonce c ∉ w.log) ∧
      ∀ nonce kind params, Event.performed r nonce kind params ∉ w.log := by
  have hshown := shown_of_reach h
  refine ⟨fun _ _ _ _ he => performed_as_approved hshown hsha he,
    performances_of_reach hdiffer h, fun r outcome detail he => ?_⟩
  have hun : Untouched w.log r := (hshown.events _ he).1
  constructor
  · intro nonce c hc
    exact absurd (hun _ hc rfl) (by simp [Event.touches])
  · intro nonce kind params hp
    exact absurd (hun _ hp rfl) (by simp [Event.touches])

end Performed

def sampleZeros : PyStr := List.replicate 64 (.scalar '0')

def sampleHash (b : ByteArray) : PyStr :=
  match PyStr.decodeUtf8 b with
  | some s => if s.length = 32 then s else sampleZeros
  | none => sampleZeros

def samplePlatform : Platform WholeFloat where
  limits := ⟨100, 100⟩
  hmac _ _ := sampleZeros
  sha256 := sampleHash
  value x := x.value
  lower := id

def sampleNonce : PyStr := List.replicate 32 (.scalar 'a')

def sampleMessage : Members WholeFloat :=
  [(py "action", .obj [(py "kind", .str (py "printer.spooler_restart")), (py "params", .obj [])]),
    (py "approval", .obj [(py "actionId", .str (py "1")), (py "category", .str (py "device_control")),
      (py "target", .str (py "Windows Print Spooler service (Spooler)")),
      (py "digest", .str sampleZeros), (py "issuedAt", .int 0), (py "expiresAt", .int 100),
      (py "nonce", .str sampleNonce), (py "mac", .str sampleZeros)]),
    (py "secret", .str (py "s"))]

def sampleLaunch : Launch WholeFloat where
  key := ⟨Array.replicate 32 0⟩
  registry := productionActions WholeFloat
  message := sampleMessage
  keys := by simp [sampleMessage, Json.UniqueKeys, Json.UniqueKeysMembers, py]
  verifySecret := true

def sampleAsks (r : ℕ) : List (Step WholeFloat) :=
  [.secret r true, .gate r .passes, .mkdir r true]

def samplePerforms (r : ℕ) : List (Step WholeFloat) :=
  [.pruned r true, .openMarker r .works, .perform r true]

/-- Two requests read the clock, and one performs its action. -/
def sampleRun : List (Step WholeFloat) :=
  [.launch 0 sampleLaunch, .launch 1 sampleLaunch, .check 0, .check 1] ++ sampleAsks 0 ++
    samplePerforms 0

/-- The other one goes on after the marker has become old. -/
def dwellingRun : List (Step WholeFloat) :=
  [.tick 371] ++ sampleAsks 1 ++ [.inspect 1 (sampleNonce ++ py ".used"), .unlink 1 true] ++
    samplePerforms 1

theorem sampleHash_nonce {nonce : PyStr} (h : isHex 32 nonce = true) :
    sampleHash ((PyStr.encodeUtf8 nonce).getD ByteArray.empty) = nonce := by
  simp only [isHex, Bool.and_eq_true, beq_iff_eq, List.all_eq_true] at h
  have hencodable : PyStr.Encodable nonce := by
    intro c hc
    have hcode := h.2 c hc
    cases c with
    | scalar a => rfl
    | surrogate n =>
      have hle : (PyChar.surrogate n).code ≤ 0x66 := by grind [isDecimal]
      simp only [PyChar.code] at hle
      omega
  obtain ⟨b, hb⟩ := PyStr.encodable_iff.mp hencodable
  rw [hb, Option.getD_some, sampleHash, PyStr.decodeUtf8_encodeUtf8 hb]
  simp [h.1]

theorem sample_markersDiffer : MarkersDiffer samplePlatform := by
  intro m hm n hn h
  have hmarker : ∀ {k : PyStr}, isHex 32 k = true → marker samplePlatform k = k ++ py ".used" := by
    intro k hk
    have hlength : k.length = 32 := by
      simp only [isHex, Bool.and_eq_true, beq_iff_eq] at hk
      exact hk.1
    rw [marker, show samplePlatform.sha256 = sampleHash from rfl, sampleHash_nonce hk,
      List.take_of_length_le (by omega)]
  rw [hmarker hm, hmarker hn] at h
  exact List.append_cancel_right h

/-- Every nonce was claimed within `markerSeconds`. -/
def claimsRecent (w : World WholeFloat) (_ : Step WholeFloat) : Bool :=
  w.log.all fun e =>
    match e with
    | .claimed _ _ c => w.clock ≤ c + markerSeconds
    | _ => true

theorem inTime_of_claimsRecent (w : World WholeFloat) (a : Step WholeFloat)
    (h : claimsRecent w a = true) : InTime w a := by
  cases a with
  | openMarker r answer =>
    intro launch v _ r' c hc
    simpa using List.all_eq_true.mp h _ hc
  | _ => trivial

theorem sample_runs : ∃ w w' : World WholeFloat,
    (machine samplePlatform).execChecked claimsRecent (World.fresh 0) sampleRun = some w ∧
    (machine samplePlatform).exec w dwellingRun = some w' ∧
    performances w.log sampleNonce = 1 ∧ performances w'.log sampleNonce = 2 := by
  have hrun : ((machine samplePlatform).execChecked claimsRecent (World.fresh 0) sampleRun).any
      (fun w : World WholeFloat => performances w.log sampleNonce == 1 &&
        ((machine samplePlatform).exec w dwellingRun).any
          (fun w' : World WholeFloat => performances w'.log sampleNonce == 2)) := by
    decide +kernel
  obtain ⟨w, hw, h⟩ := (Option.any_eq_true _ _).mp hrun
  rw [Bool.and_eq_true] at h
  obtain ⟨w', hw', h'⟩ := (Option.any_eq_true _ _).mp h.2
  exact ⟨w, w', hw, hw', eq_of_beq h.1, eq_of_beq h'⟩

theorem sample_reach {w : World WholeFloat}
    (hw : (machine samplePlatform).execChecked claimsRecent (World.fresh 0) sampleRun = some w) :
    (machine samplePlatform).Reach InTime w :=
  Machine.Reach.execChecked inTime_of_claimsRecent (.start ⟨0, rfl⟩) hw

theorem action_performed_once_sample : ∃ w : World WholeFloat,
    performances w.log sampleNonce = 1 ∧ ∀ nonce, performances w.log nonce ≤ 1 := by
  obtain ⟨w, -, hw, -, h, -⟩ := sample_runs
  have hsha := Set.injOn_singleton samplePlatform.sha256 ByteArray.empty
  exact ⟨w, h, (action_performed_once hsha sample_markersDiffer (sample_reach hw)).2.1⟩

/-- A request that reads the clock in time and opens its marker after it was pruned performs the
action again. -/
theorem dwelling_performs_again : MarkersDiffer samplePlatform ∧
    ∃ w, (machine samplePlatform).Reachable w ∧ performances w.log sampleNonce = 2 := by
  obtain ⟨w, w', hw, hw', -, h⟩ := sample_runs
  have hreach : (machine samplePlatform).Reachable w :=
    (sample_reach hw).mono fun _ _ _ => trivial
  exact ⟨sample_markersDiffer, w', Machine.Reach.exec hreach (Machine.allOk_true _ _) hw', h⟩

end QronosAgent.Broker

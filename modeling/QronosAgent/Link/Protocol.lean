import QronosAgent.Lib.JsonCompact
import QronosAgent.Lib.Lines
import QronosAgent.Phone.OneCommand

/-! `core/link_protocol.py`: what the frames are, how they are written, and how a stream is read
frame by frame. The checks of single fields are those of `Phone.Python`. -/
namespace QronosAgent.Link.Protocol
open Lib
open Phone (maxFrameBytes)
open Phone.Python (Raised protocolError Members dictOf checkCommandId requireInt requireStr requireBool)

variable {F : Type}

structure Request (F : Type) where
  id : ℤ
  op : PyStr
  params : Members F
  commandId : Option PyStr

structure Response (F : Type) where
  id : ℤ
  ok : Bool
  result : Json F
  error : PyStr
  code : PyStr

structure Event (F : Type) where
  topic : PyStr
  data : Members F

inductive Frame (F : Type) where
  | request (r : Request F)
  | response (r : Response F)
  | event (e : Event F)

structure Interpreter (F : Type) where
  limits : JsonLimits
  dumpsDepth : ℕ
  str : Json F → Option PyStr
  str_str : ∀ s, str (.str s) = some s
  /-- The text of the error of `json.loads(body.decode("utf-8"))`. -/
  malformed : Bytes → PyStr
  /-- The text of the error of `json.dumps(payload).encode("utf-8")`. -/
  unserialisable : Json F → PyStr

def Interpreter.reading (P : Interpreter F) : Phone.Python.Interpreter F Unit :=
  ⟨P.limits, P.str, P.malformed, fun _ => .raises⟩

def Request.toPayload (r : Request F) : Members F :=
  [(py "kind", .str (py "request")), (py "id", .int r.id), (py "op", .str r.op),
      (py "params", .obj r.params)] ++
    r.commandId.toList.map fun id => (py "cid", .str id)

def Response.toPayload (r : Response F) : Members F :=
  [(py "kind", .str (py "response")), (py "id", .int r.id), (py "ok", .bool r.ok)] ++
    if r.ok then [(py "result", r.result)]
    else [(py "error", .str r.error), (py "code", .str r.code)]

def Event.toPayload (e : Event F) : Members F :=
  [(py "kind", .str (py "event")), (py "topic", .str e.topic), (py "data", .obj e.data)]

def Frame.toPayload : Frame F → Members F
  | .request r => r.toPayload
  | .response r => r.toPayload
  | .event e => e.toPayload

/-- `n.to_bytes(4, "big")` -/
def lengthPrefix (n : ℕ) : Bytes :=
  [UInt8.ofNat (n / 16777216), UInt8.ofNat (n / 65536), UInt8.ofNat (n / 256), UInt8.ofNat n]

section
variable [PyFloat F] (P : Interpreter F)

/-- `encode_payload` -/
def encodePayload (payload : Members F) : Except Raised Bytes :=
  let refused := .error (protocolError (py "malformed_json")
    (py "payload is not serialisable: " ++ P.unserialisable (.obj payload)))
  match Json.dumpsError P.limits.intDigits P.dumpsDepth (.obj payload) with
  | some .recursion => .error .other
  | some .intTooLong => refused
  | none =>
    match PyStr.encodeUtf8 (Json.compact (.obj payload)) with
    | none => refused
    | some body =>
      if maxFrameBytes < body.data.toList.length then
        .error (protocolError (py "oversize") (natText body.data.toList.length ++
          py " bytes exceeds the " ++ natText maxFrameBytes ++ py " byte limit"))
      else .ok (lengthPrefix body.data.toList.length ++ body.data.toList)

def encodeFrame (f : Frame F) : Except Raised Bytes := encodePayload P f.toPayload

def encodeFrames (fs : List (Frame F)) : Except Raised Bytes :=
  (fs.mapM (encodeFrame P)).map List.flatten

/-- What one call of `read_frame` does with a reader over some bytes: what it returns or raises,
what it leaves, and how many bytes it asked for each time. -/
structure Reading (F : Type) where
  result : Except Raised (Option (Members F))
  rest : Bytes
  asked : List ℕ

/-- `int.from_bytes(prefix, "big")` -/
def bigEndian (s : Bytes) : ℕ := s.foldl (fun n b => n * 256 + b.toNat) 0

/-- `read_frame` over `reader_over`. -/
def readFrame (s : Bytes) : Reading F :=
  let read := s.take 4
  let rest := s.drop 4
  if read = [] then ⟨.ok none, rest, [4]⟩
  else if read.length < 4 then
    ⟨.error (protocolError (py "malformed_length")
      (py "length prefix was " ++ natText read.length ++ py " bytes")), rest, [4]⟩
  else
    let length := bigEndian read
    if length = 0 then ⟨.error (protocolError (py "malformed_length") (py "zero length")), rest, [4]⟩
    else if maxFrameBytes < length then
      ⟨.error (protocolError (py "oversize") (py "peer declared " ++ natText length ++ py " bytes")),
        rest, [4]⟩
    else
      let body := rest.take length
      if body.length < length then
        ⟨.error (protocolError (py "truncated") (py "expected " ++ natText length ++
          py " bytes, received " ++ natText body.length)), rest.drop length, [4, length]⟩
      else
        ⟨(Phone.Python.decodePayload P.reading body).map some, rest.drop length, [4, length]⟩

end

/-- `_parse_request` -/
def parseRequest (ms : Members F) : Except Raised (Request F) := do
  let params ← dictOf ms (py "params")
  checkCommandId ms
  let id ← requireInt ms (py "id")
  let op ← requireStr ms (py "op")
  let commandId := match Json.member? ms (py "cid") with
    | some (.str s) => some s
    | _ => none
  return { id, op, params, commandId }

/-- `_parse_response` -/
def parseResponse (P : Interpreter F) (ms : Members F) : Except Raised (Response F) := do
  let ok ← requireBool ms (py "ok")
  let id ← requireInt ms (py "id")
  let error ← Phone.Python.textOf P.reading ms (py "error")
  let code ← Phone.Python.textOf P.reading ms (py "code")
  return { id, ok, result := (Json.member? ms (py "result")).getD .null, error, code }

/-- `_parse_event` -/
def parseEvent (ms : Members F) : Except Raised (Event F) := do
  let data ← dictOf ms (py "data")
  let topic ← requireStr ms (py "topic")
  return { topic, data }

/-- `parse_frame` -/
def parseFrame (P : Interpreter F) (ms : Members F) : Except Raised (Frame F) :=
  match Json.member? ms (py "kind") with
  | some (.str kind) =>
    if kind = py "request" then (parseRequest ms).map .request
    else if kind = py "response" then (parseResponse P ms).map .response
    else if kind = py "event" then (parseEvent ms).map .event
    else .error (protocolError (py "unknown_kind") kind)
  | _ => .error (protocolError (py "missing_field") (py "kind is missing or not a string"))

theorem bigEndian_lengthPrefix {n : ℕ} (h : n ≤ maxFrameBytes) : bigEndian (lengthPrefix n) = n := by
  have hmax : maxFrameBytes = 1048576 := rfl
  simp only [bigEndian, lengthPrefix, List.foldl_cons, List.foldl_nil, UInt8.toNat_ofNat']
  omega

theorem lengthPrefix_bigEndian (a b c d : UInt8) : lengthPrefix (bigEndian [a, b, c, d]) = [a, b, c, d] := by
  have ha := a.toNat_lt
  have hb := b.toNat_lt
  have hc := c.toNat_lt
  have hd := d.toNat_lt
  simp only [bigEndian, lengthPrefix, List.foldl_cons, List.foldl_nil, List.cons.injEq, and_true]
  refine ⟨?_, ?_, ?_, ?_⟩ <;>
  · apply UInt8.toNat.inj
    rw [UInt8.toNat_ofNat']
    omega

section
variable [PyFloat F] (P : Interpreter F)

theorem readFrame_whole {body : Bytes} (hpos : 0 < body.length) (hle : body.length ≤ maxFrameBytes)
    (rest : Bytes) :
    readFrame P (lengthPrefix body.length ++ body ++ rest) =
      ⟨(Phone.Python.decodePayload P.reading body).map some, rest, [4, body.length]⟩ := by
  have htake : (lengthPrefix body.length ++ body ++ rest).take 4 = lengthPrefix body.length := rfl
  have hdrop : (lengthPrefix body.length ++ body ++ rest).drop 4 = body ++ rest := rfl
  have hlen : (lengthPrefix body.length).length = 4 := rfl
  have hne : lengthPrefix body.length ≠ [] := by
    intro h
    rw [h] at hlen
    cases hlen
  simp only [readFrame, htake, hdrop, hlen, bigEndian_lengthPrefix hle, if_neg hne,
    if_neg (Nat.lt_irrefl 4), if_neg hpos.ne', if_neg (Nat.not_lt.mpr hle), List.take_left,
    List.drop_left, if_neg (Nat.lt_irrefl body.length)]

theorem decodePayload_error {body : Bytes} {e : Raised}
    (h : Phone.Python.decodePayload P.reading body = .error e) :
    e = .other ∨ ∃ text, e = .protocol text := by
  unfold Phone.Python.decodePayload at h
  split at h
  · exact .inr ⟨_, (Except.error.inj h).symm⟩
  · split at h
    · cases h
    · exact .inr ⟨_, (Except.error.inj h).symm⟩
    · exact .inr ⟨_, (Except.error.inj h).symm⟩
    · exact .inl (Except.error.inj h).symm

def HasFrame (s body rest : Bytes) : Prop :=
  0 < body.length ∧ body.length ≤ maxFrameBytes ∧ s = lengthPrefix body.length ++ body ++ rest

/-- What `read_frame` does, by what is at the head of the bytes. -/
theorem readFrame_cases (s : Bytes) :
    s = [] ∧ readFrame P s = ⟨.ok none, [], [4]⟩ ∨
      (∃ body rest, HasFrame s body rest ∧ readFrame P s =
        ⟨(Phone.Python.decodePayload P.reading body).map some, rest, [4, body.length]⟩) ∨
      ∃ text, (readFrame P s).result = .error (.protocol text) ∧
        ((readFrame P s).asked = [4] ∨
          ∃ n, n ≤ maxFrameBytes ∧ (s.drop 4).length < n ∧ (readFrame P s).asked = [4, n]) := by
  match s with
  | [] => exact .inl ⟨rfl, rfl⟩
  | [_] | [_, _] | [_, _, _] => exact .inr (.inr ⟨_, rfl, .inl rfl⟩)
  | a :: b :: c :: d :: rest =>
    refine .inr ?_
    have hread : readFrame P (a :: b :: c :: d :: rest) =
        if bigEndian [a, b, c, d] = 0 then
          ⟨.error (protocolError (py "malformed_length") (py "zero length")), rest, [4]⟩
        else if maxFrameBytes < bigEndian [a, b, c, d] then
          ⟨.error (protocolError (py "oversize")
            (py "peer declared " ++ natText (bigEndian [a, b, c, d]) ++ py " bytes")), rest, [4]⟩
        else if (rest.take (bigEndian [a, b, c, d])).length < bigEndian [a, b, c, d] then
          ⟨.error (protocolError (py "truncated")
            (py "expected " ++ natText (bigEndian [a, b, c, d]) ++ py " bytes, received " ++
              natText (rest.take (bigEndian [a, b, c, d])).length)),
            rest.drop (bigEndian [a, b, c, d]), [4, bigEndian [a, b, c, d]]⟩
        else
          ⟨(Phone.Python.decodePayload P.reading (rest.take (bigEndian [a, b, c, d]))).map some,
            rest.drop (bigEndian [a, b, c, d]), [4, bigEndian [a, b, c, d]]⟩ := rfl
    have hfour := lengthPrefix_bigEndian a b c d
    generalize bigEndian [a, b, c, d] = n at hread hfour
    rw [hread]
    split_ifs with hzero hover hshort
    · exact .inr ⟨_, rfl, .inl rfl⟩
    · exact .inr ⟨_, rfl, .inl rfl⟩
    · refine .inr ⟨_, rfl, .inr ⟨n, by omega, ?_, rfl⟩⟩
      rw [List.length_take] at hshort
      simp only [List.drop_succ_cons, List.drop_zero]
      omega
    · have hlen : (rest.take n).length = n := by
        rw [List.length_take] at hshort ⊢
        omega
      refine .inl ⟨rest.take n, rest.drop n, ⟨by omega, by omega, ?_⟩, ?_⟩
      · rw [hlen, hfour, List.append_assoc, List.take_append_drop]
        rfl
      · rw [hlen]

/-- A call of `read_frame` over some bytes does as it is said to. -/
structure ReadsAsSaid (s : Bytes) : Prop where
  asks : (readFrame P s).asked = [4] ∨ ∃ n, n ≤ maxFrameBytes ∧ (readFrame P s).asked = [4, n]
  takes : ∀ n, (readFrame P s).asked = [4, n] → n ≤ (s.drop 4).length →
    ∃ body, body.length = n ∧ s = lengthPrefix n ++ body ++ (readFrame P s).rest
  /-- It returns an object, `None` at the end, or raises `ProtocolError`. -/
  result : (∃ ms, (readFrame P s).result = .ok (some ms)) ∨
    (readFrame P s).result = .ok none ∧ s = [] ∨
    ∃ text, (readFrame P s).result = .error (.protocol text)

/-- The body at the head of the bytes has no text on which `json.loads` meets the recursion limit or
an integer that is too long. -/
def Quiet (s : Bytes) : Prop :=
  ∀ body rest text, HasFrame s body rest → PyStr.decodeUtf8 ⟨body.toArray⟩ = some text →
    Json.loads (F := F) P.limits text ≠ .error .recursion ∧
      Json.loads (F := F) P.limits text ≠ .error .intTooLong

theorem HasFrame.read {s body rest : Bytes} (h : HasFrame s body rest) : readFrame P s =
    ⟨(Phone.Python.decodePayload P.reading body).map some, rest, [4, body.length]⟩ := by
  obtain ⟨hpos, hle, rfl⟩ := h
  exact readFrame_whole P hpos hle rest

theorem readsAsSaid_iff (s : Bytes) : ReadsAsSaid P s ↔ Quiet P s := by
  constructor
  · intro h body rest text hframe htext
    have hother : Phone.Python.decodePayload P.reading body ≠ .error .other := by
      intro hother
      have hresult := h.result
      rw [hframe.read P, hother] at hresult
      rcases hresult with ⟨ms, hms⟩ | ⟨hnone, -⟩ | ⟨text, htext⟩
      · cases hms
      · cases hnone
      · cases htext
    constructor
    · intro hloads
      exact hother ((Phone.Python.decodePayload_other P.reading).mpr ⟨text, htext, .inl hloads⟩)
    · intro hloads
      exact hother ((Phone.Python.decodePayload_other P.reading).mpr ⟨text, htext, .inr hloads⟩)
  · intro hquiet
    rcases readFrame_cases P s with ⟨rfl, h⟩ | ⟨body, rest, hframe, h⟩ | ⟨text, herror, hasked⟩
    · exact ⟨.inl (by rw [h]), by simp [h], .inr (.inl ⟨by rw [h], rfl⟩)⟩
    · refine ⟨.inr ⟨body.length, hframe.2.1, by rw [h]⟩, ?_, ?_⟩
      · intro n hn _
        rw [h] at hn ⊢
        obtain rfl : body.length = n := by simpa using hn
        exact ⟨body, rfl, hframe.2.2⟩
      · rw [h]
        cases hdecode : Phone.Python.decodePayload P.reading body with
        | ok ms => exact .inl ⟨ms, rfl⟩
        | error e =>
          rcases decodePayload_error P hdecode with rfl | ⟨text, rfl⟩
          · obtain ⟨text, htext, hloads⟩ := (Phone.Python.decodePayload_other P.reading).mp hdecode
            obtain ⟨hrecursion, hlong⟩ := hquiet body rest text hframe htext
            rcases hloads with hloads | hloads
            · exact absurd hloads hrecursion
            · exact absurd hloads hlong
          · exact .inr (.inr ⟨text, rfl⟩)
    · refine ⟨?_, ?_, .inr (.inr ⟨text, herror⟩)⟩
      · rcases hasked with hasked | ⟨n, hn, -, hasked⟩
        · exact .inl hasked
        · exact .inr ⟨n, hn, hasked⟩
      · intro n hn hle
        rcases hasked with hasked | ⟨m, -, hshort, hasked⟩
        · rw [hasked] at hn
          simp at hn
        · rw [hasked] at hn
          obtain rfl : m = n := by simpa using hn
          omega

theorem length_rest_lt {s : Bytes} {ms : Members F}
    (h : (readFrame P s).result = .ok (some ms)) : (readFrame P s).rest.length < s.length := by
  rcases readFrame_cases P s with ⟨-, hread⟩ | ⟨body, rest, hframe, hread⟩ | ⟨text, herror, -⟩
  · rw [hread] at h
    cases h
  · obtain ⟨hpos, -, rfl⟩ := hframe
    rw [hread]
    simp only [List.length_append]
    omega
  · rw [herror] at h
    cases h

/-- `read_frame` and `parse_frame` until the stream ends or one of them raises: the frames, and how
it ends. -/
def receive (s : Bytes) : List (Frame F) × Except Raised Unit :=
  match _h : (readFrame P s).result with
  | .error e => ([], .error e)
  | .ok none => ([], .ok ())
  | .ok (some ms) =>
    match parseFrame P ms with
    | .error e => ([], .error e)
    | .ok f =>
      let more := receive (readFrame P s).rest
      (f :: more.1, more.2)
termination_by s.length
decreasing_by exact length_rest_lt P _h

theorem receive_nil : receive P [] = ([], .ok ()) := by
  rw [receive]
  split
  · rename_i h
    cases h
  · rfl
  · rename_i h
    cases h

theorem receive_whole {s body rest : Bytes} (h : HasFrame s body rest) :
    receive P s =
      match Phone.Python.decodePayload P.reading body >>= parseFrame P with
      | .error e => ([], .error e)
      | .ok f => (f :: (receive P rest).1, (receive P rest).2) := by
  have hread := h.read P
  rw [receive]
  split
  · rename_i e he
    rw [hread] at he
    rw [map_eq_error.mp he]
    rfl
  · rename_i hnone
    rw [hread] at hnone
    cases hd : Phone.Python.decodePayload P.reading body with
    | error e =>
      rw [hd] at hnone
      cases hnone
    | ok ms =>
      rw [hd] at hnone
      cases hnone
  · rename_i ms hms
    rw [hread] at hms
    obtain ⟨ms', hd, hms'⟩ := map_eq_ok.mp hms
    obtain rfl : ms' = ms := by simpa using hms'
    rw [hd, hread]
    cases hp : parseFrame P ms' with
    | error e => simp [bind, Except.bind, hp]
    | ok f => simp [bind, Except.bind, hp]

/-- What of a frame its payload transmits: of a response, what goes with its `ok` flag. -/
def Frame.transmitted : Frame F → Frame F
  | .request r => .request r
  | .response r =>
    .response (if r.ok then { r with error := [], code := [] } else { r with result := .null })
  | .event e => .event e

/-- The ids that `parse_frame` takes for a command's. -/
def Frame.HasGoodId : Frame F → Prop
  | .request r => r.commandId.all Phone.Python.matchesCommandId = true
  | _ => True

omit [PyFloat F] in
theorem parseRequest_toPayload (r : Request F) :
    parseRequest r.toPayload = (checkCommandId r.toPayload).map fun _ => r := by
  obtain ⟨id, op, params, commandId⟩ := r
  have hdict : dictOf (Request.toPayload ⟨id, op, params, commandId⟩) (py "params") = .ok params := by
    cases commandId <;> rfl
  rw [parseRequest, hdict]
  cases hcheck : checkCommandId (Request.toPayload ⟨id, op, params, commandId⟩) with
  | error e => simp [bind, Except.bind, Except.map]
  | ok u =>
    simp only [bind, Except.bind]
    cases commandId <;> rfl

omit [PyFloat F] in
theorem checkCommandId_toPayload (r : Request F) : checkCommandId r.toPayload = .ok () ↔
    r.commandId.all Phone.Python.matchesCommandId = true := by
  obtain ⟨id, op, params, commandId⟩ := r
  cases commandId with
  | none => exact iff_of_true rfl rfl
  | some cid =>
    have hmember : Json.member? (Request.toPayload ⟨id, op, params, some cid⟩) (py "cid") =
        some (.str cid) := rfl
    simp only [checkCommandId, hmember, Option.all_some]
    cases Phone.Python.matchesCommandId cid <;> simp

omit [PyFloat F] in
theorem parseResponse_toPayload (r : Response F) : (parseResponse P r.toPayload).map Frame.response =
    .ok (Frame.transmitted (.response r)) := by
  obtain ⟨id, ok, result, error, code⟩ := r
  cases ok with
  | true => rfl
  | false =>
    have htext : ∀ name text, Json.member? (Response.toPayload ⟨id, false, result, error, code⟩) name =
        some (.str text) → Phone.Python.textOf P.reading
          (Response.toPayload ⟨id, false, result, error, code⟩) name = .ok text := by
      intro name text hmember
      simp only [Phone.Python.textOf, hmember, Interpreter.reading, P.str_str]
    rw [parseResponse, htext (py "error") error rfl, htext (py "code") code rfl]
    rfl

omit [PyFloat F] in
theorem parseFrame_toPayload {f : Frame F} (h : f.HasGoodId) :
    parseFrame P f.toPayload = .ok f.transmitted := by
  cases f with
  | request r =>
    have hkind : Json.member? r.toPayload (py "kind") = some (.str (py "request")) := rfl
    have hparse : parseRequest r.toPayload = .ok r := by
      rw [parseRequest_toPayload, (checkCommandId_toPayload r).mpr h]
      rfl
    simp only [parseFrame, Frame.toPayload, hkind, if_true, hparse]
    rfl
  | response r =>
    have hkind : Json.member? r.toPayload (py "kind") = some (.str (py "response")) := rfl
    have hne : py "response" ≠ py "request" := by decide
    simp only [parseFrame, hkind, if_neg hne, if_true, Frame.toPayload, parseResponse_toPayload]
  | event e => rfl

omit [PyFloat F] in
theorem goodId_of_parseFrame {f g : Frame F} (h : parseFrame P f.toPayload = .ok g) :
    f.HasGoodId := by
  cases f with
  | request r =>
    have hkind : Json.member? r.toPayload (py "kind") = some (.str (py "request")) := rfl
    simp only [parseFrame, hkind, if_true, Frame.toPayload, parseRequest_toPayload] at h
    obtain ⟨r', hr, -⟩ := map_eq_ok.mp h
    obtain ⟨u, hu, -⟩ := map_eq_ok.mp hr
    exact (checkCommandId_toPayload r).mp hu
  | response r => trivial
  | event e => trivial

/-- A frame that `json.dumps` writes within the limit. -/
theorem encodeFrame_eq_ok {f : Frame F} {bs : Bytes} (h : encodeFrame P f = .ok bs) :
    ∃ body, bs = lengthPrefix body.length ++ body ∧ 0 < body.length ∧
      body.length ≤ maxFrameBytes ∧ (Json.obj f.toPayload).intsFit P.limits.intDigits = true ∧
      PyStr.decodeUtf8 ⟨body.toArray⟩ = some (Json.compact (.obj f.toPayload)) := by
  unfold encodeFrame encodePayload at h
  simp only at h
  split at h
  · cases h
  · cases h
  rename_i hdumps
  split at h
  · cases h
  rename_i body hbody
  split_ifs at h with hover
  have hdecode := PyStr.decodeUtf8_encodeUtf8 hbody
  refine ⟨body.data.toList, (Except.ok.inj h).symm, ?_, by omega, Json.intsFit_of_dumps _ _ hdumps, ?_⟩
  · rw [List.length_pos_iff]
    intro hnil
    have hempty : body = ByteArray.empty := ByteArray.ext (by simpa using hnil)
    have hnone : PyStr.decodeUtf8 ByteArray.empty = some [] :=
      @PyStr.decodeUtf8_encodeUtf8 [] ByteArray.empty rfl
    obtain ⟨c, r, hr, -⟩ := Json.compactSpelling.valueHead 0 (.obj f.toPayload)
    rw [hempty, hnone] at hdecode
    exact absurd ((Option.some.inj hdecode).trans hr) (by simp)
  · simpa using hdecode

/-- What `json.loads` and `parse_frame` ask of a frame that was written. -/
def Frame.Readable (f : Frame F) : Prop :=
  (Json.obj f.toPayload).nestsWithin P.limits.depth = true ∧ f.HasGoodId

theorem decoded_frame {f : Frame F} {body : Bytes} (hkeys : (Json.obj f.toPayload).UniqueKeys)
    (hfit : (Json.obj f.toPayload).intsFit P.limits.intDigits = true)
    (htext : PyStr.decodeUtf8 ⟨body.toArray⟩ = some (Json.compact (.obj f.toPayload))) {g : Frame F} :
    Phone.Python.decodePayload P.reading body >>= parseFrame P = .ok g ↔
      f.Readable P ∧ g = f.transmitted := by
  have hread := Json.loads_value Json.compactSpelling hfit hkeys
  cases hdepth : (Json.obj f.toPayload).nestsWithin P.limits.depth with
  | false =>
    have hdecode : Phone.Python.decodePayload P.reading body = .error .other :=
      (Phone.Python.decodePayload_other P.reading).mpr
        ⟨_, htext, .inl (by rw [hdepth] at hread; exact hread)⟩
    simp [hdecode, bind, Except.bind, Frame.Readable, hdepth]
  | true =>
    have hloads : Json.loads P.reading.limits (Json.compact (.obj f.toPayload)) =
        .ok (.obj f.toPayload) := by
      rw [hdepth] at hread
      exact hread
    have hdecode : Phone.Python.decodePayload P.reading body = .ok f.toPayload := by
      simp only [Phone.Python.decodePayload, htext, hloads]
    rw [hdecode]
    change parseFrame P f.toPayload = .ok g ↔ _
    constructor
    · intro hg
      have hid := goodId_of_parseFrame P hg
      rw [parseFrame_toPayload P hid] at hg
      exact ⟨⟨hdepth, hid⟩, (Except.ok.inj hg).symm⟩
    · rintro ⟨⟨-, hid⟩, rfl⟩
      exact parseFrame_toPayload P hid

theorem receive_encodeFrames {fs : List (Frame F)}
    (hkeys : ∀ f ∈ fs, (Json.obj f.toPayload).UniqueKeys) {stream : Bytes}
    (h : encodeFrames P fs = .ok stream) :
    receive P stream = (fs.map Frame.transmitted, .ok ()) ↔ ∀ f ∈ fs, f.Readable P := by
  obtain ⟨parts, hparts, rfl⟩ := map_eq_ok.mp h
  clear h
  induction fs generalizing parts with
  | nil =>
    cases hparts
    simp [receive_nil]
  | cons f fs ih =>
    rw [List.mapM_cons, bind_eq_ok] at hparts
    obtain ⟨bs, hbs, hparts⟩ := hparts
    rw [bind_eq_ok] at hparts
    obtain ⟨rest, hrest, hparts⟩ := hparts
    cases hparts
    obtain ⟨body, rfl, hpos, hle, hfit, htext⟩ := encodeFrame_eq_ok P hbs
    have hframe : HasFrame (lengthPrefix body.length ++ body ++ rest.flatten) body rest.flatten :=
      ⟨hpos, hle, rfl⟩
    have hdecoded := fun g => @decoded_frame F _ P f body (hkeys f List.mem_cons_self) hfit htext g
    have htail := ih (fun g hg => hkeys g (List.mem_cons_of_mem _ hg)) rest hrest
    rw [List.flatten_cons, receive_whole P hframe, List.map_cons, List.forall_mem_cons, ← htail]
    cases hd : Phone.Python.decodePayload P.reading body >>= parseFrame P with
    | error e =>
      have hnot : ¬ f.Readable P := by
        intro hread
        have := (hdecoded _).mpr ⟨hread, rfl⟩
        rw [hd] at this
        cases this
      simp [hnot]
    | ok g =>
      obtain ⟨hread, rfl⟩ := (hdecoded g).mp hd
      simp only [Prod.mk.injEq, List.cons.injEq, true_and, hread]
      rw [Prod.ext_iff]

/-- Frames that were written are received exactly when each can be read, and a call of `read_frame`
does as it is said to exactly when `json.loads` raises nothing but `JSONDecodeError` on the body. -/
theorem frames_decode :
    (∀ (fs : List (Frame F)) (stream : Bytes), (∀ f ∈ fs, (Json.obj f.toPayload).UniqueKeys) →
      encodeFrames P fs = .ok stream →
        (receive P stream = (fs.map Frame.transmitted, .ok ()) ↔ ∀ f ∈ fs, f.Readable P)) ∧
      ∀ s, ReadsAsSaid P s ↔ Quiet P s := by
  constructor
  · intro fs stream hkeys hstream
    exact receive_encodeFrames P hkeys hstream
  · exact readsAsSaid_iff P

end

/-! Frames and bytes of one interpreter. -/

def sampleInterpreter : Interpreter WholeFloat where
  limits := ⟨1000, 4300⟩
  dumpsDepth := 1000
  str
    | .str s => some s
    | _ => none
  str_str _ := rfl
  malformed _ := []
  unserialisable _ := []

def sampleFrames : List (Frame WholeFloat) :=
  [.request ⟨7, py "go", [(py "a", .arr [.null, .int 3])], none⟩,
    .response ⟨7, true, .bool true, [], []⟩]

theorem frames_decode_sample :
    (∃ stream, encodeFrames sampleInterpreter sampleFrames = .ok stream ∧
      (receive sampleInterpreter stream = (sampleFrames.map Frame.transmitted, .ok ()) ↔
        ∀ f ∈ sampleFrames, f.Readable sampleInterpreter)) ∧
      ∀ s, ReadsAsSaid sampleInterpreter s ↔ Quiet sampleInterpreter s := by
  have hstream : (encodeFrames sampleInterpreter sampleFrames).toOption.isSome = true := by
    decide +kernel
  cases h : encodeFrames sampleInterpreter sampleFrames with
  | error e => simp [h, Except.toOption] at hstream
  | ok stream =>
    have hkeys : ∀ f ∈ sampleFrames, (Json.obj f.toPayload).UniqueKeys := by
      have hnodup : ∀ f ∈ sampleFrames, (f.toPayload.map Prod.fst).Nodup := by decide +kernel
      intro f hf
      refine ⟨hnodup f hf, ?_⟩
      fin_cases hf <;>
        simp [Frame.toPayload, Request.toPayload, Response.toPayload, Json.UniqueKeysMembers,
          Json.UniqueKeys, Json.UniqueKeysItems]
    exact ⟨⟨stream, rfl, (frames_decode sampleInterpreter).1 sampleFrames stream hkeys h⟩,
      (frames_decode sampleInterpreter).2⟩

theorem length_natText_pow (k : ℕ) : (natText (10 ^ k)).length = k + 1 := by
  have hle : (Nat.toDigits 10 (10 ^ k)).length ≤ k + 1 := by
    rw [Nat.length_toDigits_le_iff (by omega) (by omega)]
    exact Nat.pow_lt_pow_right (by omega) (by omega)
  have hlt : 0 < k → ¬ (Nat.toDigits 10 (10 ^ k)).length ≤ k := by
    intro hk
    rw [Nat.length_toDigits_le_iff (by omega) hk]
    omega
  have hpos : 0 < (Nat.toDigits 10 (10 ^ k)).length := List.length_pos_iff.mpr Nat.toDigits_ne_nil
  simp only [natText, List.length_map]
  omega

theorem encoded_natText (n : ℕ) : ∃ body : Bytes, body.length = (natText n).length ∧
    PyStr.decodeUtf8 ⟨body.toArray⟩ = some (natText n) := by
  have hencode : PyStr.encodeUtf8 (natText n) = some (Nat.toDigits 10 n).utf8Encode := by
    rw [PyStr.encodeUtf8, natText, PyStr.scalars?_map, Option.map_some, String.toByteArray_ofList]
  have hsize : ∀ cs : List Char, (∀ c ∈ cs, c.isDigit = true) →
      (cs.flatMap String.utf8EncodeChar).length = cs.length := by
    intro cs hcs
    induction cs with
    | nil => rfl
    | cons c cs ih =>
      have hc : c.utf8Size = 1 := by
        have hdigit := hcs c List.mem_cons_self
        simp only [Char.isDigit, Bool.and_eq_true, decide_eq_true_eq] at hdigit
        have hascii : ('9'.val : UInt32) ≤ 0x7F := by decide
        exact Char.utf8Size_eq_one_iff.mpr (UInt32.le_trans hdigit.2 hascii)
      rw [List.flatMap_cons, List.length_append, String.length_utf8EncodeChar, hc,
        ih fun a ha => hcs a (List.mem_cons_of_mem _ ha), List.length_cons, Nat.add_comm]
  refine ⟨(Nat.toDigits 10 n).utf8Encode.data.toList, ?_, ?_⟩
  · rw [natText, List.length_map, ← hsize _ fun c hc => Nat.isDigit_of_mem_toDigits (by omega) (by omega) hc]
    exact List.size_toByteArray
  · simpa using PyStr.decodeUtf8_encodeUtf8 hencode

theorem not_readsAsSaid : ¬ ∀ s, ReadsAsSaid sampleInterpreter s := by
  intro hall
  obtain ⟨body, hlength, htext⟩ := encoded_natText (10 ^ 4300)
  have hlong : body.length = 4301 := hlength.trans (length_natText_pow 4300)
  have hmax : maxFrameBytes = 1048576 := rfl
  have hquiet := (readsAsSaid_iff sampleInterpreter _).mp (hall (lengthPrefix body.length ++ body ++ []))
  have hframe : HasFrame (lengthPrefix body.length ++ body ++ []) body [] :=
    ⟨by omega, by omega, rfl⟩
  apply (hquiet body [] _ hframe htext).2
  apply Json.loads_intTooLong
  rw [length_natText_pow]
  decide

end QronosAgent.Link.Protocol

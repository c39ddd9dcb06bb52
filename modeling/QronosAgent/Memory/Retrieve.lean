import Mathlib.Algebra.Order.Ring.Rat
import QronosAgent.Lib.Fallible
import QronosAgent.Lib.Ranking
import QronosAgent.Memory.Store

/-! `MemoryStore.retrieve` with its scores: the candidates are cut by similarity before the records
are looked at, and those that are left are ranked by their final score. -/
namespace QronosAgent.Memory
open Lib

structure TimedRecord extends Record ℚ where
  updatedAt : ℚ

structure VectorRows where
  rows : List (PyStr × List ℚ)
  model : PyStr
  version : PyStr

inductive RetrieveError where
  | value
  | unavailable
  | reindexRequired
  deriving DecidableEq

/-- `vectors @ row`, for one of the vectors. -/
def similarity (row vector : List ℚ) : ℚ := (List.zipWith (· * ·) vector row).sum

def VectorRows.scores (index : VectorRows) (row : List ℚ) : List (PyStr × ℚ) :=
  index.rows.map fun r => (r.1, similarity row r.2)

/-- `MemoryVectorIndex.search` -/
def VectorRows.search (index : VectorRows) (provider : Provider) (row : List ℚ) (limit : ℤ) :
    Except RetrieveError (List (PyStr × ℚ)) :=
  if index.rows = [] then .ok []
  else if index.model ≠ provider.model ∨ index.version ≠ provider.version then
    .error .reindexRequired
  else if index.rows.any fun r => r.2.length ≠ row.length then .error .reindexRequired
  else .ok ((ranked Prod.snd (index.scores row)).take (max 1 limit).toNat)

structure Query where
  text : PyStr
  scopes : Dict PyStr PyStr
  limit : ℤ
  candidateLimit : ℤ
  minSemanticScore : ℚ
  now : ℚ

structure Retrieved where
  final : ℚ
  id : PyStr
  record : TimedRecord
  semantic : ℚ

structure ScoredStore where
  enabled : Bool
  records : Dict PyStr TimedRecord
  index : VectorRows

section
variable (texts : Texts) (provider : Provider) (embed : PyStr → Option (List ℚ))

/-- `_scope_score` -/
def scopeScore (scopes : Dict PyStr PyStr) (r : TimedRecord) : ℚ :=
  if r.scopeType = py "global" then 1
  else
    let requestedKey := PyStr.strip ((scopes.get? r.scopeType).getD [])
    if requestedKey = [] then 0
    else if texts.casefold requestedKey = texts.casefold r.scopeKey then 1 else 0

/-- `_evidence_score` -/
def evidenceScore (value : PyStr) : ℚ :=
  if value = py "explicit" then 1
  else if value = py "repeated" then 8 / 10
  else if value = py "inferred" then 5 / 10
  else 0

def finalScore (q : Query) (r : TimedRecord) (semantic : ℚ) : ℚ :=
  let ageDays := max 0 ((q.now - r.updatedAt) / 86400)
  let recency := 1 / (1 + ageDays / 180)
  55 / 100 * max 0 (min 1 ((semantic + 1) / 2)) + 20 / 100 * scopeScore texts q.scopes r +
    10 / 100 * r.confidence + 10 / 100 * evidenceScore r.evidenceType + 5 / 100 * recency

/-- One round of the loop: what it appends to `ranked`. -/
def ScoredStore.judge (s : ScoredStore) (q : Query) (candidate : PyStr × ℚ) : Option Retrieved :=
  if candidate.2 < q.minSemanticScore then none
  else match s.records.get? candidate.1 with
    | none => none
    | some r =>
      if r.status ≠ .active then none
      else if r.scopeType ≠ py "global" ∧ scopeScore texts q.scopes r ≤ 0 then none
      else some ⟨finalScore texts q r candidate.2, candidate.1, r, candidate.2⟩

/-- `ranked.sort(…)` and `ranked[: max(0, int(limit))]` -/
def best (limit : ℤ) (results : List Retrieved) : List Retrieved :=
  (ranked Retrieved.final results).take (max 0 limit).toNat

/-- `MemoryStore.retrieve` -/
def ScoredStore.retrieve (s : ScoredStore) (q : Query) : Except RetrieveError (List Retrieved) :=
  if !s.enabled then .ok []
  else match cleanRequired 12000 q.text with
    | .error _ => .error .value
    | .ok text =>
      match embed text with
      | none => .error .unavailable
      | some row =>
        match s.index.search provider row (max q.limit q.candidateLimit) with
        | .error e => .error e
        | .ok candidates =>
          if q.minSemanticScore < -1 ∨ 1 < q.minSemanticScore then .error .value
          else .ok (best q.limit (candidates.filterMap (s.judge texts q)))

def ScoredStore.returnable (s : ScoredStore) (q : Query) (row : List ℚ) : List Retrieved :=
  (s.index.scores row).filterMap (s.judge texts q)

def ScoredStore.near (s : ScoredStore) (q : Query) (row : List ℚ) (semantic : ℚ) : Bool :=
  ((s.index.scores row).filter fun c => semantic < c.2).length <
    (max 1 (max q.limit q.candidateLimit)).toNat

structure ScoredStore.Distinct (s : ScoredStore) (q : Query) (row : List ℚ) : Prop where
  semantic : ((s.index.scores row).map Prod.snd).Nodup
  final : ((s.returnable texts q row).map Retrieved.final).Nodup

/-- Each of the best returnable records is among the candidates. -/
def ScoredStore.Covered (s : ScoredStore) (q : Query) (row : List ℚ) : Prop :=
  ∀ r ∈ best q.limit (s.returnable texts q row), s.near q row r.semantic = true

end

variable {texts : Texts} {provider : Provider} {embed : PyStr → Option (List ℚ)} {s : ScoredStore}
variable {q : Query} {row : List ℚ} {results : List Retrieved}

theorem judge_semantic {c : PyStr × ℚ} {r : Retrieved} (h : s.judge texts q c = some r) :
    r.semantic = c.2 := by
  unfold ScoredStore.judge at h
  split at h
  · contradiction
  · split at h
    · contradiction
    · split_ifs at h
      cases h
      rfl

theorem search_ok {candidates : List (PyStr × ℚ)} {limit : ℤ}
    (h : s.index.search provider row limit = .ok candidates) :
    candidates = (ranked Prod.snd (s.index.scores row)).take (max 1 limit).toNat := by
  unfold VectorRows.search at h
  split_ifs at h with hempty
  · cases h
    rw [VectorRows.scores, hempty]
    exact List.take_nil.symm
  · exact (Except.ok.inj h).symm

/-- Cutting the candidates is cutting what becomes of them. -/
theorem filter_judged (p : ℚ → Bool) (l : List (PyStr × ℚ)) :
    (l.filter fun c => p c.2).filterMap (s.judge texts q) =
      (l.filterMap (s.judge texts q)).filter fun r => p r.semantic := by
  rw [List.filterMap_filter, List.filter_filterMap]
  apply List.filterMap_congr
  intro c _
  cases hj : s.judge texts q c with
  | none => simp
  | some r => simp [Option.filter, judge_semantic hj]

theorem retrieve_near (henabled : s.enabled = true) {text : PyStr}
    (htext : cleanRequired 12000 q.text = .ok text) (hembed : embed text = some row)
    (hd : s.Distinct texts q row) (h : s.retrieve texts provider embed q = .ok results) :
    results = best q.limit ((s.returnable texts q row).filter fun r => s.near q row r.semantic) := by
  unfold ScoredStore.retrieve at h
  rw [henabled, htext] at h
  simp only [Bool.not_true, Bool.false_eq_true, if_false, hembed] at h
  split at h
  · contradiction
  · rename_i candidates hsearch
    split at h
    · contradiction
    · rw [← Except.ok.inj h, search_ok hsearch, take_ranked hd.semantic, best, best]
      congr 1
      apply ranked_congr
      · exact hd.final.sublist (List.filter_sublist.map _)
      · rw [ScoredStore.returnable, ← filter_judged]
        exact (ranked_perm.filter _).filterMap _

theorem retrieve_eq_iff (henabled : s.enabled = true) {text : PyStr}
    (htext : cleanRequired 12000 q.text = .ok text) (hembed : embed text = some row)
    (hd : s.Distinct texts q row) (h : s.retrieve texts provider embed q = .ok results) :
    results = best q.limit (s.returnable texts q row) ↔ s.Covered texts q row := by
  rw [retrieve_near henabled htext hembed hd h, best, best, ranked_filter hd.final,
    take_filter_eq_iff]
  rfl

/-- What `retrieve` returns is the best of the returnable records among the candidates, and of all
the returnable records exactly if the best are candidates; as long as that is so, memories that
cannot be returned do not change it. -/
theorem retrieve_best (henabled : s.enabled = true) {text : PyStr}
    (htext : cleanRequired 12000 q.text = .ok text) (hembed : embed text = some row)
    (hd : s.Distinct texts q row) (h : s.retrieve texts provider embed q = .ok results) :
    results = best q.limit ((s.returnable texts q row).filter fun r => s.near q row r.semantic) ∧
    (results = best q.limit (s.returnable texts q row) ↔ s.Covered texts q row) ∧
    ∀ (s' : ScoredStore) results', s'.enabled = true → s'.Distinct texts q row →
      s'.retrieve texts provider embed q = .ok results' →
      (∀ r, r ∈ s'.returnable texts q row ↔ r ∈ s.returnable texts q row) →
      s.Covered texts q row → s'.Covered texts q row → results' = results := by
  refine ⟨retrieve_near henabled htext hembed hd h, retrieve_eq_iff henabled htext hembed hd h, ?_⟩
  intro s' results' henabled' hd' h' hsame hcovered hcovered'
  rw [(retrieve_eq_iff henabled htext hembed hd h).mpr hcovered,
    (retrieve_eq_iff henabled' htext hembed hd' h').mpr hcovered', best, best]
  congr 1
  apply ranked_congr hd.final
  rw [List.perm_ext_iff_of_nodup]
  · exact hsame
  · exact hd'.final.of_map
  · exact hd.final.of_map

/-! A memory that is superseded and still indexed, more similar to the query than an active one, when
there is place for one candidate. -/

def recalledTexts : Texts := ⟨id, id⟩

def sampleRecord (status : Status) : TimedRecord where
  value := []
  category := []
  scopeType := py "global"
  scopeKey := []
  confidence := 1
  evidenceType := []
  sensitivity := []
  sourceKind := []
  status := status
  supersedesId := []
  updatedAt := 0

def sampleQuery (candidateLimit : ℤ) : Query := ⟨py "q", Dict.empty, 1, candidateLimit, -1, 0⟩

def sampleScored : ScoredStore where
  enabled := true
  records := (Dict.empty.set (py "a") (sampleRecord .superseded)).set (py "b") (sampleRecord .active)
  index := ⟨[(py "a", [1]), (py "b", [0])], [], []⟩

theorem retrieve_best_sample :
    [⟨5 / 8, py "b", sampleRecord .active, 0⟩] =
      best 1 (sampleScored.returnable recalledTexts (sampleQuery 2) [1]) := by
  have hretrieve : sampleScored.retrieve recalledTexts ⟨[], []⟩ (fun _ => some [1]) (sampleQuery 2) =
      .ok [⟨5 / 8, py "b", sampleRecord .active, 0⟩] := by
    with_unfolding_all rfl
  have hdistinct : sampleScored.Distinct recalledTexts (sampleQuery 2) [1] :=
    ⟨by decide +kernel, by decide +kernel⟩
  have htext : cleanRequired 12000 (sampleQuery 2).text = .ok (py "q") := by
    with_unfolding_all rfl
  apply (retrieve_best rfl htext rfl hdistinct hretrieve).2.1.mpr
  unfold ScoredStore.Covered
  decide +kernel

/-- The active memory is not found, and it is when the superseded one is not indexed. -/
theorem crowded_out :
    (best 1 (sampleScored.returnable recalledTexts (sampleQuery 1) [1])).map Retrieved.id =
      [py "b"] ∧
    (sampleScored.retrieve recalledTexts ⟨[], []⟩ (fun _ => some [1]) (sampleQuery 1)).toOption.map
      (List.map Retrieved.id) = some [] ∧
    ({ sampleScored with index := ⟨[(py "b", [0])], [], []⟩ }.retrieve recalledTexts ⟨[], []⟩
      (fun _ => some [1]) (sampleQuery 1)).toOption.map (List.map Retrieved.id) = some [py "b"] := by
  decide +kernel

end QronosAgent.Memory

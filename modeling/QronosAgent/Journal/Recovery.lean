import QronosAgent.Journal.Durable

/-! Restart recovery: what a journal saved is what the next one reads, with the running
requests interrupted and the answered ones done, and reading it again changes nothing more. -/
namespace QronosAgent.Journal
open Lib

variable {F : Type}

/-- A record as the journal holds it: one that reads back, and that keeps nothing of its
request once it finished. -/
structure Clean (r : QueueRecord F) : Prop where
  wellFormed : r.WellFormed
  kept : Session.keptRequest r = false

variable {r : QueueRecord F} {records : List (QueueRecord F)} {answered : PyStr → Bool}

theorem clean_finish (h : r.WellFormed) {state : RecordState} (hs : state.finished = true)
    (detail : PyStr) (now : F) : Clean (r.finish state detail now) where
  wellFormed := ⟨h.taskId, h.requestId, h.route, h.weight, by simp [QueueRecord.finish],
    by simp [QueueRecord.finish, QueueRecord.keepsRequest, hs]⟩
  kept := by simp [QueueRecord.finish, Session.keptRequest]

theorem clean_move {q : QueueRecord F} (h : r.WellFormed) (hr : r.state.finished = false)
    (hq : q.state.finished = false) (hids : q.taskId = r.taskId ∧ q.requestId = r.requestId ∧
      q.route = r.route ∧ q.weight = r.weight)
    (hreq : q.text = r.text ∧ q.summary = r.summary ∧ q.context = r.context) : Clean q where
  wellFormed := by
    obtain ⟨h1, h2, h3, h4⟩ := hids
    obtain ⟨h5, h6, h7⟩ := hreq
    have hkeeps := h.request
    simp only [QueueRecord.keepsRequest, hr, Bool.false_or] at hkeeps
    exact ⟨h1 ▸ h.taskId, h2 ▸ h.requestId, h3 ▸ h.route, h4 ▸ h.weight, h7 ▸ h.roles,
      by simp only [QueueRecord.keepsRequest, hq, h5, h6, Bool.false_or, hkeeps]⟩
  kept := by simp [Session.keptRequest, hq]

theorem clean_recover (h : r.WellFormed) (answered : PyStr → Bool) (now : F) :
    Clean (Session.recover answered now r) := by
  have hscrub : Clean (Session.scrub r) := by
    unfold Session.scrub
    split
    · rename_i hk
      have hf : r.state.finished = true := by
        simp only [Session.keptRequest, Bool.and_eq_true] at hk
        exact hk.1
      exact clean_finish h hf _ _
    · rename_i hk
      exact ⟨h, by simpa using hk⟩
  unfold Session.recover Session.settle
  split
  · exact clean_finish hscrub.wellFormed rfl _ _
  · split
    · rename_i hrun
      exact clean_move hscrub.wellFormed (by rw [hrun]; rfl) rfl ⟨rfl, rfl, rfl, rfl⟩
        ⟨rfl, rfl, rfl⟩
    · exact hscrub

/-- The requests `open` reports as interrupted, and those it found answered. -/
def reported (answered : PyStr → Bool) (now : F) (records : List (QueueRecord F))
    (paused : Bool) : Recovered F where
  records := records.map (Session.recover answered now)
  paused
  interrupted := (records.filter (Session.isInterrupted answered)).map QueueRecord.taskId
  answered := (records.filter (Session.isAnswered answered)).map QueueRecord.taskId

section
variable [PyFloat F] {plat : Platform}

end

theorem storable_toPayload {digits : ℕ} {r : QueueRecord F}
    (h : r.toPayload.intsFit digits = true) (depth : ℕ) :
    r.toPayload.Storable digits (depth + 3) := by
  have hkeys : (r.members.map Prod.fst).Nodup := by
    change [py "taskId", py "requestId", py "summary", py "route", py "weight",
      py "requiredVramMb", py "state", py "submittedAt", py "updatedAt", py "attempts",
      py "detail", py "text", py "context"].Nodup
    decide
  have hitems : Json.StorableItems digits (depth + 1)
      (r.context.map (QueueRecord.contextItem (F := F))) := by
    rw [Json.storableItems_iff, List.forall_mem_map]
    intro item _
    exact ⟨by simp only [List.map_cons, List.map_nil]; decide, trivial, trivial, trivial⟩
  simp only [QueueRecord.toPayload, QueueRecord.members, Json.intsFit, Json.intsFitMembers,
    Bool.true_and, Bool.and_eq_true, decide_eq_true_eq] at h
  exact ⟨hkeys, trivial, trivial, trivial, trivial, trivial, h.1, trivial, trivial, trivial,
    h.2.1, trivial, trivial, hitems, trivial⟩

section
variable [PyFloat F] {plat : Platform} {j : QueueJournal F}

theorem storable_document (h : ((queueStore F).document j.payload).intsFit
    plat.limits.intDigits = true) :
    ((queueStore F).document j.payload).Storable plat.limits.intDigits plat.limits.depth := by
  obtain ⟨depth, hdepth⟩ := Nat.exists_eq_add_of_le' plat.deep
  simp only [JsonStore.document, QueueJournal.payload, Json.intsFit, Json.intsFitMembers,
    Bool.true_and, Bool.and_true, Bool.and_eq_true, decide_eq_true_eq] at h
  have hitems : Json.StorableItems plat.limits.intDigits (depth + 3)
      (j.sortedRecords.map QueueRecord.toPayload) := by
    rw [Json.storableItems_iff, List.forall_mem_map]
    intro r hr
    have hfit : ∀ xs : List (Json F), Json.intsFitItems plat.limits.intDigits xs = true →
        ∀ x ∈ xs, x.intsFit plat.limits.intDigits = true := by
      intro xs
      induction xs with
      | nil => simp
      | cons x xs ih =>
        simp only [Json.intsFitItems, Bool.and_eq_true, List.forall_mem_cons]
        exact fun hx => ⟨hx.1, ih hx.2⟩
    exact storable_toPayload (hfit _ h.2 _ (List.mem_map.mpr ⟨r, hr, rfl⟩)) depth
  rw [hdepth]
  exact ⟨by simp only [List.map_cons, List.map_nil]; decide, h.1,
    ⟨by simp only [QueueJournal.payload, List.map_cons, List.map_nil]; decide, trivial, hitems,
      trivial⟩, trivial⟩

theorem mapM_toPayload {rs : List (QueueRecord F)} (h : ∀ r ∈ rs, r.WellFormed) :
    (rs.map QueueRecord.toPayload).mapM QueueRecord.fromPayload = .ok rs := by
  induction rs with
  | nil => rfl
  | cons r rs ih =>
    rw [List.map_cons, List.mapM_cons, QueueRecord.fromPayload_toPayload (h r (by simp)),
      ih fun q hq => h q (by simp [hq])]
    rfl

theorem parse_payload (h : j.AllRecords Clean) :
    Session.parse j.payload = .ok (j.sortedRecords, j.paused) := by
  have hmem : ∀ r ∈ j.sortedRecords, r.WellFormed := by
    intro r hr
    obtain ⟨k, hk⟩ := Dict.mem_values.mp (mem_sortedBy.mp hr)
    exact (h k r hk).2.wellFormed
  have hids : (j.sortedRecords.map QueueRecord.taskId).Nodup := by
    have hkeys : j.records.values.map QueueRecord.taskId = j.records.items.map Prod.fst := by
      rw [Dict.values, List.map_map]
      refine List.map_congr_left fun kv hkv => ?_
      exact (h kv.1 kv.2 (Dict.get?_eq_some.mpr hkv)).1
    rw [QueueJournal.sortedRecords, ((sortedBy_perm _).map _).nodup_iff, hkeys]
    exact j.records.nodup
  have hrecords : Json.member? j.payload (py "records") =
      some (.arr (j.sortedRecords.map QueueRecord.toPayload)) := rfl
  have hpaused : Json.member? j.payload (py "paused") = some (.bool j.paused) := rfl
  unfold Session.parse
  simp only [hrecords, hpaused, Option.getD_some, mapM_toPayload hmem, bind, Except.bind, hids,
    if_true, pure, Except.pure, Except.ok.injEq, Prod.mk.injEq, and_true]
  exact sortedBy_idem PyFloat.lt_asymm _

theorem load_saved {bytes : ByteArray}
    (hb : (queueStore F).encode plat j.payload = .ok bytes) :
    (queueStore F).load plat false (some bytes) = .ok (some ⟨1, j.payload, false⟩) :=
  JsonStore.load_encode hb (storable_document (JsonStore.encode_ok.mp ⟨bytes, hb⟩).1)

theorem printable_of_encode {bytes : ByteArray}
    (hb : (queueStore F).encode plat j.payload = .ok bytes) :
    ∀ r ∈ j.sortedRecords, r.Printable plat := by
  obtain ⟨hints, hchars⟩ := JsonStore.encode_ok.mp ⟨bytes, hb⟩
  simp only [JsonStore.document, QueueJournal.payload, Json.intsFit, Json.intsFitMembers,
    Bool.true_and, Bool.and_true, Bool.and_eq_true, intsFitItems_iff] at hints
  simp only [JsonStore.document, QueueJournal.payload, Json.chars, Json.charsMembers,
    PyStr.encodable_append, encodable_charsItems, PyStr.encodable_nil, and_true] at hchars
  intro r hr
  have hx : r.toPayload ∈ j.sortedRecords.map QueueRecord.toPayload := List.mem_map.mpr ⟨r, hr, rfl⟩
  exact QueueRecord.printable_iff.mpr ⟨hchars.2.2.2.2 _ hx, hints.2 _ hx⟩

/-- A fresh journal over the file that another one saved: it returns the recovered records,
and saves them when one changed. -/
theorem reopen {bytes : ByteArray} (hj : j.AllRecords Clean)
    (hb : (queueStore F).encode plat j.payload = .ok bytes) {t : Session F}
    (ht : Unopened t.journal) (hfile : t.file = some bytes) (fault : SaveFault)
    (answered : PyStr → Bool) (now : F) :
    let opened := t.openQueue plat false fault answered now
    let next := recoveredJournal { t.journal with opened := true } answered now j.sortedRecords
      j.paused
    opened.1 = .ok (reported answered now j.sortedRecords j.paused) ∧
      opened.2.journal.isProtected = false ∧
      (∃ status, opened.2.journal = { next with status }) ∧
      next.sortedRecords = j.sortedRecords.map (Session.recover answered now) ∧
      next.AllRecords Clean ∧
      (¬NeedsRewrite answered j.sortedRecords ∧ opened.2.file = t.file ∨
        NeedsRewrite answered j.sortedRecords ∧
          (opened.2.journal.status.durable = false ∧ opened.2.file = t.file ∨
            ∃ saved, (queueStore F).encode plat next.payload = .ok saved ∧
              opened.2.file = some saved)) := by
  intro opened next
  have hparse := parse_payload hj
  have hload : (queueStore F).load plat false t.file = .ok (some ⟨1, j.payload, false⟩) := by
    rw [hfile]
    exact load_saved hb
  have hopen : opened = Session.accept plat fault answered now j.sortedRecords j.paused false
      ⟨{ t.journal with opened := true }, t.file⟩ := by
    rcases openQueue_valid ht (.inr ⟨_, hload, _, hparse⟩) fault answered now with
      ⟨hnone, -⟩ | ⟨d, records, paused, hd, hp, h⟩
    · cases hnone.symm.trans hfile
    · rw [hload, Except.ok.injEq, Option.some.injEq] at hd
      rw [← hd, hparse, Except.ok.injEq, Prod.mk.injEq] at hp
      rw [← hp.1, ← hp.2] at h
      exact h
  have hsorted : next.sortedRecords = j.sortedRecords.map (Session.recover answered now) :=
    recoveredJournal_sorted answered now ht.records hparse
  have hrecord : ∀ k r, next.records.get? k = some r → r.taskId = k ∧
      ∃ q ∈ j.sortedRecords, Session.recover answered now q = r := by
    intro k r hr
    rcases foldl_set_get? hr with ⟨hm, hk⟩ | hk
    · exact ⟨hk, List.mem_map.mp hm⟩
    · simp [ht.records] at hk
  have hclean : next.AllRecords Clean := by
    intro k r hr
    obtain ⟨hk, q, hq, rfl⟩ := hrecord k r hr
    obtain ⟨l, hl⟩ := Dict.mem_values.mp (mem_sortedBy.mp hq)
    exact ⟨hk, clean_recover (hj l q hl).2.wellFormed answered now⟩
  have hprint : next.AllRecords (QueueRecord.Printable plat) := by
    intro k r hr
    obtain ⟨hk, q, hq, rfl⟩ := hrecord k r hr
    exact ⟨hk, printable_recover (printable_of_encode hb q hq) answered now⟩
  rcases accept_spec plat fault answered now j.sortedRecords j.paused
      ⟨{ t.journal with opened := true }, t.file⟩ with ⟨hneeds, ha⟩ | ⟨hneeds, ha⟩
  · rw [hopen, ha]
    unfold Session.saveAndReturn
    rcases Session.save_cases plat fault (s := ⟨next, t.file⟩) ht.persistent rfl with ⟨saved, hs, h⟩ | ⟨name, file, h, hold | ⟨saved, hs, hnew⟩⟩ | ⟨e, he, -⟩
    · rw [h]
      exact ⟨congrArg Except.ok (by rw [reported, ← hsorted]), rfl, ⟨.saved, rfl⟩, hsorted, hclean,
        .inr ⟨hneeds, .inr ⟨saved, hs, rfl⟩⟩⟩
    · rw [h]
      exact ⟨congrArg Except.ok (by rw [reported, ← hsorted]), rfl, ⟨_, rfl⟩, hsorted, hclean,
        .inr ⟨hneeds, .inl ⟨rfl, hold⟩⟩⟩
    · rw [h]
      exact ⟨congrArg Except.ok (by rw [reported, ← hsorted]), rfl, ⟨_, rfl⟩, hsorted, hclean,
        .inr ⟨hneeds, .inr ⟨saved, hs, hnew⟩⟩⟩
    · obtain ⟨saved, hs⟩ := encode_of_printable hprint
      rw [hs] at he
      cases he
  · rw [hopen, ha]
    exact ⟨congrArg Except.ok (by rw [reported, ← hsorted]), rfl, ⟨_, rfl⟩, hsorted, hclean,
      .inl ⟨hneeds, rfl⟩⟩

end

end QronosAgent.Journal

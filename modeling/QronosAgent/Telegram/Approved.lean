import QronosAgent.Telegram.Steps

/-! A download is the approved one, is started once, and is recognised, as long as no attachment's
own name looks numbered and no file that was seen is missing from a poll before it is reported. -/
namespace QronosAgent.Telegram
open Lib
open Journal (Platform)
open Workflow (SideEffectState Failure Builtins Sys Step workflowMachine)

section
variable (texts : Texts)

structure Approved (d : Download) : Prop where
  approval : d.approval.requireFor d.prepared = true
  title : ∃ t, d.readings.title = some t ∧ nameKey texts t = nameKey texts d.prepared.contact
  document : ∃ m, d.readings.document = some m ∧ m.incoming = true ∧ m.kind = py "document" ∧
    m.elementId = d.prepared.message.elementId ∧ m.fileName = d.prepared.message.fileName ∧
      m.sizeText = d.prepared.message.sizeText
  window : ∃ c, d.readings.checkpoint = some c ∧ c.sameWindow = true ∧ c.approvalValid = true ∧
    c.cancelled = false
  directory : d.readings.directory = some true

def IsFormOf (name expected : PyStr) : Prop :=
  ∃ stem rest, (splitext name).1 = stem ++ rest ∧ (rest = [] ∨ isNumber rest = true) ∧
    texts.casefold stem = texts.casefold (splitext expected).1 ∧
      texts.casefold (splitext name).2 = texts.casefold (splitext expected).2

structure Found (d : Download) (name : PyStr) (size : ℕ) : Prop where
  absent : name ∉ d.before.files.keys
  form : IsFormOf texts name d.prepared.message.fileName
  positive : 0 < size
  fits : ∃ bounds, approximateSize texts d.prepared.message.sizeText = some bounds ∧
    fits bounds size = true
  polls : ∃ earlier l l', d.polls = earlier ++ [l, l'] ∧ d.new texts l = [(name, size)] ∧
    d.new texts l' = [(name, size)]

structure Shows (d : Download) (name : PyStr) (size : ℕ) (l : Listing) : Prop where
  listed : l.files.get? name = some size
  absent : name ∉ d.before.files.keys
  only : ∀ other ∈ l.files.keys, other ∉ d.before.files.keys → other = name

def follow (d : Download) : List Reading → Option Download
  | [] => some d
  | r :: rs => (d.look texts r).bind fun d' => follow d' rs

def Reports (d : Download) (rs : List Reading) (name : PyStr) (size : ℕ) : Prop :=
  ∃ d', follow texts d rs = some d' ∧ (d'.told (.ok none)).point = .reported (.succeeded name size)

/-- A complete file of the attachment's name, or of its numbered form, is recognised at this poll or
at the next. -/
def Recognises (d : Download) : Prop :=
  ∀ name size, (name = d.prepared.message.fileName ∨
      ∃ number, isNumber number = true ∧ name = numbered d.prepared.message.fileName number) →
    0 < size → (∃ bounds, approximateSize texts d.prepared.message.sizeText = some bounds ∧
      fits bounds size = true) →
    ∀ l l', Shows d name size l → Shows d name size l' →
      Reports texts d [.listing l, .regular true] name size ∨
        Reports texts d [.listing l, .clock false, .slept false, .listing l', .regular true]
          name size

structure AsApproved (F : Type) [PyFloat F] (plat : Platform)
    (operationKey : PyStr → PyStr → PyStr) (s : Sys Download Download) : Prop where
  once : (s.log.map fun n => (n.2.approval.approvalId, n.2.prepared.digest)).Nodup
  approved : ∀ n ∈ s.log, Approved texts n.2
  succeeded : ∀ run ∈ s.runs, ∀ name size, run.stage.point = .reported (.succeeded name size) →
    Found texts run.stage name size ∧ run.stage.readings.regular = some (name, true)
  settled : ∀ run ∈ s.runs, ∀ report, run.stage.point = .reported report →
    ∃ state, s.world.state F plat
      (operationKey run.stage.approval.approvalId run.stage.prepared.digest) = some state ∧
        (state = .confirmed ∨ state = .uncertain ∨ state = .acknowledged) ∧
          ((∃ name size, report = .succeeded name size) → state = .confirmed)
  /-- The attempt is never said not to have happened when the UI was asked to act. -/
  asked : ∀ run ∈ s.runs, run.stage.point = .raised true → ∃ state, s.world.state F plat
    (operationKey run.stage.approval.approvalId run.stage.prepared.digest) = some state ∧
      state ≠ .notSubmitted
  recognised : ∀ run ∈ s.runs, run.stage.point = .polling → Recognises texts run.stage

/-- The condition on a step: the name of an attachment does not look numbered, and a file that is
found with the size it was last seen with was there at the poll before. -/
def Meets {F : Type} (s : Sys Download Download) : Step F Download Reading → Prop
  | .enter _ _ d => ¬ LooksNumbered d.prepared.message.fileName
  | .input i (.listing l) => ∀ run, s.runs[i]? = some run → run.stage.point = .polling →
    ∀ f, run.stage.new texts l = [f] → run.stage.stable = some f →
      ∃ p, run.stage.polls.getLast? = some p ∧ run.stage.new texts p ≠ []
  | _ => True

end

section
variable {texts : Texts} {d d' : Download}

structure Through (texts : Texts) (n : ℕ) (d : Download) : Prop where
  approval : 1 ≤ n → d.approval.requireFor d.prepared = true
  title : 3 ≤ n → ∃ t, d.readings.title = some t ∧
    nameKey texts t = nameKey texts d.prepared.contact
  document : 4 ≤ n → ∃ m, d.readings.document = some m ∧ m.incoming = true ∧
    m.kind = py "document" ∧ m.elementId = d.prepared.message.elementId ∧
      m.fileName = d.prepared.message.fileName ∧ m.sizeText = d.prepared.message.sizeText
  safe : 4 ≤ n → safeFileName texts d.prepared.message.fileName = true
  directory : 5 ≤ n → d.readings.directory = some true

structure Reads (texts : Texts) (d : Download) : Prop where
  through : Through texts d.rank d
  window : d.point = .start → ∃ c, d.readings.checkpoint = some c ∧ c.passes = true

theorem Reads.approved (h : Reads texts d) (hp : d.point = .start) : Approved texts d := by
  have hrank : d.rank = 9 := by rw [Download.rank, hp]
  have hthrough := h.through
  rw [hrank] at hthrough
  obtain ⟨c, hc, hpasses⟩ := h.window hp
  simp only [Checkpoint.passes, Bool.and_eq_true, Bool.not_eq_true'] at hpasses
  refine ⟨hthrough.approval (by omega), hthrough.title (by omega), hthrough.document (by omega), ?_,
    hthrough.directory (by omega)⟩
  exact ⟨c, hc, hpasses.2, hpasses.1.1.2, hpasses.1.1.1⟩

structure SameReadings (d d' : Download) : Prop where
  prepared : d'.prepared = d.prepared
  approval : d'.approval = d.approval
  title : d'.readings.title = d.readings.title
  document : d'.readings.document = d.readings.document
  directory : d'.readings.directory = d.readings.directory

theorem Through.same {n m : ℕ} (h : Through texts n d) (hs : SameReadings d d')
    (hm : m ≤ n ∨ 5 ≤ n) : Through texts m d' where
  approval := by
    intro h1
    rw [hs.prepared, hs.approval]
    exact h.approval (by omega)
  title := by
    intro h3
    rw [hs.prepared, hs.title]
    exact h.title (by omega)
  document := by
    intro h4
    rw [hs.prepared, hs.document]
    exact h.document (by omega)
  safe := by
    intro h4
    rw [hs.prepared]
    exact h.safe (by omega)
  directory := by
    intro h5
    rw [hs.directory]
    exact h.directory (by omega)

/-- Nothing was read yet. -/
theorem Through.zero : Through texts 0 d :=
  ⟨fun h => by omega, fun h => by omega, fun h => by omega, fun h => by omega, fun h => by omega⟩

theorem firstDocument_spec {ms : List MessageView} {m : MessageView}
    (h : firstDocument texts ms = some m) :
    m.incoming = true ∧ m.kind = py "document" ∧ safeFileName texts m.fileName = true := by
  induction ms with
  | nil => cases h
  | cons first rest ih =>
    unfold firstDocument at h
    split at h
    · exact ih h
    · rename_i hkind
      split at h
      · cases h
      · rename_i hsafe
        cases h
        simp only [Bool.or_eq_true, Bool.not_eq_true', decide_eq_true_eq, not_or,
          Bool.not_eq_false, ne_eq, Decidable.not_not] at hkind hsafe
        exact ⟨hkind.1, hkind.2, hsafe.1.1⟩

theorem Reads.keep (h : Reads texts d) (hs : SameReadings d d') (hrank : d'.rank ≤ d.rank ∨ 5 ≤ d.rank)
    (hstart : d'.point ≠ .start) : Reads texts d' :=
  ⟨h.through.same hs hrank, fun hp => absurd hp hstart⟩

theorem rank_of_opened {spent : Bool} {states : List SideEffectState}
    (h : d.phase = .opened spent states) : 5 ≤ d.rank := by
  unfold Download.phase at h
  unfold Download.rank
  cases hp : d.point with
  | raised asked => cases asked <;> simp_all
  | _ => simp_all

variable {r : Reading} {name : PyStr} {size : ℕ} {l : Listing} {f : PyStr × ℕ}

theorem Reads.turn (h : Reads texts d) (ht : Turn texts d r d') :
    Reads texts d' := by
  have hthrough := h.through
  cases ht with
  | entry granted token hp happroved htoken =>
    refine ⟨⟨fun _ => happroved, ?_, ?_, ?_, ?_⟩, by rintro ⟨⟩⟩
    all_goals
      intro hlow
      simp [Download.goTo, Download.rank] at hlow
  | reverify c hp hc =>
    have hrank : d.rank = 1 := rank_of_point hp
    have hcheck : (d.check c .title (.raised false)).point = .title := if_pos hc
    have hnew : (d.check c .title (.raised false)).rank = 2 := rank_of_point hcheck
    refine ⟨?_, fun hstart => by rw [hcheck] at hstart; cases hstart⟩
    rw [hnew]
    rw [hrank] at hthrough
    refine ⟨fun _ => hthrough.approval (by omega), ?_, ?_, ?_, ?_⟩ <;> intro hlow <;> omega
  | title t hp hkey =>
    have hrank : d.rank = 2 := rank_of_point hp
    rw [hrank] at hthrough
    refine ⟨⟨fun _ => hthrough.approval (by omega), fun _ => ⟨t, rfl, hkey⟩, ?_, ?_, ?_⟩,
      by rintro ⟨⟩⟩
    all_goals
      intro hlow
      simp [Download.rank] at hlow
  | messages ms m hp hm hsame =>
    have hrank : d.rank = 3 := rank_of_point hp
    rw [hrank] at hthrough
    obtain ⟨hincoming, hkind, hsafe⟩ := firstDocument_spec hm
    simp only [sameMessage, Bool.and_eq_true, decide_eq_true_eq] at hsame
    refine ⟨⟨fun _ => hthrough.approval (by omega), fun _ => hthrough.title (by omega), fun _ => ?_,
      fun _ => hsame.1.2 ▸ hsafe, ?_⟩, by rintro ⟨⟩⟩
    · exact ⟨m, rfl, hincoming, hkind, hsame.1.1, hsame.1.2, hsame.2⟩
    · intro hlow
      simp [Download.rank] at hlow
  | directory hp =>
    have hrank : d.rank = 4 := rank_of_point hp
    rw [hrank] at hthrough
    exact ⟨⟨fun _ => hthrough.approval (by omega), fun _ => hthrough.title (by omega),
      fun _ => hthrough.document (by omega), fun _ => hthrough.safe (by omega), fun _ => rfl⟩,
      by rintro ⟨⟩⟩
  | before l hp =>
    have hrank : d.rank = 5 := rank_of_point hp
    refine h.keep ⟨?_, ?_, ?_, ?_, ?_⟩ (.inr (by omega)) ?_ <;> try rfl
    intro hstart
    cases hstart
  | ready c hp hc =>
    have hrank : d.rank = 6 := rank_of_point hp
    have hcheck : (d.check c .begin (.raised false)).point = .begin := if_pos hc
    refine h.keep ⟨?_, ?_, ?_, ?_, ?_⟩ (.inr (by omega)) ?_ <;> try rfl
    rw [hcheck]
    intro hstart
    cases hstart
  | guard c hp hc =>
    have hrank : d.rank = 8 := rank_of_point hp
    exact ⟨hthrough.same ⟨rfl, rfl, rfl, rfl, rfl⟩ (.inr (by omega)), fun _ => ⟨c, rfl, hc⟩⟩
  | stops r readings hphase => exact ⟨Through.zero, by rintro ⟨⟩⟩
  | stopped c hp hc =>
    have hrank : d.rank = 8 := rank_of_point hp
    have hcheck : (d.check c .start (.refused c.detail)).point = .refused c.detail :=
      if_neg (by simp [hc])
    refine h.keep ⟨?_, ?_, ?_, ?_, ?_⟩ (.inr (by omega)) ?_ <;> try rfl
    rw [hcheck]
    intro hstart
    cases hstart
  | unclear name hp =>
    have hrank : d.rank = 8 := rank_of_point hp
    refine h.keep ⟨?_, ?_, ?_, ?_, ?_⟩ (.inr (by omega)) ?_ <;> try rfl
    intro hstart
    cases hstart
  | deadline _ hp | nothing _ hp | again _ _ hp | seen _ _ hp | late hp | slept hp
  | regular _ _ hp =>
    have hrank : d.rank = 10 := rank_of_point hp
    refine h.keep ⟨?_, ?_, ?_, ?_, ?_⟩ (.inr (by omega)) ?_ <;> try rfl
    intro hstart
    cases hstart
  | concludes _ _ _ _ hphase | rescue name hphase =>
    refine h.keep ⟨?_, ?_, ?_, ?_, ?_⟩ (.inr (rank_of_opened hphase)) ?_ <;> try rfl
    intro hstart
    cases hstart

theorem Reads.begins (h : Reads texts d) (hp : d.point = .start) (o : Started) :
    Reads texts (d.begins texts o).1 := by
  have hrank : d.rank = 9 := rank_of_point hp
  cases o with
  | returns =>
    refine h.keep ⟨?_, ?_, ?_, ?_, ?_⟩ (.inr (by omega)) ?_ <;> try rfl
    show (if _ then Point.deadline else Point.rescue _) ≠ Point.start
    split <;> simp
  | notStarted | raises =>
    refine h.keep ⟨?_, ?_, ?_, ?_, ?_⟩ (.inr (by omega)) ?_ <;> try rfl
    intro hstart
    cases hstart

theorem Reads.told (h : Reads texts d) (r : Except Failure (Option SideEffectState)) :
    Reads texts (d.told r) := by
  have hkeep : ∀ p : Point, (d.goTo p).rank ≤ d.rank ∨ 5 ≤ d.rank → p ≠ .start →
      Reads texts (d.goTo p) := by
    intro p hrank hstart
    refine h.keep ⟨?_, ?_, ?_, ?_, ?_⟩ hrank hstart <;> rfl
  have ht := told_cases (d := d) r
  generalize d.told r = d' at ht ⊢
  cases ht with
  | same => exact h
  | begun hp =>
    have hrank : d.rank = 7 := rank_of_point hp
    exact hkeep _ (.inr (by omega)) (by simp)
  | reported detail report hp =>
    have hrank : d.rank = 10 := rank_of_point hp
    exact hkeep _ (.inr (by omega)) (by simp)
  | ends p hends hrank =>
    have hstart : p ≠ .start := by
      rintro rfl
      cases hends
    rcases hrank with hrank | rfl
    · exact hkeep _ (.inr (by omega)) hstart
    · exact hkeep _ (.inl (Nat.zero_le _)) hstart

def Download.watching (d : Download) : Bool :=
  match d.point with
  | .deadline | .polling | .late | .sleeping | .regular .. => true
  | _ => false

/-- Nothing was polled yet. -/
def Download.early (d : Download) : Bool :=
  match d.point with
  | .entry | .reverify | .title | .messages | .directory | .before | .ready | .begin | .guard
  | .start | .refused _ => true
  | _ => false

structure Watches (texts : Texts) (d : Download) : Prop where
  early : d.early = true → d.stable = none
  stable : d.watching = true → ∀ f, d.stable = some f → ∃ earlier l later, d.polls = earlier ++ l :: later ∧
    d.new texts l = [f] ∧ ∀ l' ∈ later, d.new texts l' = []
  sized : d.watching = true → (approximateSize texts d.prepared.message.sizeText).isSome = true
  found : ∀ name size, d.point = .regular name size → Found texts d name size
  concluded : ∀ detail name size, d.point = .concluding detail (.succeeded name size) →
    Found texts d name size ∧ d.readings.regular = some (name, true)
  reported : ∀ name size, d.point = .reported (.succeeded name size) →
    Found texts d name size ∧ d.readings.regular = some (name, true)

structure SamePolls (d d' : Download) : Prop where
  prepared : d'.prepared = d.prepared
  before : d'.before = d.before
  stable : d'.stable = d.stable
  polls : d'.polls = d.polls

theorem SamePolls.new (h : SamePolls d d') (l : Listing) : d'.new texts l = d.new texts l := by
  unfold Download.new
  rw [h.prepared, h.before]

theorem SamePolls.found (h : SamePolls d d') (hf : Found texts d name size) :
    Found texts d' name size where
  absent := by
    rw [h.before]
    exact hf.absent
  form := by
    rw [h.prepared]
    exact hf.form
  positive := hf.positive
  fits := by
    rw [h.prepared]
    exact hf.fits
  polls := by
    obtain ⟨earlier, l, l', hpolls, hl, hl'⟩ := hf.polls
    refine ⟨earlier, l, l', h.polls.trans hpolls, ?_, ?_⟩
    · rw [h.new, hl]
    · rw [h.new, hl']

theorem Watches.stable_same (h : Watches texts d) (hs : SamePolls d d')
    (hwatching : d.watching = true) : ∀ f, d'.stable = some f →
      ∃ earlier l later, d'.polls = earlier ++ l :: later ∧ d'.new texts l = [f] ∧
        ∀ l' ∈ later, d'.new texts l' = [] := by
  intro f hf
  rw [hs.stable] at hf
  obtain ⟨earlier, l, later, hpolls, hl, hlater⟩ := h.stable hwatching f hf
  refine ⟨earlier, l, later, hs.polls.trans hpolls, ?_, fun l' hl' => ?_⟩
  · rw [hs.new, hl]
  · rw [hs.new, hlater l' hl']

theorem Watches.keep (h : Watches texts d) (hs : SamePolls d d')
    (hearly : d'.early = true → d.early = true)
    (hwatching : d'.watching = true → d.watching = true)
    (hregular : ∀ name size, d'.point ≠ .regular name size)
    (hconcluding : ∀ detail name size, d'.point ≠ .concluding detail (.succeeded name size))
    (hreported : ∀ name size, d'.point ≠ .reported (.succeeded name size)) : Watches texts d' where
  early := by
    intro hfresh
    rw [hs.stable]
    exact h.early (hearly hfresh)
  stable := fun hd => h.stable_same hs (hwatching hd)
  sized := by
    intro hd
    rw [hs.prepared]
    exact h.sized (hwatching hd)
  found := fun name size hp => absurd hp (hregular name size)
  concluded := fun detail name size hp => absurd hp (hconcluding detail name size)
  reported := fun name size hp => absurd hp (hreported name size)

theorem mem_new (h : f ∈ d.new texts l) :
    f ∈ l.files.items ∧ f.1 ∉ d.before.files.keys ∧
      matchesAttachment texts f.1 d.prepared.message.fileName = true := by
  obtain ⟨hmem, hcond⟩ := List.mem_filter.mp h
  simp only [Bool.and_eq_true, Bool.not_eq_true', List.contains_eq_mem, decide_eq_false_iff_not]
    at hcond
  exact ⟨hmem, hcond.1, hcond.2⟩

theorem duplicateStem_split {s stem : PyStr} (h : duplicateStem s = some stem) :
    ∃ rest, s = stem ++ rest ∧ endsName rest = true := by
  induction s generalizing stem with
  | nil =>
    cases h
    exact ⟨[], rfl, rfl⟩
  | cons c cs ih =>
    unfold duplicateStem at h
    split at h
    · rename_i hends
      cases h
      exact ⟨c :: cs, rfl, hends⟩
    · split at h
      · cases h
      · obtain ⟨stem', hstem, rfl⟩ := Option.map_eq_some_iff.mp h
        obtain ⟨rest, rfl, hends⟩ := ih hstem
        exact ⟨rest, rfl, hends⟩

theorem isFormOf_of_matches {expected : PyStr} (hlf : lf ∉ name)
    (h : matchesAttachment texts name expected = true) : IsFormOf texts name expected := by
  unfold matchesAttachment at h
  simp only [Bool.and_eq_true, decide_eq_true_eq, Option.any_eq_true] at h
  obtain ⟨hext, stem, hstem, hsame⟩ := h
  obtain ⟨rest, hrest, hends⟩ := duplicateStem_split hstem
  refine ⟨stem, rest, hrest, ?_, hsame, hext⟩
  have hnot : lf ∉ rest := by
    intro hmem
    apply hlf
    rw [← splitext_join name, hrest]
    simp [hmem]
  have hlast : rest.getLast? ≠ some lf := fun hlast => hnot (List.mem_of_getLast? hlast)
  unfold endsName at hends
  simp only [Bool.or_eq_true, Bool.and_eq_true, decide_eq_true_eq] at hends
  rcases hends with ((hnil | hone) | hnumber) | ⟨hlf', -⟩
  · exact .inl hnil
  · rw [hone] at hnot
    exact absurd (List.mem_singleton.mpr rfl) hnot
  · exact .inr hnumber
  · exact absurd hlf' hlast

def PollOk (texts : Texts) (d : Download) (l : Listing) : Prop :=
  ∀ f, d.new texts l = [f] → d.stable = some f →
    ∃ p, d.polls.getLast? = some p ∧ d.new texts p ≠ []

/-- What two polls in a row have seen. -/
theorem Watches.found_again (h : Watches texts d) (hok : PollOk texts d l)
    (hwatching : d.watching = true) (hnew : d.new texts l = [f]) (hstable : d.stable = some f)
    (hpos : 0 < f.2) (hfits : fits (d.sizeBounds texts) f.2 = true) :
    Found texts { d with polls := d.polls ++ [l], point := .regular f.1 f.2 } f.1 f.2 := by
  obtain ⟨hmem, habsent, hmatches⟩ := mem_new (hnew ▸ List.mem_singleton.mpr rfl)
  have hlegal : lf ∉ f.1 := l.legal f.1 (List.mem_map_of_mem hmem)
  refine ⟨habsent, isFormOf_of_matches hlegal hmatches, hpos, ?_, ?_⟩
  · obtain ⟨bounds, hbounds⟩ := Option.isSome_iff_exists.mp (h.sized hwatching)
    unfold Download.sizeBounds at hfits
    rw [hbounds] at hfits
    exact ⟨bounds, hbounds, hfits⟩
  · obtain ⟨p, hlast, hseen⟩ := hok f hnew hstable
    obtain ⟨earlier, l₀, later, hpolls, hl₀, hlater⟩ := h.stable hwatching f hstable
    have hnil : later = [] := by
      by_contra hne
      apply hseen
      apply hlater p
      rw [hpolls, ← List.singleton_append, ← List.append_assoc, List.getLast?_append_of_ne_nil _ hne]
        at hlast
      exact List.mem_of_getLast? hlast
    subst hnil
    refine ⟨earlier, l₀, l, ?_, hl₀, hnew⟩
    simp [hpolls]

theorem Watches.turn (h : Watches texts d) (ht : Turn texts d r d')
    (hok : ∀ l, r = .listing l → d.point = .polling → PollOk texts d l) : Watches texts d' := by
  have hearly : ∀ p : Point, d.point = p → (d.goTo p).early = true → d.early = true := by
    intro p hp hearly
    rw [Download.early, hp]
    exact hearly
  have hwatch : ∀ p : Point, d.point = p → (d.goTo p).watching = true → d.watching = true := by
    intro p hp hwatching
    rw [Download.watching, hp]
    exact hwatching
  cases ht with
  | entry _ _ hp | title _ hp | messages _ _ hp | directory hp =>
    refine h.keep ⟨?_, ?_, ?_, ?_⟩ ?_ ?_ ?_ ?_ ?_ <;> try rfl
    · intro
      exact hearly _ hp rfl
    all_goals simp [Download.watching, Download.goTo]
  | reverify c hp hc =>
    have hcheck : (d.check c .title (.raised false)).point = .title := if_pos hc
    refine h.keep ⟨?_, ?_, ?_, ?_⟩ ?_ ?_ ?_ ?_ ?_ <;> try rfl
    · intro
      exact hearly _ hp rfl
    all_goals simp [Download.watching, hcheck]
  | before l hp =>
    have hnone := h.early (hearly _ hp rfl)
    refine ⟨fun _ => hnone, fun _ f hf => ?_, ?_, ?_, ?_, ?_⟩
    · simp [hnone] at hf
    · intro hwatching
      cases hwatching
    · intro _ _ hpoint
      cases hpoint
    · intro _ _ _ hpoint
      cases hpoint
    · intro _ _ hpoint
      cases hpoint
  | ready c hp hc =>
    have hcheck : (d.check c .begin (.raised false)).point = .begin := if_pos hc
    refine h.keep ⟨?_, ?_, ?_, ?_⟩ ?_ ?_ ?_ ?_ ?_ <;> try rfl
    · intro
      exact hearly _ hp rfl
    all_goals simp [Download.watching, hcheck]
  | guard c hp hc =>
    have hcheck : (d.check c .start (.refused c.detail)).point = .start := if_pos hc
    refine h.keep ⟨?_, ?_, ?_, ?_⟩ ?_ ?_ ?_ ?_ ?_ <;> try rfl
    · intro
      exact hearly _ hp rfl
    all_goals simp [Download.watching, hcheck]
  | stopped c hp hc =>
    have hcheck : (d.check c .start (.refused c.detail)).point = .refused c.detail :=
      if_neg (by simp [hc])
    refine h.keep ⟨?_, ?_, ?_, ?_⟩ ?_ ?_ ?_ ?_ ?_ <;> try rfl
    · intro
      exact hearly _ hp rfl
    all_goals simp [Download.watching, hcheck]
  | stops | unclear | rescue =>
    refine h.keep ⟨?_, ?_, ?_, ?_⟩ ?_ ?_ ?_ ?_ ?_ <;> try rfl
    all_goals simp [Download.watching, Download.early, Download.goTo]
  | deadline _ hp | late hp | slept hp =>
    refine h.keep ⟨?_, ?_, ?_, ?_⟩ ?_ ?_ ?_ ?_ ?_ <;> try rfl
    · simp [Download.early, Download.goTo]
    · intro
      exact hwatch _ hp rfl
    all_goals simp [Download.goTo]
  | nothing l hp hnew =>
    have hsame : ∀ l', Download.new texts { d with polls := d.polls ++ [l], point := .late } l' =
        d.new texts l' := fun _ => rfl
    refine ⟨(by rintro ⟨⟩), fun _ f hf => ?_, fun _ => h.sized (hwatch _ hp rfl), ?_,
      ?_, ?_⟩
    · obtain ⟨earlier, l₀, later, hpolls, hl₀, hlater⟩ := h.stable (hwatch _ hp rfl) f hf
      refine ⟨earlier, l₀, later ++ [l], ?_, hl₀, fun l' hl' => ?_⟩
      · simp [hpolls]
      · rcases List.mem_append.mp hl' with hl' | hl'
        · exact hlater l' hl'
        · rw [List.mem_singleton.mp hl', hsame, hnew]
    · intro _ _ hpoint
      cases hpoint
    · intro _ _ _ hpoint
      cases hpoint
    · intro _ _ hpoint
      cases hpoint
  | again l f hp hnew hstable hpos hfits =>
    have hwatching := hwatch _ hp rfl
    have hfound := h.found_again (hok l rfl hp) hwatching hnew hstable hpos hfits
    refine ⟨(by rintro ⟨⟩), fun _ g hg => ?_, fun _ => h.sized hwatching, ?_, ?_, ?_⟩
    · obtain rfl : f = g := Option.some.inj (hstable.symm.trans hg)
      exact ⟨d.polls, l, [], rfl, hnew, by simp⟩
    · intro name size hpoint
      cases hpoint
      exact hfound
    · intro _ _ _ hpoint
      cases hpoint
    · intro _ _ hpoint
      cases hpoint
  | seen l f hp hnew =>
    refine ⟨(by rintro ⟨⟩), fun _ g hg => ?_, fun _ => h.sized (hwatch _ hp rfl), ?_,
      ?_, ?_⟩
    · cases hg
      exact ⟨d.polls, l, [], rfl, hnew, by simp⟩
    · intro _ _ hpoint
      cases hpoint
    · intro _ _ _ hpoint
      cases hpoint
    · intro _ _ hpoint
      cases hpoint
  | regular name size hp =>
    have hfound := h.found name size hp
    refine ⟨(by rintro ⟨⟩), (by rintro ⟨⟩),
      (by rintro ⟨⟩), ?_, ?_, ?_⟩
    · intro _ _ hpoint
      cases hpoint
    · intro detail name' size' hpoint
      cases hpoint
      refine ⟨?_, rfl⟩
      refine SamePolls.found ⟨?_, ?_, ?_, ?_⟩ hfound <;> rfl
    · intro _ _ hpoint
      cases hpoint
  | concludes r regular polls detail hphase =>
    refine ⟨(by rintro ⟨⟩), (by rintro ⟨⟩),
      (by rintro ⟨⟩), ?_, ?_, ?_⟩
    · intro _ _ hpoint
      cases hpoint
    · intro _ _ _ hpoint
      cases hpoint
    · intro _ _ hpoint
      cases hpoint

theorem Watches.begins (h : Watches texts d) (hp : d.point = .start) (o : Started) :
    Watches texts (d.begins texts o).1 := by
  have hnone : d.stable = none := by
    apply h.early
    rw [Download.early, hp]
  cases o with
  | returns =>
    unfold Download.begins
    simp only
    split
    · rename_i hsized
      refine ⟨fun _ => hnone, fun _ f hf => ?_, fun _ => hsized, ?_, ?_, ?_⟩
      · simp [Download.goTo, hnone] at hf
      · intro _ _ hpoint
        cases hpoint
      · intro _ _ _ hpoint
        cases hpoint
      · intro _ _ hpoint
        cases hpoint
    · refine h.keep ⟨?_, ?_, ?_, ?_⟩ ?_ ?_ ?_ ?_ ?_ <;> try rfl
      all_goals simp [Download.watching, Download.early, Download.goTo]
  | notStarted detail =>
    refine h.keep ⟨?_, ?_, ?_, ?_⟩ ?_ ?_ ?_ ?_ ?_ <;> try rfl
    · intro
      rw [Download.early, hp]
    all_goals simp [Download.begins, Download.watching, Download.goTo]
  | raises name =>
    refine h.keep ⟨?_, ?_, ?_, ?_⟩ ?_ ?_ ?_ ?_ ?_ <;> try rfl
    all_goals simp [Download.begins, Download.watching, Download.early, Download.goTo]

theorem Watches.told (h : Watches texts d) (r : Except Failure (Option SideEffectState)) :
    Watches texts (d.told r) := by
  have ht := told_cases (d := d) r
  generalize d.told r = d' at ht ⊢
  cases ht with
  | same => exact h
  | begun hp =>
    refine h.keep ⟨?_, ?_, ?_, ?_⟩ ?_ ?_ ?_ ?_ ?_ <;> try rfl
    · intro
      rw [Download.early, hp]
    all_goals simp [Download.watching, Download.goTo]
  | reported detail report hp =>
    refine ⟨(by rintro ⟨⟩), (by rintro ⟨⟩),
      (by rintro ⟨⟩), ?_, ?_, ?_⟩
    · intro _ _ hpoint
      cases hpoint
    · intro _ _ _ hpoint
      cases hpoint
    · intro name size hpoint
      cases hpoint
      obtain ⟨hfound, hregular⟩ := h.concluded detail name size hp
      refine ⟨?_, hregular⟩
      refine SamePolls.found ⟨?_, ?_, ?_, ?_⟩ hfound <;> rfl
  | ends p hends hrank =>
    cases p with
    | raised | rescue | look =>
      refine h.keep ⟨?_, ?_, ?_, ?_⟩ ?_ ?_ ?_ ?_ ?_ <;> try rfl
      all_goals simp [Download.watching, Download.early, Download.goTo]
    | reported report =>
      cases report with
      | uncertain =>
        refine h.keep ⟨?_, ?_, ?_, ?_⟩ ?_ ?_ ?_ ?_ ?_ <;> try rfl
        all_goals simp [Download.watching, Download.early, Download.goTo]
      | succeeded => cases hends
    | _ => cases hends

/-- A listing that shows one complete file is one poll that sees it alone. -/
theorem new_of_shows (h : Shows d name size l)
    (hmatches : matchesAttachment texts name d.prepared.message.fileName = true) :
    d.new texts l = [(name, size)] := by
  have hmem : (name, size) ∈ d.new texts l := by
    apply List.mem_filter.mpr
    refine ⟨Dict.get?_eq_some.mp h.listed, ?_⟩
    simp [h.absent, hmatches]
  have honly : ∀ f ∈ d.new texts l, f = (name, size) := by
    intro f hf
    obtain ⟨hitem, habsent, -⟩ := mem_new hf
    obtain rfl := h.only f.1 (List.mem_map_of_mem hitem) habsent
    exact Prod.ext rfl (Dict.item_unique hitem (Dict.get?_eq_some.mp h.listed))
  have hnodup : (d.new texts l).Nodup :=
    (List.Nodup.of_map Prod.fst l.files.nodup).filter _
  rcases hnew : d.new texts l with _ | ⟨f, rest⟩
  · rw [hnew] at hmem
    cases hmem
  · rw [hnew] at honly hnodup
    obtain rfl := honly f List.mem_cons_self
    cases rest with
    | nil => rfl
    | cons g rest =>
      obtain rfl := honly g (by simp)
      simp at hnodup

theorem poll_again (hnew : d.new texts l = [(name, size)])
    (hstable : d.stable = some (name, size)) (hpos : 0 < size)
    (hfits : fits (d.sizeBounds texts) size = true) :
    d.poll texts l = { d with polls := d.polls ++ [l], point := .regular name size } := by
  have hsame : Download.new texts { d with polls := d.polls ++ [l] } l = d.new texts l := rfl
  have hbounds : Download.sizeBounds texts { d with polls := d.polls ++ [l] } =
    d.sizeBounds texts := rfl
  have hcond : (decide (d.stable = some (name, size)) && decide (0 < size) &&
      fits (d.sizeBounds texts) size) = true := by
    simp [hstable, hpos, hfits]
  unfold Download.poll
  simp only [hsame, hnew, hbounds]
  rw [if_pos hcond]
  rfl

theorem poll_first (hnew : d.new texts l = [(name, size)])
    (hstable : d.stable ≠ some (name, size)) :
    d.poll texts l =
      { d with polls := d.polls ++ [l], stable := some (name, size), point := .late } := by
  have hsame : Download.new texts { d with polls := d.polls ++ [l] } l = d.new texts l := rfl
  unfold Download.poll
  simp only [hsame, hnew]
  simp [hstable]

theorem reports_regular (hp : d.point = .regular name size) :
    Reports texts d [.regular true] name size := by
  refine ⟨{ d with
    readings := { d.readings with regular := some (name, true) }
    point := .concluding name (.succeeded name size) }, ?_, rfl⟩
  simp only [follow, Download.look, hp, Option.bind_some, if_true]

theorem recognises (hp : d.point = .polling)
    (hmatches : matchesAttachment texts name d.prepared.message.fileName = true) (hpos : 0 < size)
    (hfits : fits (d.sizeBounds texts) size = true) {l' : Listing} (hl : Shows d name size l)
    (hl' : Shows d name size l') :
    Reports texts d [.listing l, .regular true] name size ∨
      Reports texts d [.listing l, .clock false, .slept false, .listing l', .regular true]
        name size := by
  have hnew := new_of_shows hl hmatches
  have hlook : ∀ (d : Download) (l : Listing) (rs : List Reading), d.point = .polling →
      follow texts d (.listing l :: rs) = follow texts (d.poll texts l) rs := by
    intro d l rs hp
    simp only [follow, Download.look, hp, Option.bind_some]
  by_cases hstable : d.stable = some (name, size)
  · left
    have hagain := poll_again hnew hstable hpos hfits
    unfold Reports
    rw [hlook d l _ hp, hagain]
    exact reports_regular rfl
  · right
    have hfirst := poll_first hnew hstable
    unfold Reports
    rw [hlook d l _ hp, hfirst]
    generalize hd₂ : ({ d with
      polls := d.polls ++ [l], stable := some (name, size), point := .polling } : Download) = d₂
    have hfollow : follow texts { d with
        polls := d.polls ++ [l], stable := some (name, size), point := .late }
        [.clock false, .slept false, .listing l', .regular true] =
        follow texts d₂ [.listing l', .regular true] := by
      rw [← hd₂]
      rfl
    have hagain : d₂.poll texts l' =
        { d₂ with polls := d₂.polls ++ [l'], point := .regular name size } := by
      apply poll_again
      · rw [← hd₂]
        exact new_of_shows ⟨hl'.listed, hl'.absent, hl'.only⟩ hmatches
      · rw [← hd₂]
      · exact hpos
      · rw [← hd₂]
        exact hfits
    rw [hfollow, hlook d₂ l' _ (by rw [← hd₂]), hagain]
    exact reports_regular rfl

end

section
variable {F : Type} [PyFloat F] {plat : Platform} {builtins : Builtins} {texts : Texts}
variable {operationKey : PyStr → PyStr → PyStr} {s : Sys Download Download}

structure Kept (texts : Texts) (d : Download) : Prop where
  reads : Reads texts d
  watches : Watches texts d
  name : ¬ LooksNumbered d.prepared.message.fileName

theorem Kept.first {d : Download} (hfirst : d.isFirst = true)
    (hname : ¬ LooksNumbered d.prepared.message.fileName) : Kept texts d := by
  simp only [Download.isFirst, Bool.and_eq_true, decide_eq_true_eq, Option.isNone_iff_eq_none,
    List.isEmpty_iff] at hfirst
  obtain ⟨⟨⟨⟨⟨⟨⟨hp, -⟩, -⟩, -⟩, -⟩, -⟩, hstable⟩, -⟩ := hfirst
  have hrank : d.rank = 0 := rank_of_point hp
  have hwatching : d.watching = false := by rw [Download.watching, hp]
  refine ⟨⟨hrank ▸ Through.zero, fun hstart => ?_⟩, ⟨fun _ => hstable, fun _ f hf => ?_, ?_, ?_, ?_,
    ?_⟩, hname⟩
  · rw [hp] at hstart
    cases hstart
  · rw [hstable] at hf
    cases hf
  · intro hd
    rw [hwatching] at hd
    cases hd
  · intro _ _ hpoint
    rw [hp] at hpoint
    cases hpoint
  · intro _ _ _ hpoint
    rw [hp] at hpoint
    cases hpoint
  · intro _ _ hpoint
    rw [hp] at hpoint
    cases hpoint

theorem Kept.told {d : Download} (h : Kept texts d)
    (r : Except Failure (Option SideEffectState)) : Kept texts (d.told r) := by
  refine ⟨h.reads.told r, h.watches.told r, ?_⟩
  rw [(told_same r).1]
  exact h.name

theorem Kept.read {d d' : Download} {r : Reading} {gs : List Download} (h : Kept texts d)
    (hok : ∀ l, r = .listing l → d.point = .polling → PollOk texts d l)
    (hread : d.read texts r = some (d', gs)) : Kept texts d' := by
  rcases read_cases hread with ⟨-, hturn⟩ | ⟨o, -, hp, rfl, -⟩
  · refine ⟨h.reads.turn hturn, h.watches.turn hturn hok, ?_⟩
    rw [hturn.same.1]
    exact h.name
  · refine ⟨h.reads.begins hp o, h.watches.begins hp o, ?_⟩
    rw [(begins_same o).1]
    exact h.name

theorem kept_of_reach
    (hr : (workflowMachine F plat builtins (downloads texts operationKey)).Reach (Meets texts) s) :
    ∀ run ∈ s.runs, Kept texts run.stage := by
  refine Workflow.stages_invariant (J := Kept texts) ?_ ?_ ?_ hr
  · intro _ _ _ d hok hfirst
    exact Kept.first hfirst hok
  · intro d r h
    exact h.told r
  · intro s i run r d gs hok hi h hread
    apply h.read ?_ hread
    rintro l rfl hp
    exact hok run hi hp

/-- A download is the approved one, is started once, and is recognised. -/
theorem downloaded_as_approved
    (hr : (workflowMachine F plat builtins (downloads texts operationKey)).Reach (Meets texts) s) :
    AsApproved texts F plat operationKey s := by
  have hdriven := Workflow.driven_of_reach (downloads_lawful operationKey) hr
  have hkept := kept_of_reach hr
  have hnotes := Workflow.notes_invariant (P := fun key d =>
    Approved texts d ∧ key = operationKey d.approval.approvalId d.prepared.digest)
    (fun s hr => kept_of_reach hr) ?_ hr
  · refine ⟨?_, fun n hn => (hnotes n hn).1, ?_, ?_, ?_, ?_⟩
    · have hkeys : s.log.map Prod.fst =
          (s.log.map fun n => (n.2.approval.approvalId, n.2.prepared.digest)).map
            fun a => operationKey a.1 a.2 := by
        rw [List.map_map]
        exact List.map_congr_left fun n hn => (hnotes n hn).2
      have honce := hdriven.once
      have hall : (s.log.filter fun n => (downloads texts operationKey).invokes n.2) = s.log :=
        List.filter_true _
      rw [hall, hkeys] at honce
      exact honce.of_map _
    · intro run hrun name size hp
      exact (hkept run hrun).watches.reported name size hp
    · intro run hrun report hp
      have hphase : ∀ states, run.stage.phase = .opened true states → ∃ state,
          s.world.state F plat
            (operationKey run.stage.approval.approvalId run.stage.prepared.digest) = some state ∧
              Workflow.Stands run.alive states state :=
        fun states => (hdriven.runs run hrun).states true states
      cases report with
      | succeeded name size =>
        obtain ⟨state, hstate, hstands⟩ := hphase [.confirmed] (by rw [Download.phase, hp])
        have hconfirmed : state = .confirmed := by
          rcases hstands with (hmem | ⟨-, hmem⟩) | ⟨-, hmem, -⟩
          · exact List.mem_singleton.mp hmem
          · simp at hmem
          · simp at hmem
        exact ⟨state, hstate, .inl hconfirmed, fun _ => hconfirmed⟩
      | uncertain =>
        obtain ⟨state, hstate, hstands⟩ :=
          hphase [.confirmed, .uncertain] (by rw [Download.phase, hp])
        refine ⟨state, hstate, ?_, ?_⟩
        · rcases hstands with (hmem | ⟨hstate, -⟩) | ⟨-, hmem, -⟩
          · simp only [List.mem_cons, List.not_mem_nil, or_false] at hmem
            exact hmem.imp_right .inl
          · exact .inr (.inr hstate)
          · simp at hmem
        · rintro ⟨name, size, h⟩
          cases h
    · intro run hrun hp
      obtain ⟨state, hstate, hstands⟩ := (hdriven.runs run hrun).states true
        [.submitting, .confirmed, .uncertain] (by rw [Download.phase, hp])
      refine ⟨state, hstate, ?_⟩
      rintro rfl
      rcases hstands with (hmem | ⟨hne, -⟩) | ⟨-, -, hne | hne⟩
      · simp at hmem
      · cases hne
      · cases hne
      · cases hne
    · intro run hrun hp name size hname hpos hfits l l' hl hl'
      have hk := hkept run hrun
      have hrank : run.stage.rank = 10 := rank_of_point hp
      have hsafe := hk.reads.through.safe (by omega)
      obtain ⟨bounds, hbounds, hfits⟩ := hfits
      have hmatches : matchesAttachment texts name run.stage.prepared.message.fileName = true := by
        rcases hname with rfl | ⟨number, hnumber, rfl⟩
        · exact matches_self hsafe hk.name
        · exact matches_numbered hsafe hnumber
      apply recognises hp hmatches hpos _ hl hl'
      unfold Download.sizeBounds
      rw [hbounds]
      exact hfits
  · intro d r d' gs h hread g hg
    rcases read_cases hread with ⟨rfl, -⟩ | ⟨o, -, hp, -, rfl⟩
    · cases hg
    · have hself : g = d := by
        cases o with
        | returns | raises => exact List.mem_singleton.mp hg
        | notStarted => cases hg
      rw [hself]
      exact ⟨h.reads.approved hp, rfl⟩

end

/-! A download that is recognised, and two that go wrong. -/

instance (name : PyStr) : Decidable (LooksNumbered name) :=
  decidable_of_iff ((splitext name).1.tails.any isNumber = true) <| by
    simp only [List.any_eq_true, List.mem_tails, LooksNumbered]

def sampleTexts : Texts := ⟨id, id, fun _ _ _ => none⟩

def sampleMachine : Machine (Sys Download Download) (Step WholeFloat Download Reading) :=
  workflowMachine WholeFloat Journal.cpython Workflow.sampleBuiltins
    (downloads sampleTexts fun approvalId digest => approvalId ++ digest)

def sampleMessage (fileName : PyStr) : MessageView :=
  ⟨py "m", true, py "document", fileName, [], py "d", false⟩

def sampleDownload (fileName : PyStr) : Download where
  prepared := ⟨py "c", py "p", py "w", sampleMessage fileName, []⟩
  approval := ⟨py "a", py "p", .requireUiConfirmation, some (py "w")⟩
  readings := ⟨none, none, none, none, none⟩
  before := ⟨.empty, by simp [Dict.empty, Dict.keys]⟩
  stable := none
  polls := []
  point := .entry

/-- Nothing was stopped, and the window is the same. -/
def clear : Reading := .checkpoint ⟨false, true, false, true, []⟩

def emptyListing : Listing := ⟨.empty, by simp [Dict.empty, Dict.keys]⟩

def oneFile (name : PyStr) (h : lf ∉ name) : Listing :=
  ⟨⟨[(name, 1)], by simp⟩, by simpa [Dict.keys] using h⟩

def started (fileName : PyStr) : List (Step WholeFloat Download Reading) :=
  [.enter Workflow.sampleProcess true (sampleDownload fileName), .input 0 (.entry true (py "w")),
    .input 0 clear, .input 0 (.title (py "c")), .input 0 (.messages [sampleMessage fileName]),
    .input 0 (.directory true), .input 0 (.listing emptyListing), .input 0 clear,
    .ask 0 Workflow.working ⟨0⟩, .input 0 clear, .input 0 (.started .returns),
    .input 0 (.clock false)]

def polled (l : Listing) : List (Step WholeFloat Download Reading) :=
  [.input 0 (.listing l), .input 0 (.clock false), .input 0 (.slept false)]

/-- The last poll. -/
def seenAgain (l : Listing) : List (Step WholeFloat Download Reading) :=
  [.input 0 (.listing l), .input 0 (.regular true)]

def sampleStart : Sys Download Download := ⟨Workflow.sampleWorld, [], []⟩

theorem sampleStart_start : sampleMachine.start sampleStart :=
  ⟨rfl, by decide, rfl, rfl, rfl⟩

/-- The condition, where it can be computed. -/
def meetsCheck (s : Sys Download Download) : Step WholeFloat Download Reading → Bool
  | .enter _ _ d => !decide (LooksNumbered d.prepared.message.fileName)
  | .input i (.listing _) => s.runs[i]?.all fun run =>
    run.stage.stable.isNone ||
      run.stage.polls.getLast?.any fun p => !(run.stage.new sampleTexts p).isEmpty
  | _ => true

theorem meets_of_check (s : Sys Download Download) (a : Step WholeFloat Download Reading)
    (h : meetsCheck s a = true) : Meets sampleTexts s a := by
  cases a with
  | enter owner psutil d =>
    have hname : ¬ LooksNumbered d.prepared.message.fileName := by simpa [meetsCheck] using h
    exact hname
  | input i r =>
    cases r with
    | listing l =>
      intro run hi hp f hnew hstable
      simp only [meetsCheck, hi, Option.all_some, hstable, Option.isNone_some, Bool.false_or,
        Option.any_eq_true] at h
      obtain ⟨p, hlast, hne⟩ := h
      refine ⟨p, hlast, ?_⟩
      rintro hnil
      simp [hnil] at hne
    | _ => trivial
  | _ => trivial

/-- A file is downloaded, and its poll has seen it whole twice. -/
theorem downloaded_as_approved_sample : ∃ s : Sys Download Download, s.log.length = 1 ∧
    AsApproved sampleTexts WholeFloat Journal.cpython (fun approvalId digest => approvalId ++ digest)
      s := by
  have hexec : ((sampleMachine.execChecked meetsCheck sampleStart
      (started (py "a.b") ++ polled (oneFile (py "a.b") (by decide)) ++
        [.input 0 (.listing (oneFile (py "a.b") (by decide)))])).any fun s =>
      s.log.length = 1 && s.runs.all fun run => run.stage.point = .regular (py "a.b") 1) = true := by
    decide +kernel
  obtain ⟨s, hs, hall⟩ := (Option.any_eq_true _ _).mp hexec
  simp only [Bool.and_eq_true, decide_eq_true_eq] at hall
  exact ⟨s, hall.1, downloaded_as_approved
    (Machine.Reach.execChecked meets_of_check (.start sampleStart_start) hs)⟩

/-- A file is missing at the poll before the one that reports it. And the attachment's own file is
not recognised when its name looks numbered. -/
theorem missing_between_and_numbered :
    (¬ ∀ s : Sys Download Download, sampleMachine.Reachable s → ∀ run ∈ s.runs, ∀ name size,
      run.stage.point = .reported (.succeeded name size) → Found sampleTexts run.stage name size) ∧
    ¬ ∀ s : Sys Download Download, sampleMachine.Reachable s → ∀ run ∈ s.runs,
      run.stage.point = .polling → Recognises sampleTexts run.stage := by
  constructor
  · intro h
    let W := downloads sampleTexts fun approvalId digest => approvalId ++ digest
    have hexec : (((sampleMachine.exec sampleStart ((started (py "a.b")).take 8)).bind fun s =>
        (sampleMachine.step s (.ask 0 Workflow.working ⟨0⟩)).bind fun s' =>
          (sampleMachine.exec s' ((started (py "a.b")).drop 9 ++ polled (oneFile (py "a.b") (by decide)) ++
            polled emptyListing ++ seenAgain (oneFile (py "a.b") (by decide)))).map fun s'' => (s, s', s'')).any
        fun t => (t.1.runs[0]?.any fun run => run.alive && run.owner = Workflow.sampleProcess &&
          run.psutil && W.operationKey run.stage = py "ap" && run.stage.point = .begin &&
          run.stage.parts sampleTexts = (sampleDownload (py "a.b")).parts sampleTexts &&
          run.stage.prepared.message.fileName = py "a.b") &&
        t.2.2.runs[0]?.any fun run => run.alive && W.operationKey run.stage = py "ap" &&
          run.stage.point = .concluding (py "a.b") (.succeeded (py "a.b") 1) &&
          run.stage.polls.dropLast.getLast?.all fun l => run.stage.new sampleTexts l = []) = true := by
      decide +kernel
    obtain ⟨t, ht, hall⟩ := (Option.any_eq_true _ _).mp hexec
    obtain ⟨s₀, hs₀, ht⟩ := Option.bind_eq_some_iff.mp ht
    obtain ⟨s₁, hs₁, ht⟩ := Option.bind_eq_some_iff.mp ht
    obtain ⟨s, hs, rfl⟩ := Option.map_eq_some_iff.mp ht
    simp only [Bool.and_eq_true, Option.any_eq_true, decide_eq_true_eq, Option.all_eq_true] at hall
    obtain ⟨⟨run₀, hrun₀, ⟨⟨⟨⟨⟨halive₀, howner⟩, hpsutil⟩, hkey₀⟩, hp₀⟩, hparts⟩, hfile⟩, run, hrun,
      ⟨⟨halive, hkey⟩, hp⟩, hlasts⟩ := hall
    have hreach := (Machine.Reach.exec (.start sampleStart_start) (Machine.allOk_true _ _) hs₀).step
      trivial hs₁ |>.exec (Machine.allOk_true _ _) hs
    replace hkey₀ : (downloads sampleTexts fun approvalId digest => approvalId ++ digest).operationKey
      run₀.stage = py "ap" := hkey₀
    replace hkey : (downloads sampleTexts fun approvalId digest => approvalId ++ digest).operationKey
      run.stage = py "ap" := hkey
    -- what `begin` left is what the last step reads
    have hwants₀ : W.wants run₀.stage = some (.begin (py "telegram-download")
        ((sampleDownload (py "a.b")).parts sampleTexts) (py "Telegram " ++ py "a.b")) := by
      show run₀.stage.wants sampleTexts = _
      rw [Download.wants, hp₀, hfile, hparts]
    have hask : sampleMachine.step s₀ (.ask 0 Workflow.working ⟨0⟩) = some _ :=
      Workflow.Sys.ask_eq Workflow.working (⟨0⟩ : WholeFloat) hrun₀ halive₀ hwants₀
    have hdisk : s.world.disk = (Workflow.sampleWorld.run Journal.cpython Workflow.sampleBuiltins
        (.begin Workflow.sampleProcess true (py "ap") (py "telegram-download")
          ((sampleDownload (py "a.b")).parts sampleTexts) (py "Telegram " ++ py "a.b")
            (⟨0⟩ : WholeFloat)) Workflow.working).2 := by
      rw [Workflow.exec_own (by decide +kernel) hs, Option.some.inj (hs₁.symm.trans hask)]
      simp only [Workflow.Want.call, Workflow.World.after, howner, hpsutil, hkey₀,
        Workflow.exec_own (by decide +kernel) hs₀, sampleStart]
    have hbegun : (Workflow.sampleWorld.run Journal.cpython Workflow.sampleBuiltins
        (.begin Workflow.sampleProcess true (py "ap") (py "telegram-download")
          ((sampleDownload (py "a.b")).parts sampleTexts) (py "Telegram " ++ py "a.b")
            (⟨0⟩ : WholeFloat)) Workflow.working).1 = .ok () := by decide +kernel
    obtain ⟨entries, changed, hload, hsaved, hchange⟩ :=
      (Workflow.inv_of_reach (.start Workflow.sampleWorld_start)).begin_returned hbegun
    obtain rfl : Dict.empty = entries := Except.ok.inj hload
    obtain ⟨-, -, -, rfl⟩ := hchange
    rw [← hdisk] at hsaved
    have hsettled : (Workflow.settle Journal.cpython Workflow.working (py "ap") .confirmed (py "a.b")
        (⟨0⟩ : WholeFloat) s.world.disk).1 = .ok () :=
      Workflow.settle_ok hsaved (by decide) ⟨rfl, rfl, rfl⟩
        ⟨_, rfl, Journal.JsonStore.encode_ok.mpr ⟨by decide +kernel, by decide +kernel⟩⟩
    have hwants : W.wants run.stage = some (.settle .confirmed (py "a.b")) := by
      show run.stage.wants sampleTexts = _
      rw [Download.wants, hp]
      rfl
    have hstep : sampleMachine.step s (.ask 0 Workflow.working ⟨0⟩) = some _ :=
      Workflow.Sys.ask_eq Workflow.working (⟨0⟩ : WholeFloat) hrun halive hwants
    have htold : W.told run.stage (.ok none) =
        run.stage.goTo (.reported (.succeeded (py "a.b") 1)) := by
      show run.stage.told _ = _
      simp only [Download.told, hp]
    have hanswer : s.world.answer Journal.cpython Workflow.sampleBuiltins
        (.settle (py "ap") .confirmed (py "a.b") (⟨0⟩ : WholeFloat)) Workflow.working = .ok none :=
      congrArg (Except.map fun _ => none) hsettled
    simp only [Workflow.Want.call, hkey, hanswer] at hstep
    rw [show (downloads _ _).told run.stage _ = _ from htold] at hstep
    obtain ⟨earlier, l, l', hpolls, hl, -⟩ := (h _ (hreach.step trivial hstep) _
      (List.mem_set (List.getElem?_eq_some_iff.mp hrun).1 _) _ _ rfl).polls
    have hlast : run.stage.polls.dropLast.getLast? = some l := by
      rw [show run.stage.polls = earlier ++ [l, l'] from hpolls]
      simp
    cases (hlasts l hlast).symm.trans hl
  · intro h
    have hexec : ((sampleMachine.exec sampleStart (started (py "a (1).b"))).any fun s =>
        s.runs.any fun run => run.stage.point = .polling &&
          run.stage.prepared.message = sampleMessage (py "a (1).b") &&
          (run.stage.before.files.keys = [] &&
          (follow sampleTexts run.stage [.listing (oneFile (py "a (1).b") (by decide)),
            .regular true]).isNone &&
          (follow sampleTexts run.stage [.listing (oneFile (py "a (1).b") (by decide)),
            .clock false, .slept false, .listing (oneFile (py "a (1).b") (by decide)),
            .regular true]).isNone)) = true := by
      decide +kernel
    obtain ⟨s, hs, hany⟩ := (Option.any_eq_true _ _).mp hexec
    obtain ⟨run, hrun, hall⟩ := List.any_eq_true.mp hany
    simp only [Bool.and_eq_true, decide_eq_true_eq, Option.isNone_iff_eq_none] at hall
    obtain ⟨⟨hp, hmessage⟩, ⟨hbefore, hone⟩, htwo⟩ := hall
    have hshows : Shows run.stage (py "a (1).b") 1 (oneFile (py "a (1).b") (by decide)) := by
      refine ⟨by decide, by simp [hbefore], fun other hother _ => ?_⟩
      exact List.mem_singleton.mp hother
    have hsize : approximateSize sampleTexts [] = some none := by decide
    rcases h s (Machine.reachable_exec sampleStart_start hs) run hrun hp (py "a (1).b") 1
      (.inl (by rw [hmessage]; rfl)) (by omega) ⟨none, by rw [hmessage]; exact hsize, rfl⟩ _ _ hshows
      hshows with ⟨d, hd, -⟩ | ⟨d, hd, -⟩
    · rw [hone] at hd
      cases hd
    · rw [htwo] at hd
      cases hd

end QronosAgent.Telegram

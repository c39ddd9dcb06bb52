import QronosAgent.Ipc.Handshake

/-! Both ends are authenticated: every event of a run is justified by what came before it. -/
namespace QronosAgent.Ipc
open Lib

inductive Answered (log : List SessionEvent) : Role → Block → Block → Prop
  | client (c : ConnectionId) (key nonce ours : Block) :
      .sent c ⟨.response, [tag key .client nonce, ours]⟩ ∈ log → Answered log .client key nonce
  | server (c : ConnectionId) (key nonce : Block) :
      .sent c ⟨.confirm, [tag key .server nonce]⟩ ∈ log → Answered log .server key nonce
  | attacker (role : Role) (key nonce : Block) :
      Term.Derivable Atom.isForeign (seen log) key → Answered log role key nonce

def Role.peer : Role → Role
  | .client => .server
  | .server => .client

def JustifiedBy (keyOf : ServerId → ℕ) (before : List SessionEvent) : SessionEvent → Prop
  | .passed _ server => .interrupted server ∉ before
  | .sent c ⟨.key, blocks⟩ => ∃ a, .arrived c a ∈ before ∧ a.releaseKey = true ∧
      blocks = [.atom (.key (keyOf a.server))] ∧ .matched c ∈ before ∧
      .passed c a.server ∈ before ∧ .interruptSeen c ∉ before ∧
      (a.gate = true → .gated c true ∈ before)
  | .accepted role c key nonce => .matched c ∈ before ∧ .drew c nonce ∈ before ∧
      Answered before role.peer key nonce ∧
      (role = .server → ∃ a, .arrived c a ∈ before ∧ key = .atom (.key (keyOf a.server)))
  | _ => True

def AllJustified (keyOf : ServerId → ℕ) : List SessionEvent → Prop
  | [] => True
  | event :: before => JustifiedBy keyOf before event ∧ AllJustified keyOf before

inductive Honest (keyOf : ServerId → ℕ) : Wire → Prop
  | challenge (n : ℕ) : Honest keyOf ⟨.challenge, [.atom (.nonce n)]⟩
  | response (key challenge : Block) (n : ℕ) :
      Honest keyOf ⟨.response, [tag key .client challenge, .atom (.nonce n)]⟩
  | confirm (key nonce : Block) : Honest keyOf ⟨.confirm, [tag key .server nonce]⟩
  | key (server : ServerId) : Honest keyOf ⟨.key, [.atom (.key (keyOf server))]⟩

variable {log : List SessionEvent} {role : Role} {key nonce : Block} {keyOf : ServerId → ℕ}

theorem mem_seen {b : Block} :
    b ∈ seen log ↔ ∃ c w, .sent c w ∈ log ∧ b ∈ w.blocks := by
  unfold seen
  rw [List.mem_flatMap]
  constructor
  · rintro ⟨event, hevent, hb⟩
    cases event with
    | sent c w => exact ⟨c, w, hevent, hb⟩
    | _ => simp at hb
  · rintro ⟨c, w, hevent, hb⟩
    exact ⟨_, hevent, hb⟩

theorem seen_mono (events : List SessionEvent) :
    ∀ b ∈ seen log, b ∈ seen (events ++ log) := by
  intro b hb
  obtain ⟨c, w, hevent, hb⟩ := mem_seen.mp hb
  exact mem_seen.mpr ⟨c, w, List.mem_append_right _ hevent, hb⟩

theorem Answered.mono (h : Answered log role key nonce) (events : List SessionEvent) :
    Answered (events ++ log) role key nonce := by
  cases h with
  | client c _ _ ours hsent => exact .client c _ _ ours (List.mem_append_right _ hsent)
  | server c _ _ hsent => exact .server c _ _ (List.mem_append_right _ hsent)
  | attacker _ _ _ hkey => exact .attacker _ _ _ (hkey.mono (seen_mono events))

theorem answered_of_derivable (hhonest : ∀ c w, .sent c w ∈ log → Honest keyOf w)
    (h : Term.Derivable Atom.isForeign (seen log) (tag key role nonce)) :
    Answered log role key nonce := by
  rcases Term.derivable_mac h with hseen | hkey
  · obtain ⟨c, w, hsent, hmem⟩ := mem_seen.mp hseen
    cases hhonest c w hsent with
    | challenge n => simp at hmem
    | response key' challenge n =>
      have heq : Term.mac key role nonce = tag key' .client challenge := by simpa using hmem
      cases heq
      exact .client c _ _ _ hsent
    | confirm key' nonce' =>
      have heq : Term.mac key role nonce = tag key' .server nonce' := by simpa using hmem
      cases heq
      exact .server c _ _ hsent
    | key server => simp at hmem
  · exact .attacker _ _ _ hkey

def SessionStage.connection : SessionStage → Option ConnectionId
  | .arrived _ c | .expected _ c | .gating _ c | .releasing _ c | .challenging _ c
  | .challenged _ c _ | .confirming _ c _ _ | .opened _ c | .awaitingKey c
  | .awaitingChallenge c _ | .awaitingConfirm c _ _ => some c
  | .idle | .waiting _ | .listening _ | .done => none

def Prepared (keyOf : ServerId → ℕ) (log : List SessionEvent) : SessionStage → Prop
  | .arrived a c => .arrived c a ∈ log
  | .expected a c | .challenging a c => .arrived c a ∈ log ∧ .matched c ∈ log
  | .gating a c => .arrived c a ∈ log ∧ .matched c ∈ log ∧ a.releaseKey = true ∧
      .passed c a.server ∈ log
  | .releasing a c => .arrived c a ∈ log ∧ .matched c ∈ log ∧ a.releaseKey = true ∧
      .passed c a.server ∈ log ∧ (a.gate = true → .gated c true ∈ log)
  | .challenged a c challenge => .arrived c a ∈ log ∧ .matched c ∈ log ∧ .drew c challenge ∈ log
  | .confirming a c challenge _ => .arrived c a ∈ log ∧ .matched c ∈ log ∧
      .drew c challenge ∈ log ∧ Answered log .client (.atom (.key (keyOf a.server))) challenge
  | .awaitingKey c | .awaitingChallenge c _ => .matched c ∈ log
  | .awaitingConfirm c _ ours => .matched c ∈ log ∧ .drew c ours ∈ log
  | .idle | .waiting _ | .listening _ | .opened _ _ | .done => True

theorem Prepared.mono {stage : SessionStage} (h : Prepared keyOf log stage)
    (events : List SessionEvent) :
    Prepared keyOf (events ++ log) stage := by
  have hmem {event : SessionEvent} : event ∈ log → event ∈ events ++ log :=
    List.mem_append_right events
  cases stage with
  | arrived a c => exact hmem h
  | expected a c | challenging a c => exact ⟨hmem h.1, hmem h.2⟩
  | gating a c => exact ⟨hmem h.1, hmem h.2.1, h.2.2.1, hmem h.2.2.2⟩
  | releasing a c =>
    obtain ⟨harrived, hmatched, hrelease, hpassed, hgate⟩ := h
    exact ⟨hmem harrived, hmem hmatched, hrelease, hmem hpassed, fun hg => hmem (hgate hg)⟩
  | challenged a c challenge => exact ⟨hmem h.1, hmem h.2.1, hmem h.2.2⟩
  | confirming a c challenge theirs =>
    obtain ⟨harrived, hmatched, hdrew, hanswered⟩ := h
    exact ⟨hmem harrived, hmem hmatched, hmem hdrew, hanswered.mono events⟩
  | awaitingKey c | awaitingChallenge c key => exact hmem h
  | awaitingConfirm c key ours => exact ⟨hmem h.1, hmem h.2⟩
  | idle | waiting | listening | opened | done => trivial

namespace Sessions

structure Inv (keyOf : ServerId → ℕ) (s : Sessions) : Prop where
  prepared : ∀ id, Prepared keyOf s.log (s.stages id)
  open_ : ∀ id c, (s.stages id).connection = some c → c < s.connections ∧
    .interruptSeen c ∉ s.log
  own : ∀ id id' c, (s.stages id).connection = some c → (s.stages id').connection = some c →
    id = id'
  past : ∀ c, .interruptSeen c ∈ s.log → c < s.connections
  flag : ∀ server, .interrupted server ∈ s.log → s.interrupted server = true
  honest : ∀ c w, .sent c w ∈ s.log → Honest keyOf w
  drawn : ∀ c b, .drew c b ∈ s.log → ∃ n, b = .atom (.nonce n) ∧ n < s.nonces
  once : ∀ c c' b, .drew c b ∈ s.log → .drew c' b ∈ s.log → c = c'
  justified : AllJustified keyOf s.log

theorem Inv.start (keyOf : ServerId → ℕ) : Inv keyOf .start := by
  constructor <;> simp [Sessions.start, Prepared, SessionStage.connection, AllJustified]

structure Goes (keyOf : ServerId → ℕ) (s t : Sessions) (id : SessionId) (stage : SessionStage)
    (events : List SessionEvent) : Prop where
  stages : t.stages = Function.update s.stages id stage
  log : t.log = events ++ s.log
  interrupted : t.interrupted = s.interrupted
  connection : s.connections ≤ t.connections ∧ ∀ c, stage.connection = some c →
    (s.stages id).connection = some c ∨ c = s.connections ∧ t.connections = s.connections + 1
  nonces : s.nonces ≤ t.nonces ∧ ∀ c b, .drew c b ∈ events →
    b = s.freshNonce ∧ t.nonces = s.nonces + 1 ∧ (s.stages id).connection = some c
  prepared : Prepared keyOf (events ++ s.log) stage
  justified : AllJustified keyOf (events ++ s.log)
  honest : ∀ c w, .sent c w ∈ events → Honest keyOf w
  ended : ∀ c, .interruptSeen c ∈ events → (s.stages id).connection = some c ∧
    stage.connection = none
  others : ∀ server, .interrupted server ∉ events

variable {t : Sessions} {stage : SessionStage} {events : List SessionEvent} {w : Wire}

theorem Inv.goes {keyOf : ServerId → ℕ} {s : Sessions} {id : SessionId} (h : s.Inv keyOf)
    (hg : Goes keyOf s t id stage events) :
    t.Inv keyOf := by
  have hconn (i : SessionId) (c : ConnectionId) (hi : (t.stages i).connection = some c) :
      (s.stages i).connection = some c ∨
        i = id ∧ c = s.connections ∧ t.connections = s.connections + 1 := by
    rw [hg.stages] at hi
    by_cases hid : i = id
    · subst hid
      rw [Function.update_self] at hi
      rcases hg.connection.2 c hi with hold | hnew
      · exact .inl hold
      · exact .inr ⟨rfl, hnew⟩
    · rw [Function.update_of_ne hid] at hi
      exact .inl hi
  have hlt (i : SessionId) (c : ConnectionId) (hi : (s.stages i).connection = some c) :
      c < s.connections := (h.open_ i c hi).1
  constructor
  · intro i
    rw [hg.log, hg.stages]
    by_cases hid : i = id
    · rw [hid, Function.update_self]
      exact hg.prepared
    · rw [Function.update_of_ne hid]
      exact (h.prepared i).mono events
  · intro i c hi
    have hle := hg.connection.1
    refine ⟨?_, ?_⟩
    · rcases hconn i c hi with hold | ⟨-, rfl, hnew⟩
      · exact Nat.lt_of_lt_of_le (hlt i c hold) hle
      · rw [hnew]
        exact Nat.lt_succ_self _
    · rw [hg.log, List.mem_append, not_or]
      constructor
      · intro hseen
        obtain ⟨hold, hnone⟩ := hg.ended c hseen
        by_cases hid : i = id
        · rw [hg.stages, hid, Function.update_self, hnone] at hi
          simp at hi
        · rw [hg.stages, Function.update_of_ne hid] at hi
          exact hid (h.own i id c hi hold)
      · intro hseen
        rcases hconn i c hi with hold | ⟨-, rfl, -⟩
        · exact (h.open_ i c hold).2 hseen
        · exact absurd (h.past _ hseen) (Nat.lt_irrefl _)
  · intro i i' c hi hi'
    rcases hconn i c hi with hold | ⟨rfl, hc, -⟩
    · rcases hconn i' c hi' with hold' | ⟨rfl, rfl, -⟩
      · exact h.own i i' c hold hold'
      · exact absurd (hlt i _ hold) (Nat.lt_irrefl _)
    · rcases hconn i' c hi' with hold' | ⟨rfl, -⟩
      · exact absurd (hc ▸ hlt i' c hold') (Nat.lt_irrefl _)
      · rfl
  · intro c hseen
    have hle := hg.connection.1
    rw [hg.log, List.mem_append] at hseen
    rcases hseen with hseen | hseen
    · exact Nat.lt_of_lt_of_le (hlt id c (hg.ended c hseen).1) hle
    · exact Nat.lt_of_lt_of_le (h.past c hseen) hle
  · intro server hmem
    rw [hg.log, List.mem_append] at hmem
    rw [hg.interrupted]
    exact h.flag server (hmem.resolve_left (hg.others server))
  · intro c w hmem
    rw [hg.log, List.mem_append] at hmem
    rcases hmem with hnew | hold
    · exact hg.honest c w hnew
    · exact h.honest c w hold
  · intro c b hmem
    have hle := hg.nonces.1
    rw [hg.log, List.mem_append] at hmem
    rcases hmem with hnew | hold
    · obtain ⟨hb, hn, -⟩ := hg.nonces.2 c b hnew
      exact ⟨s.nonces, hb, by omega⟩
    · obtain ⟨n, hb, hn⟩ := h.drawn c b hold
      exact ⟨n, hb, by omega⟩
  · intro c c' b hmem hmem'
    rw [hg.log, List.mem_append] at hmem hmem'
    -- a new nonce is none of the old ones
    have hnot (c : ConnectionId) (hold : .drew c s.freshNonce ∈ s.log) : False := by
      obtain ⟨n, hb, hn⟩ := h.drawn c _ hold
      simp only [freshNonce, Term.atom.injEq, Atom.nonce.injEq] at hb
      omega
    rcases hmem with hnew | hold
    · obtain ⟨rfl, -, hc⟩ := hg.nonces.2 c b hnew
      rcases hmem' with hnew' | hold'
      · have hc' := (hg.nonces.2 c' _ hnew').2.2
        exact Option.some.inj (hc.symm.trans hc')
      · exact (hnot c' hold').elim
    · rcases hmem' with hnew' | hold'
      · obtain ⟨rfl, -⟩ := hg.nonces.2 c' b hnew'
        exact (hnot c hold).elim
      · exact h.once c c' b hold hold'
  · rw [hg.log]
    exact hg.justified

variable {keyOf : ServerId → ℕ} {s : Sessions} {id : SessionId}

/-- A call that goes on with its connection or leaves it, draws no nonce and sees no
interrupt. -/
theorem Inv.go (h : s.Inv keyOf)
    (hconn : ∀ c, stage.connection = some c → (s.stages id).connection = some c)
    (hprepared : Prepared keyOf (events ++ s.log) stage)
    (hjustified : AllJustified keyOf (events ++ s.log))
    (hhonest : ∀ c w, .sent c w ∈ events → Honest keyOf w) (hdrew : ∀ c b, .drew c b ∉ events)
    (hseen : ∀ c, .interruptSeen c ∉ events) (hothers : ∀ server, .interrupted server ∉ events) :
    (s.go id stage events).Inv keyOf :=
  h.goes {
    stages := rfl
    log := rfl
    interrupted := rfl
    connection := ⟨Nat.le_refl _, fun c hc => .inl (hconn c hc)⟩
    nonces := ⟨Nat.le_refl _, fun c b hb => absurd hb (hdrew c b)⟩
    prepared := hprepared
    justified := hjustified
    honest := hhonest
    ended := fun c hc => absurd hc (hseen c)
    others := hothers }

/-- A call that goes on with nothing to record. -/
theorem Inv.next (h : s.Inv keyOf)
    (hconn : ∀ c, stage.connection = some c → (s.stages id).connection = some c)
    (hprepared : Prepared keyOf s.log stage) : (s.go id stage []).Inv keyOf := by
  apply h.go hconn
  · exact hprepared
  · exact h.justified
  all_goals simp

theorem Inv.ends (h : s.Inv keyOf) : (s.go id .done []).Inv keyOf := by
  apply h.next
  · simp [SessionStage.connection]
  · trivial

theorem Inv.draws (h : s.Inv keyOf) {c : ConnectionId} (hold : (s.stages id).connection = some c)
    (hnew : stage.connection = some c)
    (hprepared : Prepared keyOf (.sent c w :: .drew c s.freshNonce :: s.log) stage)
    (hw : Honest keyOf w) (hlabel : w.label ≠ .key) :
    (s.draws id stage [.sent c w, .drew c s.freshNonce]).Inv keyOf :=
  h.goes {
    stages := rfl
    log := rfl
    interrupted := rfl
    connection := ⟨Nat.le_refl _, fun c' hc => .inl (hold.trans (hnew.symm.trans hc))⟩
    nonces := by
      refine ⟨Nat.le_succ _, ?_⟩
      intro c' b hb
      obtain ⟨rfl, rfl⟩ : c' = c ∧ b = s.freshNonce := by simpa using hb
      exact ⟨rfl, rfl, hold⟩
    prepared := hprepared
    justified := by
      refine ⟨?_, trivial, h.justified⟩
      obtain ⟨label, blocks⟩ := w
      cases label with
      | key => exact absurd rfl hlabel
      | _ => trivial
    honest := by
      intro c' w' hsent
      obtain ⟨rfl, rfl⟩ : c' = c ∧ w' = w := by simpa using hsent
      exact hw
    ended := by simp
    others := by simp }

theorem Inv.opens (h : s.Inv keyOf) (hnew : stage.connection = some s.connections)
    (hprepared : Prepared keyOf (events ++ s.log) stage)
    (hevents : ∀ event ∈ events, ∃ a, event = .arrived s.connections a) :
    (s.opens id stage events).Inv keyOf := by
  have hnot (event : SessionEvent) (hne : ∀ c a, event ≠ .arrived c a) : event ∉ events := by
    intro hmem
    obtain ⟨a, ha⟩ := hevents event hmem
    exact hne _ _ ha
  have hjustified : AllJustified keyOf (events ++ s.log) := by
    clear hprepared hnot
    induction events with
    | nil => exact h.justified
    | cons event events ih =>
      obtain ⟨a, rfl⟩ := hevents event List.mem_cons_self
      exact ⟨trivial, ih fun e he => hevents e (List.mem_cons_of_mem _ he)⟩
  exact h.goes {
    stages := rfl
    log := rfl
    interrupted := rfl
    connection := ⟨Nat.le_succ _, fun c hc => .inr ⟨Option.some.inj (hc.symm.trans hnew), rfl⟩⟩
    nonces := ⟨Nat.le_refl _, fun c b hb => absurd hb (hnot _ (by simp))⟩
    prepared := hprepared
    justified := hjustified
    honest := fun c w hw => absurd hw (hnot _ (by simp))
    ended := fun c hc => absurd hc (hnot _ (by simp))
    others := fun server => hnot _ (by simp) }

theorem Inv.receive (h : s.Inv keyOf)
    (hw : ∀ b ∈ w.blocks, Term.Derivable Atom.isForeign (seen s.log) b)
    (hstep : s.receive keyOf id w (s.stages id) = some t) : t.Inv keyOf := by
  have hprepared := h.prepared id
  generalize hstage : s.stages id = stage at hstep hprepared
  unfold Sessions.receive at hstep
  cases stage with
  | challenged a c challenge =>
    simp only at hstep
    split at hstep
    · rename_i proof theirs _ hblocks
      split at hstep
      · rename_i hproof
        cases hstep
        apply h.next
        · simp [hstage, SessionStage.connection]
        · refine ⟨hprepared.1, hprepared.2.1, hprepared.2.2, ?_⟩
          apply answered_of_derivable h.honest
          rw [← hproof]
          exact hw _ (by simp [hblocks])
      · exact Option.some.inj hstep ▸ h.ends
    · exact Option.some.inj hstep ▸ h.ends
  | awaitingKey c =>
    simp only at hstep
    split at hstep
    · cases hstep
      apply h.next
      · simp [hstage, SessionStage.connection]
      · exact hprepared
    · exact Option.some.inj hstep ▸ h.ends
  | awaitingChallenge c key =>
    simp only at hstep
    split at hstep
    · cases hstep
      apply h.draws (c := c)
      · simp [hstage, SessionStage.connection]
      · rfl
      · exact ⟨List.mem_cons_of_mem _ (List.mem_cons_of_mem _ hprepared), by simp⟩
      · exact .response key _ s.nonces
      · simp
    · exact Option.some.inj hstep ▸ h.ends
  | awaitingConfirm c key ours =>
    simp only at hstep
    split at hstep
    · rename_i proof _ hblocks
      split at hstep
      · rename_i hproof
        cases hstep
        have hanswered : Answered s.log .server key ours := by
          apply answered_of_derivable h.honest
          rw [← hproof]
          exact hw _ (by simp [hblocks])
        apply h.go
        · simp [SessionStage.connection]
        · trivial
        · exact ⟨⟨hprepared.1, hprepared.2, hanswered, by simp⟩, h.justified⟩
        all_goals simp
      · exact Option.some.inj hstep ▸ h.ends
    · exact Option.some.inj hstep ▸ h.ends
  | _ => contradiction

theorem Inv.interrupt (h : s.Inv keyOf) (server : ServerId) : Inv keyOf { s with
    interrupted := Function.update s.interrupted server true
    log := .interrupted server :: s.log } where
  prepared i := (h.prepared i).mono [_]
  open_ i c hc := by
    refine ⟨(h.open_ i c hc).1, ?_⟩
    simpa using (h.open_ i c hc).2
  own := h.own
  past := by simpa using h.past
  flag := by
    intro other hmem
    by_cases hs : other = server
    · simp [hs]
    · exact (Function.update_of_ne hs _ _).trans (h.flag other (by simpa [hs] using hmem))
  honest := by simpa using h.honest
  drawn := by simpa using h.drawn
  once := by simpa using h.once
  justified := ⟨trivial, h.justified⟩

theorem Inv.step (h : s.Inv keyOf) {move : SessionMove} (hstep : s.step keyOf move = some t) :
    t.Inv keyOf := by
  cases move with
  | interrupt server => exact Option.some.inj hstep ▸ h.interrupt server
  | accept id a =>
    simp only [Sessions.step] at hstep
    split at hstep
    · cases hstep
      apply h.next
      · simp [SessionStage.connection]
      · trivial
    · contradiction
  | poll id =>
    simp only [Sessions.step] at hstep
    split at hstep
    · cases hstep
      apply h.next
      · split <;> simp [SessionStage.connection]
      · split <;> trivial
    · contradiction
  | arrive id =>
    simp only [Sessions.step] at hstep
    split at hstep
    · rename_i a _
      cases hstep
      apply h.opens
      · rfl
      · exact List.mem_cons_self
      · simp
    · contradiction
  | clientPid id answer =>
    have hprepared := h.prepared id
    simp only [Sessions.step] at hstep
    split at hstep
    · rename_i a c hstage
      rw [hstage] at hprepared
      split at hstep
      · cases hstep
        apply h.go
        · simp [hstage, SessionStage.connection]
        · exact ⟨List.mem_cons_of_mem _ hprepared, List.mem_cons_self⟩
        · exact ⟨trivial, h.justified⟩
        all_goals simp
      · cases hstep
        apply h.next
        · simp [SessionStage.connection]
        · trivial
    · contradiction
  | check id =>
    have hprepared := h.prepared id
    simp only [Sessions.step] at hstep
    split at hstep
    · rename_i a c hstage
      rw [hstage] at hprepared
      split at hstep
      · cases hstep
        exact h.goes {
          stages := rfl
          log := rfl
          interrupted := rfl
          connection := ⟨Nat.le_refl _, by simp [SessionStage.connection]⟩
          nonces := ⟨Nat.le_refl _, by simp⟩
          prepared := trivial
          justified := ⟨trivial, h.justified⟩
          honest := by simp
          ended := by simp [hstage, SessionStage.connection]
          others := by simp }
      · rename_i hclear
        cases hstep
        obtain ⟨harrived, hmatched⟩ := hprepared
        apply h.go
        · split <;> simp [hstage, SessionStage.connection]
        · split
          · exact ⟨List.mem_cons_of_mem _ harrived, List.mem_cons_of_mem _ hmatched, ‹_›,
              List.mem_cons_self⟩
          · exact ⟨List.mem_cons_of_mem _ harrived, List.mem_cons_of_mem _ hmatched⟩
        · exact ⟨fun hmem => hclear (h.flag _ hmem), h.justified⟩
        all_goals simp
    · contradiction
  | gate id answer =>
    have hprepared := h.prepared id
    simp only [Sessions.step] at hstep
    split at hstep
    · rename_i a c hstage
      rw [hstage] at hprepared
      have hreleasing (events : List SessionEvent)
          (hgate : a.gate = true → .gated c true ∈ events ++ s.log) :
          Prepared keyOf (events ++ s.log) (.releasing a c) := by
        obtain ⟨harrived, hmatched, hrelease, hpassed⟩ := hprepared.mono events
        exact ⟨harrived, hmatched, hrelease, hpassed, hgate⟩
      split at hstep
      · cases hstep
        apply h.go
        · split <;> simp [hstage, SessionStage.connection]
        · split
          · exact hreleasing _ (by simp [*])
          · trivial
        · exact ⟨trivial, h.justified⟩
        all_goals simp
      · cases hstep
        apply h.next
        · simp [hstage, SessionStage.connection]
        · exact hreleasing [] (by simp [*])
    · contradiction
  | release id =>
    have hprepared := h.prepared id
    simp only [Sessions.step] at hstep
    split at hstep
    · rename_i a c hstage
      rw [hstage] at hprepared
      cases hstep
      obtain ⟨harrived, hmatched, hrelease, hpassed, hgate⟩ := hprepared
      have hquiet := (h.open_ id c (by rw [hstage]; rfl)).2
      apply h.go
      · simp [hstage, SessionStage.connection]
      · exact ⟨List.mem_cons_of_mem _ harrived, List.mem_cons_of_mem _ hmatched⟩
      · exact ⟨⟨a, harrived, hrelease, rfl, hmatched, hpassed, hquiet, hgate⟩, h.justified⟩
      · intro c' w hsent
        obtain ⟨-, rfl⟩ : c' = c ∧ w = _ := by simpa using hsent
        exact .key a.server
      all_goals simp
    · contradiction
  | challenge id =>
    have hprepared := h.prepared id
    simp only [Sessions.step] at hstep
    split at hstep
    · rename_i a c hstage
      rw [hstage] at hprepared
      cases hstep
      obtain ⟨harrived, hmatched⟩ := hprepared
      apply h.draws
      · simp [hstage, SessionStage.connection]
      · rfl
      · exact ⟨List.mem_cons_of_mem _ (List.mem_cons_of_mem _ harrived),
          List.mem_cons_of_mem _ (List.mem_cons_of_mem _ hmatched), by simp⟩
      · exact .challenge s.nonces
      · simp
    · contradiction
  | confirm id =>
    have hprepared := h.prepared id
    simp only [Sessions.step] at hstep
    split at hstep
    · rename_i a c challenge theirs hstage
      rw [hstage] at hprepared
      cases hstep
      obtain ⟨harrived, hmatched, hdrew, hanswered⟩ := hprepared
      apply h.go
      · simp [SessionStage.connection]
      · trivial
      · refine ⟨⟨List.mem_cons_of_mem _ hmatched, List.mem_cons_of_mem _ hdrew,
          hanswered.mono [_], fun _ => ⟨a, List.mem_cons_of_mem _ harrived, rfl⟩⟩, trivial,
          h.justified⟩
      · intro c' w hsent
        obtain ⟨-, rfl⟩ : c' = c ∧ w = _ := by simpa using hsent
        exact .confirm _ theirs
      all_goals simp
    · contradiction
  | connect id a =>
    simp only [Sessions.step] at hstep
    split at hstep
    · cases hstep
      apply h.opens
      · rfl
      · trivial
      · simp
    · contradiction
  | serverPid id answer =>
    simp only [Sessions.step] at hstep
    split at hstep
    · rename_i a c hstage
      split at hstep
      · cases hstep
        apply h.go
        · split <;> simp [hstage, SessionStage.connection]
        · split <;> exact List.mem_cons_self
        · exact ⟨trivial, h.justified⟩
        all_goals simp
      · exact Option.some.inj hstep ▸ h.ends
    · contradiction
  | receive id w =>
    simp only [Sessions.step] at hstep
    split at hstep
    · rename_i hall
      apply h.receive _ hstep
      intro b hb
      exact Term.derives_iff.mp (List.all_eq_true.mp hall b hb)
    · contradiction
  | fail id =>
    simp only [Sessions.step] at hstep
    split at hstep
    · contradiction
    · exact Option.some.inj hstep ▸ h.ends

theorem Inv.reach (hr : (sessionMachine keyOf).Reachable s) : s.Inv keyOf := by
  apply hr.invariant
  · rintro s rfl
    exact Inv.start keyOf
  · intro s move t h _ hstep
    exact h.step hstep

end Sessions
def sampleKey : Block := .atom (.key 0)

/-- A server releases its key to a client, and both accept. -/
def handshake : List SessionMove :=
  [.accept 0 ⟨0, some 7, true, true⟩, .poll 0, .arrive 0, .clientPid 0 (some 7), .check 0,
    .gate 0 true, .release 0, .connect 1 ⟨some 3, none⟩, .serverPid 1 (some 3),
    .receive 1 ⟨.key, [sampleKey]⟩, .challenge 0, .receive 1 ⟨.challenge, [.atom (.nonce 0)]⟩,
    .receive 0 ⟨.response, [tag sampleKey .client (.atom (.nonce 0)), .atom (.nonce 1)]⟩,
    .confirm 0, .receive 1 ⟨.confirm, [tag sampleKey .server (.atom (.nonce 1))]⟩]

def Sessions.returned (s : Sessions) : List (Role × ConnectionId) :=
  s.log.filterMap fun
    | .accepted role c _ _ => some (role, c)
    | _ => none

end QronosAgent.Ipc

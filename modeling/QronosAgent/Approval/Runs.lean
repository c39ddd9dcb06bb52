import QronosAgent.Approval.Ledger
import QronosAgent.Lib.Machine

/-! Runs of an approval ledger: every call in any order, with whatever the clock says. -/
namespace QronosAgent.Approval
open Lib

variable {π : Type}

inductive LedgerOp (π : Type) where
  | issue (token : ApprovalId) (now : Seconds) (args : IssueArgs π)
  | openTicket (now : Seconds) (kinds : List ApprovalKind)
  | openTickets (now : Seconds)
  | take (now : Seconds) (id : ApprovalId) (kinds : Option (List ApprovalKind))
  | revoke (id : ApprovalId) (reason : PyStr)
  | revokeKinds (kinds : List ApprovalKind) (reason : PyStr)
  | close

inductive LedgerEvent (π : Type) where
  | issued (args : IssueArgs π) (now : Seconds) (ticket : ApprovalTicket π)
  | taken (now : Seconds) (kinds : Option (List ApprovalKind)) (ticket : ApprovalTicket π)
  | revoked (id : ApprovalId)
  | closed

structure LedgerSys (π : Type) where
  ledger : ApprovalLedger π
  drawn : List ApprovalId
  log : List (LedgerEvent π)

namespace LedgerSys
open LedgerEvent

def afterRevoking (s : LedgerSys π) (r : List (ApprovalTicket π) × ApprovalLedger π) :
    LedgerSys π :=
  { s with ledger := r.2, log := r.1.map (fun t => revoked t.approvalId) ++ s.log }

def afterIssue (s : LedgerSys π) (token : ApprovalId) (now : Seconds) (args : IssueArgs π)
    (r : Except IssueError (ApprovalTicket π) × ApprovalLedger π) : LedgerSys π where
  ledger := r.2
  drawn := token :: s.drawn
  log := (r.1.toOption.map fun t => issued args now t).toList ++ s.log

def afterTake (s : LedgerSys π) (now : Seconds) (kinds : Option (List ApprovalKind))
    (r : Except PyStr (ApprovalTicket π) × ApprovalLedger π) : LedgerSys π :=
  { s with ledger := r.2, log := (r.1.toOption.map fun t => taken now kinds t).toList ++ s.log }

/-- The token function never repeats, so a token that was drawn before is not drawn again. -/
def step (ttl : Seconds) (s : LedgerSys π) : LedgerOp π → Option (LedgerSys π)
  | .issue token now args =>
    if token ∈ s.drawn then none
    else some (s.afterIssue token now args (s.ledger.issue ttl token now args))
  | .openTicket now kinds => some { s with ledger := (s.ledger.openTicket now kinds).2 }
  | .openTickets now => some { s with ledger := (s.ledger.openTickets now).2 }
  | .take now id kinds => some (s.afterTake now kinds (s.ledger.take now id kinds))
  | .revoke id reason =>
    let (ticket, ledger) := s.ledger.revoke id reason
    some (s.afterRevoking (ticket.toList, ledger))
  | .revokeKinds kinds reason => some (s.afterRevoking (s.ledger.revokeKinds kinds reason))
  | .close =>
    let s := s.afterRevoking s.ledger.close
    some { s with log := closed :: s.log }

end LedgerSys

def ledgerMachine (ttl : Seconds) : Machine (LedgerSys π) (LedgerOp π) where
  start s := s.ledger = .empty ∧ s.drawn = [] ∧ s.log = []
  step := LedgerSys.step ttl

namespace LedgerEvent

def ends : LedgerEvent π → Option ApprovalId
  | taken _ _ ticket => some ticket.approvalId
  | revoked id => some id
  | _ => none

def issues : LedgerEvent π → Option ApprovalId
  | issued _ _ ticket => some ticket.approvalId
  | _ => none

def Allowed (ttl : Seconds) (before : List (LedgerEvent π)) : LedgerEvent π → Prop
  | issued args now ticket => closed ∉ before ∧
    (∀ e ∈ before, e.issues ≠ some ticket.approvalId) ∧
    ∃ payload, args.payload.payload? ticket.approvalId = some payload ∧
      ticket = args.ticket ttl ticket.approvalId now payload
  | taken now kinds ticket => (∃ args at_, issued args at_ ticket ∈ before) ∧
    (∀ e ∈ before, e.ends ≠ some ticket.approvalId) ∧ closed ∉ before ∧
    (∀ ks, kinds = some ks → ticket.kind ∈ ks) ∧ now < ticket.expiresAt
  | _ => True

def AllAllowed (ttl : Seconds) : List (LedgerEvent π) → Prop
  | [] => True
  | e :: log => e.Allowed ttl log ∧ AllAllowed ttl log

end LedgerEvent

structure Honest (ttl : Seconds) (s : LedgerSys π) : Prop where
  log : LedgerEvent.AllAllowed ttl s.log
  refused : ∀ now id kinds e l, s.ledger.take now id kinds = (.error e, l) → ∀ id' ticket,
    (s.ledger.open_.get? id' = some ticket →
      l.open_.get? id' = some ticket ∨ ticket.expiresAt ≤ now) ∧
    (l.open_.get? id' = some ticket → s.ledger.open_.get? id' = some ticket)
  closed : LedgerEvent.closed ∈ s.log → ∀ now,
    (∀ id kinds, ∃ e, (s.ledger.take now id kinds).1 = .error e) ∧
    ∀ token args, ∃ e, (s.ledger.issue ttl token now args).1 = .error e
  ended : ∀ e ∈ s.log, ∀ id, e.issues = some id → s.ledger.open_.get? id = none →
    ∀ ops s', (ledgerMachine ttl).exec s ops = some s' → ∀ now kinds,
      ∃ e, (s'.ledger.take now id kinds).1 = .error e

/-! What the calls do to the open tickets. -/

namespace ApprovalLedger
variable {l l' : ApprovalLedger π} {now ttl : Seconds} {id : ApprovalId}

structure Shrinks (l l' : ApprovalLedger π) : Prop where
  open_ : ∀ id t, l'.open_.get? id = some t → l.open_.get? id = some t
  closed : l'.closed = l.closed

theorem Shrinks.refl (l : ApprovalLedger π) : l.Shrinks l := ⟨fun _ _ h => h, rfl⟩

theorem get?_settleWhere (p : ApprovalTicket π → Bool) (reason : PyStr) (id : ApprovalId) :
    (l.settleWhere p reason).2.open_.get? id = (l.open_.get? id).filter fun t => !p t :=
  Dict.get?_filter

theorem settleWhere_shrinks (p : ApprovalTicket π → Bool) (reason : PyStr) :
    l.Shrinks (l.settleWhere p reason).2 where
  open_ id t h := by
    rw [get?_settleWhere, Option.filter_eq_some_iff] at h
    exact h.1
  closed := rfl

variable {t : ApprovalTicket π} {kinds : Option (List ApprovalKind)} {token : ApprovalId}
  {args : IssueArgs π}

theorem not_open_of_settled {p : ApprovalTicket π → Bool} {reason : PyStr} {t' : ApprovalTicket π}
    (hkey : ∀ id t, l.open_.get? id = some t → t.approvalId = id)
    (ht : t ∈ (l.settleWhere p reason).1)
    (ho : (l.settleWhere p reason).2.open_.get? t.approvalId = some t') : False := by
  obtain ⟨hmem, hp⟩ := List.mem_filter.mp ht
  obtain ⟨id, hid⟩ := Dict.mem_values.mp hmem
  rw [get?_settleWhere, hkey id t hid, hid, Option.filter_eq_some_iff] at ho
  obtain ⟨heq, hnot⟩ := ho
  cases heq
  simp [hp] at hnot

theorem expire_in_time (h : (l.expire now).open_.get? id = some t) :
    l.open_.get? id = some t ∧ now < t.expiresAt := by
  rw [expire, get?_settleWhere, Option.filter_eq_some_iff] at h
  exact ⟨h.1, by simpa using h.2⟩

theorem take_error {e : PyStr} (h : l.take now id kinds = (.error e, l')) :
    l' = l ∨ l' = l.expire now := by
  unfold take at h
  split at h
  · exact .inl (Prod.mk.inj h).2.symm
  split at h
  · exact .inl (Prod.mk.inj h).2.symm
  dsimp only at h
  split at h
  · exact .inr (Prod.mk.inj h).2.symm
  · split at h
    · exact .inr (Prod.mk.inj h).2.symm
    · cases h

theorem take_ok (h : l.take now id kinds = (.ok t, l')) :
    l.closed = false ∧ l.open_.get? id = some t ∧
      now < t.expiresAt ∧ (∀ ks, kinds = some ks → t.kind ∈ ks) ∧ l.Shrinks l' ∧
      l'.open_.get? id = none := by
  unfold take at h
  split at h
  · cases h
  split at h
  · cases h
  rename_i hclosed
  dsimp only at h
  split at h
  · cases h
  · rename_i ticket hticket
    split at h
    · cases h
    · rename_i hkinds
      obtain ⟨ht, rfl⟩ := Prod.mk.inj h
      cases ht
      obtain ⟨hopen, hnow⟩ := expire_in_time hticket
      refine ⟨by simpa using hclosed, hopen, hnow, fun ks hks => ?_,
        ⟨fun id' t' h' => ?_, rfl⟩, Dict.get?_erase_self⟩
      · subst hks
        simpa using hkinds
      · rw [Dict.get?_erase] at h'
        split at h'
        · contradiction
        · exact (expire_in_time h').1

theorem issue_ok (h : l.issue ttl token now args = (.ok t, l')) : l.closed = false ∧
      (∃ payload, args.payload.payload? token = some payload ∧
        t = args.ticket ttl token now payload) ∧
      l' = { l with open_ := l.open_.set token t } := by
  unfold issue at h
  split at h
  · cases h
  split at h
  · cases h
  · rename_i hclosed _
    split at h
    · cases h
    · rename_i payload hpayload
      obtain ⟨ht, rfl⟩ := Prod.mk.inj h
      cases ht
      exact ⟨by simpa using hclosed, ⟨payload, hpayload, rfl⟩, rfl⟩

theorem issue_error {e : IssueError} (h : l.issue ttl token now args = (.error e, l')) :
    l' = l := by
  unfold issue at h
  split at h
  · exact (Prod.mk.inj h).2.symm
  split at h
  · exact (Prod.mk.inj h).2.symm
  · split at h
    · exact (Prod.mk.inj h).2.symm
    · cases h

end ApprovalLedger

namespace LedgerSys
open LedgerEvent ApprovalLedger

variable {ttl : Seconds} {s s' : LedgerSys π}

structure Inv (ttl : Seconds) (s : LedgerSys π) : Prop where
  allowed : AllAllowed ttl s.log
  key : ∀ id t, s.ledger.open_.get? id = some t → t.approvalId = id
  issued : ∀ id t, s.ledger.open_.get? id = some t → ∃ args at_, issued args at_ t ∈ s.log
  live : ∀ id t, s.ledger.open_.get? id = some t → ∀ e ∈ s.log, e.ends ≠ some id
  drawn : ∀ e ∈ s.log, ∀ id, e.issues = some id ∨ e.ends = some id → id ∈ s.drawn
  closed : LedgerEvent.closed ∈ s.log ↔ s.ledger.closed = true

variable {id : ApprovalId} {l : ApprovalLedger π} {now : Seconds} {op : LedgerOp π}

theorem Inv.key_drawn (hs : Inv ttl s) {t : ApprovalTicket π}
    (h : s.ledger.open_.get? id = some t) : id ∈ s.drawn := by
  obtain ⟨args, at_, hmem⟩ := hs.issued id t h
  exact hs.drawn _ hmem id (.inl (congrArg some (hs.key id t h)))

/-- A call after which fewer tickets are open, and that nothing is said about. -/
theorem Inv.shrink (hs : Inv ttl s) (h : s.ledger.Shrinks l) :
    Inv ttl { s with ledger := l } where
  allowed := hs.allowed
  key id t ht := hs.key id t (h.open_ id t ht)
  issued id t ht := hs.issued id t (h.open_ id t ht)
  live id t ht := hs.live id t (h.open_ id t ht)
  drawn := hs.drawn
  closed := by rw [h.closed]; exact hs.closed

theorem afterIssue_inv {token : ApprovalId} {args : IssueArgs π} (hs : Inv ttl s)
    (htoken : token ∉ s.drawn) :
    Inv ttl (s.afterIssue token now args (s.ledger.issue ttl token now args)) := by
  cases hissue : s.ledger.issue ttl token now args with
  | mk r l =>
    cases r with
    | error e =>
      obtain rfl := issue_error hissue
      exact ⟨hs.allowed, hs.key, hs.issued, hs.live,
        fun e he id hid => List.mem_cons_of_mem _ (hs.drawn e he id hid), hs.closed⟩
    | ok t =>
      obtain ⟨hclosed, ⟨payload, hpayload, ht⟩, rfl⟩ := issue_ok hissue
      have hid : t.approvalId = token := by rw [ht]; rfl
      have hopen : ∀ id t', (s.ledger.open_.set token t).get? id = some t' →
          id = token ∧ t' = t ∨ s.ledger.open_.get? id = some t' := by
        intro id t' h
        rw [Dict.get?_set] at h
        split at h
        · exact .inl ⟨‹_›, (Option.some.inj h).symm⟩
        · exact .inr h
      have hnew : ∀ e ∈ s.log, e.issues ≠ some token ∧ e.ends ≠ some token := by
        intro e he
        constructor
        · exact fun h => htoken (hs.drawn e he token (.inl h))
        · exact fun h => htoken (hs.drawn e he token (.inr h))
      refine ⟨⟨⟨?_, fun e he => ?_, payload, ?_, ?_⟩, hs.allowed⟩, fun id t' h => ?_,
        fun id t' h => ?_, fun id t' h e he => ?_, fun e he id h => ?_, ?_⟩
      · intro hin
        exact Bool.false_ne_true (hclosed.symm.trans (hs.closed.mp hin))
      · rw [hid]
        exact (hnew e he).1
      · rw [hid]
        exact hpayload
      · rw [hid]
        exact ht
      · obtain ⟨rfl, rfl⟩ | h := hopen id t' h
        · exact hid
        · exact hs.key id t' h
      · obtain ⟨rfl, rfl⟩ | h := hopen id t' h
        · exact ⟨args, now, List.mem_cons_self⟩
        · obtain ⟨args', at_, hmem⟩ := hs.issued id t' h
          exact ⟨args', at_, List.mem_cons_of_mem _ hmem⟩
      · obtain rfl | hbefore := List.mem_cons.mp he
        · intro hends
          contradiction
        · obtain ⟨heq, -⟩ | h := hopen id t' h
          · rw [heq]
            exact (hnew e hbefore).2
          · exact hs.live id t' h e hbefore
      · obtain rfl | he := List.mem_cons.mp he
        · obtain h | h := h
          · cases h
            rw [hid]
            exact List.mem_cons_self
          · contradiction
        · exact List.mem_cons_of_mem _ (hs.drawn e he id h)
      · simp only [afterIssue, Except.toOption, Option.map_some, Option.toList_some,
          List.singleton_append, List.mem_cons, reduceCtorEq, false_or]
        exact hs.closed

theorem afterTake_inv {kinds : Option (List ApprovalKind)} (hs : Inv ttl s) :
    Inv ttl (s.afterTake now kinds (s.ledger.take now id kinds)) := by
  cases htake : s.ledger.take now id kinds with
  | mk r l =>
    cases r with
    | error e =>
      have hshrinks : s.ledger.Shrinks l := by
        obtain rfl | rfl := take_error htake
        · exact .refl _
        · exact settleWhere_shrinks _ _
      exact hs.shrink hshrinks
    | ok t =>
      obtain ⟨hclosed, hopen, hnow, hkinds, hshrinks, hgone⟩ := take_ok htake
      obtain ⟨args, at_, hissued⟩ := hs.issued id t hopen
      have hid := hs.key id t hopen
      refine ⟨⟨⟨⟨args, at_, hissued⟩, ?_, ?_, hkinds, hnow⟩, hs.allowed⟩,
        fun id' t' h => hs.key id' t' (hshrinks.open_ id' t' h), fun id' t' h => ?_,
        fun id' t' h e he => ?_, fun e he id' h => ?_, ?_⟩
      · rw [hid]
        exact hs.live id t hopen
      · intro hin
        exact Bool.false_ne_true (hclosed.symm.trans (hs.closed.mp hin))
      · obtain ⟨args', at', hmem⟩ := hs.issued id' t' (hshrinks.open_ id' t' h)
        exact ⟨args', at', List.mem_cons_of_mem _ hmem⟩
      · obtain rfl | he := List.mem_cons.mp he
        · intro heq
          obtain rfl : t.approvalId = id' := Option.some.inj heq
          rw [hid] at h
          exact (nomatch hgone.symm.trans h)
        · exact hs.live id' t' (hshrinks.open_ id' t' h) e he
      · obtain rfl | he := List.mem_cons.mp he
        · obtain h | h := h
          · contradiction
          · obtain rfl : t.approvalId = id' := Option.some.inj h
            rw [hid]
            exact hs.key_drawn hopen
        · exact hs.drawn e he id' h
      · rw [show (s.afterTake now kinds (Except.ok t, l)).ledger.closed = s.ledger.closed from
          hshrinks.closed]
        simp only [afterTake, Except.toOption, Option.map_some, Option.toList_some,
          List.singleton_append, List.mem_cons, reduceCtorEq, false_or]
        exact hs.closed

theorem afterRevoking_inv {gone : List (ApprovalTicket π)} (hs : Inv ttl s)
    (hshrinks : s.ledger.Shrinks l) (hwas : ∀ t ∈ gone, s.ledger.open_.get? t.approvalId = some t)
    (hgone : ∀ t ∈ gone, l.open_.get? t.approvalId = none) :
    Inv ttl (s.afterRevoking (gone, l)) := by
  have hlog : ∀ e ∈ (s.afterRevoking (gone, l)).log,
      (∃ t ∈ gone, e = revoked t.approvalId) ∨ e ∈ s.log := by
    intro e he
    obtain he | he := List.mem_append.mp he
    · obtain ⟨t, ht, rfl⟩ := List.mem_map.mp he
      exact .inl ⟨t, ht, rfl⟩
    · exact .inr he
  refine ⟨?_, fun id t h => hs.key id t (hshrinks.open_ id t h), fun id t h => ?_,
    fun id t h e he => ?_, fun e he id h => ?_, ?_⟩
  · have hall : ∀ es : List (ApprovalTicket π),
        AllAllowed ttl (es.map (fun t => revoked t.approvalId) ++ s.log) := by
      intro es
      induction es with
      | nil => exact hs.allowed
      | cons t es ih => exact ⟨trivial, ih⟩
    exact hall gone
  · obtain ⟨args, at_, hmem⟩ := hs.issued id t (hshrinks.open_ id t h)
    exact ⟨args, at_, List.mem_append_right _ hmem⟩
  · obtain ⟨t', ht', rfl⟩ | he := hlog e he
    · intro heq
      obtain rfl : t'.approvalId = id := Option.some.inj heq
      exact (nomatch (hgone t' ht').symm.trans h)
    · exact hs.live id t (hshrinks.open_ id t h) e he
  · obtain ⟨t, ht, rfl⟩ | he := hlog e he
    · obtain h | h := h
      · contradiction
      · obtain rfl : t.approvalId = id := Option.some.inj h
        exact hs.key_drawn (hwas t ht)
    · exact hs.drawn e he id h
  · have hiff : LedgerEvent.closed ∈ (s.afterRevoking (gone, l)).log ↔
        LedgerEvent.closed ∈ s.log := by
      simp [afterRevoking]
    exact hiff.trans (hs.closed.trans (by rw [← hshrinks.closed]; rfl))

theorem settleWhere_inv (hs : Inv ttl s) (p : ApprovalTicket π → Bool) (reason : PyStr) :
    Inv ttl (s.afterRevoking (s.ledger.settleWhere p reason)) := by
  refine afterRevoking_inv hs (settleWhere_shrinks p reason) (fun t ht => ?_) fun t ht => ?_
  · obtain ⟨id, hid⟩ := Dict.mem_values.mp (List.mem_filter.mp ht).1
    rwa [hs.key id t hid]
  · rw [Option.eq_none_iff_forall_ne_some]
    exact fun t' h => not_open_of_settled hs.key ht h

theorem close_inv (hs : Inv ttl s) :
    Inv ttl { s.afterRevoking s.ledger.close with
      log := LedgerEvent.closed :: (s.afterRevoking s.ledger.close).log } := by
  have hrevoked := settleWhere_inv hs (fun _ => true) staleClosed
  have hnone : ∀ id t, s.ledger.close.2.open_.get? id ≠ some t := by
    intro id t h
    have hfilter := (get?_settleWhere (l := { s.ledger with closed := true }) (fun _ => true)
      staleClosed id).symm.trans h
    simp at hfilter
  refine ⟨⟨trivial, hrevoked.allowed⟩, fun id t h => absurd h (hnone id t),
    fun id t h => absurd h (hnone id t), fun id t h => absurd h (hnone id t), fun e he id h => ?_,
    iff_of_true List.mem_cons_self rfl⟩
  obtain rfl | he := List.mem_cons.mp he
  · obtain h | h := h <;> contradiction
  · exact hrevoked.drawn e he id h

theorem Inv.step (hs : Inv ttl s) (h : s.step ttl op = some s') :
    Inv ttl s' := by
  cases op with
  | issue token now args =>
    simp only [LedgerSys.step] at h
    split at h
    · contradiction
    · exact Option.some.inj h ▸ afterIssue_inv hs ‹_›
  | openTicket | openTickets => exact Option.some.inj h ▸ hs.shrink (settleWhere_shrinks _ _)
  | take => exact Option.some.inj h ▸ afterTake_inv hs
  | revoke id reason =>
    cases h
    cases hopen : s.ledger.open_.get? id with
    | none => exact afterRevoking_inv hs (.refl _) (fun t h => (nomatch h)) fun t h => (nomatch h)
    | some t =>
      have hid := hs.key id t hopen
      refine afterRevoking_inv hs ⟨fun id' t' h => ?_, rfl⟩ (fun t' h => ?_) fun t' h => ?_
      · rw [Dict.get?_erase] at h
        split at h
        · contradiction
        · exact h
      · cases List.mem_singleton.mp h
        rwa [hid]
      · cases List.mem_singleton.mp h
        rw [hid]
        exact Dict.get?_erase_self
  | revokeKinds => exact Option.some.inj h ▸ settleWhere_inv hs _ _
  | close => exact Option.some.inj h ▸ close_inv hs

theorem Inv.reach (hr : (ledgerMachine ttl).Reachable s) : Inv ttl s := by
  refine Machine.Reach.invariant (fun s hs => ?_) (fun s op s' hI _ h => hI.step h) hr
  obtain ⟨hledger, -, hlog⟩ := hs
  have hempty : ∀ id (t : ApprovalTicket π), s.ledger.open_.get? id ≠ some t := by
    intro id t h
    rw [hledger] at h
    contradiction
  refine ⟨by rw [hlog]; trivial, fun id t h => absurd h (hempty id t),
    fun id t h => absurd h (hempty id t), fun id t h => absurd h (hempty id t), fun e he => ?_, ?_⟩
  · rw [hlog] at he
    contradiction
  · rw [hlog, hledger]
    exact iff_of_false List.not_mem_nil Bool.false_ne_true

end LedgerSys

section Samples

def sampleToken : ApprovalId := py "abcdefghijklmnopqrstuvwx"

/-- A drawing is asked for and approved a minute later. -/
def sampleOps : List (LedgerOp ℕ) :=
  [.issue sampleToken 0 ⟨.paintDraw, py "Draw it?", .given 7, none⟩,
    .take 60 sampleToken (some [.paintDraw])]

end Samples
end QronosAgent.Approval

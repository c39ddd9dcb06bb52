import QronosAgent.Library.Records

/-! What a Library operation owes its user: nothing is lost, and the record tells the truth. -/
namespace QronosAgent.Library
open Lib

section
variable {F : Type} [DecidableEq F] (sys : System) (given : Given) (refusal : Call → Option OsError)

def Operation.newPlace (path : Place F) : Operation F → Option (Place F)
  | .rename newName => match validatedFileName sys newName with
    | .ok name => some ⟨path.folder, name⟩
    | .error _ => none
  | .move dest => some ⟨dest, path.name⟩
  | _ => none

def State.fileOf (s : State F) (id : PyStr) : Option (Place F × List UInt8) := do
  let a ← s.records.get? id
  match a.pathOrUrl with
  | .file path => (s.bytes? sys path).map fun bytes => (path, bytes)
  | .url _ => none

def State.Names (t : State F) (id : PyStr) (p : Place F) (bytes : List UInt8) : Prop :=
  (t.records.get? id).map Artifact.pathOrUrl = some (.file p) ∧ t.bytes? sys p = some bytes

def Done (t : State F) (id : PyStr) (path : Place F) (bytes : List UInt8) (new : Option PyStr) :
    Operation F → Prop
  | .copy dest => ∃ n p, new = some n ∧ p.folder = dest ∧ t.Names sys n p bytes
  | .delete => t.records.get? id = none ∧ t.bytes? sys path = none ∧ (path, bytes) ∈ t.recycleBin
  | op => ∃ p ∈ op.newPlace sys path, t.Names sys id p bytes

def Moved (t : State F) (op : Operation F) (path : Place F) (bytes : List UInt8) : Prop :=
  ∃ p ∈ op.newPlace sys path, t.bytes? sys p = some bytes

structure Truthful (s t : State F) (id : PyStr) (op : Operation F)
    (ending : Ending LibraryError (Option PyStr)) : Prop where
  /-- No file is replaced or loses its content; a deleted artifact went to the Recycle Bin. -/
  kept : ∀ p bytes, s.bytes? sys p = some bytes → t.bytes? sys p = some bytes ∨
    ∃ path, s.fileOf sys id = some (path, bytes) ∧ path.key sys = p.key sys ∧
      (Moved sys t op path bytes ∨ op = .delete ∧ (path, bytes) ∈ t.recycleBin)
  recycled : ∀ x ∈ s.recycleBin, x ∈ t.recycleBin
  done : ∀ new, ending = .returned new → ∀ path bytes, s.fileOf sys id = some (path, bytes) →
    Done sys t id path bytes new op
  /-- Everything is as before, or the error says where the file is. -/
  failed : ∀ e, ending = .raised e → t = s ∨
    ∃ path bytes, s.fileOf sys id = some (path, bytes) ∧
      (e = .remains ∧ Moved sys t op path bytes ∨ e = .inRecycleBin ∧ (path, bytes) ∈ t.recycleBin)
  named : ∀ path bytes, s.fileOf sys id = some (path, bytes) →
    t.bytes? sys path = some bytes ∨ Moved sys t op path bytes → ∃ p, t.Names sys id p bytes
  others : ∀ b a, b ≠ id → s.records.get? b = some a →
    (t.records.get? b).map Artifact.pathOrUrl = some a.pathOrUrl
  created : ∀ b a, t.records.get? b = some a →
    (s.records.get? b).map Artifact.pathOrUrl = some a.pathOrUrl ∨
      ∃ p bytes, t.Names sys b p bytes

structure Fresh (s : State F) (id : PyStr) (op : Operation F) : Prop where
  absent : ∀ w folder, s.disk (folder, sys.fold (given.partialName w)) = none
  apart : ∀ w path bytes, s.fileOf sys id = some (path, bytes) → ∀ p : Place F,
    p ∈ op.newPlace sys path ∨ (∃ dest, op = .copy dest ∧ p ∈ copyNames dest path.name) →
      sys.fold p.name ≠ sys.fold (given.partialName w)

/-- The steps of a rename or a move: `back` is how the way back ends from a state, `same` that both
names are one, `changed` what a committed change leaves. -/
def ShiftFine (s moved changed : State F) (same : Prop) (back : State F → Shift) (reached : Reached) :
    Shift → Prop
  | .stayed clean => clean = true
  | .doubled => False
  | .moved _ => match reached with
    | .whole => True
    | .unwritten => match back moved with
      | .stayed _ => same
      | _ => True
    | .written => match back changed with
      | .moved _ => changed.records = s.records
      | _ => True

/-- A copy that could not be registered is removed. -/
def uncopied : Bool := works refusal .createdIsFile && works refusal .createdLstat &&
  works refusal .unlinkCopy

def RenameFine (s : State F) (id : PyStr) (a : Artifact F) (path target : Place F)
    (bytes : List UInt8) : Prop :=
  let moved := s.renamed sys path target
  ShiftFine s moved (housekeeping refusal
      (moved.withRecord id (a.atFile target (identityOf sys given bytes))))
    (target.key sys = path.key sys)
    (fun u => (renameEnd sys refusal .back .artifact
      (u.refuses sys sys.windows target path)).shift)
    (relocateEnd refusal bytes)
    (renameEnd sys refusal .there .artifact (s.refuses sys sys.windows path target)).shift

def MoveFine (s : State F) (id : PyStr) (a : Artifact F) (path target : Place F)
    (bytes : List UInt8) : Prop :=
  let moved := s.renamed sys path target
  let there := moveEnd sys given refusal .there a s bytes path target
  ShiftFine s moved (housekeeping refusal
      (moved.withRecord id (a.atFile target (identityOf sys given bytes)))) False
    (fun u => if there = .moved true then moveEnd sys given refusal .back a u bytes target path
      else (renameEnd sys refusal .back .artifact (u.refuses sys sys.windows target path)).shift)
    (relocateEnd refusal bytes) there

def CopyFine (s : State F) (a : Artifact F) (path : Place F) (dest : F) (bytes : List UInt8) : Prop :=
  match copyEnd sys given refusal .there a s bytes ⟨dest, path.name⟩ (copyNames dest path.name) with
  | .failed named left => named = none ∧ left = false
  | .made c =>
    let made := s.write sys c bytes
    match registerEnd given refusal made c bytes with
    | .whole => True
    | .unwritten => uncopied refusal = true
    | .written => uncopied refusal = true ∧ (housekeeping refusal
        (made.registered given.newId c (identityOf sys given bytes)).2).records = s.records

def DeleteFine : Prop := works refusal .recycle = true →
  if given.takes then works refusal .recycledLstat = true
  else works refusal .recycledExists = true ∨ works refusal .recycledLstat = false ∨
    works refusal (.transaction .remove) = false

def FileFine (s : State F) (id : PyStr) (a : Artifact F) (path : Place F) (bytes : List UInt8) :
    Operation F → Prop
  | .rename newName => ∀ target, Fated.Returns (renameTarget sys given path newName)
      (Fated.refusing refusal) s target s → RenameFine sys given refusal s id a path target bytes
  | .move dest => ∀ target, Fated.Returns (moveTarget sys path dest) (Fated.refusing refusal) s
      target s → MoveFine sys given refusal s id a path target bytes
  | .copy dest => CopyFine sys given refusal s a path dest bytes
  | .delete => DeleteFine given refusal

def LinkFine (s : State F) (id : PyStr) (a : Artifact F) : Operation F → Prop
  | .rename newName => ∀ name, validatedLinkName newName = .ok name → name.strip ≠ [] →
      renameLinkEnd refusal = .written →
        (s.withRecord id { a with name := name.strip }).records = s.records
  | .delete => removeEnd refusal ≠ .written
  | _ => True

def Fine (s : State F) (item : Item F) (op : Operation F) : Prop :=
  ∀ a, Fated.Returns (currentTarget sys given item) (Fated.refusing refusal) s a s →
    match a.pathOrUrl with
    | .file path => ∀ bytes, s.bytes? sys path = some bytes →
      FileFine sys given refusal s item.id a path bytes op
    | .url _ => LinkFine refusal s item.id a op

end

/-! The ways a rename and a move end, each truthful or not. -/

section
variable {F : Type} [DecidableEq F] {sys : System} {given : Given} {refusal : Call → Option OsError}
variable {s t u : State F} {id : PyStr} {a : Artifact F} {path target copy : Place F}
variable {bytes : List UInt8} {op : Operation F} {e : LibraryError}

theorem State.ext (hdisk : t.disk = s.disk) (hbin : t.recycleBin = s.recycleBin)
    (hrecords : t.records = s.records) : t = s := by
  cases s
  cases t
  simp only [State.mk.injEq]
  exact ⟨hdisk, hbin, hrecords⟩

theorem fileOf_eq (hrecord : s.records.get? id = some a) (hpath : a.pathOrUrl = .file path)
    (hbytes : s.bytes? sys path = some bytes) : s.fileOf sys id = some (path, bytes) := by
  unfold State.fileOf
  rw [hrecord]
  show (match a.pathOrUrl with
    | .file path => (s.bytes? sys path).map fun bytes => (path, bytes)
    | .url _ => none) = _
  rw [hpath]
  show (s.bytes? sys path).map _ = _
  rw [hbytes]
  rfl

theorem names_self (hrecord : s.records.get? id = some a) (hpath : a.pathOrUrl = .file path)
    (hbytes : s.bytes? sys path = some bytes) : s.Names sys id path bytes := by
  refine ⟨?_, hbytes⟩
  rw [hrecord, Option.map_some, hpath]

theorem bytes?_key {p q : Place F} (h : p.key sys = q.key sys) : s.bytes? sys p = s.bytes? sys q := by
  unfold State.bytes? State.at?
  rw [h]

/-- Nothing was changed. -/
theorem truthful_refl : Truthful sys s s id op (.raised e) where
  kept := fun _ _ h => .inl h
  recycled := fun _ h => h
  done := fun _ h => by cases h
  failed := fun _ _ => .inl rfl
  named := by
    intro path bytes hfile _
    unfold State.fileOf at hfile
    obtain ⟨a, hrecord, hfile⟩ := Option.bind_eq_some_iff.mp hfile
    split at hfile
    · rename_i p hp
      obtain ⟨bs, hbs, heq⟩ := Option.map_eq_some_iff.mp hfile
      cases heq
      exact ⟨_, names_self hrecord hp hbs⟩
    · cases hfile
  others := by
    intro b a _ h
    rw [h]
    rfl
  created := by
    intro b a h
    rw [h]
    exact .inl rfl

/-- Something was changed, and the error does not say where the file is. -/
theorem not_truthful (hplain : e.isPlain = true) (hne : t ≠ s) :
    ¬ Truthful sys s t id op (.raised e) := by
  intro h
  rcases h.failed e rfl with heq | ⟨path, bytes, -, ⟨rfl, -⟩ | ⟨rfl, -⟩⟩
  · exact hne heq
  · cases hplain
  · cases hplain

/-- The records are as before, but for this one. -/
def Recorded (s t : State F) (id : PyStr) (new : Where F) : Prop :=
  ∀ b, (t.records.get? b).map Artifact.pathOrUrl =
    if b = id then some new else (s.records.get? b).map Artifact.pathOrUrl

theorem recorded_same (hrecord : s.records.get? id = some a) (hrecords : t.records = s.records) :
    Recorded s t id a.pathOrUrl := by
  intro b
  rw [hrecords]
  split
  · rename_i h
    subst h
    rw [hrecord]
    rfl
  · rfl

theorem recorded_housekeeping {a' : Artifact F} (hrecords : u.records = s.records) :
    Recorded s (housekeeping refusal (u.withRecord id a')) id a'.pathOrUrl := by
  intro b
  rw [where_housekeeping]
  unfold State.withRecord
  simp only
  rw [Dict.get?_set, hrecords]
  by_cases hb : b = id
  · rw [if_pos hb, if_pos hb]
    rfl
  · rw [if_neg hb, if_neg hb]

theorem truthful_of {ending : Ending LibraryError (Option PyStr)} {p : Place F}
    (hrecord : s.records.get? id = some a) (hpath : a.pathOrUrl = .file path)
    (hbytes : s.bytes? sys path = some bytes)
    (hkeep : ∀ q bs, q.key sys ≠ path.key sys → s.bytes? sys q = some bs → t.bytes? sys q = some bs)
    (hbin : t.recycleBin = s.recycleBin) (hrecorded : Recorded s t id (.file p))
    (hp : t.bytes? sys p = some bytes)
    (hplace : t.bytes? sys path = some bytes ∨ Moved sys t op path bytes)
    (hdone : ∀ new, ending = .returned new → Done sys t id path bytes new op)
    (hfailed : ∀ e, ending = .raised e → t = s ∨ e = .remains ∧ Moved sys t op path bytes) :
    Truthful sys s t id op ending := by
  have hfile := fileOf_eq hrecord hpath hbytes
  have hnames : t.Names sys id p bytes := ⟨by rw [hrecorded, if_pos rfl], hp⟩
  have hsame : ∀ {path' bytes'}, s.fileOf sys id = some (path', bytes') →
      path' = path ∧ bytes' = bytes := by
    intro path' bytes' h
    rw [hfile] at h
    cases h
    exact ⟨rfl, rfl⟩
  constructor
  · intro q bs hq
    by_cases hkey : q.key sys = path.key sys
    · have hbs : bs = bytes := by
        rw [bytes?_key hkey, hbytes] at hq
        exact (Option.some.inj hq).symm
      subst hbs
      rcases hplace with hstays | hmoved
      · exact .inl (by rw [bytes?_key hkey, hstays])
      · exact .inr ⟨path, hfile, hkey.symm, .inl hmoved⟩
    · exact .inl (hkeep q bs hkey hq)
  · rw [hbin]
    exact fun _ h => h
  · intro new hending path' bytes' h
    obtain ⟨rfl, rfl⟩ := hsame h
    exact hdone new hending
  · intro e hending
    exact (hfailed e hending).imp_right fun h => ⟨path, bytes, hfile, .inl h⟩
  · intro path' bytes' h _
    obtain ⟨rfl, rfl⟩ := hsame h
    exact ⟨p, hnames⟩
  · intro b a' hb h
    rw [hrecorded, if_neg hb, h]
    rfl
  · intro b a' h
    by_cases hb : b = id
    · subst hb
      exact .inr ⟨p, bytes, hnames⟩
    · have hwhere := hrecorded b
      rw [if_neg hb, h] at hwhere
      exact .inl hwhere.symm

theorem at?_renamed_target : (s.renamed sys path target).at? sys target = s.at? sys path :=
  State.at?_put_self

theorem at?_linked_target : (s.linked sys path target).at? sys target = s.at? sys path :=
  State.at?_put_self

def Admitted (sys : System) (s : State F) (path target : Place F) : Prop :=
  s.at? sys target = none ∨ target.key sys = path.key sys

theorem renamed_back (h : Admitted sys s path target) :
    (s.renamed sys path target).renamed sys target path = s := by
  have htarget : (s.renamed sys path target).at? sys target = s.at? sys path :=
    at?_renamed_target
  unfold State.renamed at htarget ⊢
  rw [htarget]
  by_cases hkey : target.key sys = path.key sys
  · have hput : ∀ (u : State F) kind, u.put sys target kind = u.put sys path kind := by
      intro u kind
      unfold State.put
      rw [hkey]
    simp only [hput, State.put_put]
    exact State.put_same rfl
  · have hnone := h.resolve_right hkey
    rw [State.put_put, State.put_comm fun heq => hkey heq.symm, State.put_put,
      State.put_comm hkey, State.put_same rfl, State.put_same hnone]

theorem keep_renamed (h : Admitted sys s path target) {q : Place F} {bs : List UInt8}
    (hq : q.key sys ≠ path.key sys) (hbs : s.bytes? sys q = some bs) :
    (s.renamed sys path target).bytes? sys q = some bs := by
  have hne : q.key sys ≠ target.key sys := by
    intro heq
    rcases h with hnone | hsame
    · rw [bytes?_key heq, State.bytes?_of_none hnone] at hbs
      cases hbs
    · exact hq (heq.trans hsame)
  unfold State.renamed
  rw [State.bytes?_put_ne hne, State.bytes?_put_ne hq, hbs]

/-- A new file at a free name leaves every file. -/
theorem keep_write (hfree : s.at? sys copy = none) {q : Place F} {bs new : List UInt8}
    (hbs : s.bytes? sys q = some bs) : (s.write sys copy new).bytes? sys q = some bs := by
  have hne : q.key sys ≠ copy.key sys := by
    intro heq
    rw [bytes?_key heq, State.bytes?_of_none hfree] at hbs
    cases hbs
  unfold State.write
  rw [State.bytes?_put_ne hne, hbs]

theorem write_ne (hfree : s.at? sys copy = none) {new : List UInt8} : s.write sys copy new ≠ s := by
  intro heq
  have hat : (s.write sys copy new).at? sys copy = some (.file new) := State.at?_put_self
  rw [heq, hfree] at hat
  cases hat

end
end QronosAgent.Library

import QronosAgent.Files.Actions

/-! What the undo of an entry does to a disk that may have changed since. -/
namespace QronosAgent.Files
open Lib

namespace UndoEntry

def textAt (entry : UndoEntry) (key : String) : PyStr := (entry.restoration.lookup (py key)).getD []

def object (plat : Platform) (entry : UndoEntry) : Path :=
  plat.path (entry.textAt (if entry.reversal = .moveBack then "from" else "path"))

def origin (plat : Platform) (entry : UndoEntry) : Path := plat.path (entry.textAt "to")

def Passes (plat : Platform) (fails : Fails) (d : Disk) (entry : UndoEntry) : Prop :=
  entry.textAt "identity" = [] ∨
    identityOf fails d (entry.object plat) = entry.textAt "identity"

structure Recorded (plat : Platform) (entry : UndoEntry) (left : Left) : Prop where
  effect : ∃ fails a done, Goes plat fails left.before a ∧
    Effect plat fails left.before left.after a done ∧ entry.reversal = done.reversal ∧
      entry.restoration = done.restoration

/-- The condition on an undo: what it takes for the object of the action is that object, no link leads
elsewhere, a place that is taken is found to be, and a move is not cut off. -/
structure UndoGoes (plat : Platform) (fails : Fails) (d : Disk) (entry : UndoEntry)
    (left : Left) : Prop where
  same : entry.Passes plat fails d → (d.stat? (entry.object plat)).isSome = true →
    d.Plain (entry.object plat) ∧
      d.get? (entry.object plat) = left.after.get? (entry.object plat)
  back : entry.reversal = .moveBack → entry.Passes plat fails d →
    (d.stat? (entry.object plat)).isSome = true → d.Plain (entry.origin plat) ∧
      (∀ n, d.get? (entry.origin plat) = some n → fails .targetExists = none) ∧ fails.MovesWhole

/-- What the action moved is back, or what it made is gone, and all else is as it was. -/
def Reverses (plat : Platform) (entry : UndoEntry) (left : Left) (d e : Disk) : Prop :=
  ∃ m, left.after.get? (entry.object plat) = some m ∧ d.get? (entry.object plat) = some m ∧
    if entry.reversal = .moveBack then
      ∃ m', d.Takes (entry.object plat) (entry.origin plat) m m' e
    else d.With (entry.object plat) none e

end UndoEntry

/-- No call but `rename` fails; that one does between two volumes. -/
def Fails.Smooth (fails : Fails) : Prop := ∀ call, call ≠ .rename → fails call = none

section
variable {plat : Platform} {chance : Chance} {fails : Fails} {d e : Disk} {entry : UndoEntry}
  {left : Left} {path target source : Path} {n m : Node} {Q : Unit → Disk → Prop}
  {R : Failure → Disk → Prop}

theorem Disk.Makes.empty (h : d.Makes target m e) (htree : d.IsTree) :
    ∀ name, e.get? (name :: target) = none := by
  intro name
  rw [h.left.other (List.cons_ne_self name target)]
  cases hget : d.get? (name :: target) with
  | none => rfl
  | some n =>
    have hfolder := htree.2 name target n hget
    rw [h.free] at hfolder
    cases hfolder

structure Unchanged (fails : Fails) (left : Left) (d : Disk) : Prop where
  smooth : fails.Smooth
  same : ∀ p, d.get? p = left.after.get? p
  tree : left.before.IsTree

theorem UndoEntry.textAt_eq {key : String} {text : PyStr}
    (h : entry.restoration.lookup (py key) = some text) : entry.textAt key = text := by
  rw [UndoEntry.textAt, h, Option.getD_some]

theorem object_made (hreversal : entry.reversal = .deleteCreated) (hnamed : Named plat target)
    (hpath : entry.restoration.lookup (py "path") = some (plat.text target)) :
    entry.object plat = target := by
  rw [UndoEntry.object, hreversal, if_neg (by decide), UndoEntry.textAt_eq hpath, hnamed.named]

theorem object_moved (hreversal : entry.reversal = .moveBack) (hnamed : Named plat target)
    (hfrom : entry.restoration.lookup (py "from") = some (plat.text target)) :
    entry.object plat = target := by
  rw [UndoEntry.object, hreversal, if_pos rfl, UndoEntry.textAt_eq hfrom, hnamed.named]

theorem origin_moved (hnamed : Named plat source)
    (hto : entry.restoration.lookup (py "to") = some (plat.text source)) :
    entry.origin plat = source := by
  rw [UndoEntry.origin, UndoEntry.textAt_eq hto, hnamed.named]

end
end QronosAgent.Files

import Mathlib.Logic.Relation
import QronosAgent.Lib.JsonRoundTrip
import QronosAgent.Memory.Steps

/-! A memory that was replaced or deleted does not come back, and one memory replaces it, as long as no
step acts on what was overtaken. -/
namespace QronosAgent.Memory
open Lib

section
variable {F : Type}

variable {texts : Texts} {s s' : World F} {id x y : PyStr} {r r' : Record F}

theorem Evolves.trans {s'' : World F} (h : Evolves s s') (h' : Evolves s' s'') : Evolves s s'' := by
  refine ⟨fun id hid => h'.used id (h.used id hid), fun id r'' hr'' hid => ?_⟩
  obtain ⟨r', hr', htarget', hrank'⟩ := h'.row id r'' hr'' (h.used id hid)
  obtain ⟨r, hr, htarget, hrank⟩ := h.row id r' hr' hid
  exact ⟨r, hr, htarget'.trans htarget, hrank.trans hrank'⟩

end

/-! What the steps of a run do to a record. -/

section
variable {F : Type} [PyFloat F] {texts : Texts} {provider : Provider} {s s' : World F}

/-- A task that is not at one of the five transactions leaves the records as they are. -/
def Task.reads : Task F → Bool
  | .insert _ | .activating _ _ _ | .approving _ | .deleteRow _ | .writeBack _ => false
  | _ => true

theorem inv_of_reach (hr : (memoryMachine F texts provider).Reach Meets s) : Inv texts s := by
  apply hr.invariant
  · rintro s₀ ⟨hrecords, -, htasks, hanswers⟩
    have hnone : ∀ id, s₀.records.get? id = none := by
      intro id
      rw [hrecords]
      rfl
    constructor
    case tasks =>
      intro i t ht
      rw [htasks] at ht
      cases ht
    case answers =>
      intro a ha
      rw [hanswers] at ha
      cases ha
    all_goals
      intros
      simp_all
  · intro s₁ a s₂ h hmeets hs
    exact h.step hmeets hs

end

def sampleTexts : Texts := ⟨id, id⟩

def sampleProvider : Provider := ⟨py "m", py "1"⟩

def sampleMachine : Machine (World WholeFloat) (Action WholeFloat) :=
  memoryMachine WholeFloat sampleTexts sampleProvider

def sampleWorld : World WholeFloat := ⟨.empty, ⟨[], 0, [], []⟩, true, [], .empty, []⟩

theorem sampleWorld_start : sampleMachine.start sampleWorld := ⟨rfl, rfl, rfl, rfl⟩

/-- A normal memory that the user states. -/
def sampleCandidate (value supersedesId : PyStr) : Candidate WholeFloat :=
  ⟨value, py "preference", py "global", [], ⟨1⟩, py "explicit", py "normal", py "user", false,
    supersedesId⟩

/-- Steps of one operation; `ready` tells whether the provider answers. -/
def sampleSteps (i n : ℕ) (ready : Bool) (newId : PyStr) : List (Action WholeFloat) :=
  List.replicate n (.advance i ⟨ready, some 1, newId, none, ⟨0⟩, ⟨0⟩⟩)

/-- `create_candidate`, until it returns. -/
def sampleCreate (i : ℕ) (ready : Bool) (newId supersedesId : PyStr) : List (Action WholeFloat) :=
  .call i (.createCandidate (sampleCandidate newId supersedesId)) ::
    sampleSteps i (if ready then if supersedesId = [] then 7 else 9
      else if supersedesId = [] then 4 else 5) ready newId

/-- A rebuild lists `A`, and `B` takes the place of `A`. -/
def overtaken : List (Action WholeFloat) :=
  sampleCreate 0 true (py "A") [] ++ .call 1 .rebuildIndex :: sampleSteps 1 4 true [] ++
    sampleCreate 2 true (py "B") (py "A")

end QronosAgent.Memory

import StructureEditor.Text.Inspect

/-! The record of what was done and undone. Both stacks have their newest step first. While a
group is open, steps are collected in it; while the history is paused, nothing is recorded. -/
namespace StructureEditor

/-- Edits that can be named and that may merge with the edit right after them. -/
class Undoable (ε : Type) where
  description : ε → String
  merge? : ε → ε → Option ε

/-- What one undo takes back: an edit, or a group in the order of application. -/
inductive Step (ε : Type) where
  | single (edit : ε)
  | group (description : String) (steps : List (Step ε))

namespace Step

variable {ε : Type}

mutual

def edits : Step ε → List ε
  | .single edit => [edit]
  | .group _ steps => editsOf steps

def editsOf : List (Step ε) → List ε
  | [] => []
  | step :: rest => edits step ++ editsOf rest

end

def description [Undoable ε] : Step ε → String
  | .single edit => Undoable.description edit
  | .group description _ => description

/-- Groups never merge. -/
def merge? [Undoable ε] : Step ε → Step ε → Option (Step ε)
  | .single first, .single second => (Undoable.merge? first second).map .single
  | _, _ => none

mutual

def inspect (shown : ε → String) : Step ε → String
  | .single edit => shown edit
  | .group description steps =>
    Text.record "CompoundEdit"
      [("description", Text.quoted description), ("edits", Text.list (inspectAll shown steps))]

def inspectAll (shown : ε → String) : List (Step ε) → List String
  | [] => []
  | step :: rest => inspect shown step :: inspectAll shown rest

end

end Step

structure History (ε : Type) where
  done : List (Step ε) := []
  undone : List (Step ε) := []
  collected : Option (List (Step ε)) := none
  active : Bool := true
  /-- How many steps are kept; zero keeps all. -/
  limit : Nat := 100

structure Pause where
  wasActive : Bool
deriving DecidableEq, Repr

namespace History

variable {ε : Type}

def isOpen (h : History ε) : Bool := h.collected.isSome

theorem isOpen_eq_false_iff {h : History ε} : h.isOpen = false ↔ h.collected = none := by
  simp [isOpen]

def canUndo (h : History ε) : Bool := !h.done.isEmpty
def canRedo (h : History ε) : Bool := !h.undone.isEmpty
def undoCount (h : History ε) : Nat := h.done.length
def redoCount (h : History ε) : Nat := h.undone.length

def undoLabel [Undoable ε] (h : History ε) : Option String :=
  h.done.head?.map fun step => "Undo " ++ step.description

def redoLabel [Undoable ε] (h : History ε) : Option String :=
  h.undone.head?.map fun step => "Redo " ++ step.description

/-- Puts a step on top of a stack, or merges it with the top. -/
def push [Undoable ε] (step : Step ε) : List (Step ε) → List (Step ε)
  | [] => [step]
  | top :: rest =>
    match top.merge? step with
    | some merged => merged :: rest
    | none => step :: top :: rest

def trim {α : Type} (limit : Nat) (stack : List α) : List α :=
  if 0 < limit ∧ limit < stack.length then stack.dropLast else stack

def commit [Undoable ε] (step : Step ε) (h : History ε) : History ε :=
  { h with done := trim h.limit (push step h.done) }

/-- Records a step that has been applied. What was undone before it is lost. -/
def record [Undoable ε] (step : Step ε) (h : History ε) : History ε :=
  if h.active then
    let h := { h with undone := [] }
    match h.collected with
    | some steps => { h with collected := some (push step steps) }
    | none => h.commit step
  else h

def begin (h : History ε) : History ε := { h with collected := some [] }

/-- Closes a group of these steps, newest first. A group of one is that step. -/
def close [Undoable ε] (description : String) (steps : List (Step ε)) (h : History ε) :
    History ε :=
  let h := { h with collected := none }
  match steps with
  | [] => h
  | [step] => h.commit step
  | steps => h.commit (.group description steps.reverse)

def clear (h : History ε) : History ε :=
  { h with done := [], undone := [], collected := none }

def pause (h : History ε) : Pause × History ε := (⟨h.active⟩, { h with active := false })

/-- Ends a pause by bringing back what it found. -/
def resume (pause : Pause) (h : History ε) : History ε := { h with active := pause.wasActive }

def inspect (shown : ε → String) (h : History ε) : String :=
  Text.record "UndoManager"
    [("undo_stack", Text.list (Step.inspectAll shown h.done.reverse)),
     ("redo_stack", Text.list (Step.inspectAll shown h.undone.reverse)),
     ("compound_open", Text.bool h.isOpen),
     ("active", Text.bool h.active),
     ("max_levels", toString h.limit)]

end History

abbrev HistoryId := Nat

/-- All histories by number. Whoever names one finds it: one that nobody has made yet is empty. -/
structure Histories (ε : Type) where
  count : Nat := 0
  get : HistoryId → History ε := fun _ => {}

namespace Histories

variable {ε : Type}

def set (h : HistoryId) (history : History ε) (hs : Histories ε) : Histories ε :=
  { hs with get := fun other => if other = h then history else hs.get other }

def add (history : History ε) (hs : Histories ε) : HistoryId × Histories ε :=
  (hs.count, { hs.set hs.count history with count := hs.count + 1 })

variable {h other : HistoryId} {history : History ε} {hs : Histories ε}

@[simp] theorem get_set_self : (hs.set h history).get h = history := if_pos rfl

@[simp] theorem get_set_of_ne (different : other ≠ h) :
    (hs.set h history).get other = hs.get other := if_neg different

@[simp] theorem set_get : hs.set h (hs.get h) = hs := by
  obtain ⟨count, get⟩ := hs
  simp only [set, mk.injEq, true_and]
  funext other
  split
  · next same => rw [same]
  · rfl

@[simp] theorem set_set (later : History ε) :
    (hs.set h history).set h later = hs.set h later := by
  simp only [set, mk.injEq, true_and]
  funext other
  split <;> rfl

end Histories

end StructureEditor

import StructureEditor.Action
import StructureEditor.History.Basic

/-! Working with a history that is part of a larger state: replaying steps on that state,
grouping and pausing around an action. -/
namespace StructureEditor

/-- Where in a state a history is kept. -/
structure HistoryLens (σ ε : Type) where
  view : σ → History ε
  put : History ε → σ → σ

namespace HistoryLens

variable {σ ε α : Type}

def update (lens : HistoryLens σ ε) (f : History ε → History ε) (s : σ) : σ :=
  lens.put (f (lens.view s)) s

def record [Undoable ε] (lens : HistoryLens σ ε) (step : Step ε) : Action σ Unit :=
  modify (lens.update (·.record step))

/-- Runs an action with recording off, and brings the flag back however the action ends. -/
def paused (lens : HistoryLens σ ε) (action : Action σ α) : Action σ α := fun s =>
  let (pause, paused) := (lens.view s).pause
  action.ensuring (lens.update (·.resume pause)) (lens.put paused s)

def begin (lens : HistoryLens σ ε) : Action σ Unit := do
  let h := lens.view (← get)
  if h.isOpen then Action.fault .groupAlreadyOpen
  modify (lens.put h.begin)

def finish [Undoable ε] (lens : HistoryLens σ ε) (description : String) : Action σ Unit := do
  let h := lens.view (← get)
  match h.collected with
  | some steps => modify (lens.put (h.close description steps))
  | none => Action.fault .noGroupOpen

/-- Runs an action as one step. Inside an open group, or while paused, it just runs. The
group is closed also when the action is refused. -/
def grouped [Undoable ε] (lens : HistoryLens σ ε) (description : String)
    (action : Action σ α) : Action σ α := do
  let h := lens.view (← get)
  if !h.active || h.isOpen then action
  else
    lens.begin
    let result ← action.attempt
    lens.finish description
    Action.ofExcept result

abbrev Replay (σ ε : Type) := Direction → ε → Action σ Unit

/-- Replays a step: backwards from its last edit, or forwards from its first. -/
def replayStep (replay : Replay σ ε) (direction : Direction) (step : Step ε) :
    Action σ Unit :=
  match direction with
  | .undo => step.edits.reverse.forM (replay .undo)
  | .redo => step.edits.forM (replay .redo)

/-- Takes back the newest step. A step whose replay is refused is dropped. -/
def undo (lens : HistoryLens σ ε) (replay : Replay σ ε) : Action σ Bool := do
  let h := lens.view (← get)
  if h.isOpen then Action.fault (.groupOpen .undo)
  match h.done with
  | [] => return false
  | step :: rest =>
    modify (lens.put { h with done := rest })
    lens.paused (replayStep replay .undo step)
    modify (lens.update fun h => { h with undone := step :: h.undone })
    return true

def redo (lens : HistoryLens σ ε) (replay : Replay σ ε) : Action σ Bool := do
  let h := lens.view (← get)
  if h.isOpen then Action.fault (.groupOpen .redo)
  match h.undone with
  | [] => return false
  | step :: rest =>
    modify (lens.put { h with undone := rest })
    lens.paused (replayStep replay .redo step)
    modify (lens.update fun h => { h with done := step :: h.done })
    return true

end HistoryLens

end StructureEditor

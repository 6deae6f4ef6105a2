import StructureEditor.Workspace.Restore

namespace StructureEditor.Workspace

variable {S : Signature} [Language S]

def replayInsert (list : Locator) (index : Nat) (item : Snapshot) : Editing S Unit := do
  let list ← ask (·.find list)
  let item ← rebuild item (← lookup list).context
  attachItem list index item

def replayRemove (list : Locator) (index : Nat) : Editing S Unit := do
  dropItem (← ask (·.find list)) index

def replay : Direction → Edit → Editing S Unit
  | .undo, .text editor old _ oldItem _ => do
    writeToken (← ask (·.find editor)) old oldItem false
  | .redo, .text editor _ new _ newItem => do
    writeToken (← ask (·.find editor)) new newItem false
  | .undo, .transition expander before _ _ => do
    restoreState (← ask (·.find expander)) before
  | .redo, .transition expander _ after _ => do
    restoreState (← ask (·.find expander)) after
  | .undo, .insertion list index _ | .redo, .removal list index _ =>
    replayRemove list index
  | .redo, .insertion list index item | .undo, .removal list index item =>
    replayInsert list index item
  | .undo, .replacement editor before _ _ => do restore (← ask (·.find editor)) before
  | .redo, .replacement editor _ after _ => do restore (← ask (·.find editor)) after

def undo (h : HistoryId) : Editing S Bool := (historyLens h).undo replay

def redo (h : HistoryId) : Editing S Bool := (historyLens h).redo replay

end StructureEditor.Workspace

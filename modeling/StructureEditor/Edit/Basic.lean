import StructureEditor.History.Basic
import StructureEditor.Snapshot.Basic

/-! The edits that a document records. Each names its editor by a locator, which is followed
anew on every replay, and carries the snapshots that a replay needs. -/
namespace StructureEditor

inductive Edit where
  | text (editor : Locator) (old new : String) (oldItem newItem : Option Candidate)
  | transition (expander : Locator) (before after : Display Snapshot) (description : String)
  | insertion (list : Locator) (index : Nat) (item : Snapshot)
  | removal (list : Locator) (index : Nat) (item : Snapshot)
  | replacement (editor : Locator) (before after : Snapshot) (description : String)

namespace Edit

def description : Edit → String
  | .text .. => "Editing"
  | .transition _ _ _ description => description
  | .insertion .. => "Add item"
  | .removal .. => "Remove item"
  | .replacement _ _ _ description => description

/-- Two changes of one token's text are one change. -/
def merge? : Edit → Edit → Option Edit
  | .text editor old _ oldItem _, .text next _ new _ newItem =>
    if editor = next then some (.text editor old new oldItem newItem) else none
  | _, _ => none

instance : Undoable Edit where
  description := description
  merge? := merge?

end Edit

end StructureEditor

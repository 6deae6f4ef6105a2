import StructureEditor.Arena.Query
import StructureEditor.Snapshot.Basic

namespace StructureEditor.Arena

variable {S : Signature} [Language S]

def snapshotWithin (a : Arena S) : Nat → Handle → Except Refusal Snapshot
  | 0, id => throw (.stale id)
  | depth + 1, id => do
    let state := (← a.get id).state
    let name := some state.classKey.name
    match state with
    | .token _ text item => return .ofToken name text item
    | .expander _ (.text text item) => return .ofExpander name (.text text item)
    | .expander _ (.expanded content) =>
      return .ofExpander name (.expanded (← a.snapshotWithin depth content))
    | .compound _ components =>
      return .compound name (← components.mapM (a.snapshotWithin depth))
    | .list _ items => return .list name (← items.mapM (a.snapshotWithin depth))

def snapshot (a : Arena S) (id : Handle) : Except Refusal Snapshot :=
  a.snapshotWithin a.reach id

def displaySnapshot (a : Arena S) (id : Handle) : Except Refusal (Display Snapshot) := do
  match ← a.displayOf id with
  | .text text item => return .text text item
  | .expanded content => return .expanded (← a.snapshot content)

def copy (a : Arena S) (id : Handle) : Except Refusal Snapshot := do
  if ← a.isCopyable id then a.snapshot id else throw (.notCopyable id)

end StructureEditor.Arena

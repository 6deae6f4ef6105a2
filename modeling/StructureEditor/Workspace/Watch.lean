import StructureEditor.Workspace.Basic

/-! Views of editors. An editor does not keep a view alive: a dropped view is told nothing
and is forgotten when the editor's views change next. -/
namespace StructureEditor.Workspace

variable {S : Signature}

def newView : Editing S ViewId :=
  Action.change fun w => (w.views.size, { w with views := w.views.push true })

def dropView (view : ViewId) : Editing S Unit :=
  modify fun w => { w with views := w.views.setIfInBounds view false }

def alive (w : Workspace S) (views : List ViewId) : List ViewId :=
  views.filter fun v => w.views.getD v false

def viewCount (w : Workspace S) (editor : Editor S) : Nat := (w.alive editor.views).length

/-- What a new view is told: the result, and then what the editor shows. -/
def greeting (editor : Editor S) : List (Notice S) :=
  .resultChanged editor.result :: match editor.state with
    | .token _ text _ => [.displayText text]
    | .expander _ (.text text _) => [.displayText text]
    | .expander _ (.expanded content) => [.expanded content]
    | .compound .. => []
    | .list _ items => items.mapIdx fun index item => .itemAdded index item

def watch (id : Handle) (view : ViewId) : Editing S Unit := do
  let editor ← lookup id
  modify fun w =>
    let views := w.alive editor.views ++ [view]
    { w with
      arena := w.arena.modify id fun editor => { editor with views }
      journal := w.journal ++ (greeting editor).map (Event.notice view) }

/-- Detaches a view. The answer is whether the editor has fewer views than before. -/
def unwatch (id : Handle) (view : ViewId) : Editing S Bool := do
  let before := (← lookup id).views
  let after := (← get).alive (before.filter (· != view))
  change (·.modify id fun editor => { editor with views := after })
  return after.length < before.length

end StructureEditor.Workspace

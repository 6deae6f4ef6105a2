import StructureEditor.Workspace.Transition

/-! Pasting snapshots, and recording an arbitrary action as one edit. -/
namespace StructureEditor.Workspace

variable {S : Signature} [Language S] {α β : Type}

/-- Pastes content into an expander. It is built detached first, so that content that cannot
be built or is not accepted leaves the expander alone. -/
def pasteContent (id : Handle) (s : Snapshot) : Editing S Bool := do
  let (c, context) ← contentScope id
  match ← (rebuild s context).attempt with
  | .error _ => return false
  | .ok editor =>
    if (Language.expander c).admits (← ask (·.keyOf editor)) then
      recordTransition id "Paste" do
        if ← ask (·.isExpanded id) then dropContent id
        let _ ← fill id editor
      return true
    else
      dispose editor
      return false

def pasteExpander (id : Handle) (s : Snapshot) : Editing S Bool := do
  match s.display? with
  | some (.expanded content) => pasteContent id content
  | some state =>
    recordTransition id "Paste" (restoreState id state)
    return true
  | none => pasteContent id s

def paste (id : Handle) (s : Snapshot) : Editing S Bool := do
  match ← ask (·.shapeOf id) with
  | .token =>
    match s.tokenState? with
    | some (text, item) =>
      writeToken id text item true
      return true
    | none => return false
  | .expander => pasteExpander id s
  | _ => Action.refuse (.notCopyable id)

/-- Runs an action with recording off and, if it succeeds, records the snapshots around it as
one edit. The action reports something beside its result, which is passed on however the
edit ends. -/
def replacingReporting (id : Handle) (description : String)
    (action : Editing S (β × Except Refusal α)) :
    Editing S (β × Except Refusal α) := do
  let context := (← lookup id).context
  let locator ← ask (·.locate id)
  let before ← ask (·.snapshot id)
  let (report, result) ← unrecorded context action
  match result with
  | .error error => return (report, .error error)
  | .ok value =>
    let recorded ← Action.attempt do
      let after ← ask (·.snapshot id)
      recordIfActive id (return .replacement locator before after description)
    return (report, recorded.map fun _ => value)

def replacing (id : Handle) (description : String) (action : Editing S α) :
    Editing S α := do
  let (_, result) ← replacingReporting id description do
    return ((), ← action.attempt)
  Action.ofExcept result

end StructureEditor.Workspace

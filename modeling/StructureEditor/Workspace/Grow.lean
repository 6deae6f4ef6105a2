import StructureEditor.Workspace.Restore

/-! Putting editors together: compounds and expanders made from existing roots, and lists
that gain and lose items. Changes of lists are recorded. -/
namespace StructureEditor.Workspace

variable {S : Signature} [Language S]

def gather (context : Context) : List Handle → Editing S (List Handle)
  | [] => return []
  | id :: rest => do
    if (← lookup id).parent.isSome then Action.refuse (.attached id)
    let moved ← relocate id context
    return moved :: (← gather context rest)

def assemble (c : S.CompoundClass) (components : List Handle) (context : Context) :
    Editing S Handle := do
  let behaviour := Language.compound c
  if components.length ≠ behaviour.components.length then
    Action.refuse (.wrongCount behaviour.name behaviour.components.length components.length)
  enter context (.compound c (← gather context components))

def wrap (c : S.ExpanderClass) (editor : Handle) (context : Context) :
    Editing S Handle := do
  let id ← newExpander c "" context
  orDispose id do
    let _ ← fill id editor

def removeDocument (id : Handle) : Editing S Unit := do
  if (← lookup id).parent.isSome then Action.refuse (.attached id)
  dispose id

/-- Inserts a root editor into a list. The answer is the item, which is a copy if the editor
came from another context. -/
def placeItem (list : Handle) (index : Nat) (editor : Handle) :
    Editing S Handle := do
  checkGap list index
  if (← lookup editor).parent.isSome then Action.refuse (.attached editor)
  let item ← relocate editor (← lookup list).context
  attachItem list index item
  recordIfActive list do
    return .insertion (← ask (·.locate list)) index (← ask (·.snapshot item))
  return item

def openItem (list : Handle) (index : Nat) : Editing S Handle := do
  checkGap list index
  let (c, _) ← ask (·.list list)
  let item ← create (Language.list c).element (← lookup list).context
  placeItem list index item

def removeAt (list : Handle) (index : Nat) : Editing S Unit := do
  let item ← itemAt list index
  match ← recording? list with
  | some _ =>
    let edit : Edit := .removal (← ask (·.locate list)) index (← ask (·.snapshot item))
    dropItem list index
    recordIfActive list (return edit)
  | none => dropItem list index

end StructureEditor.Workspace

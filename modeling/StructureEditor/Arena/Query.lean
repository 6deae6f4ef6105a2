import StructureEditor.Arena.Basic

namespace StructureEditor.Arena

variable {S : Signature}

def shapeOf (a : Arena S) (id : Handle) : Except Refusal Shape := do
  return (← a.get id).state.shape

def result (a : Arena S) (id : Handle) : Except Refusal (Outcome S.Value) := do
  return (← a.get id).result

def parent (a : Arena S) (id : Handle) : Except Refusal (Option Handle) := do
  return (← a.get id).parent

def context (a : Arena S) (id : Handle) : Except Refusal Context := do
  return (← a.get id).context

def children (a : Arena S) (id : Handle) : Except Refusal (List Handle) := do
  return (← a.get id).state.children

def keyOf (a : Arena S) (id : Handle) : Except Refusal (ClassKey S) := do
  return (← a.get id).state.classKey

def wrongShape (id : Handle) (expected : String) (editor : Editor S) : Refusal :=
  .wrongShape id expected editor.state.shape

def token (a : Arena S) (id : Handle) :
    Except Refusal (S.TokenClass × String × Option Candidate) := do
  let editor ← a.get id
  match editor.state with
  | .token c text item => return (c, text, item)
  | _ => throw (wrongShape id "token" editor)

def expander (a : Arena S) (id : Handle) :
    Except Refusal (S.ExpanderClass × Display Handle) := do
  let editor ← a.get id
  match editor.state with
  | .expander c state => return (c, state)
  | _ => throw (wrongShape id "expander" editor)

def compound (a : Arena S) (id : Handle) :
    Except Refusal (S.CompoundClass × List Handle) := do
  let editor ← a.get id
  match editor.state with
  | .compound c components => return (c, components)
  | _ => throw (wrongShape id "compound" editor)

def list (a : Arena S) (id : Handle) : Except Refusal (S.ListClass × List Handle) := do
  let editor ← a.get id
  match editor.state with
  | .list c items => return (c, items)
  | _ => throw (wrongShape id "list" editor)

def textOf (a : Arena S) (id : Handle) : Except Refusal String := do
  return (← a.token id).2.1

def displayOf (a : Arena S) (id : Handle) : Except Refusal (Display Handle) := do
  return (← a.expander id).2

def isExpanded (a : Arena S) (id : Handle) : Except Refusal Bool := do
  return (← a.displayOf id).isExpanded

def shownText (a : Arena S) (id : Handle) : Except Refusal (Option String) := do
  match ← a.displayOf id with
  | .text text _ => return some text
  | .expanded _ => return none

def contentOf (a : Arena S) (id : Handle) : Except Refusal (Option Handle) := do
  match ← a.displayOf id with
  | .expanded content => return some content
  | .text .. => return none

def components (a : Arena S) (id : Handle) : Except Refusal (List Handle) := do
  return (← a.compound id).2

def items (a : Arena S) (id : Handle) : Except Refusal (List Handle) := do
  return (← a.list id).2

def component (a : Arena S) (id : Handle) (index : Nat) : Except Refusal Handle := do
  let components ← a.components id
  match components[index]? with
  | some child => return child
  | none => throw (.outOfRange index components.length)

def isCopyable (a : Arena S) (id : Handle) : Except Refusal Bool := do
  match ← a.shapeOf id with
  | .token | .expander => return true
  | .compound | .list => return false

def childAt? : EditorState S → Position → Option Handle
  | .expander _ (.expanded content), .content => some content
  | .compound _ components, .component index => components[index]?
  | .list _ items, .item index => items[index]?
  | _, _ => none

def childAt (a : Arena S) (id : Handle) (position : Position) :
    Except Refusal Handle := do
  match childAt? (← a.get id).state position with
  | some child => return child
  | none => throw (.noChild id position)

def placeOf? (child : Handle) : EditorState S → Option Position
  | .token .. => none
  | .expander .. => some .content
  | .compound _ components => (components.idxOf? child).map .component
  | .list _ items => (items.idxOf? child).map .item

def positionOf (a : Arena S) (id : Handle) :
    Except Refusal (Option (Handle × Position)) := do
  match (← a.get id).parent with
  | none => return none
  | some parent => return (placeOf? id (← a.get parent).state).map (parent, ·)

/-- Climbs towards the root, collecting the way down. -/
def locateWithin (a : Arena S) : Nat → Handle → List Position → Except Refusal Locator
  | 0, id, path => return ⟨id, path⟩
  | steps + 1, id, path => do
    match ← a.positionOf id with
    | some (parent, position) => a.locateWithin steps parent (position :: path)
    | none => return ⟨id, path⟩

/-- A name for the editor that survives its being rebuilt. -/
def locate (a : Arena S) (id : Handle) : Except Refusal Locator :=
  a.locateWithin a.reach id []

def follow (a : Arena S) (id : Handle) (path : List Position) : Except Refusal Handle :=
  path.foldlM (fun id position => a.childAt id position) id

def find (a : Arena S) (l : Locator) : Except Refusal Handle := a.follow l.root l.path

def topWithin (a : Arena S) : Nat → Handle → Except Refusal Handle
  | 0, id => return id
  | steps + 1, id => do
    match ← a.parent id with
    | some parent => a.topWithin steps parent
    | none => return id

def topOf (a : Arena S) (id : Handle) : Except Refusal Handle :=
  a.topWithin a.reach id

end StructureEditor.Arena

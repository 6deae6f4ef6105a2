import StructureEditor.Workspace.Build

/-! Bringing editors into recorded states. Content is built detached and attached when it is
complete; an editor from another context is replaced by a copy built in the context it goes
to. Each of these steps may need to restore what is below, so they take the restoring of
smaller snapshots as an argument, and the knot is tied at the end. -/
namespace StructureEditor.Workspace

variable {S : Signature} [Language S]

def showText (id : Handle) (text : String) (item : Option Candidate) :
    Editing S Unit := do
  let (c, _) ← ask (·.expander id)
  setState id (.expander c (.text text item))
  tell id (.displayText text)
  recompute id

/-- Discards the content of an expander, which shows the empty text from now on. -/
def dropContent (id : Handle) : Editing S Unit := do
  match ← ask (·.expander id) with
  | (_, .text ..) => Action.fault (.notExpanded id)
  | (c, .expanded content) =>
    setState id (.expander c .initial)
    remark ((Language.expander c).remarkOnReset id content ((← get).arena.contains content))
    dispose content
    recompute id
    tell id .reset

def checkGap (list : Handle) (index : Nat) : Editing S Unit := do
  let length := (← ask (·.items list)).length
  if length < index then Action.refuse (.outOfRange index length)

def itemAt (list : Handle) (index : Nat) : Editing S Handle := do
  let items ← ask (·.items list)
  match items[index]? with
  | some item => return item
  | none => Action.refuse (.outOfRange index items.length)

def attachItem (list : Handle) (index : Nat) (item : Handle) : Editing S Unit := do
  checkGap list index
  let (c, items) ← ask (·.list list)
  setState list (.list c (items.insertIdx index item))
  setParent item (some list)
  recompute list
  tell list (.itemAdded index item)

def dropItem (list : Handle) (index : Nat) : Editing S Unit := do
  let item ← itemAt list index
  let (c, items) ← ask (·.list list)
  setState list (.list c (items.eraseIdx index))
  dispose item
  recompute list
  tell list (.itemRemoved index)

def dropItems (list : Handle) : Editing S Unit := do
  (List.range (← ask (·.items list)).length).reverse.forM (dropItem list)

def contentScope (id : Handle) : Editing S (S.ExpanderClass × Context) := do
  let (c, _) ← ask (·.expander id)
  let own := (← lookup id).context
  match (Language.expander c).contentScope with
  | .own => return (c, own)
  | .provided => return (c, (← service? (·.scope) own).getD own)
  | .fresh => return (c, ← extendContext own)

def requireTextMode (id : Handle) (use : TextModeUse) : Editing S Unit := do
  if ← ask (·.isExpanded id) then Action.fault (.alreadyExpanded use id)

/-- Brings an editor into the state of a snapshot. -/
abbrev Restorer (S : Signature) := Handle → Snapshot → Editing S Unit

/-- Undoes a creation if what follows it is refused. -/
def orDispose (id : Handle) (action : Editing S Unit) : Editing S Handle := do
  match ← action.attempt with
  | .ok _ => return id
  | .error error =>
    dispose id
    Action.refuse error

def rebuildAsWith (restore : Restorer S) (c : ClassKey S) (s : Snapshot)
    (context : Context) : Editing S Handle := do
  let id ← create c context
  orDispose id (unrecorded context (restore id s))

def rebuildWith (restore : Restorer S) (s : Snapshot) (context : Context) :
    Editing S Handle := do
  match s.className with
  | none => Action.refuse .noClass
  | some name =>
    let registry ← Action.ask fun w : Workspace S =>
      w.contexts.require "registry" (·.registry) context
    let c ← Action.ofExcept (registry.lookup name)
    rebuildAsWith restore c s context

/-- Takes a root editor into a context: as it is if it lives there, else as a copy. -/
def relocateWith (restore : Restorer S) (id : Handle) (context : Context) :
    Editing S Handle := do
  let editor ← lookup id
  if editor.context = context then return id
  if editor.parent.isSome then Action.refuse (.attached id)
  let s ← ask (·.snapshot id)
  let moved ← rebuildAsWith restore editor.state.classKey s context
  dispose id
  return moved

def fillWith (restore : Restorer S) (id editor : Handle) : Editing S Handle := do
  requireTextMode id .expanding
  if (← lookup editor).parent.isSome || editor == id then
    Action.refuse (.attached editor)
  let (c, context) ← contentScope id
  let content ← relocateWith restore editor context
  setParent content (some id)
  setState id (.expander c (.expanded content))
  recompute id
  tell id (.expanded content)
  remark ((Language.expander c).remarkOnFill id content ((← get).arena.contains content))
  return content

/-- Brings an expander into a recorded state. New content is built before the old is
dropped, so that a refusal leaves the expander alone. -/
def restoreStateWith (restore : Restorer S) (id : Handle) (state : Display Snapshot) :
    Editing S Unit := do
  match state with
  | .expanded s =>
    let (_, context) ← contentScope id
    let content ← rebuildWith restore s context
    if ← ask (·.isExpanded id) then dropContent id
    let _ ← fillWith restore id content
  | .text text item =>
    if ← ask (·.isExpanded id) then dropContent id
    showText id text item

def restoreItemsWith (restore : Restorer S) (list : Handle) (element : ClassKey S)
    (context : Context) : Nat → List Snapshot → Editing S Unit
  | _, [] => return ()
  | index, s :: rest => do
    attachItem list index (← rebuildAsWith restore element s context)
    restoreItemsWith restore list element context (index + 1) rest

def componentsText (count : Nat) : String := toString count ++ " components"

def restoreWith (restore : Restorer S) (id : Handle) (s : Snapshot) : Editing S Unit := do
  let shape ← ask (·.shapeOf id)
  if shape ≠ s.shape then Action.refuse (.mismatch shape.name s.shape.name)
  match s with
  | .token _ text itemClass item =>
    writeToken id text (Snapshot.candidate? itemClass item) false
  | .expander .. =>
    match s.display? with
    | some state => restoreStateWith restore id state
    | none => return ()
  | .compound _ components =>
    let ids ← ask (·.components id)
    if ids.length ≠ components.length then
      Action.refuse (.mismatch (componentsText ids.length)
        (componentsText components.length))
    (ids.zip components).forM fun (id, s) => restore id s
  | .list _ items =>
    dropItems id
    let (c, _) ← ask (·.list id)
    restoreItemsWith restore id (Language.list c).element (← lookup id).context 0 items

def restoreWithin : Nat → Restorer S
  | 0, _, _ => Action.refuse .unreadable
  | levels + 1, id, s => restoreWith (restoreWithin levels) id s

/-! The operations. None of them records an edit. -/

def restore (id : Handle) (s : Snapshot) : Editing S Unit := restoreWithin s.depth id s

def rebuildAs (c : ClassKey S) (s : Snapshot) (context : Context) : Editing S Handle :=
  rebuildAsWith restore c s context

def rebuild (s : Snapshot) (context : Context) : Editing S Handle :=
  rebuildWith restore s context

def relocate (id : Handle) (context : Context) : Editing S Handle :=
  relocateWith restore id context

def fill (id editor : Handle) : Editing S Handle := fillWith restore id editor

def restoreState (id : Handle) (state : Display Snapshot) : Editing S Unit :=
  restoreStateWith restore id state

end StructureEditor.Workspace

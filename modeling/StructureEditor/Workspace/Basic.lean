import StructureEditor.Arena.Capture
import StructureEditor.Arena.Compile
import StructureEditor.Edit.Basic
import StructureEditor.History.Session
import StructureEditor.Settings

/-! The workspace: the arena with all it works with. Contexts name their services; histories
and views are kept beside, so that several contexts can share one. -/
namespace StructureEditor

/-- The services of one level. -/
structure Services (S : Signature) where
  history : Option HistoryId := none
  settings : Option Settings := none
  registry : Option (Registry S) := none
  scope : Option Context := none

instance {S : Signature} : ServiceTable (Services S) where
  empty := {}
  count services :=
    [services.history.isSome, services.settings.isSome, services.registry.isSome,
      services.scope.isSome].countP id

/-- What a view is told. -/
inductive Notice (S : Signature) where
  | displayText (text : String)
  | expanded (content : Handle)
  | reset
  | resultChanged (result : Outcome S.Value)
  | itemAdded (index : Nat) (item : Handle)
  | itemRemoved (index : Nat)

/-- What happened, in order: notices to views and the remarks of hooks. -/
inductive Event (S : Signature) where
  | notice (view : ViewId) (notice : Notice S)
  | remark (line : String)

structure Workspace (S : Signature) where
  arena : Arena S := {}
  contexts : Contexts (Services S) := .empty
  histories : Histories Edit := {}
  views : Array Bool := #[]
  journal : Array (Event S) := #[]

abbrev Editing (S : Signature) := Action (Workspace S)

namespace Workspace

variable {S : Signature} {α : Type}

def ask (question : Arena S → Except Refusal α) : Editing S α :=
  Action.ask fun w => question w.arena

def change (step : Arena S → Arena S) : Editing S Unit :=
  modify fun w => { w with arena := step w.arena }

def lookup (id : Handle) : Editing S (Editor S) := ask (·.get id)

/-- An editor that the caller knows to be alive. -/
def demand (id : Handle) : Editing S (Editor S) := do
  match (← get).arena.get? id with
  | some editor => return editor
  | none => Action.fault (.staleIndex id)

def setState (id : Handle) (state : EditorState S) : Editing S Unit := do
  let _ ← lookup id
  change (·.setState id state)

def setParent (child : Handle) (parent : Option Handle) : Editing S Unit := do
  let _ ← lookup child
  change (·.setParent parent child)

def dispose (id : Handle) : Editing S Unit := change (·.dispose id)

def insert [Language S] (context : Context) (state : EditorState S) : Editing S Handle :=
  Action.change fun w =>
    let (id, arena) := w.arena.insert context state
    (id, { w with arena })

/-- Adds a root editor above editors that a caller named. -/
def enter [Language S] (context : Context) (state : EditorState S) : Editing S Handle :=
  Action.risk fun w => do
    let (id, arena) ← w.arena.enter context state
    return (id, { w with arena })

def create [Language S] (c : ClassKey S) (context : Context) : Editing S Handle :=
  Action.change fun w =>
    let (id, arena) := (Arena.create c context).run w.arena
    (id, { w with arena })

def newToken [Language S] (c : S.TokenClass) (text : String) (context : Context) :
    Editing S Handle :=
  insert context (.token c text none)

def newExpander [Language S] (c : S.ExpanderClass) (text : String) (context : Context) :
    Editing S Handle :=
  insert context (.expander c (.text text none))

def newContext : Editing S Context :=
  Action.change fun w =>
    let (c, contexts) := w.contexts.root
    (c, { w with contexts })

def extendContext (context : Context) : Editing S Context :=
  Action.change fun w =>
    let (c, contexts) := w.contexts.extend context
    (c, { w with contexts })

def install (context : Context) (put : Services S → Services S) : Editing S Unit :=
  modify fun w => { w with contexts := w.contexts.install put context }

def service? (service : Services S → Option α) (context : Context) :
    Editing S (Option α) := do
  return (← get).contexts.find? service context

def newHistory (limit : Nat) : Editing S HistoryId :=
  Action.change fun w =>
    let (h, histories) := w.histories.add { limit }
    (h, { w with histories })

def defaultContext (settings : Settings) (registry : Registry S) : Editing S Context := do
  let context ← newContext
  let history ← newHistory settings.undoLevels
  install context fun _ =>
    { history := some history, settings := some settings, registry := some registry }
  return context

def historyLens (h : HistoryId) : HistoryLens (Workspace S) Edit where
  view w := w.histories.get h
  put history w := { w with histories := w.histories.set h history }

def history (h : HistoryId) : Editing S (History Edit) := do
  return (historyLens h).view (← get)

def historyOf? (context : Context) : Editing S (Option HistoryId) :=
  service? (·.history) context

def requireHistory (context : Context) : Editing S HistoryId :=
  Action.ask fun w => w.contexts.require "history" (·.history) context

def historyFor? (id : Handle) : Editing S (Option HistoryId) := do
  historyOf? (← lookup id).context

def recording? (id : Handle) : Editing S (Option HistoryId) := do
  match ← historyFor? id with
  | some h => return if (← history h).active then some h else none
  | none => return none

def record (h : HistoryId) (edit : Edit) : Editing S Unit :=
  (historyLens h).record (.single edit)

/-- Records the edit that `make` describes if the editor's history is recording. -/
def recordIfActive (id : Handle) (make : Editing S Edit) : Editing S Unit := do
  match ← recording? id with
  | some h => record h (← make)
  | none => return ()

def unrecorded (context : Context) (action : Editing S α) : Editing S α := do
  match ← historyOf? context with
  | some h => (historyLens h).paused action
  | none => action

def asOneStep (id : Handle) (description : String) (action : Editing S α) :
    Editing S α := do
  match ← historyFor? id with
  | some h => (historyLens h).grouped description action
  | none => action

def tell (id : Handle) (notice : Notice S) : Editing S Unit :=
  modify fun w =>
    let views := (w.arena.get? id).elim [] (·.views)
    let told := views.filter fun v => w.views.getD v false
    { w with journal := w.journal ++ told.map fun v => Event.notice v notice }

def remark (lines : List String) : Editing S Unit :=
  modify fun w => { w with journal := w.journal ++ lines.map (Event.remark (S := S)) }

/-- Recomputes results from an editor upwards until one stays as it was. -/
def recomputeWithin [Language S] : Nat → Handle → Editing S Unit
  | 0, _ => return ()
  | steps + 1, id => do
    let result ← ask (·.compute id)
    let editor ← lookup id
    if editor.result = result then return ()
    change (·.setResult id result)
    tell id (.resultChanged result)
    match editor.parent with
    | some parent => recomputeWithin steps parent
    | none => return ()

def recompute [Language S] (id : Handle) : Editing S Unit := do
  recomputeWithin (← get).arena.reach id

end Workspace

end StructureEditor

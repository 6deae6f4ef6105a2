import StructureEditor.Workspace.Grow

/-! Typing into expanders, expanding and resetting them. Every transition is recorded with
the states before and after it. -/
namespace StructureEditor.Workspace

variable {S : Signature} [Language S] {α : Type}

def recordTransition (id : Handle) (description : String) (action : Editing S α) :
    Editing S α := do
  match ← recording? id with
  | none => action
  | some h =>
    let locator ← ask (·.locate id)
    let before ← ask (·.displaySnapshot id)
    let value ← action
    let after ← ask (·.displaySnapshot id)
    record h (.transition locator before after description)
    return value

def listPlace? (id : Handle) : Editing S (Option (Handle × Nat × Char)) := do
  match (← lookup id).parent with
  | none => return none
  | some list =>
    match (← lookup list).state with
    | .list c items =>
      let settings ← service? (·.settings) (← lookup id).context
      let separator :=
        (Language.list c).separator <|> settings.bind (·.listSeparator)
      match separator, items.idxOf? id with
      | some separator, some index => return some (list, index, separator)
      | _, _ => return none
    | _ => return none

def stripSeparator? (separator : Char) (text : String) : Option String :=
  match text.toList.reverse with
  | last :: front => if last = separator then some (String.ofList front.reverse) else none
  | [] => none

/-- Handles a separator typed at the end of an item: the text before it stays and a fresh
item follows. The answer is whether there was one. -/
def typeSeparator (id : Handle) (text : String) : Editing S Bool := do
  match ← listPlace? id with
  | none => return false
  | some (list, index, separator) =>
    match stripSeparator? separator text with
    | none => return false
    | some committed =>
      let _ ← asOneStep id "Add item" do
        recordTransition id "Type" (showText id committed none)
        openItem list (index + 1)
      return true

def showsText (text : String) : Display Handle → Bool
  | .text shown none => shown == text
  | _ => false

def typeExpander (id : Handle) (text : String) : Editing S Unit := do
  requireTextMode id .typing
  if showsText text (← ask (·.displayOf id)) then return ()
  if ← typeSeparator id text then return ()
  let (c, context) ← contentScope id
  match ← askHook id context ((Language.expander c).openTyped text) with
  | some editor =>
    let _ ← recordTransition id "AutoExpand" (fill id editor)
  | none => recordTransition id "Type" (showText id text none)

def expand (id : Handle) : Editing S Bool := do
  requireTextMode id .expanding
  let text := (← ask (·.shownText id)).getD ""
  let (c, context) ← contentScope id
  match ← askHook id context ((Language.expander c).openText text) with
  | some editor =>
    let _ ← recordTransition id "Expand" (fill id editor)
    return true
  | none => return false

/-- Expands a chosen candidate: as itself, else by its text; else it is kept as it is. -/
def chooseExpander (id : Handle) (choice : Choice) : Editing S Unit := do
  requireTextMode id .choosing
  let (c, context) ← contentScope id
  let behaviour := Language.expander c
  recordTransition id "Complete" do
    let made ← match ← askHook id context (behaviour.openCandidate choice.item) with
      | some editor => pure (some editor)
      | none => askHook id context (behaviour.openText choice.text)
    match made with
    | some editor =>
      let _ ← fill id editor
    | none => showText id choice.text (some choice.item)

def reset (id : Handle) : Editing S Unit := do
  if !(← ask (·.isExpanded id)) then Action.fault (.notExpanded id)
  recordTransition id "Reset" (dropContent id)

def refuseShape (id : Handle) : Editing S α := do
  Action.refuse (Arena.wrongShape id "token or expander" (← lookup id))

def typeText (id : Handle) (text : String) : Editing S Unit := do
  match ← ask (·.shapeOf id) with
  | .token => typeToken id text true
  | .expander => typeExpander id text
  | _ => refuseShape id

def choose (id : Handle) (choice : Choice) : Editing S Unit := do
  match ← ask (·.shapeOf id) with
  | .token => writeToken id choice.text (some choice.item) true
  | .expander => chooseExpander id choice
  | _ => refuseShape id

end StructureEditor.Workspace

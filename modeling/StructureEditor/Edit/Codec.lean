import StructureEditor.Edit.Basic
import StructureEditor.Snapshot.Codec

namespace StructureEditor

def Handle.toDocument (id : Handle) : Document :=
  .object [("index", .nat id.index), ("generation", .nat id.generation.toNat)]

def Handle.ofDocument? (d : Document) : Option Handle := do
  match ← d.record? ["index", "generation"] with
  | [some index, some generation] =>
    return ⟨← index.natBelow? UInt32.size, (← generation.natBelow? UInt32.size).toUInt32⟩
  | _ => none

def Position.toDocument : Position → Document
  | .content => .string "expander_content"
  | .component index => .object [("component", .nat index)]
  | .item index => .object [("item", .nat index)]

def Position.ofDocument? (medium : Medium) : Document → Option Position
  | .string "expander_content" => some .content
  | d => do
    match ← d.variant? with
    | ("expander_content", rest) => if medium.isNothing rest then some .content else none
    | ("component", index) => return .component (← index.natBelow? UInt64.size)
    | ("item", index) => return .item (← index.natBelow? UInt64.size)
    | _ => none

def Locator.toDocument (l : Locator) : Document :=
  .object [("root", l.root.toDocument), ("path", .array (l.path.map Position.toDocument))]

def Locator.ofDocument? (medium : Medium) (d : Document) : Option Locator := do
  match ← d.record? ["root", "path"] with
  | [some root, some path] =>
    return ⟨← Handle.ofDocument? root,
      ← (← path.items?).mapM (Position.ofDocument? medium)⟩
  | _ => none

def Outcome.toDocument (f : α → Document) : Outcome α → Document
  | .ok value => .object [("Ok", f value)]
  | .err message => .object [("Err", .string message)]
  | .errBelow => .string "ChildErr"

def Outcome.ofDocument? (read : Document → Option α) : Document → Option (Outcome α)
  | .string "ChildErr" => some .errBelow
  | d => do
    match ← d.variant? with
    | ("Ok", value) => return .ok (← read value)
    | ("Err", message) => return .err (← message.string?)
    | ("ChildErr", .null) => return .errBelow
    | _ => none

namespace Edit

def toDocument : Edit → Document
  | .text editor old new oldItem newItem =>
    .object ([("type", .string "text"), ("editor", editor.toDocument), ("old", .string old),
      ("new", .string new)]
      ++ Document.optional "old_completion" Candidate.toDocument oldItem
      ++ Document.optional "new_completion" Candidate.toDocument newItem)
  | .transition expander before after description =>
    .object [("type", .string "state_transition"), ("expander", expander.toDocument),
      ("before", before.toDocument), ("after", after.toDocument),
      ("description", .string description)]
  | .insertion list index item =>
    .object [("type", .string "insert_item"), ("list", list.toDocument),
      ("index", .nat index), ("item", item.toDocument)]
  | .removal list index item =>
    .object [("type", .string "remove_item"), ("list", list.toDocument),
      ("index", .nat index), ("item", item.toDocument)]
  | .replacement editor before after description =>
    .object [("type", .string "replace"), ("editor", editor.toDocument),
      ("before", before.toDocument), ("after", after.toDocument),
      ("description", .string description)]

def ofFields? (fields : List (String × Document)) : Option Edit := do
  let only (key : String) := Document.only? key fields
  let string? (key : String) : Option String := do (← (← only key)).string?
  let locator? (key : String) : Option Locator := do
    Locator.ofDocument? .edit (← (← only key))
  let item? (key : String) : Option (Option Candidate) := do
    Document.maybe? Candidate.ofDocument? (← only key)
  let snapshot? (key : String) : Option Snapshot := do
    Snapshot.ofDocument? (← (← only key))
  let state? (key : String) : Option (Display Snapshot) := do
    Display.ofDocument? .edit (← (← only key))
  let index? : Option Nat := do (← (← only "index")).natBelow? UInt64.size
  match ← string? "type" with
  | "text" =>
    return .text (← locator? "editor") (← string? "old") (← string? "new")
      (← item? "old_completion") (← item? "new_completion")
  | "state_transition" =>
    return .transition (← locator? "expander") (← state? "before") (← state? "after")
      (← string? "description")
  | "insert_item" =>
    return .insertion (← locator? "list") (← index?) (← snapshot? "item")
  | "remove_item" =>
    return .removal (← locator? "list") (← index?) (← snapshot? "item")
  | "replace" =>
    return .replacement (← locator? "editor") (← snapshot? "before") (← snapshot? "after")
      (← string? "description")
  | _ => none

def fieldNames : String → List String
  | "text" => ["editor", "old", "new", "old_completion", "new_completion"]
  | "state_transition" => ["expander", "before", "after", "description"]
  | "insert_item" | "remove_item" => ["list", "index", "item"]
  | "replace" => ["editor", "before", "after", "description"]
  | _ => []

/-- Reads an edit that is listed without the names of its fields, the type first. -/
def ofItems? : List Document → Option Edit
  | .string type :: parts =>
    let names := fieldNames type
    if parts.length ≤ names.length then ofFields? (("type", .string type) :: names.zip parts)
    else none
  | _ => none

/-- Reads an edit. All of the document has to stand for a value, also what is skipped. -/
def ofDocument? (d : Document) : Option Edit :=
  if d.readable then
    match d with
    | .object fields => ofFields? fields
    | .array items => ofItems? items
    | _ => none
  else none

def ofValue (value : Json) : Except Refusal Edit :=
  Snapshot.orUnreadable (ofDocument? (.ofJson value))

end Edit

end StructureEditor

import StructureEditor.Json.Medium
import StructureEditor.Json.Reader
import StructureEditor.Snapshot.Basic

/-! Snapshots as JSON. The kind stands under `_type`, the class under `_class`, and the parts
of the state beside them. -/
namespace StructureEditor

namespace Snapshot

def classField (className : Option String) : List (String × Document) :=
  Document.optional "_class" .string className

def typeField (kind : Shape) : String × Document := ("_type", .string kind.name)

def itemFields (itemClass : Option String) (item : Option Json) : List (String × Document) :=
  Document.optional "completionClass" .string itemClass
    ++ Document.optional "completion" .ofJson item

mutual

def toDocument : Snapshot → Document
  | .token className text itemClass item =>
    .object (classField className ++ typeField .token :: ("text", .string text)
      :: itemFields itemClass item)
  | .expander className content text itemClass item =>
    .object (classField className ++ typeField .expander :: contentField content
      ++ Document.optional "text" .string text ++ itemFields itemClass item)
  | .compound className components =>
    .object (classField className
      ++ [typeField .compound, ("components", .array (toDocuments components))])
  | .list className items =>
    .object (classField className ++ [typeField .list, ("items", .array (toDocuments items))])

def contentField : Option Snapshot → List (String × Document)
  | none => []
  | some content => [("editor", toDocument content)]

def toDocuments : List Snapshot → List Document
  | [] => []
  | s :: rest => toDocument s :: toDocuments rest

end

def kind? : Document → Option Shape
  | .string name => [Shape.token, .expander, .compound, .list].find? (·.name == name)
  | .number (.int n) => if n < 0 then none else
    [Shape.token, .expander, .compound, .list][n.toNat]?
  | _ => none

/-- Reads a snapshot of at most so many levels. Only the keys of the kind at hand are looked
at, each of them written once. -/
def ofFields? : Nat → List (String × Document) → Option Snapshot
  | 0, _ => none
  | levels + 1, fields => do
    let read : Document → Option Snapshot
      | .object fields => ofFields? levels fields
      | _ => none
    let only (key : String) := Document.only? key fields
    let text? (key : String) : Option (Option String) := do
      Document.maybe? Document.string? (← only key)
    let item? : Option (Option Json) := do
      Document.maybe? Document.toJson? (← only "completion")
    let all? (key : String) : Option (List Snapshot) := do
      (← (← (← only key)).items?).mapM read
    let className ← text? "_class"
    match ← kind? (← (← only "_type")) with
    | .token =>
      return .token className (← (← (← only "text")).string?) (← text? "completionClass")
        (← item?)
    | .expander =>
      return .expander className (← Document.maybe? read (← only "editor")) (← text? "text")
        (← text? "completionClass") (← item?)
    | .compound => return .compound className (← all? "components")
    | .list => return .list className (← all? "items")

def ofDocument? (d : Document) : Option Snapshot :=
  match d with
  | .object fields => if d.readable then ofFields? d.depth fields else none
  | _ => none

def encode (s : Snapshot) : String := s.toDocument.compact

def encodePretty (s : Snapshot) : String := s.toDocument.pretty

def toValue (s : Snapshot) : Json := s.toDocument.toJson

def orUnreadable : Option α → Except Refusal α
  | some value => .ok value
  | none => .error .unreadable

def decodeBy (parse? : String → Option Document) (text : String) : Except Refusal Snapshot :=
  orUnreadable ((parse? text).bind ofDocument?)

def decode (text : String) : Except Refusal Snapshot := decodeBy Document.parse? text

def ofValue (value : Json) : Except Refusal Snapshot :=
  orUnreadable (ofDocument? (.ofJson value))

end Snapshot

namespace Display

/-- The state under its name; an absent candidate is written as null. -/
def toDocument : Display Snapshot → Document
  | .text shown item =>
    .object [("text", .object [("text", .string shown),
      ("completion", Document.orNull Candidate.toDocument item)])]
  | .expanded content => .object [("expanded", content.toDocument)]

def ofDocument? (medium : Medium) (d : Document) : Option (Display Snapshot) := do
  match ← d.variant? with
  | ("text", parts) =>
    match ← medium.variantFields? ["text", "completion"] parts with
    | [some shown, item] =>
      return .text (← shown.string?) (← Document.maybe? Candidate.ofDocument? item)
    | _ => none
  | ("expanded", content) => return .expanded (← Snapshot.ofDocument? content)
  | _ => none

def ofValue (value : Json) : Except Refusal (Display Snapshot) :=
  Snapshot.orUnreadable (ofDocument? .value (.ofJson value))

end Display

end StructureEditor

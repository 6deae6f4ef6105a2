import StructureEditor.Refusal
import StructureEditor.Json.Reader
import StructureEditor.Json.Writer

/-! Editor settings, written as JSON. A missing key keeps its default. -/
namespace StructureEditor

structure Settings where
  undoLevels : Nat := 100
  /-- Typed at the end of a list item, this character opens a new item. -/
  listSeparator : Option Char := some ','
deriving DecidableEq, Repr

namespace Settings

def toDocument (s : Settings) : Document :=
  .object [("undoLevels", .nat s.undoLevels),
    ("listSeparator", Document.orNull (fun c => .string c.toString) s.listSeparator)]

def character? (d : Document) : Option Char := do
  match (← d.string?).toList with
  | [c] => some c
  | _ => none

def ofDocument? (d : Document) : Option Settings := do
  match ← d.record? ["undoLevels", "listSeparator"] with
  | [levels, separator] =>
    let undoLevels ← match levels with
      | none => some 100
      | some d => d.natBelow? UInt64.size
    let listSeparator ← match separator with
      | none => some (some ',')
      | separator => Document.maybe? character? separator
    return { undoLevels, listSeparator }
  | _ => none

def ofText (text : String) : Except Refusal Settings :=
  match (Document.parse? text).bind ofDocument? with
  | some settings => .ok settings
  | none => .error .badSettings

/-- The text of a settings file; an absent file is refused like a bad one. -/
def ofFile (content : Option String) : Except Refusal Settings :=
  match content with
  | some text => ofText text
  | none => .error .badSettings

def toText (s : Settings) : String := s.toDocument.compact

end Settings

end StructureEditor

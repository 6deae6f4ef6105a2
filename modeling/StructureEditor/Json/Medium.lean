import StructureEditor.Json.Document

/-! Where a document comes from. A variant, an object whose one key names it, may be written a
little differently in each place. -/
namespace StructureEditor

inductive Medium where
  | text
  | value
  /-- A part of an edit, in text or in a value. -/
  | edit
deriving DecidableEq, Repr

namespace Medium

/-- What may stand as the content of a variant that has none: null, and in an edit also an
empty object. -/
def isNothing : Medium → Document → Bool
  | _, .null => true
  | .edit, .object [] => true
  | _, _ => false

/-- The fields of a variant. In a value they stand in an object; elsewhere all of them may
also be listed in an array. -/
def variantFields? (medium : Medium) (names : List String) (content : Document) :
    Option (List (Option Document)) :=
  match content with
  | .object _ => content.record? names
  | .array items =>
    if medium = .value ∨ items.length < names.length then none else content.record? names
  | _ => none

end Medium

end StructureEditor

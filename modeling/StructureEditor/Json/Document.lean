import StructureEditor.Json.Value

/-! JSON text as it is written: fields in their order, keys possibly repeated. A document may
hold a part that is well-formed and yet stands for no value, such as a number beyond every
magnitude; that only matters when the part is read. -/
namespace StructureEditor

inductive Document where
  | null
  | bool (value : Bool)
  | number (value : Number)
  | string (value : String)
  | array (items : List Document)
  | object (fields : List (String × Document))
  | unreadable
deriving Inhabited, Repr

namespace Document

mutual

/-- Whether every part stands for a value. -/
def readable : Document → Bool
  | .unreadable => false
  | .array items => readableItems items
  | .object fields => readableFields fields
  | _ => true

def readableItems : List Document → Bool
  | [] => true
  | item :: rest => readable item && readableItems rest

def readableFields : List (String × Document) → Bool
  | [] => true
  | (_, value) :: rest => readable value && readableFields rest

end

mutual

def toJson : Document → Json
  | .null => .null
  | .bool value => .bool value
  | .number value => .number value
  | .string value => .string value
  | .array items => .array (itemValues items)
  | .object fields => .ofFields (fieldValues fields)
  | .unreadable => .null

def itemValues : List Document → List Json
  | [] => []
  | item :: rest => toJson item :: itemValues rest

def fieldValues : List (String × Document) → List (String × Json)
  | [] => []
  | (key, value) :: rest => (key, toJson value) :: fieldValues rest

end

def toJson? (d : Document) : Option Json :=
  if d.readable then some d.toJson else none

mutual

def depth : Document → Nat
  | .array items => depthItems items + 1
  | .object fields => depthFields fields + 1
  | _ => 0

def depthItems : List Document → Nat
  | [] => 0
  | item :: rest => max (depth item) (depthItems rest)

def depthFields : List (String × Document) → Nat
  | [] => 0
  | (_, value) :: rest => max (depth value) (depthFields rest)

end

mutual

/-- A value written out, fields in key order. -/
def ofJson : Json → Document
  | .null => .null
  | .bool value => .bool value
  | .number value => .number value
  | .string value => .string value
  | .array items => .array (ofItems items)
  | .object fields => .object (ofFields fields)

def ofItems : List Json → List Document
  | [] => []
  | item :: rest => ofJson item :: ofItems rest

def ofFields : List (String × Json) → List (String × Document)
  | [] => []
  | (key, value) :: rest => (key, ofJson value) :: ofFields rest

end

def nat (n : Nat) : Document := .number (.int n)

def optional (key : String) (f : α → Document) : Option α → List (String × Document)
  | some value => [(key, f value)]
  | none => []

def orNull (f : α → Document) : Option α → Document
  | some value => f value
  | none => .null

def string? : Document → Option String
  | .string value => some value
  | _ => none

/-- An integer from `low` on and below `high`. A number with a point is none. -/
def intWithin? (low high : Int) : Document → Option Int
  | .number (.int value) => if low ≤ value ∧ value < high then some value else none
  | _ => none

def natBelow? (bound : Nat) (d : Document) : Option Nat :=
  (d.intWithin? 0 bound).map Int.toNat

def items? : Document → Option (List Document)
  | .array items => some items
  | _ => none

/-- Reads an optional value: absent and null are the same. -/
def maybe? (read : Document → Option α) : Option Document → Option (Option α)
  | none => some none
  | some .null => some none
  | some d => (read d).map some

def only? (key : String) (fields : List (String × Document)) : Option (Option Document) :=
  match fields.filter (·.1 == key) with
  | [] => some none
  | [(_, value)] => some (some value)
  | _ => none

/-- The fields of a record, in the order of `names`. A record is an object, where other keys
are skipped, or an array in that order, possibly cut short. -/
def record? (names : List String) : Document → Option (List (Option Document))
  | .object fields => names.mapM fun name => only? name fields
  | .array items =>
    if items.length ≤ names.length then
      some (items.map some ++ List.replicate (names.length - items.length) none)
    else none
  | _ => none

def variant? : Document → Option (String × Document)
  | .object [field] => some field
  | _ => none

end Document

end StructureEditor

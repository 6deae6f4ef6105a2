import StructureEditor.Json.Double
import StructureEditor.Text.Keyed

/-! JSON values. The fields of an object are kept in the order of their keys, each key once,
so that a value has one form. -/
namespace StructureEditor

/-- A number is an integer where it is written as one and fits 64 bits. -/
inductive Number where
  | int (value : Int)
  | real (value : Double)
deriving DecidableEq, Repr

namespace Number

def same : Number → Number → Bool
  | .int a, .int b => a == b
  | .real a, .real b => a.same b
  | _, _ => false

def chars : Number → List Char
  | .int value => (toString value).toList
  | .real value => value.chars

end Number

inductive Json where
  | null
  | bool (value : Bool)
  | number (value : Number)
  | string (value : String)
  | array (items : List Json)
  | object (fields : List (String × Json))
deriving Inhabited, Repr

namespace Json

def nat (n : Nat) : Json := .number (.int n)
def int (n : Int) : Json := .number (.int n)

def ofOption (f : α → Json) : Option α → Json
  | some value => f value
  | none => .null

mutual

def same : Json → Json → Bool
  | .null, .null => true
  | .bool a, .bool b => a == b
  | .number a, .number b => a.same b
  | .string a, .string b => a == b
  | .array as, .array bs => sameItems as bs
  | .object as, .object bs => sameFields as bs
  | _, _ => false

def sameItems : List Json → List Json → Bool
  | [], [] => true
  | a :: as, b :: bs => same a b && sameItems as bs
  | _, _ => false

def sameFields : List (String × Json) → List (String × Json) → Bool
  | [], [] => true
  | (k, a) :: as, (l, b) :: bs => k == l && same a b && sameFields as bs
  | _, _ => false

end

instance : BEq Json := ⟨same⟩

/-- An object of the given fields; of two with one key the later counts. -/
def ofFields (fields : List (String × Json)) : Json := .object (Keyed.ofList fields)

def field? (key : String) : Json → Option Json
  | .object fields => fields.lookup key
  | _ => none

end Json

end StructureEditor

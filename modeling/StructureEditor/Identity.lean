/-! How editors are named: by a checked handle, and by the way from a root. -/
namespace StructureEditor

/-- A handle: a slot, and which of the slot's successive tenants is meant. -/
structure Handle where
  index : Nat
  generation : UInt32
deriving DecidableEq, Repr, Inhabited

namespace Handle

def text (id : Handle) : String :=
  "#" ++ toString id.index ++ "v" ++ toString id.generation.toNat

def before (a b : Handle) : Bool :=
  a.index < b.index || (a.index == b.index && a.generation ≤ b.generation)

end Handle

inductive Position where
  | content
  | component (index : Nat)
  | item (index : Nat)
deriving DecidableEq, Repr

def Position.text : Position → String
  | .content => "content"
  | .component index => "component[" ++ toString index ++ "]"
  | .item index => "item[" ++ toString index ++ "]"

/-- A root and the way down from it. It still means the same place after the editors on the
way have been rebuilt. -/
structure Locator where
  root : Handle
  path : List Position
deriving DecidableEq, Repr

inductive Shape where
  | token
  | expander
  | compound
  | list
deriving DecidableEq, Repr

def Shape.name : Shape → String
  | .token => "token"
  | .expander => "expander"
  | .compound => "compound"
  | .list => "list"

end StructureEditor

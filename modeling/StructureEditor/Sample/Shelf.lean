import StructureEditor.Context

/-! A service table with a number, a text and a flag. Texts are told apart by where they were
made, so that one can be shared between levels. -/
namespace StructureEditor.Sample

structure SharedText where
  origin : Nat
  text : String
deriving DecidableEq, Repr

structure Shelf where
  number : Option Nat := none
  text : Option SharedText := none
  flag : Option Bool := none

instance : ServiceTable Shelf where
  empty := {}
  count shelf := [shelf.number.isSome, shelf.text.isSome, shelf.flag.isSome].countP id

def sameText? (a b : Context) (cs : Contexts Shelf) : Option Bool := do
  return (← cs.find? (·.text) a) == (← cs.find? (·.text) b)

end StructureEditor.Sample

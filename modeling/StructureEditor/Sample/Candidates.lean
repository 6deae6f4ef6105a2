import StructureEditor.Candidate
import StructureEditor.Text.Integer

namespace StructureEditor.Sample

def word? (d : Document) : Option Int := d.intWithin? (-Text.halfWord) Text.halfWord

structure Constant where
  name : String
  value : Int

instance : CandidateType Constant where
  className := "constant"
  toDocument c := .object [("name", .string c.name), ("value", .number (.int c.value))]
  ofDocument? d := do
    match ← d.record? ["name", "value"] with
    | [some name, some value] => return ⟨← name.string?, ← word? value⟩
    | _ => none

structure Keyword where
  name : String

instance : CandidateType Keyword where
  className := "keyword"
  toDocument k := .string k.name
  ofDocument? d := d.string?.map Keyword.mk

structure Numeral where
  value : Int

instance : CandidateType Numeral where
  className := "number"
  toDocument n := .number (.int n.value)
  ofDocument? d := (word? d).map Numeral.mk

end StructureEditor.Sample

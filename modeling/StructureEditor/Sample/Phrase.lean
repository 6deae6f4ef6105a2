import StructureEditor.Language.Basic
import StructureEditor.Sample.Candidates
import StructureEditor.Text.Integer
import StructureEditor.Workspace.Build

/-! A language of tokens only, for rule books that make texts. -/
namespace StructureEditor.Sample

inductive PhraseToken where
  | number | upper | word
deriving DecidableEq, Repr

abbrev phrase : Signature where
  Value := String
  TokenClass := PhraseToken
  ExpanderClass := Empty
  CompoundClass := Empty
  ListClass := Empty

namespace Phrase

def tokenBehaviour : PhraseToken → TokenBehaviour phrase
  | .number =>
    { name := "number"
      compile := fun text =>
        Outcome.ofOption "not a number" ((Text.integer? text).map toString) }
  | .upper =>
    { name := "upper"
      compile := fun text =>
        if text.toList.all Char.isUpper && !text.isEmpty then .ok text else .errBelow }
  | .word => { name := "word", compile := .ok }

instance : Language phrase where
  token := tokenBehaviour
  expander c := nomatch c
  compound c := nomatch c
  list c := nomatch c
  rank _ := 0
  rank_component c := nomatch c
  valueEq := inferInstanceAs (DecidableEq String)

def tokenNamed? (name : String) : Option PhraseToken :=
  [PhraseToken.number, .upper, .word].find? fun c => (tokenBehaviour c).name == name

def make (text : String) : Build phrase Handle := .token PhraseToken.word text

/-- Takes over texts that start in a certain way. If it leaks, it makes its token and then
declines. -/
def startInterceptor (start made : String) (leaks : Bool) : TextRule phrase := fun text =>
  if start.toList.isPrefixOf text.toList then do
    let id ← make (made ++ String.ofList (text.toList.drop start.toList.length))
    return if leaks then none else some id
  else .done none

def registerToken (token : PhraseToken) (made : String) (book : RuleBook phrase) :
    RuleBook phrase :=
  book.onCompiled (tokenBehaviour token).compile fun value => make (made ++ value)

def registerItems (className made : String) (book : RuleBook phrase) : RuleBook phrase :=
  match className with
  | "keyword" => book.onCandidate fun (k : Keyword) =>
    if k.name = "decline" then .done none else some <$> make (made ++ k.name)
  | "number" => book.onCandidate fun (n : Numeral) =>
    if n.value < 0 then .done none else some <$> make (made ++ toString n.value)
  | "constant" => book.onCandidate fun (c : Constant) =>
    some <$> make (made ++ c.name ++ "=" ++ toString c.value)
  | _ => book

def show? (context : Context) (build : Build phrase (Option Handle)) :
    Editing phrase (Option (Handle × String)) := do
  match Build.answerOr none (← Workspace.build context build) with
  | some id => return some (id, ← Workspace.ask (·.textOf id))
  | none => return none

end Phrase

end StructureEditor.Sample

import StructureEditor.Candidate
import StructureEditor.Language.Build
import StructureEditor.Text.Inspect
import StructureEditor.Text.Keyed

/-! Rule books say which editor a text or a completion candidate stands for. A text is looked
up among the constant keys, then shown to the text rules, the one registered last first,
and then handed to the rules that the book falls back on. -/
namespace StructureEditor

abbrev TextRule (S : Signature) := String → Build S (Option Handle)
abbrev CandidateRule (S : Signature) := Candidate → Build S (Option Handle)

structure RuleLayer (S : Signature) where
  constants : Keyed (Build S Handle) := []
  /-- In the order in which they are asked. -/
  textRules : List (TextRule S) := []
  /-- By candidate class, each in the order in which they are asked. -/
  candidateRules : Keyed (List (CandidateRule S)) := []

/-- A layer of rules and the layers it falls back on, nearest first. -/
structure RuleBook (S : Signature) where
  top : RuleLayer S := {}
  fallback : List (RuleLayer S) := []

namespace RuleLayer

variable {S : Signature}

def forText (layer : RuleLayer S) (text : String) : Build S (Option Handle) :=
  match layer.constants.get? text with
  | some make => some <$> make
  | none => Build.firstMade (layer.textRules.map (· text))

def forCandidate (layer : RuleLayer S) (item : Candidate) : Build S (Option Handle) :=
  let rules := (layer.candidateRules.get? item.className).getD []
  Build.firstMade (rules.map (· item))

/-- Takes over all rules of another layer. Its constants replace equal keys; its other
rules are asked after those already there. -/
def adopt (layer other : RuleLayer S) : RuleLayer S where
  constants := other.constants.foldl (fun all (key, make) => Keyed.insert key make all)
    layer.constants
  textRules := layer.textRules ++ other.textRules
  candidateRules := other.candidateRules.foldl
    (fun all (name, more) => Keyed.insert name ((Keyed.get? all name).getD [] ++ more) all)
    layer.candidateRules

end RuleLayer

namespace RuleBook

variable {S : Signature}

def layers (book : RuleBook S) : List (RuleLayer S) := book.top :: book.fallback

/-- Puts another book in place of what this one fell back on. -/
def onto (book base : RuleBook S) : RuleBook S := { book with fallback := base.layers }

/-- An empty book that falls back on this one. -/
def extend (base : RuleBook S) : RuleBook S := RuleBook.onto {} base

/-- The top of `book` first, then this one. -/
def extendedBy (base book : RuleBook S) : RuleBook S := book.onto base

def onTop (change : RuleLayer S → RuleLayer S) (book : RuleBook S) : RuleBook S :=
  { book with top := change book.top }

def adopt (book other : RuleBook S) : RuleBook S := book.onTop (·.adopt other.top)

def onKey (key : String) (make : Build S Handle) : RuleBook S → RuleBook S :=
  onTop fun layer => { layer with constants := layer.constants.insert key make }

def onKeys (keys : List String) (make : Build S Handle) (book : RuleBook S) :
    RuleBook S :=
  keys.foldl (fun book key => book.onKey key make) book

def dropKey (key : String) (book : RuleBook S) : Except Refusal (RuleBook S) :=
  match book.top.constants.get? key with
  | some _ => .ok (book.onTop fun layer => { layer with constants := layer.constants.erase key })
  | none => .error (.unknownKey key)

def onText (rule : TextRule S) : RuleBook S → RuleBook S :=
  onTop fun layer => { layer with textRules := rule :: layer.textRules }

def onCompiled (compile : String → Outcome V) (make : V → Build S Handle) :
    RuleBook S → RuleBook S :=
  onText fun text =>
    match (compile text).toOption with
    | some value => some <$> make value
    | none => .done none

/-- Candidates of type `T`; one that cannot be read counts as declined. -/
def onCandidate [CandidateType T] (make : T → Build S (Option Handle)) :
    RuleBook S → RuleBook S :=
  let rule : CandidateRule S := fun item =>
    match item.decode T with
    | .ok value => make value
    | .error _ => .done none
  let name := CandidateType.className T
  onTop fun layer =>
    let others := (layer.candidateRules.get? name).getD []
    { layer with candidateRules := layer.candidateRules.insert name (rule :: others) }

def keys (book : RuleBook S) : List String :=
  Keyed.keys <| Keyed.ofList <|
    book.layers.flatMap fun layer => layer.constants.map fun (key, _) => (key, ())

def forText (book : RuleBook S) (text : String) : Build S (Option Handle) :=
  Build.firstMade (book.layers.map (·.forText text))

def forCandidate (book : RuleBook S) (item : Candidate) : Build S (Option Handle) :=
  Build.firstMade (book.layers.map (·.forCandidate item))

def inspectLayers : List (RuleLayer S) → String
  | [] => "None"
  | layer :: rest => Text.tuple "Some" [inspectLayer layer (inspectLayers rest)]
where
  inspectLayer (layer : RuleLayer S) (fallback : String) : String :=
    Text.record "ExpanderConfig"
      [("keys", Text.list (layer.constants.keys.map Text.quoted)),
       ("interceptors", toString layer.textRules.length),
       ("item_classes", toString layer.candidateRules.length),
       ("fallback", fallback)]

def inspect (book : RuleBook S) : String :=
  inspectLayers.inspectLayer book.top (inspectLayers book.fallback)

end RuleBook

end StructureEditor

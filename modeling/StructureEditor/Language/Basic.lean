import StructureEditor.Language.RuleBook

/-! A language gives each class of editors its behaviour. Results are functions of texts and values.
Hooks that open an expander are builds, which make editors and type into tokens but do not look at
the document; what may be pasted goes by the class alone, the context of a content is one of three,
and when an expander is filled or reset its behaviour may remark on it and change nothing. -/
namespace StructureEditor

def itemsUnsupported : Outcome α := .err "completion items are not supported"

structure TokenBehaviour (S : Signature) where
  name : String
  compile : String → Outcome S.Value
  compileCandidate : Candidate → Outcome S.Value := fun _ => itemsUnsupported

structure CompoundBehaviour (S : Signature) where
  name : String
  components : List (ClassKey S)
  compose : List S.Value → Outcome S.Value

structure ListBehaviour (S : Signature) where
  name : String
  element : ClassKey S
  compose : List S.Value → Outcome S.Value
  /-- Opens a new item when typed; none leaves it to the settings. -/
  separator : Option Char := none

inductive ContentScope where
  | own
  /-- The context that the scope service names, or else the expander's own. -/
  | provided
  /-- A new level below the expander's own, another one each time it is asked for. -/
  | fresh
deriving DecidableEq, Repr

structure ExpanderBehaviour (S : Signature) where
  name : String
  openText : String → Build S (Option Handle) := fun _ => .done none
  openCandidate : Candidate → Build S (Option Handle) := fun _ => .done none
  /-- Expands while typing. -/
  openTyped : String → Build S (Option Handle) := fun _ => .done none
  emptyResult : Outcome S.Value := .err "expander is not expanded"
  compile : String → Outcome S.Value := fun _ => emptyResult
  compileCandidate : Candidate → Outcome S.Value := fun _ => itemsUnsupported
  /-- Which classes of editors may be pasted as content. -/
  admits : ClassKey S → Bool := fun _ => true
  contentScope : ContentScope := .own
  /-- Lines for the journal, from the expander, its content, and whether that is alive. -/
  remarkOnFill : Handle → Handle → Bool → List String := fun _ _ _ => []
  remarkOnReset : Handle → Handle → Bool → List String := fun _ _ _ => []

namespace ExpanderBehaviour

variable {S : Signature}

def ofRules (name : String) (rules : RuleBook S) : ExpanderBehaviour S where
  name := name
  openText := rules.forText
  openCandidate := rules.forCandidate

def defaulting (result : Outcome S.Value) (base : ExpanderBehaviour S) : ExpanderBehaviour S :=
  { base with emptyResult := result, compile := fun _ => result }

/-- Compiles texts directly; a failure falls back to the default result. -/
def compiling (compile : String → Outcome S.Value) (base : ExpanderBehaviour S) :
    ExpanderBehaviour S :=
  { base with compile := fun text => (compile text).orElse fun _ => base.emptyResult }

def inspectRules (name : String) (rules : RuleBook S) : String :=
  Text.record "ConfiguredExpander" [("name", Text.quoted name), ("config", rules.inspect)]

end ExpanderBehaviour

/-- The behaviour of every class. Compounds are well-founded: a component never contains a
compound of its own class, so that a fresh one is finite. -/
class Language (S : Signature) where
  token : S.TokenClass → TokenBehaviour S
  expander : S.ExpanderClass → ExpanderBehaviour S
  compound : S.CompoundClass → CompoundBehaviour S
  list : S.ListClass → ListBehaviour S
  rank : ClassKey S → Nat
  rank_component : ∀ c, ∀ d ∈ (compound c).components, rank d < rank (.compound c)
  valueEq : DecidableEq S.Value

attribute [reducible, instance] Language.valueEq

variable {S : Signature} [Language S]

/-- Induction on classes: compounds come after their components. -/
theorem ClassKey.induct {motive : ClassKey S → Prop} (token : ∀ c, motive (.token c))
    (expander : ∀ c, motive (.expander c)) (list : ∀ c, motive (.list c))
    (compound : ∀ c, (∀ d ∈ (Language.compound c).components, motive d) → motive (.compound c))
    (c : ClassKey S) : motive c := by
  induction rank : Language.rank c using Nat.strongRecOn generalizing c with
  | ind n ih =>
    subst rank
    cases c with
    | token c => exact token c
    | expander c => exact expander c
    | list c => exact list c
    | compound c =>
      exact compound c fun d member => ih _ (Language.rank_component c d member) d rfl

def ClassKey.name : ClassKey S → String
  | .token c => (Language.token c).name
  | .expander c => (Language.expander c).name
  | .compound c => (Language.compound c).name
  | .list c => (Language.list c).name

def Shape.title : Shape → String
  | .token => "Token"
  | .expander => "Expander"
  | .compound => "Compound"
  | .list => "List"

def ClassKey.inspect (c : ClassKey S) : String :=
  Text.tuple c.shape.title [Text.quoted c.name]

/-- Editor classes, the one registered last first. -/
structure Registry (S : Signature) where
  classes : List (ClassKey S) := []

namespace Registry

def register (c : ClassKey S) (r : Registry S) : Registry S :=
  ⟨c :: r.classes.filter (·.name != c.name)⟩

def ofClasses (classes : List (ClassKey S)) : Registry S :=
  classes.foldl (fun r c => r.register c) {}

def lookup (name : String) (r : Registry S) : Except Refusal (ClassKey S) :=
  match r.classes.find? (·.name == name) with
  | some c => .ok c
  | none => .error (.unknownClass name)

def names (r : Registry S) : List String :=
  (Keyed.ofList (r.classes.map fun c => (c.name, c))).keys

def inspect (r : Registry S) : String :=
  Text.record "EditorRegistry" [("classes", Text.list (r.names.map Text.quoted))]

theorem name_of_lookup {r : Registry S} {name : String} {c : ClassKey S}
    (listed : r.lookup name = .ok c) : c.name = name := by
  unfold lookup at listed
  split at listed
  · next found =>
    cases listed
    simpa using List.find?_some found
  · cases listed

theorem lookup_register (c : ClassKey S) (name : String) (r : Registry S) :
    (r.register c).lookup name = if name = c.name then .ok c else r.lookup name := by
  unfold lookup
  by_cases same : name = c.name
  · simp [register, same]
  · have hidden : r.classes.find? (fun d => decide (d.name != c.name && d.name == name)) =
        r.classes.find? (·.name == name) := by
      congr 1
      funext d
      by_cases called : d.name = name
      · simp [called, same]
      · simp [called]
    rw [if_neg same, ← hidden]
    simp [register, Ne.symm same, List.find?_filter]

end Registry

end StructureEditor

import StructureEditor.Language.Basic
import StructureEditor.Sample.Candidates
import StructureEditor.Text.Integer
import StructureEditor.Workspace.Basic

/-! A small language of expressions that uses every kind of editor and every hook. -/
namespace StructureEditor.Sample

inductive Expr where
  | int (value : Int)
  | word (text : String)
  | hole
  | node (name : String) (parts : List Expr)
deriving Repr

namespace Expr

mutual

def decEq : (a b : Expr) → Decidable (a = b)
  | .int a, .int b => decidable_of_iff (a = b) (by simp)
  | .word a, .word b => decidable_of_iff (a = b) (by simp)
  | .hole, .hole => isTrue rfl
  | .node m as, .node n bs =>
    match decEqList as bs with
    | isTrue h => decidable_of_iff (m = n) (by simp [h])
    | isFalse h => isFalse (by simp [h])
  | .int _, .word _ | .int _, .hole | .int _, .node _ _
  | .word _, .int _ | .word _, .hole | .word _, .node _ _
  | .hole, .int _ | .hole, .word _ | .hole, .node _ _
  | .node _ _, .int _ | .node _ _, .word _ | .node _ _, .hole => isFalse (by simp)

def decEqList : (as bs : List Expr) → Decidable (as = bs)
  | [], [] => isTrue rfl
  | [], _ :: _ | _ :: _, [] => isFalse (by simp)
  | a :: as, b :: bs =>
    match decEq a b, decEqList as bs with
    | isTrue h, isTrue h' => isTrue (by simp [h, h'])
    | isFalse h, _ => isFalse (by simp [h])
    | _, isFalse h => isFalse (by simp [h])

end

instance : DecidableEq Expr := decEq

mutual

def text : Expr → String
  | .int value => toString value
  | .word text => "'" ++ text ++ "'"
  | .hole => "_"
  | .node name parts => name ++ "(" ++ ",".intercalate (texts parts) ++ ")"

def texts : List Expr → List String
  | [] => []
  | part :: rest => text part :: texts rest

end

mutual

def inspect : Expr → String
  | .int value => Text.tuple "Int" [toString value]
  | .word text => Text.tuple "Word" [Text.quoted text]
  | .hole => "Hole"
  | .node name parts => Text.tuple "Node" [Text.quoted name, Text.list (inspectAll parts)]

def inspectAll : List Expr → List String
  | [] => []
  | part :: rest => inspect part :: inspectAll rest

end

end Expr

inductive TokenName where
  | int | word | ghost | odd
deriving DecidableEq, Repr

inductive ExpanderName where
  | expr | strict | plain | scoped | hook
deriving DecidableEq, Repr

inductive CompoundName where
  | sum | div | pair | hooks | unit
deriving DecidableEq, Repr

inductive ListName where
  | exprs | semis | arrows | words | grid | hooklist
deriving DecidableEq, Repr

abbrev expression : Signature where
  Value := Expr
  TokenClass := TokenName
  ExpanderClass := ExpanderName
  CompoundClass := CompoundName
  ListClass := ListName

def integer (text : String) : Outcome Int :=
  Outcome.ofOption ("'" ++ text ++ "' is not an integer") (Text.integer? text)

def word (text : String) : Outcome Expr :=
  if text.toList.all Char.isAlpha && !text.isEmpty then .ok (.word text)
  else .err "not a word"

def tokenBehaviour : TokenName → TokenBehaviour expression
  | .int =>
    { name := "int"
      compile := fun text => (integer text).map .int
      compileCandidate := fun item =>
        match item.decode Constant with
        | .ok c => .ok (.int c.value)
        | .error _ => .err "bad item" }
  | .word => { name := "word", compile := word }
  | .ghost => { name := "ghost", compile := word }
  | .odd =>
    { name := "odd"
      compile := fun text =>
        if text = "child" then .errBelow else .ok (.int text.utf8ByteSize) }

def intToken (value : Int) : Build expression Handle := .token .int (toString value)

def fresh (c : ClassKey expression) : Build expression Handle := .editor c

def exprRules : RuleBook expression :=
  let keys : List (String × ClassKey expression) :=
    [("+", .compound .sum), ("/", .compound .div), ("pair", .compound .pair),
     ("unit", .compound .unit), ("[", .list .exprs), ("[;", .list .semis),
     ("words", .list .words), ("grid", .list .grid), ("hook", .expander .hook),
     ("(", .expander .expr), ("ghost", .token .ghost), ("odd", .token .odd)]
  let base : RuleBook expression := RuleBook.onKey "42" (.token .int "42") {}
  let book := keys.foldl (fun book (key, c) => book.onKey key (fresh c)) base
  let book := book.onCompiled integer intToken
  let book := book.onText fun text =>
    match text.toList with
    | '"' :: rest => some <$> Build.token TokenName.word (String.ofList rest)
    | _ => .done none
  book.onCandidate fun (c : Constant) => some <$> intToken c.value

def strictRules : RuleBook expression :=
  exprRules.extend
    |>.onKey "42" (.token TokenName.int "4242")
    |>.onCandidate fun (n : Numeral) =>
      if 0 ≤ n.value then some <$> intToken n.value else .done none

def hookOpenText (text : String) : Build expression (Option Handle) :=
  match text with
  | "fail" => .fail
  | "leak" => .createToken TokenName.int "13" fun _ => .fail
  | "sum" => some <$> fresh (.compound .sum)
  | "edit" =>
    .createToken TokenName.int "1" fun id => .typeToken id "2" (.done (some id))
  | text =>
    match Text.integer? text with
    | some value => some <$> intToken value
    | none => .done none

def hookOpenCandidate (item : Candidate) : Build expression (Option Handle) :=
  if item.isOf Keyword then .done none
  else match item.decode Constant with
    | .ok c => some <$> intToken c.value
    | .error _ => .fail

def hookOpenTyped (text : String) : Build expression (Option Handle) :=
  match text.toList.reverse with
  | '!' :: front =>
    let rest := String.ofList front.reverse
    if rest = "boom" then .fail
    else match Text.integer? rest with
      | some value => some <$> intToken value
      | none => .done none
  | _ => .done none

def nothingHere : Outcome Expr := .err "nothing here"

def hookCompile (text : String) : Outcome Expr :=
  if text.toList.all Char.isUpper && !text.isEmpty then .ok (.word text) else nothingHere

def hookLine (what : String) (expander content : Handle) (alive : Bool) : List String :=
  [" ".intercalate ["hook", what, expander.text, content.text, Text.bool alive]]

def expanderBehaviour : ExpanderName → ExpanderBehaviour expression
  | .expr =>
    (ExpanderBehaviour.ofRules "expr" exprRules).defaulting (.ok Expr.hole)
      |>.compiling fun text => (integer text).map .int
  | .strict => ExpanderBehaviour.ofRules "strict" strictRules
  | .plain => { name := "plain" }
  | .scoped => { ExpanderBehaviour.ofRules "scoped" exprRules with contentScope := .provided }
  | .hook =>
    { name := "hook"
      openText := hookOpenText
      openCandidate := hookOpenCandidate
      openTyped := hookOpenTyped
      emptyResult := nothingHere
      compile := hookCompile
      compileCandidate := fun item =>
        match item.decode Keyword with
        | .ok k => .ok (.word k.name)
        | .error _ => .errBelow
      admits := fun c => c.shape == .token
      contentScope := .fresh
      remarkOnFill := hookLine "expansion"
      remarkOnReset := hookLine "reset" }

def compoundBehaviour : CompoundName → CompoundBehaviour expression
  | .sum => plainly "sum" [.expander .expr, .expander .expr]
  | .div =>
    { name := "div"
      components := [.expander .expr, .token .int]
      compose := fun values =>
        match values with
        | [_, .int 0] => .err "division by zero"
        | _ => .ok (.node "div" values) }
  | .pair => plainly "pair" [.token .word, .list .exprs]
  | .hooks => plainly "hooks" [.expander .hook, .expander .scoped, .expander .plain]
  | .unit => plainly "unit" []
where
  plainly (name : String) (components : List (ClassKey expression)) :
      CompoundBehaviour expression :=
    { name, components, compose := fun values => .ok (.node name values) }

def listBehaviour : ListName → ListBehaviour expression
  | .exprs => plainly "exprs" (.expander .expr)
  | .semis => { plainly "semis" (.expander .expr) with separator := some ';' }
  | .arrows => { plainly "arrows" (.expander .expr) with separator := some '→' }
  | .words =>
    { name := "words"
      element := .token .word
      compose := fun values =>
        if 3 < values.length then .err "too many words" else .ok (.node "words" values) }
  | .grid => plainly "grid" (.list .exprs)
  | .hooklist => plainly "hooklist" (.expander .hook)
where
  plainly (name : String) (element : ClassKey expression) : ListBehaviour expression :=
    { name, element, compose := fun values => .ok (.node name values) }

/-- Only compounds have components, and none of those is a compound. -/
def rank : ClassKey expression → Nat
  | .compound _ => 1
  | _ => 0

theorem rank_of_component (c : CompoundName) :
    ∀ d ∈ (compoundBehaviour c).components, rank d = 0 := by
  have all_zero : (compoundBehaviour c).components.all (fun d => rank d == 0) = true := by
    cases c <;> rfl
  simpa using all_zero

instance : Language expression where
  token := tokenBehaviour
  expander := expanderBehaviour
  compound := compoundBehaviour
  list := listBehaviour
  rank := rank
  rank_component c d member := by
    rw [rank_of_component c d member]
    exact Nat.zero_lt_one
  valueEq := inferInstanceAs (DecidableEq Expr)

def allClasses : List (ClassKey expression) :=
  [.token .int, .token .word, .token .ghost, .token .odd,
   .expander .expr, .expander .strict, .expander .plain, .expander .scoped, .expander .hook,
   .compound .sum, .compound .div, .compound .pair, .compound .hooks, .compound .unit,
   .list .exprs, .list .semis, .list .arrows, .list .words, .list .grid, .list .hooklist]

def classNamed? (name : String) : Option (ClassKey expression) :=
  allClasses.find? (·.name == name)

def defaultRegistry : Registry expression :=
  .ofClasses (allClasses.filter (·.name != "ghost"))

/-- How a class shows itself: the expression expander by its rules, a name without a class as
a plain token. -/
def inspectNamed (name : String) : String :=
  if name = "expr" then ExpanderBehaviour.inspectRules name exprRules
  else match classNamed? name with
    | some c => c.inspect
    | none => Text.record "SimpleToken" [("name", Text.quoted name)]

def resultLine : Outcome Expr → String
  | .ok value => "Ok " ++ value.text
  | .err message => "Err " ++ message
  | .errBelow => "ChildErr"

def noticeLine : Notice expression → String
  | .displayText text => "text " ++ text
  | .expanded content => "expanded " ++ content.text
  | .reset => "reset"
  | .resultChanged result => "result " ++ resultLine result
  | .itemAdded index item => "added " ++ toString index ++ " " ++ item.text
  | .itemRemoved index => "removed " ++ toString index

/-- The lines that named views and hooks write; a view without a name writes nothing. -/
def eventLine? (nameOf : ViewId → Option String) : Event expression → Option String
  | .notice view notice => (nameOf view).map fun name => name ++ " " ++ noticeLine notice
  | .remark line => some line

end StructureEditor.Sample

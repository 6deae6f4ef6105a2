import StructureEditor.Candidate

/-! Snapshots: the state of an editor and of everything below it, detached from any document.
The class is recorded so that the editor can be built anew. -/
namespace StructureEditor

/-- An expander's snapshot keeps its optional parts apart, as they may be written in any
mixture; what they mean together is `display?`. -/
inductive Snapshot where
  | token (className : Option String) (text : String) (itemClass : Option String)
      (item : Option Json)
  | expander (className : Option String) (content : Option Snapshot) (text : Option String)
      (itemClass : Option String) (item : Option Json)
  | compound (className : Option String) (components : List Snapshot)
  | list (className : Option String) (items : List Snapshot)
deriving Inhabited

namespace Snapshot

def className : Snapshot → Option String
  | .token className _ _ _ => className
  | .expander className _ _ _ _ => className
  | .compound className _ => className
  | .list className _ => className

def shape : Snapshot → Shape
  | .token .. => .token
  | .expander .. => .expander
  | .compound .. => .compound
  | .list .. => .list

/-- The candidate recorded by a class and a value; a class alone stands for a null value. -/
def candidate? (itemClass : Option String) (item : Option Json) : Option Candidate :=
  itemClass.map fun name => ⟨name, item.getD .null⟩

def ofToken (className : Option String) (text : String) (item : Option Candidate) : Snapshot :=
  .token className text (item.map (·.className)) (item.map (·.value))

def ofExpander (className : Option String) : Display Snapshot → Snapshot
  | .expanded content => .expander className (some content) none none none
  | .text text item =>
    .expander className none (some text) (item.map (·.className)) (item.map (·.value))

/-- The state of an expander: content counts before text. -/
def display? : Snapshot → Option (Display Snapshot)
  | .expander _ (some content) _ _ _ => some (.expanded content)
  | .expander _ none text itemClass item =>
    some (.text (text.getD "") (candidate? itemClass item))
  | _ => none

def tokenState? : Snapshot → Option (String × Option Candidate)
  | .token _ text itemClass item => some (text, candidate? itemClass item)
  | _ => none

mutual

/-- The number of editors on the longest way down. -/
def depth : Snapshot → Nat
  | .token .. => 1
  | .expander _ content _ _ _ => depthOption content + 1
  | .compound _ components => depthList components + 1
  | .list _ items => depthList items + 1

def depthOption : Option Snapshot → Nat
  | none => 0
  | some s => depth s

def depthList : List Snapshot → Nat
  | [] => 0
  | s :: rest => max (depth s) (depthList rest)

end

def sameOption (same : α → α → Bool) : Option α → Option α → Bool
  | none, none => true
  | some a, some b => same a b
  | _, _ => false

mutual

/-- Equality, with JSON values compared as values. -/
def same : Snapshot → Snapshot → Bool
  | .token c text itemClass item, .token c' text' itemClass' item' =>
    c == c' && text == text' && itemClass == itemClass' && sameOption Json.same item item'
  | .expander c content text itemClass item, .expander c' content' text' itemClass' item' =>
    c == c' && sameContent content content' && text == text' && itemClass == itemClass'
      && sameOption Json.same item item'
  | .compound c components, .compound c' components' =>
    c == c' && sameAll components components'
  | .list c items, .list c' items' => c == c' && sameAll items items'
  | _, _ => false

def sameContent : Option Snapshot → Option Snapshot → Bool
  | none, none => true
  | some a, some b => same a b
  | _, _ => false

def sameAll : List Snapshot → List Snapshot → Bool
  | [], [] => true
  | a :: as, b :: bs => same a b && sameAll as bs
  | _, _ => false

end

end Snapshot

end StructureEditor

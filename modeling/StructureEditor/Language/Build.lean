import StructureEditor.Identity

/-! What a hook does to a document, as data: it creates editors in the context it is given,
types into tokens, and answers or fails. -/
namespace StructureEditor

/-- The values that documents compile to, and the names of the classes of editors. -/
structure Signature where
  Value : Type
  TokenClass : Type
  ExpanderClass : Type
  CompoundClass : Type
  ListClass : Type

inductive ClassKey (S : Signature) where
  | token (c : S.TokenClass)
  | expander (c : S.ExpanderClass)
  | compound (c : S.CompoundClass)
  | list (c : S.ListClass)

def ClassKey.shape {S : Signature} : ClassKey S → Shape
  | .token _ => .token
  | .expander _ => .expander
  | .compound _ => .compound
  | .list _ => .list

inductive Build (S : Signature) (α : Type) where
  | done (value : α)
  | fail
  | create (c : ClassKey S) (next : Handle → Build S α)
  | createToken (c : S.TokenClass) (text : String) (next : Handle → Build S α)
  | typeToken (id : Handle) (text : String) (next : Build S α)

namespace Build

variable {S : Signature} {α β : Type}

def bind : Build S α → (α → Build S β) → Build S β
  | .done value, f => f value
  | .fail, _ => .fail
  | .create c next, f => .create c fun id => (next id).bind f
  | .createToken c text next, f => .createToken c text fun id => (next id).bind f
  | .typeToken id text next, f => .typeToken id text (next.bind f)

instance : Monad (Build S) where
  pure := .done
  bind := bind

def editor (c : ClassKey S) : Build S Handle := .create c .done

def token (c : S.TokenClass) (text : String) : Build S Handle := .createToken c text .done

def answerOr (fallback : α) (answer : Option α) : α := answer.getD fallback

/-- The first answer; what the builds before it created stays. -/
def firstMade : List (Build S (Option Handle)) → Build S (Option Handle)
  | [] => .done none
  | build :: rest => build.bind fun
    | some id => .done (some id)
    | none => firstMade rest

end Build

end StructureEditor

import StructureEditor.Action
import StructureEditor.Text.Inspect

/-! Contexts: levels of services, each falling back to the levels above it. A context is the
way from its own level up; the services themselves are kept in one table, so that two
contexts are the same level exactly when they are equal. -/
namespace StructureEditor

structure Context where
  level : Nat
  above : List Nat
deriving DecidableEq, Repr

namespace Context

/-- From the innermost level to the outermost. -/
def levels (c : Context) : List Nat := c.level :: c.above

def depth (c : Context) : Nat := c.above.length

def parent? (c : Context) : Option Context :=
  match c.above with
  | [] => none
  | level :: above => some ⟨level, above⟩

end Context

class ServiceTable (T : Type) where
  empty : T
  count : T → Nat

structure Contexts (T : Type) where
  tables : Array T

namespace Contexts

variable {T α : Type}

def empty : Contexts T := ⟨#[]⟩

def newLevel [ServiceTable T] (above : List Nat) (cs : Contexts T) : Context × Contexts T :=
  (⟨cs.tables.size, above⟩, ⟨cs.tables.push ServiceTable.empty⟩)

def root [ServiceTable T] (cs : Contexts T) : Context × Contexts T := cs.newLevel []

def extend [ServiceTable T] (c : Context) (cs : Contexts T) : Context × Contexts T :=
  cs.newLevel c.levels

def find? (service : T → Option α) (c : Context) (cs : Contexts T) : Option α :=
  c.levels.findSome? fun level => cs.tables[level]? >>= service

def require (name : String) (service : T → Option α) (c : Context) (cs : Contexts T) :
    Except Refusal α :=
  match cs.find? service c with
  | some value => .ok value
  | none => .error (.noService name)

def install (put : T → T) (c : Context) (cs : Contexts T) : Contexts T :=
  ⟨cs.tables.modify c.level put⟩

def inspect [ServiceTable T] (c : Context) (cs : Contexts T) : String :=
  let services := (cs.tables[c.level]?).elim 0 ServiceTable.count
  Text.record "Context" [("depth", toString c.depth), ("services", toString services)]

end Contexts

end StructureEditor

/-! What compiling an editor gives. An editor that is wrong itself is kept apart from one
that is fine but has something wrong below it, so that an error is reported once, where it
arose. -/
namespace StructureEditor

/-- The two ways in which compiling stops. -/
inductive Failure where
  | own (message : String)
  | below
deriving DecidableEq, Repr

def Failure.text : Failure → String
  | .own message => "Err(" ++ message ++ ")"
  | .below => "ChildErr"

def Failure.report (failure : Failure) : String :=
  "compilation terminated with " ++ failure.text

/-- The result of one editor: a value, an error of its own, or an error below it. -/
inductive Outcome (α : Type) where
  | ok (value : α)
  | err (message : String)
  | errBelow
deriving DecidableEq, Repr

namespace Outcome

variable {α β : Type}

def isOk : Outcome α → Bool
  | .ok _ => true
  | _ => false

def isError (o : Outcome α) : Bool := !o.isOk

def isErr : Outcome α → Bool
  | .err _ => true
  | _ => false

def isErrBelow : Outcome α → Bool
  | .errBelow => true
  | _ => false

def message? : Outcome α → Option String
  | .err message => some message
  | _ => none

def map (f : α → β) : Outcome α → Outcome β
  | .ok value => .ok (f value)
  | .err message => .err message
  | .errBelow => .errBelow

def bind : Outcome α → (α → Outcome β) → Outcome β
  | .ok value, f => f value
  | .err message, _ => .err message
  | .errBelow, _ => .errBelow

/-- The alternative is only asked for when there is no value. -/
def orElse : Outcome α → (Unit → Outcome α) → Outcome α
  | .ok value, _ => .ok value
  | _, alternative => alternative ()

def or (o alternative : Outcome α) : Outcome α := o.orElse fun _ => alternative

def ofFailure : Failure → Outcome α
  | .own message => .err message
  | .below => .errBelow

def orStop : Outcome α → Except Failure α
  | .ok value => .ok value
  | .err message => .error (.own message)
  | .errBelow => .error .below

/-- The value, or an error below whatever the failure was. -/
def orStopBelow : Outcome α → Except Failure α
  | .ok value => .ok value
  | _ => .error .below

def recover (handler : Failure → α) (o : Outcome α) : α :=
  match o.orStop with
  | .ok value => value
  | .error failure => handler failure

def toOption : Outcome α → Option α
  | .ok value => some value
  | _ => none

/-- Closes a block in which a failed part stops the rest. -/
def ofBlock : Except Failure α → Outcome α
  | .ok value => .ok value
  | .error failure => ofFailure failure

/-- All values in order; any failure is an error below. -/
def sequence : List (Outcome α) → Outcome (List α)
  | [] => .ok []
  | .ok value :: rest => (sequence rest).map (value :: ·)
  | _ :: _ => .errBelow

def ofOption (message : String) : Option α → Outcome α
  | some value => .ok value
  | none => .err message

def ofOptionBelow : Option α → Outcome α
  | some value => .ok value
  | none => .errBelow

end Outcome

end StructureEditor

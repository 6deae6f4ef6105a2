import StructureEditor.Identity
import StructureEditor.Outcome

/-! What can go wrong. A refusal is an answer: the caller may go on. A fault is a broken
promise of the caller and ends the session. -/
namespace StructureEditor

inductive Refusal where
  | stale (id : Handle)
  | wrongShape (id : Handle) (expected : String) (found : Shape)
  | noChild (id : Handle) (position : Position)
  | unknownClass (name : String)
  | noClass
  | noService (service : String)
  | mismatch (expected found : String)
  | wrongCount (className : String) (expected found : Nat)
  | attached (id : Handle)
  | unknownKey (key : String)
  | outOfRange (index length : Nat)
  | unreadable
  | badSettings
  | notCopyable (id : Handle)
deriving DecidableEq, Repr

def Refusal.message : Refusal → String
  | .stale id => "Editor " ++ id.text ++ " no longer exists"
  | .wrongShape id expected found =>
    "Editor " ++ id.text ++ " is a " ++ found.name ++ ", expected a " ++ expected
  | .noChild id position => "Editor " ++ id.text ++ " has no sub-editor at " ++ position.text
  | .unknownClass name => "Unknown editor class '" ++ name ++ "'"
  | .noClass => "Snapshot does not record an editor class"
  | .noService service => "Context does not provide a " ++ service
  | .mismatch expected found =>
    "Snapshot mismatch: expected " ++ expected ++ ", found " ++ found
  | .wrongCount className expected found =>
    "Compound '" ++ className ++ "' expects " ++ toString expected ++ " components, got "
      ++ toString found
  | .attached id => "Editor " ++ id.text ++ " is already attached to a parent"
  | .unknownKey key => "No factory for key '" ++ key ++ "' registered"
  | .outOfRange index length =>
    "Index " ++ toString index ++ " out of bounds for list of length " ++ toString length
  | .unreadable => "Serialization error"
  | .badSettings => "Invalid settings"
  | .notCopyable id => "Editor " ++ id.text ++ " does not support copy and paste"

/-- Operations that an expander only takes while it shows text. -/
inductive TextModeUse where
  | typing
  | expanding
  | choosing
deriving DecidableEq, Repr

def TextModeUse.phrase : TextModeUse → String
  | .typing => "set the text of"
  | .expanding => "expand"
  | .choosing => "complete"

inductive Direction where
  | undo
  | redo
deriving DecidableEq, Repr

def Direction.name : Direction → String
  | .undo => "undo"
  | .redo => "redo"

inductive Fault where
  | alreadyExpanded (use : TextModeUse) (id : Handle)
  | notExpanded (id : Handle)
  | groupOpen (direction : Direction)
  | groupAlreadyOpen
  | noGroupOpen
  | staleIndex (id : Handle)
  | noSlot (index slots : Nat)
  | forced (failure : Failure)
deriving DecidableEq, Repr

def Fault.message : Fault → String
  | .alreadyExpanded use id =>
    "cannot " ++ use.phrase ++ " expander " ++ id.text ++ ": already expanded"
  | .notExpanded id => "cannot reset expander " ++ id.text ++ ": not expanded"
  | .groupOpen direction => "cannot " ++ direction.name ++ " while a compound edit is open"
  | .groupAlreadyOpen => "a compound edit is already open"
  | .noGroupOpen => "finish_compound_edit called without begin_compound_edit"
  | .staleIndex id => "editor " ++ id.text ++ " no longer exists"
  | .noSlot index slots =>
    "index out of bounds: the len is " ++ toString slots ++ " but the index is " ++ toString index
  | .forced failure => "attempt to force " ++ failure.text

/-- Only to be asked where there is a value. -/
def Outcome.force (o : Outcome α) : Except Fault α :=
  match o.orStop with
  | .ok value => .ok value
  | .error failure => .error (.forced failure)

end StructureEditor

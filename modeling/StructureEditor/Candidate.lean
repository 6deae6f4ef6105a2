import StructureEditor.Refusal
import StructureEditor.Json.Writer

/-! Candidates for completion. A candidate is kept as its class and its JSON value, so that it can
be stored and read again by whoever knows the class. -/
namespace StructureEditor

structure Candidate where
  className : String
  value : Json
deriving Inhabited, Repr

/-- A type of candidates with a class of its own. -/
class CandidateType (T : Type) where
  className : String
  toDocument : T → Document
  ofDocument? : Document → Option T

namespace Candidate

def same (a b : Candidate) : Bool := a.className == b.className && a.value == b.value

instance : BEq Candidate := ⟨same⟩

def ofTyped [CandidateType T] (value : T) : Candidate :=
  ⟨CandidateType.className T, (CandidateType.toDocument value).toJson⟩

def isOf (T : Type) [CandidateType T] (c : Candidate) : Bool :=
  c.className == CandidateType.className T

def decode (T : Type) [CandidateType T] (c : Candidate) : Except Refusal T :=
  if c.isOf T then
    match CandidateType.ofDocument? (Document.ofJson c.value) with
    | some value => .ok value
    | none => .error .unreadable
  else .error (.mismatch (CandidateType.className T) c.className)

def toDocument (c : Candidate) : Document :=
  .object [("class", .string c.className), ("value", .ofJson c.value)]

def ofDocument? (d : Document) : Option Candidate := do
  match ← d.record? ["class", "value"] with
  | [some className, some value] => return ⟨← className.string?, ← value.toJson?⟩
  | _ => none

end Candidate

structure Choice where
  item : Candidate
  text : String

/-- What an expander shows: a text, possibly chosen among the candidates, or its content. The
content is an editor in a document and a snapshot outside of one. -/
inductive Display (α : Type) where
  | text (shown : String) (item : Option Candidate)
  | expanded (content : α)

namespace Display

def initial : Display α := .text "" none

def isExpanded : Display α → Bool
  | .expanded _ => true
  | .text .. => false

end Display

end StructureEditor

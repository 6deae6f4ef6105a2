import StructureEditor.Refusal

/-! Outcomes over 64-bit integers, whose sums and products wrap around. -/
namespace StructureEditor.Sample.Arithmetic

/-- Doubles a positive number; a negative one is an error, zero an error below. -/
def double (n : Int64) : Outcome Int64 :=
  if n < 0 then .err (toString n.toInt ++ " is negative")
  else if n = 0 then .errBelow
  else .ok (n * 2)

/-- What is put in place of a failure: the length of its message below zero, or a thousand. -/
def handle : Failure → Int64
  | .own message => -(Int64.ofNat message.length)
  | .below => 1000

def orElseCounting (o alternative : Outcome Int64) : Bool × Outcome Int64 :=
  (o.isError, o.orElse fun _ => alternative)

/-- A part of a block: a sub-result, passed on as it is or as an error below, or a stop. -/
inductive Part where
  | keep (o : Outcome Int64)
  | flatten (o : Outcome Int64)
  | stop (failure : Failure)

def Part.value : Part → Except Failure Int64
  | .keep o => o.orStop
  | .flatten o => o.orStopBelow
  | .stop failure => .error failure

def sumBlock : Nat → Int64 → List Part → Nat × Except Failure Int64
  | begun, total, [] => (begun, .ok total)
  | begun, total, part :: rest =>
    match part.value with
    | .ok n => sumBlock (begun + 1) (total + n) rest
    | .error failure => (begun + 1, .error failure)

def runBlock (parts : List Part) : Nat × Outcome Int64 :=
  let (begun, result) := sumBlock 0 0 parts
  (begun, .ofBlock result)

end StructureEditor.Sample.Arithmetic

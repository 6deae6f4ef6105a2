import StructureEditor.Refusal

/-! Actions on a state. An action that stops keeps the changes made so far: nothing is rolled
back unless the action itself does so. -/
namespace StructureEditor

inductive Stop where
  | refused (error : Refusal)
  | fault (fault : Fault)
deriving DecidableEq, Repr

abbrev Action (σ : Type) := EStateM Stop σ

namespace Action

variable {σ α β : Type}

def refuse (error : Refusal) : Action σ α := throw (.refused error)

def fault (f : Fault) : Action σ α := throw (.fault f)

def ask (question : σ → Except Refusal α) : Action σ α := fun s =>
  match question s with
  | .ok value => .ok value s
  | .error error => .error (.refused error) s

def change (step : σ → α × σ) : Action σ α := fun s =>
  let (value, s) := step s
  .ok value s

/-- A change that goes through or is a fault. -/
def risk (step : σ → Except Fault (α × σ)) : Action σ α := fun s =>
  match step s with
  | .ok (value, s) => .ok value s
  | .error f => .error (.fault f) s

/-- Turns a refusal into a value; a fault goes on. -/
def attempt (action : Action σ α) : Action σ (Except Refusal α) := fun s =>
  match action s with
  | .ok value s => .ok (.ok value) s
  | .error (.refused error) s => .ok (.error error) s
  | .error (.fault f) s => .error (.fault f) s

/-- Does `after` to the state however the action ends. -/
def ensuring (action : Action σ α) (after : σ → σ) : Action σ α := fun s =>
  match action s with
  | .ok value s => .ok value (after s)
  | .error stop s => .error stop (after s)

def ofExcept : Except Refusal α → Action σ α
  | .ok value => pure value
  | .error error => refuse error

end Action

end StructureEditor

import StructureEditor.Workspace.Basic

namespace StructureEditor.Workspace

variable {S : Signature} [Language S] {α : Type}

def writeToken (id : Handle) (text : String) (item : Option Candidate)
    (undoable : Bool) : Editing S Unit := do
  let (c, oldText, oldItem) ← ask (·.token id)
  setState id (.token c text item)
  if undoable && (oldText != text || oldItem != item) then
    recordIfActive id do
      return .text (← ask (·.locate id)) oldText text oldItem item
  tell id (.displayText text)
  recompute id

def typeToken (id : Handle) (text : String) (undoable : Bool) : Editing S Unit :=
  writeToken id text none undoable

/-- Builds in a context. There is no answer if the build fails; what it made stays. -/
def build (context : Context) : Build S α → Editing S (Option α)
  | .done value => return some value
  | .fail => return none
  | .create c next => do build context (next (← create c context))
  | .createToken c text next => do build context (next (← newToken c text context))
  | .typeToken id text next => do
    match ← (typeToken id text true).attempt with
    | .ok _ => build context next
    | .error _ => return none

/-- Runs a hook of an editor without recording. A failed hook has no answer. -/
def askHook (id : Handle) (context : Context) (hook : Build S (Option Handle)) :
    Editing S (Option Handle) := do
  let own := (← lookup id).context
  return Build.answerOr none (← unrecorded own (build context hook))

end StructureEditor.Workspace

import StructureEditor.Arena.Basic

namespace StructureEditor

def Handle.inspect (id : Handle) : String :=
  Text.record "EditorId"
    [("index", toString id.index), ("generation", toString id.generation.toNat)]

def Outcome.inspect (shown : α → String) : Outcome α → String
  | .ok value => Text.tuple "Ok" [shown value]
  | .err message => Text.tuple "Err" [Text.quoted message]
  | .errBelow => "ChildErr"

def Editor.inspect {S : Signature} [Language S] (shown : S.Value → String) (editor : Editor S) :
    String :=
  Text.record "Node"
    [("kind", editor.state.shape.title),
     ("class", Text.quoted editor.state.classKey.name),
     ("parent", Text.option Handle.inspect editor.parent),
     ("result", editor.result.inspect shown)]

def Arena.inspect {S : Signature} (a : Arena S) : String :=
  Text.record "EditorTree"
    [("editors", toString a.size), ("free", toString a.free.length)]

end StructureEditor

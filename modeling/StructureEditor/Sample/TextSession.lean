import StructureEditor.History.Session

/-! A history over a single text: the smallest state that can be edited and taken back. -/
namespace StructureEditor.Sample

inductive TextEdit where
  | append (text : String)
  /-- Replaces the whole text. It refuses to be replayed in the directions listed. -/
  | replace (name old new : String) (refuses : String)

namespace TextEdit

def description : TextEdit → String
  | .append _ => "Append"
  | .replace name _ _ _ => name

def merge? : TextEdit → TextEdit → Option TextEdit
  | .append first, .append second => some (.append (first ++ second))
  | _, _ => none

instance : Undoable TextEdit where
  description := description
  merge? := merge?

def inspect : TextEdit → String
  | .append text => Text.tuple "Append" [Text.quoted text]
  | .replace name old new refuses =>
    Text.record "Replace"
      [("name", Text.quoted name), ("old", Text.quoted old), ("new", Text.quoted new),
       ("fail", Text.quoted refuses)]

def withoutSuffix? (text suffix : String) : Option String :=
  if suffix.toList.isSuffixOf text.toList then
    some (String.ofList (text.toList.take (text.toList.length - suffix.toList.length)))
  else none

def occursIn (part : List Char) : List Char → Bool
  | [] => part.isEmpty
  | c :: rest => part.isPrefixOf (c :: rest) || occursIn part rest

def replayOn : Direction → TextEdit → String → Except Refusal String
  | .undo, .append suffix, text =>
    match withoutSuffix? text suffix with
    | some front => .ok front
    | none => .error (.unknownKey suffix)
  | .redo, .append suffix, text => .ok (text ++ suffix)
  | direction, .replace name old new refuses, _ =>
    if occursIn direction.name.toList refuses.toList then .error (.unknownKey name)
    else match direction with
      | .undo => .ok old
      | .redo => .ok new

end TextEdit

structure TextSession where
  text : String
  history : History TextEdit

abbrev TextAction := Action TextSession

namespace TextSession

def lens : HistoryLens TextSession TextEdit where
  view s := s.history
  put history s := { s with history }

def replay (direction : Direction) (edit : TextEdit) : TextAction Unit := do
  let text ← Action.ask fun s => edit.replayOn direction s.text
  modify fun s => { s with text }

inductive Request where
  | append (text : String)
  | replace (text name refuses : String)
  | group (description : String) (requests : List Request)
deriving Inhabited

mutual

def perform : Request → String → Step TextEdit × String
  | .append suffix, text => (.single (.append suffix), text ++ suffix)
  | .replace new name refuses, text => (.single (.replace name text new refuses), new)
  | .group description requests, text =>
    let (steps, text) := performAll requests text
    (.group description steps, text)

def performAll : List Request → String → List (Step TextEdit) × String
  | [], text => ([], text)
  | request :: rest, text =>
    let (step, text) := perform request text
    let (steps, text) := performAll rest text
    (step :: steps, text)

end

def apply (request : Request) : TextAction Unit := do
  let (step, text) := perform request (← get).text
  modify fun s => { s with text }
  lens.record step

def setText (text : String) : TextAction Unit := modify fun s => { s with text }

def undo : TextAction Bool := lens.undo replay

def redo : TextAction Bool := lens.redo replay

def clear : TextAction Unit := modify (lens.update (·.clear))

end TextSession

end StructureEditor.Sample

import StructureEditor.Json.Document

namespace StructureEditor.Document

def hexDigit (n : Nat) : Char := Nat.digitChar (n % 16)

def escaped (c : Char) : List Char :=
  if c = '"' then ['\\', '"']
  else if c = '\\' then ['\\', '\\']
  else if c = '\n' then ['\\', 'n']
  else if c = '\r' then ['\\', 'r']
  else if c = '\t' then ['\\', 't']
  else if c.toNat = 8 then ['\\', 'b']
  else if c.toNat = 12 then ['\\', 'f']
  else if c.toNat < 32 then
    ['\\', 'u', '0', '0', hexDigit (c.toNat / 16), hexDigit c.toNat]
  else [c]

def quoted (s : String) : List Char := '"' :: s.toList.flatMap escaped ++ ['"']

mutual

def chars : Document → List Char
  | .null | .unreadable => ['n', 'u', 'l', 'l']
  | .bool true => ['t', 'r', 'u', 'e']
  | .bool false => ['f', 'a', 'l', 's', 'e']
  | .number value => value.chars
  | .string value => quoted value
  | .array [] => ['[', ']']
  | .array (first :: rest) => '[' :: chars first ++ itemChars rest
  | .object [] => ['\x7b', '\x7d']
  | .object ((key, value) :: rest) =>
    '\x7b' :: quoted key ++ ':' :: chars value ++ fieldChars rest

def itemChars : List Document → List Char
  | [] => [']']
  | item :: rest => ',' :: chars item ++ itemChars rest

def fieldChars : List (String × Document) → List Char
  | [] => ['\x7d']
  | (key, value) :: rest => ',' :: quoted key ++ ':' :: chars value ++ fieldChars rest

end

def lineBreak (level : Nat) : List Char := '\n' :: List.replicate (2 * level) ' '

mutual

def prettyChars (level : Nat) : Document → List Char
  | .array (first :: rest) =>
    '[' :: lineBreak (level + 1) ++ prettyChars (level + 1) first ++ prettyItems level rest
  | .object ((key, value) :: rest) =>
    '\x7b' :: lineBreak (level + 1) ++ quoted key ++ ':' :: ' ' ::
      prettyChars (level + 1) value ++ prettyFields level rest
  | other => chars other

def prettyItems (level : Nat) : List Document → List Char
  | [] => lineBreak level ++ [']']
  | item :: rest =>
    ',' :: lineBreak (level + 1) ++ prettyChars (level + 1) item ++ prettyItems level rest

def prettyFields (level : Nat) : List (String × Document) → List Char
  | [] => lineBreak level ++ ['\x7d']
  | (key, value) :: rest =>
    ',' :: lineBreak (level + 1) ++ quoted key ++ ':' :: ' ' ::
      prettyChars (level + 1) value ++ prettyFields level rest

end

def compact (d : Document) : String := String.ofList d.chars

def pretty (d : Document) : String := String.ofList (d.prettyChars 0)

end StructureEditor.Document

namespace StructureEditor

def Json.compact (value : Json) : String := (Document.ofJson value).compact

end StructureEditor

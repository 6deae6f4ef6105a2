import StructureEditor.Text.Shapeless

namespace StructureEditor.Text

def hex (n : Nat) : String := String.ofList (Nat.toDigits 16 n)

/-- A character inside quotes. One without a shape is shown by its number. -/
def quotedChar (c : Char) : String :=
  if c.toNat = 0 then "\\0"
  else if c = '\t' then "\\t"
  else if c = '\r' then "\\r"
  else if c = '\n' then "\\n"
  else if c = '"' then "\\\""
  else if c = '\\' then "\\\\"
  else if isShapeless c then "\\u\x7b" ++ hex c.toNat ++ "\x7d"
  else c.toString

def quoted (s : String) : String := "\"" ++ String.join (s.toList.map quotedChar) ++ "\""

def separated (parts : List String) : String := ", ".intercalate parts

def list (parts : List String) : String := "[" ++ separated parts ++ "]"

def tuple (name : String) (parts : List String) : String :=
  name ++ "(" ++ separated parts ++ ")"

def record (name : String) (fields : List (String × String)) : String :=
  let shown := fields.map fun (field, value) => field ++ ": " ++ value
  name ++ " \x7b " ++ separated shown ++ " \x7d"

def option (show? : α → String) : Option α → String
  | some value => tuple "Some" [show? value]
  | none => "None"

def bool (b : Bool) : String := if b then "true" else "false"

end StructureEditor.Text

namespace StructureEditor.Text

/-- Signed 64-bit words go from `-halfWord` up to below `halfWord`. -/
def halfWord : Nat := 9223372036854775808

def isInWord (n : Int) : Bool := -halfWord ≤ n && n < halfWord

def digitsValue? (digits : List Char) : Option Nat :=
  if digits.isEmpty || !digits.all Char.isDigit then none
  else some (digits.foldl (fun n c => n * 10 + (c.toNat - '0'.toNat)) 0)

/-- One sign at most, then one or more digits and nothing else. -/
def signedValue? : List Char → Option Int
  | '+' :: digits => (digitsValue? digits).map Int.ofNat
  | '-' :: digits => (digitsValue? digits).map fun n => -Int.ofNat n
  | digits => (digitsValue? digits).map Int.ofNat

def integer? (text : String) : Option Int :=
  (signedValue? text.toList).filter isInWord

end StructureEditor.Text

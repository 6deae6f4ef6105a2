import StructureEditor.Json.Document
import StructureEditor.Text.Integer

/-! Reading JSON text. Each step takes a part off the front and returns the rest; whether the
part stands for a value is decided afterwards, so that a skipped part need only be
well-formed. -/
namespace StructureEditor.Document

def isBlank (c : Char) : Bool := c == ' ' || c == '\n' || c == '\t' || c == '\r'

def skipBlanks (text : List Char) : List Char := text.dropWhile isBlank

def hexValue? (c : Char) : Option Nat :=
  if '0' ≤ c ∧ c ≤ '9' then some (c.toNat - '0'.toNat)
  else if 'a' ≤ c ∧ c ≤ 'f' then some (c.toNat - 'a'.toNat + 10)
  else if 'A' ≤ c ∧ c ≤ 'F' then some (c.toNat - 'A'.toNat + 10)
  else none

/-- A part of a string: a character, or one half of a surrogate pair. -/
inductive Piece where
  | char (c : Char)
  | half (code : Nat)

def isHighHalf (code : Nat) : Bool := 0xD800 ≤ code && code < 0xDC00
def isLowHalf (code : Nat) : Bool := 0xDC00 ≤ code && code < 0xE000

def Piece.ofCode (code : Nat) : Piece :=
  if isHighHalf code || isLowHalf code then .half code else .char (Char.ofNat code)

def simpleEscape? (c : Char) : Option Char :=
  if c = '"' then some '"'
  else if c = '\\' then some '\\'
  else if c = '/' then some '/'
  else if c = 'b' then some (Char.ofNat 8)
  else if c = 'f' then some (Char.ofNat 12)
  else if c = 'n' then some '\n'
  else if c = 'r' then some '\r'
  else if c = 't' then some '\t'
  else none

def pieces? : List Char → Option (List Piece × List Char)
  | [] => none
  | '"' :: rest => some ([], rest)
  | '\\' :: 'u' :: a :: b :: c :: d :: rest => do
    let code := (((← hexValue? a) * 16 + (← hexValue? b)) * 16 + (← hexValue? c)) * 16
      + (← hexValue? d)
    let (more, rest) ← pieces? rest
    return (.ofCode code :: more, rest)
  | '\\' :: e :: rest => do
    let c ← simpleEscape? e
    let (more, rest) ← pieces? rest
    return (.char c :: more, rest)
  | c :: rest =>
    if c = '\\' ∨ c.toNat < 32 then none
    else do
      let (more, rest) ← pieces? rest
      return (.char c :: more, rest)

/-- Halves count only in pairs, a high one first. -/
def joinPieces? : List Piece → Option (List Char)
  | [] => some []
  | .char c :: rest => (joinPieces? rest).map (c :: ·)
  | .half high :: .half low :: rest =>
    if isHighHalf high && isLowHalf low then
      let code := 0x10000 + (high - 0xD800) * 0x400 + (low - 0xDC00)
      (joinPieces? rest).map (Char.ofNat code :: ·)
    else none
  | .half _ :: _ => none

/-- The text after an opening quote; the inner result is none if it stands for no string. -/
def stringBody? (text : List Char) : Option (Option String × List Char) := do
  let (pieces, rest) ← pieces? text
  return ((joinPieces? pieces).map String.ofList, rest)

def digitValue (c : Char) : Nat := c.toNat - '0'.toNat

def takeDigits (text : List Char) : List Nat × List Char :=
  ((text.takeWhile Char.isDigit).map digitValue, text.dropWhile Char.isDigit)

structure Numeral where
  negative : Bool
  whole : List Nat
  fraction : Option (List Nat)
  power : Option Int

def fractionPart? : List Char → Option (Option (List Nat) × List Char)
  | '.' :: rest =>
    match takeDigits rest with
    | ([], _) => none
    | (digits, rest) => some (some digits, rest)
  | rest => some (none, rest)

def numberOf (digits : List Nat) : Nat := digits.foldl (fun n d => n * 10 + d) 0

def powerPart? : List Char → Option (Option Int × List Char)
  | c :: rest =>
    if c = 'e' ∨ c = 'E' then
      let (sign, rest) : Int × List Char := match rest with
        | '+' :: rest => (1, rest)
        | '-' :: rest => (-1, rest)
        | rest => (1, rest)
      match takeDigits rest with
      | ([], _) => none
      | (digits, rest) => some (some (sign * numberOf digits), rest)
    else some (none, c :: rest)
  | [] => some (none, [])

def numeral? (text : List Char) : Option (Numeral × List Char) := do
  let (negative, text) := match text with
    | '-' :: rest => (true, rest)
    | rest => (false, rest)
  let (whole, text) ← match takeDigits text with
    | ([], _) => none
    | ([d], rest) => some ([d], rest)
    | (0 :: _, _) => none
    | (digits, rest) => some (digits, rest)
  let (fraction, text) ← fractionPart? text
  let (power, text) ← powerPart? text
  return (⟨negative, whole, fraction, power⟩, text)

def wordLimit : Nat := UInt64.size

/-- Takes digits as long as the number fits 64 bits, and returns those left over. -/
def absorb (n : Nat) : List Nat → Nat × List Nat
  | [] => (n, [])
  | d :: rest => if n * 10 + d < wordLimit then absorb (n * 10 + d) rest else (n, d :: rest)

/-- The number a numeral stands for; none beyond every magnitude. Only the digits that fit a
word count, those after them as zeros. -/
def Numeral.number? (numeral : Numeral) : Option Number :=
  let (n, dropped) := absorb 0 numeral.whole
  let integral := numeral.fraction.isNone && numeral.power.isNone && dropped.isEmpty
  if integral && !numeral.negative then some (.int n)
  else if integral && 0 < n && n ≤ Text.halfWord then some (.int (-n))
  else
    let fraction := numeral.fraction.getD []
    let (n, ignored) := absorb n fraction
    let taken := fraction.length - ignored.length
    let power : Int := dropped.length - taken + numeral.power.getD 0
    ((Magnitude.ofNat? n).bind (·.scaleByTen? power)).map fun magnitude =>
      .real ⟨numeral.negative, magnitude⟩

def nestingLimit : Nat := 127

def ofString? : Option String → Document
  | some s => .string s
  | none => .unreadable

def ofNumber? : Option Number → Document
  | some n => .number n
  | none => .unreadable

/-- An object with a key that is no string stands for no value. -/
def ofMembers (members : List (Option String × Document)) : Document :=
  match members.mapM fun (key, value) => key.map (·, value) with
  | some fields => .object fields
  | none => .unreadable

mutual

/-- The value at the front of the text, with room for so many nested containers. The first
argument bounds the steps. -/
def readValue? : Nat → Nat → List Char → Option (Document × List Char)
  | 0, _, _ => none
  | steps + 1, room, text =>
    match skipBlanks text with
    | 'n' :: 'u' :: 'l' :: 'l' :: rest => some (.null, rest)
    | 't' :: 'r' :: 'u' :: 'e' :: rest => some (.bool true, rest)
    | 'f' :: 'a' :: 'l' :: 's' :: 'e' :: rest => some (.bool false, rest)
    | '"' :: rest => (stringBody? rest).map fun (s, rest) => (ofString? s, rest)
    | '[' :: rest => do
      let (items, rest) ← match skipBlanks rest with
        | ']' :: rest => some ([], rest)
        | rest => readItems? steps (room - 1) rest
      return (if room = 0 then .unreadable else .array items, rest)
    | '\x7b' :: rest => do
      let (members, rest) ← match skipBlanks rest with
        | '\x7d' :: rest => some ([], rest)
        | rest => readMembers? steps (room - 1) rest
      return (if room = 0 then .unreadable else ofMembers members, rest)
    | rest => (numeral? rest).map fun (numeral, rest) => (ofNumber? numeral.number?, rest)

def readItems? : Nat → Nat → List Char → Option (List Document × List Char)
  | 0, _, _ => none
  | steps + 1, room, text => do
    let (item, rest) ← readValue? steps room text
    match skipBlanks rest with
    | ',' :: rest =>
      let (more, rest) ← readItems? steps room rest
      return (item :: more, rest)
    | ']' :: rest => return ([item], rest)
    | _ => none

def readMembers? : Nat → Nat → List Char → Option (List (Option String × Document) × List Char)
  | 0, _, _ => none
  | steps + 1, room, text => do
    let (key, rest) ← match skipBlanks text with
      | '"' :: rest => stringBody? rest
      | _ => none
    let (value, rest) ← match skipBlanks rest with
      | ':' :: rest => readValue? steps room rest
      | _ => none
    match skipBlanks rest with
    | ',' :: rest =>
      let (more, rest) ← readMembers? steps room rest
      return ((key, value) :: more, rest)
    | '\x7d' :: rest => return ([(key, value)], rest)
    | _ => none

end

theorem skipBlanks_cons {c : Char} (rest : List Char) (ink : isBlank c = false) :
    skipBlanks (c :: rest) = c :: rest := by
  simp [skipBlanks, ink]

theorem readValue?_skipped (steps room : Nat) {input text : List Char} {c : Char}
    (skipped : skipBlanks input = c :: text) (ink : isBlank c = false) :
    readValue? (steps + 1) room input = readValue? (steps + 1) room (c :: text) := by
  rw [readValue?, readValue?, skipped, skipBlanks_cons text ink]

def parse? (text : String) : Option Document :=
  let chars := text.toList
  match readValue? (2 * chars.length + 1) nestingLimit chars with
  | some (d, rest) => if (skipBlanks rest).isEmpty then some d else none
  | none => none

end StructureEditor.Document

namespace StructureEditor

def Json.parse? (text : String) : Option Json :=
  (Document.parse? text).bind Document.toJson?

end StructureEditor

import StructureEditor.Json.Reader
import StructureEditor.Json.Writer
import Mathlib.Data.List.Basic

/-! The words of JSON text: strings and whole numbers. What the writer puts down for one of them,
the reader takes off again, and leaves what stands behind. -/
namespace StructureEditor.Document

theorem hexValue?_hexDigit (n : Nat) : hexValue? (hexDigit n) = some (n % 16) := by
  have each : ∀ m < 16, hexValue? (Nat.digitChar m) = some m := by decide
  exact each _ (Nat.mod_lt n (by decide))

theorem pieces?_plain {c : Char} (rest : List Char) (plain : c ≠ '"' ∧ c ≠ '\\' ∧ 32 ≤ c.toNat) :
    pieces? (c :: rest) = (pieces? rest).map fun (more, rest) => (Piece.char c :: more, rest) := by
  obtain ⟨quote, slash, printable⟩ := plain
  have ok : ¬(c = '\\' ∨ c.toNat < 32) := not_or.2 ⟨slash, Nat.not_lt.2 printable⟩
  rw [pieces?, if_neg ok]
  · cases pieces? rest <;> rfl
  all_goals simp_all

theorem pieces?_simple {e c : Char} (rest : List Char) (escape : simpleEscape? e = some c) :
    pieces? ('\\' :: e :: rest) =
      (pieces? rest).map fun (more, rest) => (Piece.char c :: more, rest) := by
  have other : e ≠ 'u' := by
    rintro rfl
    have none : simpleEscape? 'u' = none := by decide
    rw [none] at escape
    cases escape
  rw [pieces?, escape]
  · cases pieces? rest <;> rfl
  · exact fun _ _ _ _ _ same _ => other same

theorem pieces?_coded {c : Char} (rest : List Char) (control : c.toNat < 32) :
    pieces? ('\\' :: 'u' :: '0' :: '0' :: hexDigit (c.toNat / 16) :: hexDigit c.toNat :: rest) =
      (pieces? rest).map fun (more, rest) => (Piece.char c :: more, rest) := by
  have zero : hexValue? '0' = some 0 := by decide
  have code : ((0 * 16 + 0) * 16 + c.toNat / 16 % 16) * 16 + c.toNat % 16 = c.toNat := by omega
  have whole : Piece.ofCode c.toNat = .char c := by
    simp [Piece.ofCode, isHighHalf, isLowHalf, show ¬55296 ≤ c.toNat by omega,
      show ¬56320 ≤ c.toNat by omega, Char.ofNat_toNat]
  simp only [pieces?, zero, hexValue?_hexDigit, Option.bind_eq_bind, Option.bind_some, code, whole]
  cases pieces? rest <;> rfl

theorem pieces?_escaped (c : Char) (rest : List Char) :
    pieces? (escaped c ++ rest) =
      (pieces? rest).map fun (more, rest) => (Piece.char c :: more, rest) := by
  have named : ∀ e d : Char, simpleEscape? e = some d → c = d →
      pieces? (['\\', e] ++ rest) =
        (pieces? rest).map fun (more, rest) => (Piece.char c :: more, rest) := by
    rintro e d escape rfl
    exact pieces?_simple rest escape
  have numbered : ∀ n, c.toNat = n → c = Char.ofNat n := fun n same => by
    rw [← same, Char.ofNat_toNat]
  unfold escaped
  split_ifs with quote slash line begin tab back feed control
  · exact named _ _ (by decide) quote
  · exact named _ _ (by decide) slash
  · exact named _ _ (by decide) line
  · exact named _ _ (by decide) begin
  · exact named _ _ (by decide) tab
  · exact named _ _ (by decide) (numbered 8 back)
  · exact named _ _ (by decide) (numbered 12 feed)
  · exact pieces?_coded rest control
  · exact pieces?_plain rest ⟨quote, slash, by omega⟩

theorem pieces?_quoted (cs rest : List Char) :
    pieces? (cs.flatMap escaped ++ '"' :: rest) = some (cs.map .char, rest) := by
  induction cs with
  | nil => rfl
  | cons c cs ih =>
    rw [List.flatMap_cons, List.append_assoc, pieces?_escaped, ih]
    rfl

theorem joinPieces?_chars (cs : List Char) : joinPieces? (cs.map .char) = some cs := by
  induction cs with
  | nil => rfl
  | cons c cs ih => exact congrArg (Option.map (c :: ·)) ih

theorem stringBody?_quoted (s : String) (rest : List Char) :
    stringBody? (s.toList.flatMap escaped ++ '"' :: rest) = some (some s, rest) := by
  simp [stringBody?, pieces?_quoted, joinPieces?_chars, String.ofList_toList]

def digitsOf (n : Nat) : List Nat := (Nat.toDigits 10 n).map digitValue

theorem digitValue_digitChar {d : Nat} (digit : d < 10) : digitValue d.digitChar = d := by
  have each : ∀ d < 10, digitValue (Nat.digitChar d) = d := by decide
  exact each d digit

theorem digitsOf_eq (n : Nat) :
    digitsOf n = if n < 10 then [n] else digitsOf (n / 10) ++ [n % 10] := by
  rw [digitsOf, Nat.toDigits_eq_if (by decide)]
  split
  · next small => rw [List.map_singleton, digitValue_digitChar small]
  · rw [List.map_append, List.map_singleton, digitValue_digitChar (Nat.mod_lt n (by decide)),
      ← digitsOf]

def NoZeroInFront (digits : List Nat) : Prop :=
  (∃ d, digits = [d]) ∨ ∃ d e more, digits = (d + 1) :: e :: more

theorem digitsOf_noZeroInFront (n : Nat) : NoZeroInFront (digitsOf n) := by
  suffices first : ∃ d more, digitsOf n = d :: more ∧ (d = 0 → n = 0) by
    obtain ⟨d, more, digits, zero⟩ := first
    rw [digits]
    cases more with
    | nil => exact .inl ⟨d, rfl⟩
    | cons e more =>
      cases d with
      | succ d => exact .inr ⟨d, e, more, rfl⟩
      | zero =>
        rw [zero rfl, digitsOf_eq, if_pos (by decide)] at digits
        cases digits
  induction n using Nat.strongRecOn with
  | _ n ih =>
    rw [digitsOf_eq]
    split
    · exact ⟨n, [], rfl, id⟩
    · obtain ⟨d, more, digits, zero⟩ := ih (n / 10) (by omega)
      exact ⟨d, more ++ [n % 10], by rw [digits]; rfl, fun isZero => by
        have := zero isZero
        omega⟩

theorem absorb_append {m k : Nat} {digits : List Nat} (more : List Nat)
    (all : absorb m digits = (k, [])) : absorb m (digits ++ more) = absorb k more := by
  induction digits generalizing m with
  | nil =>
    cases all
    rfl
  | cons d digits ih =>
    rw [absorb] at all
    split at all
    · next fits => rw [List.cons_append, absorb, if_pos fits, ih all]
    · cases all

theorem absorb_digitsOf {n : Nat} (word : n < wordLimit) : absorb 0 (digitsOf n) = (n, []) := by
  induction n using Nat.strongRecOn with
  | _ n ih =>
    rw [digitsOf_eq]
    split
    · simp [absorb, word]
    · rw [absorb_append _ (ih (n / 10) (by omega) (by omega)), absorb,
        if_pos (by omega), absorb]
      congr 1
      omega

/-- What may stand behind a number: nothing that would be a part of it. -/
def Delimited (rest : List Char) : Prop :=
  ∀ c, rest.head? = some c → c.isDigit = false ∧ c ≠ '.' ∧ c ≠ 'e' ∧ c ≠ 'E'

theorem takeDigits_toDigits (n : Nat) {rest : List Char} (delimited : Delimited rest) :
    takeDigits (Nat.toDigits 10 n ++ rest) = (digitsOf n, rest) := by
  have digits : ∀ c ∈ Nat.toDigits 10 n, c.isDigit = true := fun c member =>
    Nat.isDigit_of_mem_toDigits (by decide) (by decide) member
  have stops : rest.takeWhile Char.isDigit = [] ∧ rest.dropWhile Char.isDigit = rest := by
    cases rest with
    | nil => exact ⟨rfl, rfl⟩
    | cons c rest =>
      have other := (delimited c rfl).1
      simp [other]
  rw [takeDigits, List.takeWhile_append_of_pos digits, List.dropWhile_append_of_pos digits,
    stops.1, stops.2, List.append_nil, digitsOf]

theorem fractionPart?_none {rest : List Char} (delimited : Delimited rest) :
    fractionPart? rest = some (none, rest) := by
  unfold fractionPart?
  split
  · exact absurd rfl (delimited '.' rfl).2.1
  · rfl

theorem powerPart?_none {rest : List Char} (delimited : Delimited rest) :
    powerPart? rest = some (none, rest) := by
  cases rest with
  | nil => rfl
  | cons c rest =>
    obtain ⟨-, -, lower, upper⟩ := delimited c rfl
    have other : ¬(c = 'e' ∨ c = 'E') := by simp [lower, upper]
    unfold powerPart?
    exact if_neg other

/-- Whole numbers that fit a word, with a sign or without. -/
def IsWord (n : Int) : Prop := -Text.halfWord ≤ n ∧ n < wordLimit

def wholeChars (n : Int) : List Char :=
  (if n < 0 then ['-'] else []) ++ Nat.toDigits 10 n.natAbs

theorem chars_int (n : Int) : (Number.int n).chars = wholeChars n := by
  rw [Number.chars, Int.toString_eq_repr, Int.repr_eq_if, wholeChars]
  split_ifs with nonneg negative negative
  · omega
  · rw [Nat.toList_repr, List.nil_append, show n.toNat = n.natAbs by omega]
  · rw [String.toList_append, Nat.toList_repr, show (-n).toNat = n.natAbs by omega]
    rfl
  · omega

theorem toDigits_eq_cons (n : Nat) : ∃ c cs, Nat.toDigits 10 n = c :: cs ∧ c.isDigit = true := by
  obtain ⟨c, cs, digits⟩ := List.exists_cons_of_ne_nil (Nat.toDigits_ne_nil (n := n) (b := 10))
  exact ⟨c, cs, digits, Nat.isDigit_of_mem_toDigits (by decide) (by decide)
    (digits ▸ List.mem_cons_self)⟩

theorem numeral?_wholeChars (n : Int) {rest : List Char} (delimited : Delimited rest) :
    numeral? (wholeChars n ++ rest) =
      some (⟨decide (n < 0), digitsOf n.natAbs, none, none⟩, rest) := by
  have taken := takeDigits_toDigits n.natAbs delimited
  have fraction := fractionPart?_none delimited
  have power := powerPart?_none delimited
  rw [wholeChars]
  by_cases negative : n < 0
  · rw [if_pos negative, List.cons_append, List.nil_append, List.cons_append]
    rcases digitsOf_noZeroInFront n.natAbs with ⟨d, digits⟩ | ⟨d, e, more, digits⟩ <;>
      simp [numeral?, taken, digits, fraction, power, negative]
  · obtain ⟨c, cs, chars, isDigit⟩ := toDigits_eq_cons n.natAbs
    have noSign : c ≠ '-' := by
      rintro rfl
      cases isDigit
    rw [chars, List.cons_append] at taken
    rw [if_neg negative, List.nil_append, chars, List.cons_append]
    rcases digitsOf_noZeroInFront n.natAbs with ⟨d, digits⟩ | ⟨d, e, more, digits⟩ <;>
      simp [numeral?, noSign, taken, digits, fraction, power, negative]

theorem number?_whole {n : Int} (word : IsWord n) :
    Numeral.number? ⟨decide (n < 0), digitsOf n.natAbs, none, none⟩ = some (.int n) := by
  obtain ⟨low, high⟩ := word
  have fits : n.natAbs < wordLimit := by
    have : Text.halfWord < wordLimit := by decide
    omega
  rw [Numeral.number?, absorb_digitsOf fits]
  dsimp only
  by_cases negative : n < 0
  · have small : 0 < n.natAbs ∧ n.natAbs ≤ Text.halfWord := by omega
    have value : -(n.natAbs : Int) = n := by omega
    rw [if_neg (by simp [negative]), if_pos (by simp [small]), value]
  · have value : (n.natAbs : Int) = n := by omega
    rw [if_pos (by simp [negative]), value]

end StructureEditor.Document

/-! Finite binary64 numbers, as exact integers times powers of two. A decimal is read by
scaling its leading digits with a power of ten, one rounding per step; a number is written
with the fewest digits that read back to it. -/
namespace StructureEditor

/-- The number `significand * 2 ^ exponent`. Every value has one such form: the significand
has 53 bits unless the exponent is the least one. -/
structure Magnitude where
  significand : Nat
  exponent : Int
deriving DecidableEq, Repr

namespace Magnitude

def leastExponent : Int := -1074
def greatestExponent : Int := 971
def bits : Nat := 53

def zero : Magnitude := ⟨0, leastExponent⟩

def isZero (x : Magnitude) : Bool := x.significand == 0

/-- The quotient to the nearest integer, a half going to the even one. -/
def divideToEven (num den : Nat) : Nat :=
  let quotient := num / den
  let twice := 2 * (num % den)
  if twice < den then quotient
  else if den < twice then quotient + 1
  else quotient + quotient % 2

def highBit (num den : Nat) : Int :=
  let guess : Int := (Nat.log2 num : Int) - Nat.log2 den
  if num * Nat.pow 2 (-guess).toNat < den * Nat.pow 2 guess.toNat then guess - 1 else guess

/-- The magnitude nearest to `num / den`; none where that is beyond the greatest one. -/
def ofRatio? (num den : Nat) : Option Magnitude :=
  if num = 0 then some zero
  else
    let exponent := max (highBit num den - (bits - 1)) leastExponent
    let rounded :=
      divideToEven (num * Nat.pow 2 (-exponent).toNat) (den * Nat.pow 2 exponent.toNat)
    let result : Magnitude :=
      if rounded = Nat.pow 2 bits then ⟨Nat.pow 2 (bits - 1), exponent + 1⟩
      else ⟨rounded, exponent⟩
    if greatestExponent < result.exponent then none else some result

def ofNat? (n : Nat) : Option Magnitude := ofRatio? n 1

def mul? (x y : Magnitude) : Option Magnitude :=
  let exponent := x.exponent + y.exponent
  ofRatio? (x.significand * y.significand * Nat.pow 2 exponent.toNat)
    (Nat.pow 2 (-exponent).toNat)

def div? (x y : Magnitude) : Option Magnitude :=
  let exponent := x.exponent - y.exponent
  ofRatio? (x.significand * Nat.pow 2 exponent.toNat)
    (y.significand * Nat.pow 2 (-exponent).toNat)

def greatestTen : Nat := 308

def powerOfTen? (n : Nat) : Option Magnitude := ofNat? (Nat.pow 10 n)

/-- Scales by a power of ten. Far negative powers are taken in several divisions. -/
def scaleByTen? (x : Magnitude) (power : Int) : Option Magnitude :=
  if power.natAbs ≤ greatestTen then do
    let ten ← powerOfTen? power.natAbs
    if 0 ≤ power then x.mul? ten else x.div? ten
  else if x.isZero then some x
  else if 0 ≤ power then none
  else do
    let ten ← powerOfTen? greatestTen
    let smaller ← x.div? ten
    smaller.scaleByTen? (power + greatestTen)
termination_by power.natAbs
decreasing_by all_goals simp only [greatestTen] at *; omega

def ratio (x : Magnitude) : Nat × Nat :=
  (x.significand * Nat.pow 2 x.exponent.toNat, Nat.pow 2 (-x.exponent).toNat)

/-- The ends of the interval of reals that round to a magnitude, both over `4 * 2 ^ k`. -/
structure Interval where
  low : Nat
  high : Nat
  den : Nat
  closed : Bool

def interval (x : Magnitude) : Interval :=
  let up := Nat.pow 2 x.exponent.toNat
  let below := if x.significand = Nat.pow 2 (bits - 1) ∧ leastExponent < x.exponent then 1 else 2
  { low := (4 * x.significand - below) * up
    high := (4 * x.significand + 2) * up
    den := 4 * Nat.pow 2 (-x.exponent).toNat
    closed := x.significand % 2 == 0 }

def Interval.holds (i : Interval) (num den : Nat) : Bool :=
  let value := num * i.den
  if i.closed then i.low * den ≤ value && value ≤ i.high * den
  else i.low * den < value && value < i.high * den

structure Decimal where
  digits : Nat
  power : Int
deriving DecidableEq, Repr

def Decimal.ratio (d : Decimal) : Nat × Nat :=
  (d.digits * Nat.pow 10 d.power.toNat, Nat.pow 10 (-d.power).toNat)

def leadingPower (x : Magnitude) : Int :=
  let (num, den) := x.ratio
  ((Nat.toDigits 10 (num * Nat.pow 10 324 / den)).length : Int) - 325

/-- The one of the two grid neighbours that reads back and is nearer; a tie goes to the
even digit. -/
def neighbour? (x : Magnitude) (power : Int) : Option Decimal :=
  let (num, den) := x.ratio
  let top := num * Nat.pow 10 (-power).toNat
  let unit := den * Nat.pow 10 power.toNat
  let low : Decimal := ⟨top / unit, power⟩
  let high : Decimal := ⟨top / unit + 1, power⟩
  let fits (d : Decimal) : Bool := x.interval.holds d.ratio.1 d.ratio.2
  let twice := 2 * (top % unit)
  if fits low && fits high then
    if twice < unit || (twice == unit && low.digits % 2 == 0) then some low else some high
  else if fits low then some low
  else if fits high then some high
  else none

/-- The fewest digits that read back to a positive magnitude. Seventeen always do. -/
def shortest (x : Magnitude) : Decimal :=
  let first := x.leadingPower
  let found := (List.range 17).findSome? fun places : Nat => x.neighbour? (first - places)
  found.getD ⟨0, 0⟩

end Magnitude

/-- A finite binary64 number; zero has both signs. -/
structure Double where
  negative : Bool
  magnitude : Magnitude
deriving DecidableEq, Repr

namespace Double

/-- Equality as numbers: the two zeros are equal. -/
def same (x y : Double) : Bool :=
  x == y || (x.magnitude.isZero && y.magnitude.isZero)

def trimmed (d : Magnitude.Decimal) : List Char × Int :=
  let written := Nat.toDigits 10 d.digits
  let zeros := (written.reverse.takeWhile (· == '0')).length
  (written.take (written.length - zeros), d.power + zeros)

def zeros (n : Nat) : List Char := List.replicate n '0'

/-- Positional up to sixteen places before the point and four zeros after it, always with a
point; elsewhere with one digit before the point and a signed power of ten. -/
def layout (digits : List Char) (power : Int) : List Char :=
  let point : Int := digits.length + power
  if 0 ≤ power ∧ point ≤ 16 then digits ++ zeros power.toNat ++ ['.', '0']
  else if 0 < point ∧ point ≤ 16 then
    digits.take point.toNat ++ '.' :: digits.drop point.toNat
  else if -5 < point ∧ point ≤ 0 then '0' :: '.' :: zeros (-point).toNat ++ digits
  else
    let mantissa := match digits with
      | first :: second :: rest => first :: '.' :: second :: rest
      | short => short
    let sign := if 0 < point then '+' else '-'
    mantissa ++ 'e' :: sign :: Nat.toDigits 10 (point - 1).natAbs

def chars (x : Double) : List Char :=
  let body :=
    if x.magnitude.isZero then ['0', '.', '0']
    else
      let (digits, power) := trimmed x.magnitude.shortest
      layout digits power
  if x.negative then '-' :: body else body

end Double

end StructureEditor

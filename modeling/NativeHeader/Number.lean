/-!
# Numbers

A document holds numbers of two kinds.  A whole number is what it is; it has at most 4300 digits,
since a longer one is neither read nor written.  A number with a fraction or an exponent is read as
a `Double`: the nearest of the numbers that fit into 64 bits in the binary format, of two that are
equally near the one with an even significand.

A double is written with as few decimal digits as tell it from all others.  `Magnitude.shortest`
looks for them: all digits of its exact value are tried with the last ones left out, and fewer are
left out until what remains is read as the same double again.
-/

namespace NativeHeader

/-- A power of two. -/
def twoTo (exponent : Nat) : Nat := Nat.pow 2 exponent

/-- A power of five. -/
def fiveTo (exponent : Nat) : Nat := Nat.pow 5 exponent

/-- A power of ten. -/
def tenTo (exponent : Nat) : Nat := Nat.pow 10 exponent

theorem tenTo_le_tenTo {m n : Nat} (h : m ≤ n) : tenTo m ≤ tenTo n :=
  Nat.pow_le_pow_right (by decide) h

/-! ## Whole numbers -/

/-- How many digits a whole number may have. -/
def Whole.mostDigits : Nat := 4300

/-- The first whole number that has too many digits. -/
def Whole.limit : Nat := tenTo mostDigits

/-- A whole number that can be read and written. -/
structure Whole where
  value : Int
  bounded : value.natAbs < Whole.limit
  deriving DecidableEq

namespace Whole

theorem lt_limit {n : Nat} (h : n < tenTo 100) : n < limit :=
  Nat.lt_of_lt_of_le h (tenTo_le_tenTo (by decide))

/-- The whole number that is written by one digit; of a larger number the last digit counts. -/
def ofDigit (digit : Nat) : Whole :=
  ⟨digit % 10, lt_limit (Nat.lt_of_lt_of_le (Nat.mod_lt digit (by decide)) (by decide))⟩

instance : Inhabited Whole := ⟨ofDigit 0⟩

/-- A number, if it has not too many digits. -/
def ofInt? (value : Int) : Option Whole :=
  if h : value.natAbs < limit then some ⟨value, h⟩ else none

/-- The decimal digits of a number, with its sign. -/
def text (number : Whole) : String := toString number.value

end Whole

/-! ## Doubles -/

/-- A decimal number without a sign: its digits, of which the last stands for a power of ten. -/
structure Decimal where
  digits : Nat
  scale : Int
  deriving DecidableEq

/-- The size of a finite double: a significand, and the power of two by which it counts units.  The
unit is the smallest size other than zero, `2 ^ -1074`.  Only with the smallest power may the
significand have less than 53 bits, so every size is written in one way. -/
structure Magnitude where
  significand : Nat
  exponent : Nat
  fits : significand < twoTo 53
  normal : twoTo 52 ≤ significand ∨ exponent = 0
  bounded : exponent ≤ 2045
  deriving DecidableEq

/-- A number of the binary format with 64 bits, or one of the values beside the numbers. -/
inductive Double where
  | finite (negative : Bool) (magnitude : Magnitude)
  | infinite (negative : Bool)
  | nan
  deriving DecidableEq

namespace Decimal

/-- How many decimal digits a number has. -/
def digitCount (number : Nat) : Nat := (Nat.toDigits 10 number).length

/-- How many digits stand before the point; less than zero if zeros follow it. -/
def point (d : Decimal) : Int := digitCount d.digits + d.scale

/-- The digits without the zeros at the end. -/
def shownDigits (d : Decimal) : List Char :=
  ((Nat.toDigits 10 d.digits).reverse.dropWhile (· = '0')).reverse

/-- Written with all digits up to the point and at least one after it. -/
def fixedText (d : Decimal) : String :=
  let shown := d.shownDigits
  let before := d.point.toNat
  let front := if before = 0 then ['0'] else shown.take before
  let zeros := List.replicate (before - shown.length) '0'
  let back :=
    if shown.length ≤ before then ['0']
    else List.replicate (-d.point).toNat '0' ++ shown.drop before
  String.ofList (front ++ zeros ++ '.' :: back)

/-- Written with one digit before the point, and an exponent of at least two digits. -/
def scientificText (d : Decimal) : String :=
  let shown := d.shownDigits
  let exponent := d.point - 1
  let fraction := if shown.length ≤ 1 then [] else '.' :: shown.drop 1
  let size := Nat.toDigits 10 exponent.natAbs
  let padded := if size.length < 2 then '0' :: size else size
  String.ofList (shown.take 1 ++ fraction ++ 'e' :: (if exponent < 0 then '-' else '+') :: padded)

/-- Written without an exponent unless that takes many zeros. -/
def text (d : Decimal) : String :=
  if -4 < d.point ∧ d.point ≤ 16 then d.fixedText else d.scientificText

end Decimal

/-- A quotient rounded to the nearest whole number, halfway between two of them to the even one. -/
def roundQuotient (num den : Nat) : Nat :=
  let quotient := num / den
  let twice := 2 * (num % den)
  if twice < den ∨ (twice = den ∧ quotient % 2 = 0) then quotient else quotient + 1

namespace Magnitude

/-- The size zero. -/
def zero : Magnitude := ⟨0, 0, by decide, .inr rfl, by decide⟩

instance : Inhabited Magnitude := ⟨zero⟩

/-- The size with these parts, if it is not too large. -/
def ofParts? (significand exponent : Nat) : Option Magnitude :=
  if h : significand < twoTo 53 ∧ (twoTo 52 ≤ significand ∨ exponent = 0) ∧ exponent ≤ 2045 then
    some ⟨significand, exponent, h.1, h.2.1, h.2.2⟩
  else none

/-- The size nearest to so many units, if it is not too large. -/
def nearest? (num den : Nat) : Option Magnitude :=
  let exponent := (num / den).log2 - 52
  let significand := roundQuotient num (den * twoTo exponent)
  -- rounding up may lead to the next power of two
  if significand = twoTo 53 then ofParts? (twoTo 52) (exponent + 1)
  else ofParts? significand exponent

/-- The size nearest to a decimal number, if it is not too large.  Of a number that is far too small
or too large no power is computed. -/
def ofDecimal? (d : Decimal) : Option Magnitude :=
  if d.digits = 0 ∨ d.point < -330 then some zero
  else if 310 < d.point then none
  else nearest? (twoTo 1074 * (d.digits * tenTo d.scale.toNat)) (tenTo (-d.scale).toNat)

/-- How many units a size has. -/
def units (m : Magnitude) : Nat := m.significand * twoTo m.exponent

/-- All decimal digits of a size, of which the last stands for `10 ^ -1074`. -/
def exactDigits (m : Magnitude) : Nat := fiveTo 1074 * m.units

/-- The digits of a size when so many of the last ones are left out, if what remains, rounded down
or up, is read as this size again.  Of two that are the nearer one is taken. -/
def roundedTo? (m : Magnitude) (dropped : Nat) : Option Decimal :=
  let below := m.exactDigits / tenTo dropped
  let nearer := roundQuotient m.exactDigits (tenTo dropped)
  let other := if nearer = below then below + 1 else below
  [nearer, other].map (fun digits => ⟨digits, (dropped : Int) - 1074⟩)
    |>.find? fun d => ofDecimal? d = some m

/-- The fewest digits, if not more than so many of the last ones are left out. -/
def shortestFrom (m : Magnitude) : Nat → Decimal
  | 0 => ⟨m.exactDigits, -1074⟩
  | dropped + 1 =>
    match m.roundedTo? (dropped + 1) with
    | some d => d
    | none => m.shortestFrom dropped

/-- The fewest digits that are read as this size. -/
def shortest (m : Magnitude) : Decimal :=
  m.shortestFrom (Decimal.digitCount m.exactDigits - 1)

/-- A size, written. -/
def text (m : Magnitude) : String := if m.significand = 0 then "0.0" else m.shortest.text

end Magnitude

namespace Double

/-- The double that a decimal number with a sign is read as. -/
def ofDecimal (negative : Bool) (d : Decimal) : Double :=
  match Magnitude.ofDecimal? d with
  | some magnitude => finite negative magnitude
  | none => infinite negative

/-- Whether a double is one of the two zeros. -/
def isZero : Double → Bool
  | finite _ magnitude => magnitude.significand = 0
  | _ => false

/-- A double, written. -/
def text : Double → String
  | finite true magnitude => "-" ++ magnitude.text
  | finite false magnitude => magnitude.text
  | infinite true => "-inf"
  | infinite false => "inf"
  | nan => "nan"

end Double

end NativeHeader

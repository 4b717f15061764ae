import Telemetry.Double

/-!
Decimal texts of doubles. A number is written with the fewest digits that read back to it, of
several such decimals with the nearest, and `DecimalStyle` says which of two equally near ones is
taken and for which magnitudes numbers are written without an exponent.
-/

namespace Telemetry.Text

/-- Which of two neighbouring decimals stands for a number halfway between them. -/
inductive Tie where
  | toEven | awayFromZero
  deriving DecidableEq

namespace Tie

/-- Whether a number halfway above the decimal with these digits goes to the next one. -/
def goesUp : Tie → Nat → Bool
  | toEven, below => below % 2 == 1
  | awayFromZero, _ => true

end Tie

/-- The number `digits * 10 ^ exponent`. -/
structure Decimal where
  digits : Nat
  exponent : Int
  deriving DecidableEq

namespace Decimal

/-- The number of decimal digits of a positive number. -/
def width (n : Nat) : Nat :=
  (Nat.toDigits 10 n).length

/-- The fraction `numerator / denominator` of `factor * 2 ^ exponent`. -/
def binaryFraction (factor : Nat) (exponent : Int) : Nat × Nat :=
  if exponent < 0 then (factor, 2 ^ exponent.natAbs) else (factor * 2 ^ exponent.natAbs, 1)

/-- The fraction `numerator / denominator` in units of a power of ten. -/
def inUnits (numerator denominator : Nat) (exponent : Int) : Nat × Nat :=
  if exponent < 0 then (numerator * 10 ^ exponent.natAbs, denominator)
  else (numerator, denominator * 10 ^ exponent.natAbs)

/-- The exponent of the leading decimal digit of a positive fraction. -/
def leadingExponent (numerator denominator : Nat) : Int :=
  let guess : Int := width numerator - width denominator
  let (top, bottom) := inUnits numerator denominator guess
  if bottom ≤ top then guess else guess - 1

/-- Whether a decimal lies between two fractions over one denominator, ends included if asked. -/
def liesBetween (low high denominator : Nat) (withEnds : Bool) (decimal : Decimal) : Bool :=
  let (top, bottom) :=
    if decimal.exponent < 0 then (decimal.digits, 10 ^ decimal.exponent.natAbs)
    else (decimal.digits * 10 ^ decimal.exponent.natAbs, 1)
  let point := top * denominator
  let (low, high) := (low * bottom, high * bottom)
  if withEnds then low ≤ point && point ≤ high else low < point && point < high

/-- Of the two neighbours on a decimal grid around a fraction, the nearest one that reads back. -/
def onGrid (tie : Tie) (numerator denominator low high : Nat) (withEnds : Bool) (exponent : Int)
    : Option Decimal :=
  let (top, bottom) := inUnits numerator denominator exponent
  let below := top / bottom
  let rest := top % bottom
  let preferAbove := bottom < 2 * rest || (bottom == 2 * rest && tie.goesUp below)
  let candidates := if preferAbove then [below + 1, below] else [below, below + 1]
  (candidates.map (Decimal.mk · exponent)).find? fun candidate =>
    candidate.digits != 0 && liesBetween low high denominator withEnds candidate

/-- The shortest decimal that reads back to a positive finite double: the first grid of one, two
and up to seventeen digits that meets the interval of the reals which round to the double.
-/
def shortest (tie : Tie) (d : Double) : Decimal :=
  let quarter := d.exponent - 2
  let centre := 4 * d.significand
  let atBinade := d.significand == 2 ^ 52 && -1074 < d.exponent
  let (numerator, denominator) := binaryFraction centre quarter
  let low := (binaryFraction (centre - if atBinade then 1 else 2) quarter).1
  let high := (binaryFraction (centre + 2) quarter).1
  let lead := leadingExponent numerator denominator
  let withEnds := d.significand % 2 == 0
  let found := (List.range 17).findSome? fun (places : Nat) =>
    onGrid tie numerator denominator low high withEnds (lead - places)
  found.getD ⟨0, 0⟩

/-- The decimal without trailing zeros. -/
def trim (decimal : Decimal) : Decimal :=
  let written := Nat.toDigits 10 decimal.digits
  let zeros := (written.reverse.takeWhile (· == '0')).length
  ⟨decimal.digits / 10 ^ zeros, decimal.exponent + zeros⟩

end Decimal

/-- How numbers are written: what becomes of ties, and the least and the greatest exponent of the
leading digit for which a number is written without an exponent.
-/
structure DecimalStyle where
  tie : Tie
  least : Int
  greatest : Int

/-- The digits of a decimal around its point, with at least one digit on each side. -/
def positional (digits : List Char) (lead : Int) : List Char :=
  if lead < 0 then
    '0' :: '.' :: (List.replicate (lead.natAbs - 1) '0' ++ digits)
  else
    let count := lead.natAbs + 1
    let whole := digits.take count
    let tail := digits.drop count
    whole ++ List.replicate (count - whole.length) '0'
      ++ '.' :: (if tail.isEmpty then ['0'] else tail)

/-- The digits of a decimal with the point after the first digit and an exponent. -/
def scientific (digits : List Char) (lead : Int) : List Char :=
  digits.take 1 ++ (if digits.length ≤ 1 then [] else '.' :: digits.drop 1)
    ++ 'e' :: (toString lead).toList

def decimalText (style : DecimalStyle) (d : Double) : String :=
  if d.isNaN then "NaN"
  else
    let unsigned : String :=
      if !d.isFinite then "inf"
      else if d.magnitude = 0 then "0.0"
      else
        let decimal := (Decimal.shortest style.tie d).trim
        let digits := Nat.toDigits 10 decimal.digits
        let lead := decimal.exponent + digits.length - 1
        String.ofList <|
          if style.least ≤ lead && lead ≤ style.greatest then positional digits lead
          else scientific digits lead
    if d.isNegative then "-" ++ unsigned else unsigned

end Telemetry.Text

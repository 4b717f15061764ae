/-!
Double precision numbers by their IEEE 754 bits. Equality of values is equality of bits; the
comparisons of the arithmetic, under which a NaN differs from itself and both zeros agree, are
functions beside it.
-/

-- Powers of whole numbers are those of the core library, whatever other library is imported.
attribute [instance (high), default_instance (high + 1)] instPowNat

namespace Telemetry

structure Double where
  bits : UInt64
  deriving DecidableEq, Inhabited

namespace Double

def zero : Double := ⟨0⟩

/-- Whether the sign bit is set. -/
def isNegative (d : Double) : Bool :=
  2 ^ 63 ≤ d.bits.toNat

/-- The bits below the sign, which order the numbers of one sign. -/
def magnitude (d : Double) : Nat :=
  d.bits.toNat % 2 ^ 63

/-- The magnitude of infinity, above which lie the NaNs. -/
def infiniteMagnitude : Nat := 2047 * 2 ^ 52

def isNaN (d : Double) : Bool :=
  infiniteMagnitude < d.magnitude

/-- Whether the value is a real number. -/
def isFinite (d : Double) : Bool :=
  d.magnitude < infiniteMagnitude

/-- The integer significand of a finite value. -/
def significand (d : Double) : Nat :=
  if d.magnitude < 2 ^ 52 then d.magnitude else d.magnitude % 2 ^ 52 + 2 ^ 52

/-- The power of two that scales the significand of a finite value. -/
def exponent (d : Double) : Int :=
  ((d.magnitude / 2 ^ 52).max 1 : Nat) - 1075

/-- The place of a number in the order of the reals, both zeros at the same place. -/
def order (d : Double) : Int :=
  if d.isNegative then -d.magnitude else d.magnitude

/-- The nearest integer on the side of zero of a finite value. -/
def truncate (d : Double) : Int :=
  let magnitude : Int :=
    if d.exponent < 0 then d.significand / 2 ^ d.exponent.natAbs
    else d.significand * 2 ^ d.exponent.natAbs
  if d.isNegative then -magnitude else magnitude

/-- The value as a signed 64-bit word: cut off towards zero, and at the ends of the range. A NaN
becomes zero.
-/
def toWord (d : Double) : Int :=
  if d.isNaN then 0
  else if d.isFinite then Max.max (-2 ^ 63) (Min.min d.truncate (2 ^ 63 - 1))
  else if d.isNegative then -2 ^ 63 else 2 ^ 63 - 1

/-- Equality as the arithmetic has it. -/
def numericEq (a b : Double) : Bool :=
  !a.isNaN && !b.isNaN && a.order == b.order

/-- The sum, rounded to nearest. -/
def add (a b : Double) : Double :=
  ⟨(Float.ofBits a.bits + Float.ofBits b.bits).toBits⟩

/-- The greater of two values; a NaN gives way to a number. -/
def max (a b : Double) : Double :=
  if a.isNaN then b else if b.isNaN then a else if a.order < b.order then b else a

/-- The lesser of two values; a NaN gives way to a number. -/
def min (a b : Double) : Double :=
  if a.isNaN then b else if b.isNaN then a else if b.order < a.order then b else a

/-- The double nearest to an integer. -/
def ofInt (n : Int) : Double :=
  ⟨(Float.ofInt n).toBits⟩

/-- The product with, or for a negative exponent the quotient by, a power of ten, the power and
the result each rounded to nearest.
-/
def scaleByPowerOfTen (d : Double) (exponent : Int) : Double :=
  let power := Float.ofScientific 1 false exponent.natAbs
  let value := Float.ofBits d.bits
  ⟨(if exponent < 0 then value / power else value * power).toBits⟩

def negate (d : Double) : Double :=
  ⟨d.bits ^^^ 0x8000000000000000⟩

end Double

end Telemetry

/-!
# Exact binary numbers

A finite double is a signed natural number times a power of two.  `Binary` keeps these three parts,
so that questions about whole numbers, remainders and decimal digits are answered by exact
arithmetic on naturals.  `Binary.toFloat` goes back.
-/

namespace Reactor.Decimal

def twoTo (exponent : Nat) : Nat :=
  Nat.pow 2 exponent

def tenTo (exponent : Nat) : Nat :=
  Nat.pow 10 exponent

def leastLongMantissa : Nat := twoTo 52

/-- The number `mantissa * 2 ^ exponent`, with its sign kept apart so that zero has one too. -/
structure Binary where
  negative : Bool
  mantissa : Nat
  exponent : Int
  deriving DecidableEq, Repr

namespace Binary

private def parts (value : Float) : Bool × Nat × Nat :=
  let bits := value.toBits
  (bits >>> 63 == 1, ((bits >>> 52) &&& 0x7FF).toNat, (bits &&& 0xFFFFFFFFFFFFF).toNat)

/-- The exact value of a finite double.  There is none for a NaN or an infinity. -/
def ofFloat? (value : Float) : Option Binary :=
  let (negative, exponent, fraction) := parts value
  if exponent == 0x7FF then none
  else if exponent == 0 then some ⟨negative, fraction, -1074⟩
  else some ⟨negative, leastLongMantissa + fraction, (exponent : Int) - 1075⟩

/-- Double the mantissa until it has 53 bits or the exponent is the least one. -/
private def normalize : (steps mantissa : Nat) → (exponent : Int) → Nat × Int
  | 0, mantissa, exponent => (mantissa, exponent)
  | steps + 1, mantissa, exponent =>
    if mantissa < leastLongMantissa ∧ -1074 < exponent then
      normalize steps (2 * mantissa) (exponent - 1)
    else (mantissa, exponent)

/-- The double with this value, for a mantissa of at most 53 bits and an exponent in the range of
doubles. -/
def toFloat (number : Binary) : Float :=
  let (mantissa, exponent) := normalize 53 number.mantissa number.exponent
  let sign : Nat := if number.negative then twoTo 63 else 0
  let magnitude : Nat :=
    if mantissa < leastLongMantissa then mantissa
    else (exponent + 1075).toNat * twoTo 52 + (mantissa - leastLongMantissa)
  Float.ofBits (sign + magnitude).toUInt64

def floorMagnitude (number : Binary) : Nat :=
  number.mantissa * twoTo number.exponent.toNat / twoTo (-number.exponent).toNat

def isWhole (number : Binary) : Bool :=
  number.mantissa % twoTo (-number.exponent).toNat == 0

/-- The integer nearest to zero that differs from the number by less than one. -/
def truncate (number : Binary) : Int :=
  if number.negative then -(number.floorMagnitude : Int) else number.floorMagnitude

/-- The remainder of an exact division that truncates: it has the sign of the dividend. -/
def remainder (dividend divisor : Binary) : Binary :=
  let exponent := min dividend.exponent divisor.exponent
  let scaled (number : Binary) : Nat := number.mantissa * twoTo (number.exponent - exponent).toNat
  ⟨dividend.negative, scaled dividend % scaled divisor, exponent⟩

end Binary

def whole? (value : Float) : Option Int :=
  (Binary.ofFloat? value).bind fun number =>
    if number.isWhole then some number.truncate else none

/-- The remainder of the division of two doubles, exact and with the sign of the dividend.  It is a
NaN when the dividend is infinite, the divisor is zero or one of them is a NaN; an infinite divisor
leaves the dividend as it is. -/
def remainder (dividend divisor : Float) : Float :=
  match Binary.ofFloat? dividend, Binary.ofFloat? divisor with
  | some left, some right =>
    if right.mantissa == 0 then 0.0 / 0.0 else (left.remainder right).toFloat
  | some _, none => if divisor.isNaN then divisor else dividend
  | none, _ => 0.0 / 0.0

end Reactor.Decimal

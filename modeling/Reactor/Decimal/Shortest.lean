import Reactor.Decimal.Binary

/-!
# Shortest decimals

The fewest decimal digits that identify a double among all doubles, written without an exponent.

The reals that round to a double form an interval around it.  For one digit, two digits and so on,
the two neighbours of the value on the decimal grid with that many digits are compared with the
interval; the first grid with a neighbour inside wins.  If both neighbours are inside, the nearer is
taken, and the upper one on a tie.
-/

namespace Reactor.Decimal

/-- The number `digits * 10 ^ exponent`. -/
structure Scaled where
  digits : Nat
  exponent : Int
  deriving DecidableEq, Repr

/-- A positive rational number as a quotient of naturals. -/
private structure Quotient where
  numerator : Nat
  denominator : Nat

private def quotientOf (mantissa : Nat) (exponent : Int) : Quotient :=
  ⟨mantissa * twoTo exponent.toNat, twoTo (-exponent).toNat⟩

/-- Whether a decimal lies among the reals that round to `mantissa * 2 ^ exponent`.  The ends of the
interval, halfway to the neighbouring doubles, belong to it when the mantissa is even. -/
def Binary.readsBack (number : Binary) (decimal : Scaled) : Bool :=
  let narrow := number.mantissa == leastLongMantissa && -1074 < number.exponent
  let low := if narrow then 4 * number.mantissa - 1 else 4 * number.mantissa - 2
  let high := 4 * number.mantissa + 2
  let scale := number.exponent - 2
  let value := decimal.digits * tenTo decimal.exponent.toNat * twoTo (-scale).toNat
  let unit := twoTo scale.toNat * tenTo (-decimal.exponent).toNat
  if number.mantissa % 2 == 0 then low * unit ≤ value && value ≤ high * unit
  else low * unit < value && value < high * unit

/-- The least `scale`, counted up from a guess, with the value below `10 ^ scale`. -/
private def scaleFrom (value : Quotient) : (steps : Nat) → (guess : Int) → Int
  | 0, guess => guess
  | steps + 1, guess =>
    if value.numerator * tenTo (-guess).toNat < value.denominator * tenTo guess.toNat then guess
    else scaleFrom value steps (guess + 1)

/-- The least `scale` with `mantissa * 2 ^ exponent` below `10 ^ scale`, for a positive mantissa. -/
private def scaleOf (number : Binary) : Int :=
  let bits := (number.mantissa.log2 : Int) + number.exponent
  scaleFrom (quotientOf number.mantissa number.exponent) 4 (bits * 30103 / 100000 - 1)

/-- Search the decimal grids with `count`, `count + 1`, … digits for one that reads back. -/
private def search (number : Binary) (scale : Int) : (steps count : Nat) → Option Scaled
  | 0, _ => none
  | steps + 1, count =>
    let exponent := scale - count
    let value := quotientOf number.mantissa number.exponent
    let numerator := value.numerator * tenTo (-exponent).toNat
    let denominator := value.denominator * tenTo exponent.toNat
    let lower : Scaled := ⟨numerator / denominator, exponent⟩
    let upper : Scaled := ⟨numerator / denominator + 1, exponent⟩
    let nearerLower := 2 * numerator < (2 * lower.digits + 1) * denominator
    match number.readsBack lower, number.readsBack upper with
    | true, true => some (if nearerLower then lower else upper)
    | true, false => some lower
    | false, true => some upper
    | false, false => search number scale steps (count + 1)

/-- Move zeros at the end of the digits, at most `steps` of them, into the exponent. -/
private def stripZeros : (steps : Nat) → Scaled → Scaled
  | 0, decimal => decimal
  | steps + 1, decimal =>
    if decimal.digits % 10 == 0 then
      stripZeros steps ⟨decimal.digits / 10, decimal.exponent + 1⟩
    else decimal

private def exact (number : Binary) : Scaled :=
  ⟨number.mantissa * twoTo number.exponent.toNat * Nat.pow 5 (-number.exponent).toNat,
    min number.exponent 0⟩

/-- The shortest decimal that reads back as the magnitude of the number. -/
def Binary.shortest (number : Binary) : Scaled :=
  if number.mantissa == 0 then ⟨0, 0⟩
  else stripZeros 18 ((search number (scaleOf number) 17 1).getD (exact number))

/-- A decimal without an exponent: zeros stand for the places that the digits do not reach. -/
def Scaled.positional (decimal : Scaled) : String :=
  let digits := decimal.digits.repr.toList
  if 0 ≤ decimal.exponent then
    String.ofList (digits ++ List.replicate decimal.exponent.toNat '0')
  else
    let places := (-decimal.exponent).toNat
    let padded := List.replicate (places + 1 - digits.length) '0' ++ digits
    let whole := padded.take (padded.length - places)
    let fraction := padded.drop (padded.length - places)
    String.ofList (whole ++ '.' :: fraction)

/-- The shortest decimal text of a double.  Negative zero keeps its sign. -/
def shortest (value : Float) : String :=
  match Binary.ofFloat? value with
  | some number => (if number.negative then "-" else "") ++ number.shortest.positional
  | none => if value.isNaN then "NaN" else if value < 0 then "-inf" else "inf"

end Reactor.Decimal

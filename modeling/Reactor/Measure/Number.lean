import Reactor.Decimal.Shortest
import Reactor.Measure.Units

/-!
# Numbers with units

A number is a double together with its unit.  Two numbers are the same when their units are equal
and their values are equal or both no numbers at all.
-/

namespace Reactor

/-- A double and its unit of measure. -/
structure Number where
  value : Float
  units : Units := Units.plain

namespace Number

/-- Equality of numbers.  Unlike doubles, a NaN is the same as a NaN. -/
def same (left right : Number) : Bool :=
  (left.value == right.value || (left.value.isNaN && right.value.isNaN)) &&
    left.units == right.units

/-- The value without its unit: whole numbers below `10 ^ 15` as integers, others by their shortest
digits. -/
def renderValue (value : Float) : String :=
  if value.isNaN then "NaN"
  else if value.isInf then if value < 0 then "-∞" else "∞"
  else
    match Decimal.whole? value with
    | some integer => if value.abs < 1e15 then toString integer else Decimal.shortest value
    | none => Decimal.shortest value

/-- The canonical text of a number, its unit directly after the value. -/
def render (number : Number) : String :=
  renderValue number.value ++ number.units.render

end Number

end Reactor

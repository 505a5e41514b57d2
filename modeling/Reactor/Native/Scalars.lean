import Reactor.Native.Plan
import Reactor.Value.Literal

/-!
# Native functions of truths, numbers and texts

Sums, differences, remainders and comparisons of numbers need equal units; products, quotients and
powers combine the units.  The receiver is looked at before the other inputs.
-/

namespace Reactor.Native

/-! ### Truths -/

/-- Two Booleans, combined. -/
def combineTruths (combine : Bool → Bool → Bool) (node : NodeId) (receiver other : Val) : Val :=
  match receiver, other with
  | .bool left, .bool right => .bool (combine left right)
  | .bool _, other => other.mismatch "Boolean" node
  | receiver, _ => receiver.mismatch "Boolean" node

/-- The opposite of a Boolean. -/
def negateTruth (node : NodeId) : Val → Val
  | .bool truth => .bool !truth
  | other => other.mismatch "Boolean" node

/-! ### Numbers -/

/-- Go on with two numbers. -/
def withNumbers (combine : Number → Number → Val) (node : NodeId) (receiver other : Val) : Val :=
  match receiver, other with
  | .num left, .num right => combine left right
  | .num _, other => other.mismatch "Number" node
  | receiver, _ => receiver.mismatch "Number" node

/-- Go on with two numbers of the same unit. -/
def withLikeNumbers (combine : Number → Number → Val) (node : NodeId) (receiver other : Val) : Val :=
  withNumbers
    (fun left right =>
      if left.units = right.units then combine left right
      else .failure (.incompatibleUnits left.units.render right.units.render) node)
    node receiver other

/-- Two numbers of the same unit, combined. -/
def combineNumbers (combine : Float → Float → Float) : NodeId → Val → Val → Val :=
  withLikeNumbers fun left right => .num ⟨combine left.value right.value, left.units⟩

/-- Two numbers of the same unit, compared. -/
def compareNumbers (compare : Float → Float → Bool) : NodeId → Val → Val → Val :=
  withLikeNumbers fun left right => .bool (compare left.value right.value)

/-- A number with another value and the same unit. -/
def changeNumber (change : Float → Float) (node : NodeId) : Val → Val
  | .num number => .num { number with value := change number.value }
  | other => other.mismatch "Number" node

/-- A product.  Units are multiplied too. -/
def multiplyNumbers : NodeId → Val → Val → Val :=
  withNumbers fun left right => .num ⟨left.value * right.value, left.units.product right.units⟩

/-- A quotient.  The divisor must not be zero. -/
def divideNumbers (node : NodeId) : Val → Val → Val :=
  withNumbers
    (fun left right =>
      if right.value == 0 then .failure .divisionByZero node
      else .num ⟨left.value / right.value, left.units.quotient right.units⟩)
    node

/-- The remainder of a division.  It has the sign of the dividend. -/
def remainderOfNumbers (node : NodeId) : Val → Val → Val :=
  withLikeNumbers
    (fun left right =>
      if right.value == 0 then .failure .divisionByZero node
      else .num ⟨Decimal.remainder left.value right.value, left.units⟩)
    node

/-- The power of a unit to a number, if there is one.  Only whole powers of units exist. -/
def powerOfUnits? (units : Units) (exponent : Float) : Option Units :=
  if units.isPlain then some .plain
  else
    match Decimal.whole? exponent with
    | some whole => if Units.InRange whole then units.power whole else none
    | none => none

/-- The power of a number.  The exponent has no unit. -/
def powerOfNumbers (node : NodeId) (receiver other : Val) : Val :=
  withNumbers
    (fun left right =>
      if !right.units.isPlain then other.mismatch "unitless Number" node
      else
        match powerOfUnits? left.units right.value with
        | some units => .num ⟨left.value.pow right.value, units⟩
        | none => .failure (.incompatibleUnits left.units.render right.render) node)
    node receiver other

/-- The number that a Boolean or a text stands for. -/
def convertToNumber (value : Val) (node : NodeId) : Val :=
  match value with
  | .num _ => value
  | .bool truth => .plain (if truth then 1 else 0)
  | .text characters =>
    match Literal.parse characters with
    | .num value units => .measure value units
    | _ => value.mismatch "Number" node
  | _ => value.mismatch "Number" node

/-! ### Texts -/

/-- The largest size in bytes of a text made by repetition. -/
def textLimit : Nat := 16777216

/-- Go on with a text. -/
def withText (next : String → Val) (node : NodeId) : Val → Val
  | .text characters => next characters
  | other => other.mismatch "Text" node

/-- Go on with two texts. -/
def withTexts (combine : String → String → Val) (node : NodeId) (receiver other : Val) : Val :=
  withText (fun characters => withText (combine characters) node other) node receiver

/-- One text behind another. -/
def appendTexts : NodeId → Val → Val → Val :=
  withTexts fun left right => .text (left ++ right)

/-- The number of characters. -/
def lengthOfText : NodeId → Val → Val :=
  withText fun characters => .plain characters.length.toFloat

/-- A number without unit that is not negative, without its fraction. -/
def count? : Val → Option Nat
  | .num number =>
    if number.units.isPlain && number.value ≥ 0 then
      (Decimal.Binary.ofFloat? number.value).map (·.floorMagnitude)
    else none
  | _ => none

/-- A text several times over, behind another one. -/
def appendTimes (start characters : String) : Nat → String
  | 0 => start
  | times + 1 => appendTimes (start ++ characters) characters times

/-- A text several times over.  Its size is checked before it is made. -/
def repeatText (node : NodeId) (receiver times : Val) : Val :=
  withText
    (fun characters =>
      match count? times with
      | none => times.mismatch "unitless whole Number" node
      | some count =>
        if characters.utf8ByteSize * count ≤ textLimit then
          if characters.isEmpty then .text "" else .text (appendTimes "" characters count)
        else .failure (.textTooLong textLimit) node)
    node receiver

/-- The parts of a text between the places where a delimiter occurs.  An empty delimiter gives the
characters. -/
def segmentText : NodeId → Val → Val → Val :=
  withTexts fun characters delimiter =>
    if delimiter.isEmpty then .list (characters.toList.map fun character => .text character.toString)
    else
      .list ((Text.segments delimiter.toList characters.toList).map fun part =>
        .text (String.ofList part))

/-- Whether a text occurs in another. -/
def occursInText : NodeId → Val → Val → Val :=
  withTexts fun characters part => .bool (Text.occursIn part.toList characters.toList)

/-- The text of any value.  A text stands for itself. -/
def convertToText (value : Val) (_ : NodeId) : Val :=
  match value with
  | .text _ => value
  | _ => .text value.render

end Reactor.Native

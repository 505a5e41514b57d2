import Reactor.Decimal.Reading
import Reactor.Json.Basic

/-!
# JSON numbers

The value of a number in JSON text.  Digits are collected into a significand of 64 bits; digits that
no longer fit only count as places.  A number with a fraction or an exponent is the significand,
rounded to a double, times or divided by a power of ten, rounded again.
-/

namespace Reactor.Json.Numeral

def significandLimit : Nat := 0xFFFFFFFFFFFFFFFF

/-- Append digits to a significand as long as it stays within the limit.  The digits that did not
fit are given back. -/
def accumulate (significand : Nat) : List Char → Nat × List Char
  | [] => (significand, [])
  | digit :: digits =>
    let next := significand * 10 + (digit.toNat - '0'.toNat)
    if significandLimit < next then (significand, digit :: digits) else accumulate next digits

def tenTo (exponent : Nat) : Float :=
  Float.ofScientific 1 false exponent

/-- Multiply by `10 ^ exponent`.  A value beyond the doubles is refused.  Far below one, the division
is done in rounds of `10 ^ 308`; after two of them every significand has become zero. -/
def scale (value : Float) : (rounds : Nat) → (exponent : Int) → Option Float
  | rounds, exponent =>
    if 0 ≤ exponent then
      if exponent ≤ 308 then
        let scaled := value * tenTo exponent.toNat
        if scaled.isInf then none else some scaled
      else if value == 0 then some value
      else none
    else if -308 ≤ exponent then some (value / tenTo (-exponent).toNat)
    else if value == 0 then some value
    else
      match rounds with
      | 0 => some (value / tenTo 308)
      | rounds + 1 => scale (value / tenTo 308) rounds (exponent + 308)

def ofParts (negative : Bool) (significand : Nat) (exponent : Int) : Option Float :=
  (scale significand.toUInt64.toFloat 3 exponent).map fun value => if negative then -value else value

def takeDigits (text : List Char) : List Char × List Char :=
  text.span Char.isDigit

def exponentLimit : Nat := 0x7FFFFFFF

def readExponent (negative : Bool) (significand : Nat) (places : Int) (text : List Char) :
    Option (Float × List Char) :=
  let (below, text) :=
    match text with
    | '+' :: text => (false, text)
    | '-' :: text => (true, text)
    | text => (false, text)
  let (digits, rest) := takeDigits text
  let exponent := Decimal.valueOfDigits digits
  if digits.isEmpty then none
  else if exponentLimit < exponent then
    if significand != 0 && !below then none else some (if negative then -0.0 else 0.0, rest)
  else
    let shift : Int := if below then -(exponent : Int) else exponent
    (ofParts negative significand (places + shift)).map (·, rest)

/-- Read an exponent, if one follows, and put the number together. -/
def finish (negative : Bool) (significand : Nat) (places : Int) (text : List Char) :
    Option (Float × List Char) :=
  match text with
  | 'e' :: rest | 'E' :: rest => readExponent negative significand places rest
  | rest => (ofParts negative significand places).map (·, rest)

def readFraction (negative : Bool) (significand : Nat) (places : Int) (text : List Char) :
    Option (Float × List Char) :=
  let (digits, rest) := takeDigits text
  if digits.isEmpty then none
  else
    let (significand, left) := accumulate significand digits
    finish negative significand (places - (digits.length - left.length : Nat)) rest

/-- An integer, when it fits into 64 bits and is no negative zero. -/
def integer? (negative : Bool) (value : Nat) : Option Int :=
  if !negative then some value
  else if 0 < value ∧ Decimal.fitsSigned (-value) then some (-value)
  else none

/-- Read a number.  It has no leading zeros, and digits stand on both sides of a point. -/
def read (text : List Char) : Option (Json × List Char) :=
  let (negative, text) :=
    match text with
    | '-' :: text => (true, text)
    | text => (false, text)
  let (digits, rest) := takeDigits text
  if digits.isEmpty || (digits.head? == some '0' && digits.length != 1) then none
  else
    let (significand, left) := accumulate 0 digits
    match rest with
    | '.' :: rest =>
      (readFraction negative significand left.length rest).map fun (value, rest) =>
        (.float value, rest)
    | 'e' :: _ | 'E' :: _ =>
      (finish negative significand left.length rest).map fun (value, rest) => (.float value, rest)
    | rest =>
      match if left.isEmpty then integer? negative significand else none with
      | some value => some (.int value, rest)
      | none =>
        (ofParts negative significand left.length).map fun value => (.float value, rest)

end Reactor.Json.Numeral

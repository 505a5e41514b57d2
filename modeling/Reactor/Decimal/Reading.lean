/-!
# Reading decimals

Decimals in the usual notation, with an optional sign, point and exponent, and the words for what is
no finite number.  The result is the nearest double.
-/

namespace Reactor.Decimal

def valueOfDigits (digits : List Char) : Nat :=
  digits.foldl (fun value digit => value * 10 + (digit.toNat - '0'.toNat)) 0

/-- Doubles with more digits in front of the point than this are infinite, and those with more zeros
behind it are zero. -/
def magnitudeLimit : Int := 400

/-- The double nearest to a number times a power of ten. -/
def nearest (significand : Nat) (exponent : Int) : Float :=
  let magnitude := exponent + (Nat.toDigits 10 significand).length
  if significand = 0 then 0
  else if magnitudeLimit < magnitude then 1.0 / 0.0
  else if magnitude < -magnitudeLimit then 0
  else Float.ofScientific significand (exponent < 0) exponent.natAbs

def integer? : List Char → Option Int
  | '-' :: digits =>
    if !digits.isEmpty && digits.all Char.isDigit then some (-(valueOfDigits digits : Int)) else none
  | '+' :: digits | digits =>
    if !digits.isEmpty && digits.all Char.isDigit then some (valueOfDigits digits) else none

def fitsSigned (value : Int) : Bool :=
  -0x8000000000000000 ≤ value && value ≤ 0x7FFFFFFFFFFFFFFF

def fitsUnsigned (value : Nat) : Bool :=
  value ≤ 0xFFFFFFFFFFFFFFFF

def natural? (text : List Char) : Option Nat :=
  match text with
  | '-' :: _ => none
  | _ => ((integer? text).map Int.toNat).filter fitsUnsigned

def exponent? : List Char → Option Int
  | [] => some 0
  | marker :: rest => if marker = 'e' ∨ marker = 'E' then integer? rest else none

/-- Read a decimal without sign.  It has at least one digit before or after the point. -/
def unsigned? (text : List Char) : Option Float :=
  let (whole, rest) := text.span Char.isDigit
  let (fraction, rest) :=
    match rest with
    | '.' :: rest => rest.span Char.isDigit
    | rest => ([], rest)
  if whole.isEmpty && fraction.isEmpty then none
  else
    (exponent? rest).map fun exponent =>
      nearest (valueOfDigits (whole ++ fraction)) (exponent - fraction.length)

/-- Read a decimal or a word without sign.  Words are written in capital or small letters. -/
def magnitude? (text : List Char) : Option Float :=
  match String.ofList (text.map Char.toLower) with
  | "inf" | "infinity" => some (1.0 / 0.0)
  | "nan" => some (0.0 / 0.0)
  | _ => unsigned? text

def read? : List Char → Option Float
  | '-' :: text => (magnitude? text).map (-·)
  | '+' :: text | text => magnitude? text

end Reactor.Decimal

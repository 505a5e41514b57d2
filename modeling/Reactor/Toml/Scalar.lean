import Reactor.Json.Reader
import Reactor.Text.Split
import Reactor.Toml.Basic

/-!
# Scalars in TOML

Strings in their four forms, numbers, truths, dates and times.
-/

namespace Reactor.Toml

def isControl (character : Char) : Bool :=
  (character.toNat < 32 && character ≠ '\t') || character.toNat = 127

/-! ### Strings -/

def scalarValue? (code : Nat) : Option Char :=
  if code.isValidChar then some (Char.ofNat code) else none

def escaped? : Char → Option Char
  | 'b' => some '\x08'
  | 't' => some '\t'
  | 'n' => some '\n'
  | 'f' => some '\x0c'
  | 'r' => some '\x0d'
  | '"' => some '"'
  | '\\' => some '\\'
  | _ => none

/-- Read the rest of a string between double quotes on one line.  `found` holds its characters in
reverse. -/
def basicString (found : List Char) : List Char → Option (String × List Char)
  | [] => none
  | '\\' :: 'u' :: a :: b :: c :: d :: rest =>
    match (Json.hexValue? a b c d).bind scalarValue? with
    | some character => basicString (character :: found) rest
    | none => none
  | '\\' :: 'U' :: a :: b :: c :: d :: e :: f :: g :: h :: rest =>
    match Json.hexValue? a b c d, Json.hexValue? e f g h with
    | some high, some low =>
      match scalarValue? (high * 65536 + low) with
      | some character => basicString (character :: found) rest
      | none => none
    | _, _ => none
  | '\\' :: letter :: rest =>
    match escaped? letter with
    | some character => basicString (character :: found) rest
    | none => none
  | '"' :: rest => some (String.ofList found.reverse, rest)
  | character :: rest =>
    if isControl character then none else basicString (character :: found) rest

def literalString (found : List Char) : List Char → Option (String × List Char)
  | [] => none
  | '\'' :: rest => some (String.ofList found.reverse, rest)
  | character :: rest =>
    if isControl character then none else literalString (character :: found) rest

/-- The end of a string over several lines.  Up to two quotes before the closing ones belong to the
string. -/
def closing (quote : Char) (found : List Char) : List Char → String × List Char
  | first :: second :: rest =>
    if first = quote ∧ second = quote then
      (String.ofList (quote :: quote :: found).reverse, rest)
    else if first = quote then (String.ofList (quote :: found).reverse, second :: rest)
    else (String.ofList found.reverse, first :: second :: rest)
  | [only] =>
    if only = quote then (String.ofList (quote :: found).reverse, [])
    else (String.ofList found.reverse, [only])
  | [] => (String.ofList found.reverse, [])

/-- Where a string over several lines is: in its text, or behind a backslash that joins lines, before
or after the first line end. -/
inductive Joining where
  | inside
  | before
  | after
  deriving DecidableEq, Repr, Inhabited

def basicLines (joining : Joining) (found : List Char) : List Char → Option (String × List Char)
  | [] => none
  | '\x0d' :: '\n' :: rest =>
    if joining = .inside then basicLines .inside ('\n' :: found) rest else basicLines .after found rest
  | '\n' :: rest =>
    if joining = .inside then basicLines .inside ('\n' :: found) rest else basicLines .after found rest
  | '\\' :: 'u' :: a :: b :: c :: d :: rest =>
    match joining, (Json.hexValue? a b c d).bind scalarValue? with
    | .before, _ | _, none => none
    | _, some character => basicLines .inside (character :: found) rest
  | '\\' :: 'U' :: a :: b :: c :: d :: e :: f :: g :: h :: rest =>
    match joining, Json.hexValue? a b c d, Json.hexValue? e f g h with
    | .inside, some high, some low | .after, some high, some low =>
      match scalarValue? (high * 65536 + low) with
      | some character => basicLines .inside (character :: found) rest
      | none => none
    | _, _, _ => none
  | '"' :: '"' :: '"' :: rest =>
    if joining = .before then none else some (closing '"' found rest)
  | '\\' :: '\x0d' :: '\n' :: rest =>
    if joining = .before then none else basicLines .after found rest
  | '\\' :: letter :: rest =>
    if joining = .before then none
    else if letter = ' ' ∨ letter = '\t' then basicLines .before found rest
    else if letter = '\n' then basicLines .after found rest
    else
      match escaped? letter with
      | some character => basicLines .inside (character :: found) rest
      | none => none
  | character :: rest =>
    if joining ≠ .inside ∧ (character = ' ' ∨ character = '\t') then basicLines joining found rest
    else if joining = .before ∨ isControl character then none
    else basicLines .inside (character :: found) rest

def literalLines (found : List Char) : List Char → Option (String × List Char)
  | [] => none
  | '\x0d' :: '\n' :: rest => literalLines ('\n' :: found) rest
  | '\n' :: rest => literalLines ('\n' :: found) rest
  | '\'' :: '\'' :: '\'' :: rest => some (closing '\'' found rest)
  | character :: rest =>
    if isControl character then none else literalLines (character :: found) rest

def dropLineEnd : List Char → List Char
  | '\n' :: rest | '\x0d' :: '\n' :: rest => rest
  | text => text

def string? : List Char → Option (String × List Char)
  | '"' :: '"' :: '"' :: rest => basicLines .inside [] (dropLineEnd rest)
  | '"' :: rest => basicString [] rest
  | '\'' :: '\'' :: '\'' :: rest => literalLines [] (dropLineEnd rest)
  | '\'' :: rest => literalString [] rest
  | _ => none

/-! ### Numbers -/

/-- The digits of a number.  Single bars may stand between them. -/
def digits? (isDigit : Char → Bool) (text : List Char) : Option (List Char) :=
  let pieces := Text.splitAt '_' text
  if pieces.all fun piece => !piece.isEmpty && piece.all isDigit then some pieces.flatten else none

/-- The digits of a decimal integer, without useless zeros in front. -/
def decimalDigits? (text : List Char) : Option (List Char) :=
  (digits? Char.isDigit text).filter fun digits => digits.length = 1 || digits.head? ≠ some '0'

def valueInBase (base : Nat) (digits : List Char) : Nat :=
  digits.foldl (fun value digit => value * base + (Json.hexDigit? digit).getD 0) 0

def signed : List Char → Bool × List Char
  | '-' :: rest => (true, rest)
  | '+' :: rest => (false, rest)
  | text => (false, text)

def integer? (text : List Char) : Option Int :=
  let inBase (base : Nat) (isDigit : Char → Bool) (rest : List Char) : Option Int :=
    (digits? isDigit rest).map fun digits => (valueInBase base digits : Int)
  let value? :=
    match text with
    | '0' :: 'x' :: rest => inBase 16 (fun digit => (Json.hexDigit? digit).isSome) rest
    | '0' :: 'o' :: rest => inBase 8 (fun digit => '0' ≤ digit && digit ≤ '7') rest
    | '0' :: 'b' :: rest => inBase 2 (fun digit => digit = '0' || digit = '1') rest
    | _ =>
      let (negative, rest) := signed text
      (decimalDigits? rest).map fun digits =>
        let value : Int := Decimal.valueOfDigits digits
        if negative then -value else value
  value?.filter Decimal.fitsSigned

/-- The digits of the fraction of a float, and the rest behind them. -/
def fraction? (text : List Char) : Option (List Char × List Char) :=
  match text with
  | '.' :: rest =>
    let (fraction, rest) := rest.span fun character => character.isDigit || character = '_'
    (digits? Char.isDigit fraction).map (·, rest)
  | _ => some ([], text)

def exponent? : List Char → Option Int
  | [] => some 0
  | marker :: rest =>
    if marker = 'e' ∨ marker = 'E' then
      let (negative, rest) := signed rest
      (digits? Char.isDigit rest).map fun digits =>
        let value : Int := Decimal.valueOfDigits digits
        if negative then -value else value
    else none

/-- Read a float.  It has a fraction, an exponent or both, and one too large for a double is refused. -/
def float? (text : List Char) : Option Float := do
  let (negative, rest) := signed text
  let apply (value : Float) : Float := if negative then -value else value
  match String.ofList rest with
  | "inf" => return apply (1.0 / 0.0)
  | "nan" => return apply (0.0 / 0.0)
  | _ =>
    let (whole, rest) := rest.span fun character => character.isDigit || character = '_'
    let whole ← decimalDigits? whole
    if rest.isEmpty then none
    let (fraction, rest) ← fraction? rest
    let exponent ← exponent? rest
    let value := apply
      (Decimal.nearest (Decimal.valueOfDigits (whole ++ fraction)) (exponent - fraction.length))
    if value == 1.0 / 0.0 then none else return value

/-! ### Dates and times -/

def twoDigits? (first second : Char) : Option Nat :=
  if first.isDigit && second.isDigit then some (Decimal.valueOfDigits [first, second]) else none

def daysOfMonth (year month : Nat) : Nat :=
  let leap := year % 4 = 0 && (year % 100 ≠ 0 || year % 400 = 0)
  if month = 2 then (if leap then 29 else 28)
  else if month = 4 || month = 6 || month = 9 || month = 11 then 30
  else 31

def date? : List Char → Option (List Char × List Char)
  | a :: b :: c :: d :: '-' :: e :: f :: '-' :: g :: h :: rest => do
    let century ← twoDigits? a b
    let year ← twoDigits? c d
    let month ← twoDigits? e f
    let day ← twoDigits? g h
    if 1 ≤ month ∧ month ≤ 12 ∧ 1 ≤ day ∧ day ≤ daysOfMonth (century * 100 + year) month then
      return ([a, b, c, d, '-', e, f, '-', g, h], rest)
    else none
  | _ => none

/-- Read the fraction of a second.  Nine digits count, and zeros at the end do not. -/
def subsecond? : List Char → Option (List Char × List Char)
  | '.' :: rest =>
    let (digits, rest) := rest.span Char.isDigit
    let kept := ((digits.take 9).reverse.dropWhile (· = '0')).reverse
    if digits.isEmpty then none else some (if kept.isEmpty then [] else '.' :: kept, rest)
  | text => some ([], text)

def time? : List Char → Option (List Char × List Char)
  | a :: b :: ':' :: c :: d :: ':' :: e :: f :: rest => do
    let hour ← twoDigits? a b
    let minute ← twoDigits? c d
    let second ← twoDigits? e f
    let (fraction, rest) ← subsecond? rest
    if hour ≤ 23 ∧ minute ≤ 59 ∧ second ≤ 60 then
      return ([a, b, ':', c, d, ':', e, f] ++ fraction, rest)
    else none
  | _ => none

/-- Read the distance of a time from universal time, up to the end.  No distance has the sign plus. -/
def offset? : List Char → Option (List Char)
  | [] => some []
  | [only] => if only = 'Z' ∨ only = 'z' then some ['Z'] else none
  | [sign, a, b, ':', c, d] => do
    let hour ← twoDigits? a b
    let minute ← twoDigits? c d
    let shown := if hour = 0 ∧ minute = 0 then '+' else sign
    if (sign = '+' ∨ sign = '-') ∧ hour ≤ 23 ∧ minute ≤ 59 then return [shown, a, b, ':', c, d]
    else none
  | _ => none

def moment? (text : List Char) : Option String :=
  match date? text with
  | some (date, []) => some (String.ofList date)
  | some (date, separator :: rest) =>
    if separator = 'T' ∨ separator = 't' ∨ separator = ' ' then do
      let (time, rest) ← time? rest
      let offset ← offset? rest
      return String.ofList (date ++ 'T' :: time ++ offset)
    else none
  | none =>
    match time? text with
    | some (time, []) => some (String.ofList time)
    | _ => none

/-! ### Words -/

def isWordCharacter (character : Char) : Bool :=
  character.isAlphanum || "+-_.:".toList.contains character

/-- The word at the start of a text.  A date and a time may be separated by a blank. -/
def spanWord (text : List Char) : List Char × List Char :=
  let (word, rest) := text.span isWordCharacter
  match date? word, rest with
  | some (_, []), ' ' :: digit :: more =>
    if digit.isDigit then
      let (time, rest) := (digit :: more).span isWordCharacter
      (word ++ ' ' :: time, rest)
    else (word, rest)
  | _, _ => (word, rest)

def ofWord? (word : List Char) : Option Toml :=
  match String.ofList word with
  | "true" => some (bool true)
  | "false" => some (bool false)
  | _ =>
    match integer? word, float? word, moment? word with
    | some value, _, _ => some (int value)
    | none, some value, _ => some (float value)
    | none, none, some value => some (moment value)
    | none, none, none => none

end Reactor.Toml

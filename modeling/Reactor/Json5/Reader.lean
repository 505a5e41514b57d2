import Reactor.Json.Reader
import Reactor.Text.Blank
import Reactor.Text.Numeric

/-!
# Reading JSON5

JSON as people write it: with comments, names without quotes, strings between single quotes, commas
before closing brackets and further forms of numbers.  What is read is a JSON value.
-/

namespace Reactor.Json5

/-! ### Gaps -/

def isLineEnd (character : Char) : Bool :=
  character = '\n' || character = '\x0d' || character = '\u2028' || character = '\u2029'

def isSpace (character : Char) : Bool :=
  (Text.isBlank character && character ≠ '\u0085') || character = '\ufeff'

/-- Where between two parts of a text a character stands. -/
inductive Gap where
  | blank
  /-- Behind the slash that opens a comment. -/
  | slash
  /-- In a comment up to the end of the line. -/
  | line
  /-- In a comment with an end of its own. -/
  | block
  /-- Behind a star in such a comment. -/
  | star
  deriving DecidableEq, Repr, Inhabited

def skip (gap : Gap) : List Char → Option (List Char)
  | [] => if gap = .blank ∨ gap = .line then some [] else none
  | character :: rest =>
    match gap with
    | .blank =>
      if character = '/' then skip .slash rest
      else if isSpace character then skip .blank rest
      else some (character :: rest)
    | .slash =>
      if character = '/' then skip .line rest
      else if character = '*' then skip .block rest
      else none
    | .line => skip (if isLineEnd character then .blank else .line) rest
    | .block => skip (if character = '*' then .star else .block) rest
    | .star =>
      skip (if character = '/' then .blank else if character = '*' then .star else .block) rest

/-! ### Strings -/

def escaped? (character : Char) : Option Char :=
  match character with
  | 'b' => some '\x08'
  | 'f' => some '\x0c'
  | 'n' => some '\n'
  | 'r' => some '\x0d'
  | 't' => some '\t'
  | 'v' => some '\x0b'
  | '0' => some '\x00'
  | 'x' | 'u' => none
  | other => if other.isDigit then none else some other

/-- Read the rest of a string.  `found` holds its characters in reverse.  A code point beyond `0xFFFF`
may be written as two escapes; `high` is the first of them when the second has to follow. -/
def string? (quote : Char) (high : Option Nat) (found : List Char) :
    List Char → Option (String × List Char)
  | [] => none
  | '\\' :: 'u' :: a :: b :: c :: d :: rest =>
    match high, Json.hexValue? a b c d with
    | _, none => none
    | some first, some code =>
      if Json.isLowHalf code then
        let character := Char.ofNat (0x10000 + (first - 0xD800) * 0x400 + (code - 0xDC00))
        string? quote none (character :: found) rest
      else none
    | none, some code =>
      if Json.isHighHalf code then string? quote (some code) found rest
      else if Json.isLowHalf code then none
      else string? quote none (Char.ofNat code :: found) rest
  | '\\' :: '\x0d' :: '\n' :: rest => if high.isSome then none else string? quote none found rest
  | '\\' :: 'x' :: a :: b :: rest =>
    match high, Json.hexValue? '0' '0' a b with
    | none, some code => string? quote none (Char.ofNat code :: found) rest
    | _, _ => none
  | '\\' :: character :: rest =>
    match high, escaped? character with
    | none, some meant =>
      string? quote none (if isLineEnd character then found else meant :: found) rest
    | _, _ => none
  | character :: rest =>
    if high.isSome || isLineEnd character || character = '\\' then none
    else if character = quote then some (String.ofList found.reverse, rest)
    else string? quote none (character :: found) rest

/-! ### Words -/

def hexInteger? (digits : List Char) : Option Json :=
  let value := digits.foldl (fun value digit => value * 16 + (Json.hexDigit? digit).getD 0) 0
  if !digits.isEmpty && digits.all (fun digit => (Json.hexDigit? digit).isSome) &&
      value < 0x100000000 then some (.int value)
  else none

/-- Whether a number has its decimal form: no useless zero in front, and a digit somewhere. -/
def isDecimal (text : List Char) : Bool :=
  let (whole, rest) := text.span Char.isDigit
  let (fraction, rest) :=
    match rest with
    | '.' :: rest => rest.span Char.isDigit
    | _ => ([], rest)
  let exponent :=
    match rest with
    | [] => true
    | marker :: rest =>
      let digits :=
        match rest with
        | '+' :: rest | '-' :: rest | rest => rest
      (marker = 'e' || marker = 'E') && !digits.isEmpty && digits.all Char.isDigit
  (whole.length ≤ 1 || whole.head? ≠ some '0') && !(whole ++ fraction).isEmpty && exponent

/-- The value of a decimal number.  Without a fraction and an exponent it is an integer. -/
def decimal? (word : List Char) : Option Json :=
  let digits :=
    match word with
    | '+' :: rest | '-' :: rest | rest => rest
  if !isDecimal digits then none
  else if digits.all Char.isDigit then
    ((Decimal.integer? word).filter Decimal.fitsSigned).map .int
  else ((Decimal.read? word).filter Float.isFinite).map .float

def ofWord? (word : List Char) : Option Json :=
  match String.ofList word with
  | "null" => some .null
  | "true" => some (.bool true)
  | "false" => some (.bool false)
  | "Infinity" => some (.float (1.0 / 0.0))
  | "-Infinity" => some (.float (-1.0 / 0.0))
  | "NaN" | "-NaN" => some (.float (0.0 / 0.0))
  | _ =>
    match word with
    | '0' :: 'x' :: digits | '0' :: 'X' :: digits => hexInteger? digits
    | _ => decimal? word

def isWordCharacter (character : Char) : Bool :=
  character.isAlphanum || character = '+' || character = '-' || character = '.'

def isNameCharacter (character : Char) : Bool :=
  Text.isAlphanumeric character || character = '_' || character = '$'

def name? : List Char → Option (String × List Char)
  | '"' :: rest => string? '"' none [] rest
  | '\'' :: rest => string? '\'' none [] rest
  | text =>
    let (name, rest) := text.span isNameCharacter
    match name with
    | first :: _ => if first.isDigit then none else some (String.ofList name, rest)
    | [] => none

/-! ### Values -/

mutual

def value? : (fuel : Nat) → List Char → Option (Json × List Char)
  | 0, _ => none
  | fuel + 1, text =>
    match text with
    | '[' :: rest => items? fuel [] rest
    | '\x7b' :: rest => members? fuel [] rest
    | '"' :: rest => (string? '"' none [] rest).map fun (found, rest) => (.str found, rest)
    | '\'' :: rest => (string? '\'' none [] rest).map fun (found, rest) => (.str found, rest)
    | _ =>
      let (word, rest) := text.span isWordCharacter
      (ofWord? word).map (·, rest)

/-- Read the rest of an array.  `found` holds its items in reverse. -/
def items? : (fuel : Nat) → List Json → List Char → Option (Json × List Char)
  | 0, _, _ => none
  | fuel + 1, found, text => do
    match ← skip .blank text with
    | ']' :: rest => return (.arr found.reverse, rest)
    | text =>
      let (item, rest) ← value? fuel text
      match ← skip .blank rest with
      | ',' :: rest => items? fuel (item :: found) rest
      | ']' :: rest => return (.arr (item :: found).reverse, rest)
      | _ => none

/-- Read the rest of an object.  `found` holds its members in reverse. -/
def members? : (fuel : Nat) → List (String × Json) → List Char → Option (Json × List Char)
  | 0, _, _ => none
  | fuel + 1, found, text => do
    match ← skip .blank text with
    | '\x7d' :: rest => return (.obj found.reverse, rest)
    | text =>
      let (name, rest) ← name? text
      match ← skip .blank rest with
      | ':' :: rest =>
        let (value, rest) ← value? fuel (← skip .blank rest)
        match ← skip .blank rest with
        | ',' :: rest => members? fuel ((name, value) :: found) rest
        | '\x7d' :: rest => return (.obj ((name, value) :: found).reverse, rest)
        | _ => none
      | _ => none

end

/-- Read a document.  Every part of a value is at least one character. -/
def read? (text : String) : Option Json := do
  let characters ← skip .blank text.toList
  let (value, rest) ← value? (characters.length + 1) characters
  match ← skip .blank rest with
  | [] => return value
  | _ => none

end Reactor.Json5

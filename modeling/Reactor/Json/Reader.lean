import Reactor.Json.Numeral

/-!
# Reading JSON

A strict reader: no comments, no trailing commas, no text after the value.  `Json.read` takes the
number of arrays and objects that may be open inside one another.
-/

namespace Reactor.Json

def hexDigit? (digit : Char) : Option Nat :=
  if digit.isDigit then some (digit.toNat - '0'.toNat)
  else if 'a' ≤ digit ∧ digit ≤ 'f' then some (digit.toNat - 'a'.toNat + 10)
  else if 'A' ≤ digit ∧ digit ≤ 'F' then some (digit.toNat - 'A'.toNat + 10)
  else none

def hexValue? (first second third fourth : Char) : Option Nat := do
  return ((← hexDigit? first) * 16 + (← hexDigit? second)) * 256 +
    ((← hexDigit? third) * 16 + (← hexDigit? fourth))

def escaped? : Char → Option Char
  | '"' => some '"'
  | '\\' => some '\\'
  | '/' => some '/'
  | 'b' => some '\x08'
  | 'f' => some '\x0c'
  | 'n' => some '\n'
  | 'r' => some '\x0d'
  | 't' => some '\t'
  | _ => none

def isHighHalf (code : Nat) : Bool :=
  0xD800 ≤ code && code < 0xDC00

def isLowHalf (code : Nat) : Bool :=
  0xDC00 ≤ code && code < 0xE000

/-- Read the rest of a string after its opening quote.  `found` holds its characters in reverse.  A
code point beyond `0xFFFF` is written as two escapes; `high` is the first of them when the second
has to follow. -/
def readString (high : Option Nat) (found : List Char) : List Char → Option (String × List Char)
  | [] => none
  | '\\' :: 'u' :: a :: b :: c :: d :: rest =>
    match high, hexValue? a b c d with
    | _, none => none
    | some first, some code =>
      if isLowHalf code then
        let character := Char.ofNat (0x10000 + (first - 0xD800) * 0x400 + (code - 0xDC00))
        readString none (character :: found) rest
      else none
    | none, some code =>
      if isHighHalf code then readString (some code) found rest
      else if isLowHalf code then none
      else readString none (Char.ofNat code :: found) rest
  | '\\' :: letter :: rest =>
    match high, escaped? letter with
    | none, some character => readString none (character :: found) rest
    | _, _ => none
  | character :: rest =>
    if high.isSome || character.toNat < 0x20 || character == '\\' then none
    else if character == '"' then some (String.ofList found.reverse, rest)
    else readString none (character :: found) rest

/-- Whether a character may stand between the parts of a JSON text. -/
def isSpace (character : Char) : Bool :=
  character == ' ' || character == '\n' || character == '\t' || character == '\x0d'

abbrev Reader (α : Type) := List Char → Option (α × List Char)

/-- Read items divided by commas, at least one, up to a closing character.  `budget` bounds their
number; the length of the text is enough. -/
def readItems {α : Type} (item : Reader α) (close : Char) :
    (budget : Nat) → (found : List α) → Reader (List α)
  | 0, _ => fun _ => none
  | budget + 1, found => fun text =>
    match item (text.dropWhile isSpace) with
    | none => none
    | some (value, rest) =>
      match rest.dropWhile isSpace with
      | ',' :: rest => readItems item close budget (value :: found) rest
      | character :: rest =>
        if character = close then some ((value :: found).reverse, rest) else none
      | [] => none

/-- Read the items of an array or object after its opening bracket. -/
def readAll {α : Type} (item : Reader α) (close : Char) (budget : Nat) : Reader (List α) :=
  fun text =>
    match text.dropWhile isSpace with
    | character :: rest =>
      if character = close then some ([], rest) else readItems item close budget [] (character :: rest)
    | [] => none

def readMember (value : Reader Json) : Reader (String × Json) := fun text =>
  match text with
  | '"' :: rest =>
    match readString none [] rest with
    | none => none
    | some (name, rest) =>
      match rest.dropWhile isSpace with
      | ':' :: rest => (value rest).map fun (value, rest) => ((name, value), rest)
      | _ => none
  | _ => none

/-- Read a value, with a reader for what stands inside an array or object if there may be one. -/
def readWith (budget : Nat) (inner : Option (Reader Json)) : Reader Json := fun text =>
  match text.dropWhile isSpace with
  | 'n' :: 'u' :: 'l' :: 'l' :: rest => some (.null, rest)
  | 't' :: 'r' :: 'u' :: 'e' :: rest => some (.bool true, rest)
  | 'f' :: 'a' :: 'l' :: 's' :: 'e' :: rest => some (.bool false, rest)
  | '"' :: rest => (readString none [] rest).map fun (text, rest) => (.str text, rest)
  | '[' :: rest =>
    inner.bind fun inner =>
      (readAll inner ']' budget rest).map fun (items, rest) => (.arr items, rest)
  | '\x7b' :: rest =>
    inner.bind fun inner =>
      (readAll (readMember inner) '\x7d' budget rest).map fun (members, rest) => (.obj members, rest)
  | text => Numeral.read text

/-- Read a value with at most `nesting` arrays and objects inside one another. -/
def readNested (budget : Nat) : (nesting : Nat) → Reader Json
  | 0 => readWith budget none
  | nesting + 1 => readWith budget (some (readNested budget nesting))

def readText (nesting : Nat) (text : List Char) : Option Json :=
  match readNested text.length nesting text with
  | some (value, rest) => if rest.all isSpace then some value else none
  | none => none

/-- The number of arrays and objects that a document may have open at once. -/
def nestingLimit : Nat := 127

def read (text : String) : Option Json :=
  readText nestingLimit text.toList

end Reactor.Json

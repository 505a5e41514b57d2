import Reactor.Json.Reader
import Reactor.Text.Split

/-!
# Reading object notation

Records in parentheses with named fields, tuples, lists in brackets, maps in braces, optional values,
strings, characters and numbers.  What is read is given as a JSON value: records and maps are objects,
tuples and lists are arrays, and nothing is null.
-/

namespace Reactor.Ron

/-! ### Gaps -/

/-- Where between two parts of a text a character stands.  Comments may be nested. -/
inductive Gap where
  | blank
  /-- Behind the slash that opens a comment. -/
  | slash
  /-- In a comment up to the end of the line. -/
  | line
  /-- In a comment inside as many others. -/
  | block (depth : Nat)
  /-- Behind a slash in such a comment. -/
  | blockSlash (depth : Nat)
  /-- Behind a star in such a comment. -/
  | blockStar (depth : Nat)
  deriving DecidableEq, Repr, Inhabited

def skip (gap : Gap) : List Char → Option (List Char)
  | [] => if gap = .blank ∨ gap = .line then some [] else none
  | character :: rest =>
    match gap with
    | .blank =>
      if character = '/' then skip .slash rest
      else if Json.isSpace character then skip .blank rest
      else some (character :: rest)
    | .slash =>
      if character = '/' then skip .line rest
      else if character = '*' then skip (.block 0) rest
      else none
    | .line => skip (if character = '\n' then .blank else .line) rest
    | .block depth | .blockSlash depth | .blockStar depth =>
      if gap = .blockSlash depth ∧ character = '*' then skip (.block (depth + 1)) rest
      else if gap = .blockStar depth ∧ character = '/' then
        match depth with
        | 0 => skip .blank rest
        | depth + 1 => skip (.block depth) rest
      else if character = '/' then skip (.blockSlash depth) rest
      else if character = '*' then skip (.blockStar depth) rest
      else skip (.block depth) rest

/-! ### Strings -/

def escaped? : Char → Option Char
  | '\'' => some '\''
  | '"' => some '"'
  | '\\' => some '\\'
  | 'n' => some '\n'
  | 'r' => some '\x0d'
  | 't' => some '\t'
  | '0' => some '\x00'
  | _ => none

/-- Read the rest of a string.  `found` holds its characters in reverse, and `code` the value and the
number of the digits of an escape in braces. -/
def string? (code : Option (Nat × Nat)) (found : List Char) : List Char → Option (String × List Char)
  | [] => none
  | '\\' :: 'x' :: a :: b :: rest =>
    match code, Json.hexValue? '0' '0' a b with
    | none, some value => string? none (Char.ofNat value :: found) rest
    | _, _ => none
  | '\\' :: 'u' :: '\x7b' :: rest => if code.isSome then none else string? (some (0, 0)) found rest
  | '\\' :: character :: rest =>
    match code, escaped? character with
    | none, some meant => string? none (meant :: found) rest
    | _, _ => none
  | character :: rest =>
    match code with
    | some (value, count) =>
      if character = '\x7d' then
        if 0 < count ∧ value.isValidChar then string? none (Char.ofNat value :: found) rest else none
      else
        match Json.hexDigit? character with
        | some digit =>
          if count < 6 then string? (some (value * 16 + digit, count + 1)) found rest else none
        | none => none
    | none =>
      if character = '"' then some (String.ofList found.reverse, rest)
      else if character = '\\' then none
      else string? none (character :: found) rest

/-- Read the rest of a string without escapes, which ends with a quote and some hashes. -/
def rawString? (close : List Char) (found : List Char) : List Char → Option (String × List Char)
  | [] => none
  | character :: rest =>
    match Text.stripStart close (character :: rest) with
    | some rest => some (String.ofList found.reverse, rest)
    | none => rawString? close (character :: found) rest

def character? : List Char → Option (Char × List Char)
  | '\\' :: character :: '\'' :: rest => (escaped? character).map (·, rest)
  | character :: '\'' :: rest => if character = '\\' then none else some (character, rest)
  | _ => none

/-! ### Words -/

def isNameCharacter (character : Char) : Bool :=
  character.isAlphanum || character = '_'

def isNameStart (character : Char) : Bool :=
  character.isAlpha || character = '_'

def isNumberCharacter (character : Char) : Bool :=
  isNameCharacter character || character = '+' || character = '-' || character = '.'

def inBase? (base : Nat) (digits : List Char) : Option Int :=
  let values := digits.map Json.hexDigit?
  if !digits.isEmpty && values.all fun value => (value.getD base) < base then
    some (values.foldl (fun total value => total * base + value.getD 0) 0 : Nat)
  else none

def magnitude? : List Char → Option Int
  | '0' :: 'x' :: digits => inBase? 16 digits
  | '0' :: 'o' :: digits => inBase? 8 digits
  | '0' :: 'b' :: digits => inBase? 2 digits
  | digits => inBase? 10 digits

/-- The value of a number.  Bars between digits do not count. -/
def number? (word : List Char) : Option Json :=
  if word.head? = some '_' then none
  else
    let word := word.filter (· ≠ '_')
    let value? :=
      match word with
      | '-' :: digits => (magnitude? digits).map (-·)
      | '+' :: digits | digits => magnitude? digits
    match value?.filter Decimal.fitsSigned with
    | some value => some (.int value)
    | none => (Decimal.read? word).map .float

def ofName? : String → Option Json
  | "true" => some (.bool true)
  | "false" => some (.bool false)
  | "None" => some .null
  | "inf" => some (.float (1.0 / 0.0))
  | "NaN" => some (.float (0.0 / 0.0))
  | _ => none

/-! ### Values -/

/-- The name of a field, if the text starts with one and a colon. -/
def field? (text : List Char) : Option (String × List Char) :=
  let (name, rest) := text.span isNameCharacter
  match skip .blank rest with
  | some (':' :: rest) =>
    if (name.head?.map isNameStart).getD false then some (String.ofList name, rest) else none
  | _ => none

mutual

def value? : (fuel : Nat) → List Char → Option (Json × List Char)
  | 0, _ => none
  | fuel + 1, text =>
    match text with
    | '(' :: rest => record? fuel rest
    | '[' :: rest => items? fuel ']' [] rest
    | '\x7b' :: rest => entries? fuel [] rest
    | '"' :: rest => (string? none [] rest).map fun (found, rest) => (.str found, rest)
    | '\'' :: rest => (character? rest).map fun (found, rest) => (.str found.toString, rest)
    | 'r' :: '"' :: rest => (rawString? ['"'] [] rest).map fun (found, rest) => (.str found, rest)
    | 'r' :: '#' :: rest =>
      let (hashes, rest) := rest.span (· = '#')
      match rest with
      | '"' :: rest =>
        (rawString? ('"' :: '#' :: hashes) [] rest).map fun (found, rest) => (.str found, rest)
      | _ => none
    | '-' :: 'i' :: 'n' :: 'f' :: rest => some (.float (-1.0 / 0.0), rest)
    | first :: _ =>
      if isNameStart first then do
        let (name, rest) := text.span isNameCharacter
        match ofName? (String.ofList name), ← skip .blank rest with
        | some value, _ => return (value, rest)
        | none, '(' :: rest =>
          if String.ofList name = "Some" then optional? fuel rest else record? fuel rest
        | none, _ => return (.null, rest)
      else
        let (word, rest) := text.span isNumberCharacter
        (number? word).map (·, rest)
    | [] => none

def optional? : (fuel : Nat) → List Char → Option (Json × List Char)
  | 0, _ => none
  | fuel + 1, text => do
    let (value, rest) ← value? fuel (← skip .blank text)
    match ← skip .blank rest with
    | ')' :: rest => return (value, rest)
    | ',' :: rest =>
      match ← skip .blank rest with
      | ')' :: rest => return (value, rest)
      | _ => none
    | _ => none

def record? : (fuel : Nat) → List Char → Option (Json × List Char)
  | 0, _ => none
  | fuel + 1, text => do
    let text ← skip .blank text
    if (field? text).isSome then fields? fuel [] text else items? fuel ')' [] text

/-- Read the rest of the fields of a record.  `found` holds them in reverse. -/
def fields? : (fuel : Nat) → List (String × Json) → List Char → Option (Json × List Char)
  | 0, _, _ => none
  | fuel + 1, found, text => do
    match ← skip .blank text with
    | ')' :: rest => return (.obj found.reverse, rest)
    | text =>
      let (name, rest) ← field? text
      let (value, rest) ← value? fuel (← skip .blank rest)
      match ← skip .blank rest with
      | ',' :: rest => fields? fuel ((name, value) :: found) rest
      | ')' :: rest => return (.obj ((name, value) :: found).reverse, rest)
      | _ => none

/-- Read the rest of a list or a tuple.  `found` holds its items in reverse. -/
def items? : (fuel : Nat) → (close : Char) → List Json → List Char → Option (Json × List Char)
  | 0, _, _, _ => none
  | fuel + 1, close, found, text => do
    let text ← skip .blank text
    if text.head? = some close then return (.arr found.reverse, text.drop 1)
    let (item, rest) ← value? fuel text
    match ← skip .blank rest with
    | ',' :: rest => items? fuel close (item :: found) rest
    | character :: rest =>
      if character = close then return (.arr (item :: found).reverse, rest) else none
    | [] => none

/-- Read the rest of a map, whose keys are strings.  `found` holds its entries in reverse. -/
def entries? : (fuel : Nat) → List (String × Json) → List Char → Option (Json × List Char)
  | 0, _, _ => none
  | fuel + 1, found, text => do
    match ← skip .blank text with
    | '\x7d' :: rest => return (.obj found.reverse, rest)
    | text =>
      let (.str name, rest) ← value? fuel text | none
      match ← skip .blank rest with
      | ':' :: rest =>
        let (value, rest) ← value? fuel (← skip .blank rest)
        match ← skip .blank rest with
        | ',' :: rest => entries? fuel ((name, value) :: found) rest
        | '\x7d' :: rest => return (.obj ((name, value) :: found).reverse, rest)
        | _ => none
      | _ => none

end

/-- Read a document.  A value needs no more steps than twice its characters. -/
def read? (text : String) : Option Json := do
  let characters ← skip .blank text.toList
  let (value, rest) ← value? (2 * characters.length + 2) characters
  match ← skip .blank rest with
  | [] => return value
  | _ => none

end Reactor.Ron

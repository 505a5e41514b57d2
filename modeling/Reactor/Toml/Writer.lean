/-!
# Writing strings in TOML

There are four ways to write a string: between double quotes or single quotes, on one line or over
several.  The first way in this order that needs no escapes is taken, where strings with line ends
need several lines: double quotes, single quotes, three double quotes, three single quotes.  If every
way needs escapes, double quotes are used with them.
-/

namespace Reactor.Toml

/-- Whether a character can only be written with an escape, wherever it stands. -/
def needsEscape (character : Char) : Bool :=
  (character.toNat < 32 && character ≠ '\t' && character ≠ '\n') || character.toNat = 127

/-- The length of the longest run of a character.  `current` is the length of the run that goes on. -/
def longestRun (character : Char) (current longest : Nat) : List Char → Nat
  | [] => max current longest
  | next :: rest =>
    if next = character then longestRun character (current + 1) longest rest
    else longestRun character 0 (max current longest) rest

/-! ### Forms -/

/-- How a string is written. -/
inductive StringForm where
  /-- Between double quotes. -/
  | basic
  /-- Between single quotes. -/
  | literal
  /-- Between three double quotes. -/
  | basicLines
  /-- Between three single quotes. -/
  | literalLines
  deriving DecidableEq, Repr, Inhabited

namespace StringForm

def ofCharacters (characters : List Char) : StringForm :=
  let lineEnds := characters.contains '\n'
  let escapes := characters.contains '\\'
  let singles := longestRun '\'' 0 0 characters
  let doubles := longestRun '"' 0 0 characters
  if characters.any needsEscape then if lineEnds then basicLines else basic
  else if !escapes && doubles = 0 && !lineEnds then basic
  else if singles = 0 && !lineEnds then literal
  else if !escapes && doubles ≤ 2 then basicLines
  else if singles ≤ 2 then literalLines
  else if lineEnds then basicLines
  else basic

def delimiter : StringForm → String
  | basic => "\""
  | literal => "'"
  | basicLines => "\"\"\""
  | literalLines => "'''"

def manyLines : StringForm → Bool
  | basic | literal => false
  | basicLines | literalLines => true

end StringForm

/-! ### Escapes -/

def fourDigits (code : Nat) : String :=
  let digits := (Nat.toDigits 16 code).map Char.toUpper
  String.ofList (List.replicate (4 - digits.length) '0' ++ digits)

/-- How a character other than a double quote is written between double quotes, if not as it is. -/
def escape? (manyLines : Bool) : Char → Option String
  | '\x08' => some "\\b"
  | '\t' => some "\\t"
  | '\n' => if manyLines then none else some "\\n"
  | '\x0c' => some "\\f"
  | '\x0d' => some "\\r"
  | '\\' => some "\\\\"
  | other => if needsEscape other then some ("\\u" ++ fourDigits other.toNat) else none

/-- The pieces of a string between double quotes.  Over several lines, two double quotes may follow
each other; `run` counts those that stand right before. -/
def escaped (manyLines : Bool) (run : Nat) : List Char → List String
  | [] => []
  | '"' :: rest =>
    if manyLines && run < 2 then "\"" :: escaped manyLines (run + 1) rest
    else "\\\"" :: escaped manyLines 0 rest
  | character :: rest =>
    (escape? manyLines character).getD character.toString :: escaped manyLines 0 rest

/-- What stands between the delimiters of a string.  A line end after the first delimiter does not
belong to it. -/
def StringForm.body (form : StringForm) (text : String) : String :=
  let written :=
    match form with
    | basic | basicLines => "".intercalate (escaped form.manyLines 0 text.toList)
    | literal | literalLines => text
  if form.manyLines && text.toList.contains '\n' then "\n" ++ written else written

def renderString (text : String) : String :=
  let form := StringForm.ofCharacters text.toList
  form.delimiter ++ form.body text ++ form.delimiter

end Reactor.Toml

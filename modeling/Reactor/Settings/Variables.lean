import Reactor.Settings.Setting
import Reactor.Text.Blank
import Reactor.Text.Numeric
import Reactor.Text.Split

/-!
# Variables

The surroundings of a command give values to names.  Further values can be written in a file, one to a
line.  A file never changes a value that is already there.

A line is a name, an equals sign and a value; the word `export` may stand in front.  A value may be
quoted, in whole or in part.  Between double quotes and outside quotes a backslash makes the next
character plain, and a dollar sign puts in the value of a variable.  What follows a blank and a hash
is a comment.
-/

namespace Reactor

abbrev Variables := List (String × String)

namespace Variables

/-! ### Lines -/

/-- Where the end of a line is looked for. -/
inductive Quoting where
  | outside
  /-- Behind a blank, where a comment may start. -/
  | blank
  | single
  | double
  deriving DecidableEq, Repr, Inhabited

def Quoting.after (character : Char) : Quoting :=
  if character = '"' then .double
  else if character = '\'' then .single
  else if Text.isBlank character ∧ character ≠ '\n' ∧ character ≠ '\x0d' then .blank
  else .outside

def dropLine (text : List Char) : List Char :=
  (text.dropWhile (· ≠ '\n')).drop 1

/-- Cut off the first line, without its comment.  Line ends between quotes do not count.  `line` holds
the characters of the line in reverse.  There is none if a quote or a blank stands open at the end. -/
def cutLine (quoting : Quoting) (line : List Char) : List Char → Option (List Char × List Char)
  | [] => if quoting = .outside then some (line.reverse, []) else none
  | '\\' :: rest =>
    match rest with
    | [] => none
    | '\n' :: rest =>
      match quoting with
      | .single | .double => cutLine quoting ('\n' :: '\\' :: line) rest
      | _ => some (('\\' :: line).reverse, rest)
    | next :: rest =>
      match quoting with
      | .single | .double => cutLine quoting (next :: '\\' :: line) rest
      | _ => cutLine .outside (next :: '\\' :: line) rest
  | character :: rest =>
    match quoting with
    | .outside =>
      if character = '\n' then some (line.reverse, rest)
      else cutLine (.after character) (character :: line) rest
    | .blank =>
      if character = '#' then some (line.reverse, dropLine rest)
      else if character = '\n' then some (line.reverse, rest)
      else if character = '"' then cutLine .double (character :: line) rest
      else if character = '\'' then cutLine .single (character :: line) rest
      else cutLine .outside (character :: line) rest
    | .single =>
      cutLine (if character = '\'' then .outside else .single) (character :: line) rest
    | .double =>
      cutLine (if character = '"' then .outside else .double) (character :: line) rest

/-! ### Values -/

/-- Where in a value a character stands. -/
inductive Place where
  | plain
  | single
  | double
  /-- Behind a blank, where only a comment may follow. -/
  | ended
  /-- Behind a backslash, between double quotes or not. -/
  | escaped (quoted : Bool)
  /-- In the name of a variable, which is in reverse. -/
  | named (quoted : Bool) (name : List Char)
  /-- In the name of a variable in braces, which is in reverse. -/
  | braced (quoted : Bool) (name : List Char)
  deriving DecidableEq, Repr, Inhabited

/-- The place in a value behind the name of a variable or an escape. -/
def Place.back (quoted : Bool) : Place :=
  if quoted then .double else .plain

/-- The characters of the value of a variable, in reverse.  An unknown name stands for nothing. -/
def expansion (environment : Variables) (name : List Char) : List Char :=
  ((environment.lookup (String.ofList name.reverse)).getD "").toList.reverse

/-- Read a value.  `found` holds its characters in reverse. -/
def value? (environment : Variables) (place : Place) (found : List Char) : List Char → Option String
  | [] =>
    match place with
    | .single | .double | .braced .. | .named true _ | .escaped true => none
    | .named false name => some (String.ofList (expansion environment name ++ found).reverse)
    | .plain | .ended | .escaped false => some (String.ofList found.reverse)
  | character :: rest =>
    match place with
    | .ended =>
      if character = ' ' ∨ character = '\t' then value? environment .ended found rest
      else if character = '#' then some (String.ofList found.reverse)
      else none
    | .escaped quoted =>
      if character = 'n' then value? environment (.back quoted) ('\n' :: found) rest
      else if "\\'\"$ ".toList.contains character then
        value? environment (.back quoted) (character :: found) rest
      else none
    | .single =>
      if character = '\'' then value? environment .plain found rest
      else value? environment .single (character :: found) rest
    | .named quoted name =>
      if Text.isAlphanumeric character then
        value? environment (.named quoted (character :: name)) found rest
      else if character = '\x7b' ∧ name.isEmpty then value? environment (.braced quoted []) found rest
      else if character = '$' then
        value? environment (.named quoted []) (expansion environment name ++ found) rest
      else
        value? environment (.back quoted) (character :: (expansion environment name ++ found)) rest
    | .braced quoted name =>
      if character = '\x7d' then
        value? environment (.back quoted) (expansion environment name ++ found) rest
      else value? environment (.braced quoted (character :: name)) found rest
    | .double =>
      if character = '$' then value? environment (.named true []) found rest
      else if character = '"' then value? environment .plain found rest
      else if character = '\\' then value? environment (.escaped true) found rest
      else value? environment .double (character :: found) rest
    | .plain =>
      if character = '$' then value? environment (.named false []) found rest
      else if character = '\'' then value? environment .single found rest
      else if character = '"' then value? environment .double found rest
      else if character = '\\' then value? environment (.escaped false) found rest
      else if character = ' ' ∨ character = '\t' then value? environment .ended found rest
      else value? environment .plain (character :: found) rest

/-! ### Files -/

def name? (line : List Char) : Option (String × List Char) :=
  let (name, rest) :=
    line.span fun character => character.isAlphanum || character = '_' || character = '.'
  match name with
  | first :: _ =>
    if first.isAlpha ∨ first = '_' then some (String.ofList name, rest.dropWhile Text.isBlank)
    else none
  | [] => none

def binding? (line : List Char) : Option (String × List Char) := do
  match ← name? line with
  | (name, '=' :: rest) => return (name, rest.dropWhile Text.isBlank)
  | ("export", rest) =>
    match ← name? rest with
    | (name, '=' :: rest) => return (name, rest.dropWhile Text.isBlank)
    | _ => none
  | _ => none

def add (environment : Variables) (name value : String) : Variables :=
  if (environment.lookup name).isSome then environment else environment ++ [(name, value)]

def addLine (environment : Variables) (line : List Char) : Option Variables :=
  match Text.trim line with
  | [] | '#' :: _ => some environment
  | line => do
    let (name, rest) ← binding? line
    match rest with
    | [] | '#' :: _ => return environment.add name ""
    | rest => return environment.add name (← value? environment .plain [] rest)

/-- Read the lines of a file up to the first that cannot be read. -/
def addLines (environment : Variables) : (fuel : Nat) → List Char → Variables
  | 0, _ | _, [] => environment
  | fuel + 1, text =>
    if (text.dropWhile Text.isBlank).head? = some '#' then
      addLines environment fuel (dropLine (text.dropWhile Text.isBlank))
    else
      match cutLine .outside [] text with
      | none => environment
      | some (line, rest) =>
        match environment.addLine line with
        | none => environment
        | some environment => addLines environment fuel rest

/-- Add what a file says.  Every line has at least one character. -/
def addFile (environment : Variables) (text : String) : Variables :=
  let characters := Text.dropOrderMark text.toList
  environment.addLines characters.length characters

/-! ### Settings -/

/-- What the variables say about settings: those whose names start with the given text, without regard
to capital and small letters. -/
def settings (environment : Variables) (start : String) : List (String × Setting) :=
  environment.filterMap fun (name, word) =>
    if name.toLower.startsWith start then
      some ((name.toLower.drop start.length).toString, .ofWord word)
    else none

end Variables

end Reactor

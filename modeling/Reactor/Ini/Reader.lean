import Reactor.Json.Reader
import Reactor.Text.Blank

/-!
# Reading INI files

A file is a list of keys with texts, some of them under headings in brackets.  A key ends at an equals
sign or a colon.  A comment takes a line of its own.
-/

namespace Reactor.Ini

/-- What stands in a file: a heading, or a key with its text. -/
inductive Entry where
  | heading (name : String)
  | pair (key text : String)
  deriving DecidableEq, Repr, Inhabited

def escaped : Char → Char
  | '0' => '\x00'
  | 'a' => '\x07'
  | 'b' => '\x08'
  | 't' => '\t'
  | 'r' => '\x0d'
  | 'n' => '\n'
  | other => other

/-- Cut a text at the first character of some kind, and resolve escapes before it.  `openEnded`
tells whether the text may end without one.  `found` holds the characters in reverse. -/
def cut? (isEnd : Char → Bool) (openEnded : Bool) (found : List Char) :
    List Char → Option (List Char × List Char)
  | [] => if openEnded then some (found.reverse, []) else none
  | '\\' :: 'x' :: a :: b :: c :: d :: rest =>
    match Json.hexValue? a b c d with
    | some code =>
      if code.isValidChar then cut? isEnd openEnded (Char.ofNat code :: found) rest else none
    | none => none
  | '\\' :: character :: rest =>
    if character = 'x' then none
    else if character = '\n' then cut? isEnd openEnded found rest
    else cut? isEnd openEnded (escaped character :: found) rest
  | character :: rest =>
    if isEnd character then some (found.reverse, character :: rest)
    else if character = '\\' then none
    else cut? isEnd openEnded (character :: found) rest

def isLineEnd (character : Char) : Bool :=
  character = '\n' || character = '\x0d'

def isKeyEnd (character : Char) : Bool :=
  character = '=' || character = ':'

/-- Drop blanks.  `fresh` tells whether a line starts. -/
def skipBlanks (fresh : Bool) : List Char → Bool × List Char
  | [] => (fresh, [])
  | character :: rest =>
    if Text.isBlank character then skipBlanks (character = '\n') rest else (fresh, character :: rest)

/-- Read a text up to the end of its line.  Parts of it may be quoted, but only from its start on. -/
def text? (found : List Char) : (fuel : Nat) → List Char → Option (List Char × List Char)
  | 0, _ => none
  | fuel + 1, text =>
    match text with
    | [] => some (found, [])
    | quote :: rest =>
      if quote = '"' ∨ quote = '\'' then do
        let (part, rest) ← cut? (· = quote) false [] rest
        text? (found ++ part) fuel (rest.drop 1)
      else do
        let (part, rest) ← cut? isLineEnd true [] text
        return (found ++ Text.trimEnd part, rest)

/-- Read the entries of a file.  `fresh` tells whether a line starts. -/
def entries? : (fuel : Nat) → (fresh : Bool) → List Char → Option (List Entry)
  | 0, _, _ => none
  | fuel + 1, fresh, text => do
    match skipBlanks fresh text with
    | (_, []) => return []
    | (fresh, character :: rest) =>
      if character = ';' ∨ character = '#' then
        if fresh then entries? fuel true ((rest.dropWhile (· ≠ '\n')).drop 1) else none
      else if character = '[' then
        let (name, rest) ← cut? (· = ']') false [] rest
        let others ← entries? fuel false (rest.drop 1)
        return .heading (String.ofList (Text.trim name)) :: others
      else if isKeyEnd character then none
      else
        let (key, rest) ← cut? isKeyEnd false [] (character :: rest)
        let rest := (rest.drop 1).dropWhile fun next => Text.isBlank next && !isLineEnd next
        let (text, rest) ← text? [] (rest.length + 1) rest
        let others ← entries? fuel false rest
        return .pair (String.ofList (Text.trim key)) (String.ofList text) :: others

/-- Read a file.  Every entry has at least one character. -/
def read? (text : String) : Option (List Entry) :=
  entries? (text.length + 1) true text.toList

end Reactor.Ini

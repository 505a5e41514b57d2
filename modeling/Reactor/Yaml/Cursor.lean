/-!
# Places in YAML texts

The reader of YAML looks at columns: how far a line is indented decides what belongs together.  A
cursor is a place in a text with its line and column.
-/

namespace Reactor.Yaml

def isBlank (character : Char) : Bool :=
  character = ' ' || character = '\t'

def isBreak (character : Char) : Bool :=
  character = '\n' || character = '\x0d'

/-- Whether a character divides the parts of a collection in brackets. -/
def isFlow (character : Char) : Bool :=
  character = ',' || character = '[' || character = ']' || character = '\x7b' || character = '\x7d'

/-- Whether a text starts with a blank, a line end or not at all. -/
def endsWord : List Char → Bool
  | [] => true
  | character :: _ => isBlank character || isBreak character

/-- A place in a text. -/
structure Cursor where
  rest : List Char
  line : Nat := 0
  column : Nat := 0
  /-- The number of characters before the place. -/
  index : Nat := 0
  deriving DecidableEq, Repr, Inhabited

namespace Cursor

def skip (cursor : Cursor) (count : Nat) : Cursor :=
  { cursor with
    rest := cursor.rest.drop count
    column := cursor.column + count
    index := cursor.index + count }

def skipBreak (cursor : Cursor) : Cursor :=
  match cursor.rest with
  | '\x0d' :: '\n' :: rest => ⟨rest, cursor.line + 1, 0, cursor.index + 2⟩
  | _ :: rest => ⟨rest, cursor.line + 1, 0, cursor.index + 1⟩
  | [] => cursor

def skipWhile (cursor : Cursor) (kind : Char → Bool) : Cursor :=
  cursor.skip (cursor.rest.takeWhile kind).length

/-- Whether a line starts with three equal marks that stand alone. -/
def startsWithMark (cursor : Cursor) (mark : Char) : Bool :=
  cursor.column = 0 && cursor.rest.take 3 = [mark, mark, mark] && endsWord (cursor.rest.drop 3)

/-- Whether a document starts or ends here. -/
def atDocumentMark (cursor : Cursor) : Bool :=
  cursor.startsWithMark '-' || cursor.startsWithMark '.'

end Cursor

end Reactor.Yaml

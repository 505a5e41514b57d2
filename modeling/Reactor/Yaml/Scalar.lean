import Reactor.Json.Reader
import Reactor.Yaml.Cursor

/-!
# Scalars in YAML

A scalar is written plainly, between quotes or as a block of lines.  Plain and quoted scalars may go
over several lines: a single line end in them stands for a blank, and of several the first one does
not count.
-/

namespace Reactor.Yaml

/-! ### Folding -/

/-- What stands between two words: the blanks in reverse, and after a line end the number of further
ones.  A line end that was escaped stands for nothing. -/
structure Fold where
  blanks : List Char := []
  breaks : Option Nat := none
  escaped : Bool := false
  deriving DecidableEq, Repr, Inhabited

namespace Fold

/-- The characters that a gap stands for, in reverse. -/
def joined (fold : Fold) : List Char :=
  match fold.breaks with
  | none => fold.blanks
  | some 0 => if fold.escaped then [] else [' ']
  | some count => List.replicate count '\n'

/-- Add a blank.  Blanks at the start of a line do not count. -/
def addBlank (fold : Fold) (blank : Char) : Fold :=
  if fold.breaks.isSome then fold else { fold with blanks := blank :: fold.blanks }

def addBreak (fold : Fold) : Fold :=
  match fold.breaks with
  | none => { fold with blanks := [], breaks := some 0 }
  | some count => { fold with breaks := some (count + 1) }

end Fold

/-- What is looked at next. -/
inductive Part where
  | start
  | word
  | gap
  deriving DecidableEq, Repr, Inhabited

/-! ### Plain scalars -/

/-- A scalar, whether a line ends behind it, and the place behind it. -/
structure Scanned where
  text : String
  lineEnded : Bool
  cursor : Cursor
  deriving Inhabited

/-- Read a plain scalar, which is indented by `indent` columns at least, or stands in brackets.
`found` holds its characters in reverse.  Every character takes at most three steps. -/
def plain? (flow : Bool) (indent : Int) : (fuel : Nat) → Part → List Char → Fold → Cursor →
    Option Scanned
  | 0, _, _, _, _ => none
  | fuel + 1, part, found, fold, cursor =>
    let ended := some ⟨String.ofList found.reverse, fold.breaks.isSome, cursor⟩
    match part, cursor.rest with
    | _, [] => ended
    | .start, character :: _ =>
      if cursor.atDocumentMark || character = '#' then ended
      else plain? flow indent fuel .word found fold cursor
    | .word, character :: rest =>
      if isBlank character || isBreak character then plain? flow indent fuel .gap found fold cursor
      else if character = ':' && (endsWord rest || (flow && (rest.head?.map isFlow).getD false)) then
        ended
      else if flow && isFlow character then ended
      else plain? flow indent fuel .word (character :: (fold.joined ++ found)) {} (cursor.skip 1)
    | .gap, character :: _ =>
      if isBlank character then
        if fold.breaks.isSome && cursor.column < indent && character = '\t' then none
        else plain? flow indent fuel .gap found (fold.addBlank character) (cursor.skip 1)
      else if isBreak character then
        plain? flow indent fuel .gap found fold.addBreak cursor.skipBreak
      else if !flow && cursor.column < indent then ended
      else plain? flow indent fuel .start found fold cursor

/-! ### Quoted scalars -/

def escaped? : Char → Option Char
  | '0' => some '\x00'
  | 'a' => some '\x07'
  | 'b' => some '\x08'
  | 't' | '\t' => some '\t'
  | 'n' => some '\n'
  | 'v' => some '\x0b'
  | 'f' => some '\x0c'
  | 'r' => some '\x0d'
  | 'e' => some '\x1b'
  | ' ' => some ' '
  | '"' => some '"'
  | '\'' => some '\''
  | '\\' => some '\\'
  | 'N' => some '\u0085'
  | '_' => some '\u00a0'
  | 'L' => some '\u2028'
  | 'P' => some '\u2029'
  | _ => none

def codeLength : Char → Nat
  | 'x' => 2
  | 'u' => 4
  | 'U' => 8
  | _ => 0

/-- Read an escape behind its backslash, and give the number of its characters. -/
def escape? : List Char → Option (Char × Nat)
  | [] => none
  | letter :: rest =>
    match codeLength letter with
    | 0 => (escaped? letter).map (·, 1)
    | length =>
      let digits := rest.take length
      let code := digits.foldl (fun value digit => value * 16 + (Json.hexDigit? digit).getD 0) 0
      if digits.length = length && digits.all (fun digit => (Json.hexDigit? digit).isSome) &&
          code.isValidChar then some (Char.ofNat code, length + 1)
      else none

/-- Read the rest of a scalar between quotes.  `found` holds its characters in reverse. -/
def quoted? (quote : Char) : (fuel : Nat) → Part → List Char → Fold → Cursor → Option Scanned
  | 0, _, _, _, _ => none
  | fuel + 1, part, found, fold, cursor =>
    match part, cursor.rest with
    | _, [] => none
    | .start, _ =>
      if cursor.atDocumentMark then none else quoted? quote fuel .word found {} cursor
    | .word, character :: rest =>
      if character = quote then
        if quote = '\'' && rest.head? = some '\'' then
          quoted? quote fuel .word ('\'' :: found) {} (cursor.skip 2)
        else some ⟨String.ofList found.reverse, false, cursor.skip 1⟩
      else if isBlank character || isBreak character then
        quoted? quote fuel .gap found {} cursor
      else if character = '\\' && quote = '"' then
        if (rest.head?.map isBreak).getD false then
          let cursor := (cursor.skip 1).skipBreak
          if cursor.rest.head? = some '"' then
            some ⟨String.ofList found.reverse, false, cursor.skip 1⟩
          else quoted? quote fuel .gap found ⟨[], some 0, true⟩ cursor
        else
          match escape? rest with
          | some (meant, count) => quoted? quote fuel .word (meant :: found) {} (cursor.skip (count + 1))
          | none => none
      else quoted? quote fuel .word (character :: found) {} (cursor.skip 1)
    | .gap, character :: _ =>
      if isBlank character then
        quoted? quote fuel .gap found (fold.addBlank character) (cursor.skip 1)
      else if isBreak character then quoted? quote fuel .gap found fold.addBreak cursor.skipBreak
      else quoted? quote fuel .start (fold.joined ++ found) {} cursor

/-! ### Blocks -/

/-- What happens to the line ends at the end of a block. -/
inductive Chomping where
  | strip
  | clip
  | keep
  deriving DecidableEq, Repr, Inhabited

/-- Read a sign that says what happens to the line ends at the end. -/
def chomping? : List Char → Option Chomping
  | '+' :: _ => some .keep
  | '-' :: _ => some .strip
  | _ => none

/-- Read the number of columns by which a block is indented.  It is not zero. -/
def increment? : List Char → Option Nat
  | digit :: _ => if digit.isDigit then some (digit.toNat - '0'.toNat) else none
  | [] => none

/-- Read what stands behind the mark of a block, in either order. -/
def blockHeader (cursor : Cursor) : Chomping × Option Nat × Cursor :=
  match chomping? cursor.rest with
  | some chomping =>
    let cursor := cursor.skip 1
    match increment? cursor.rest with
    | some increment => (chomping, some increment, cursor.skip 1)
    | none => (chomping, none, cursor)
  | none =>
    match increment? cursor.rest with
    | some increment =>
      let cursor := cursor.skip 1
      match chomping? cursor.rest with
      | some chomping => (chomping, some increment, cursor.skip 1)
      | none => (.clip, some increment, cursor)
    | none => (.clip, none, cursor)

/-- Pass over empty lines and the indentation of the next one.  `indent` is not known at first;
`widest` is the widest indentation so far.  Given are the number of line ends, the widest indentation
and the place behind. -/
def blockBreaks? (indent : Option Nat) : (fuel widest count : Nat) → Cursor →
    Option (Nat × Nat × Cursor)
  | 0, _, _, _ => none
  | fuel + 1, widest, count, cursor =>
    let blanks := (cursor.rest.takeWhile (· = ' ')).length
    let cursor := cursor.skip (match indent with
      | some indent => min blanks (indent - cursor.column)
      | none => blanks)
    let widest := max widest cursor.column
    match cursor.rest with
    | character :: _ =>
      if character = '\t' && (indent.map fun indent => decide (cursor.column < indent)).getD true then none
      else if isBreak character then blockBreaks? indent fuel widest (count + 1) cursor.skipBreak
      else some (count, widest, cursor)
    | [] => some (count, widest, cursor)

/-- Read the lines of a block.  `found` holds its characters in reverse, `broken` tells whether a line
end is still to be written and `breaks` how many more; `indented` tells whether the last line starts
with a blank. -/
def blockLines? (literal : Bool) (indent : Nat) : (fuel : Nat) → (found : List Char) →
    (broken : Bool) → (breaks : Nat) → (indented : Bool) → Cursor →
    Option (List Char × Bool × Nat × Cursor)
  | 0, _, _, _, _, _ => none
  | fuel + 1, found, broken, breaks, indented, cursor =>
    match cursor.rest with
    | [] => some (found, broken, breaks, cursor)
    | first :: _ =>
      if cursor.column ≠ indent then some (found, broken, breaks, cursor)
      else
        let lineEnd : List Char :=
          if !literal && broken && !indented && !isBlank first then
            if breaks = 0 then [' '] else []
          else if broken then ['\n']
          else []
        let line := cursor.rest.takeWhile (!isBreak ·)
        let found := line.reverse ++ (List.replicate breaks '\n' ++ (lineEnd ++ found))
        let cursor := cursor.skip line.length
        match cursor.rest with
        | [] => some (found, false, 0, cursor)
        | _ =>
          let cursor := cursor.skipBreak
          match blockBreaks? (some indent) (cursor.rest.length + 1) 0 0 cursor with
          | some (breaks, _, cursor) =>
            blockLines? literal indent fuel found true breaks (isBlank first) cursor
          | none => none

/-- Read a block behind its mark.  `parent` is the indentation of what the block stands in. -/
def block? (literal : Bool) (parent : Int) (cursor : Cursor) : Option Scanned := do
  let (chomping, increment, cursor) := blockHeader cursor
  if increment = some 0 then none
  let cursor := cursor.skipWhile isBlank
  let cursor :=
    if cursor.rest.head? = some '#' then cursor.skipWhile (!isBreak ·) else cursor
  match cursor.rest with
  | character :: _ => if !isBreak character then none
  | [] => pure ()
  let cursor := cursor.skipBreak
  let fuel := cursor.rest.length + 1
  let known := increment.map fun increment => increment + parent.toNat
  let (breaks, widest, cursor) ← blockBreaks? known fuel 0 0 cursor
  let indent := known.getD (max (max widest (parent + 1).toNat) 1)
  let (found, broken, breaks, cursor) ← blockLines? literal indent fuel [] false breaks false cursor
  let found := if broken && chomping ≠ .strip then '\n' :: found else found
  let found := if chomping = .keep then List.replicate breaks '\n' ++ found else found
  return ⟨String.ofList found.reverse, true, cursor⟩

end Reactor.Yaml

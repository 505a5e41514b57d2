import Reactor.Yaml.Scalar

/-!
# Tokens of YAML texts

Lines and columns become tokens: where a block starts and ends, what is a key and what a value.  That
something is a key shows only at the colon behind it, so the place of whatever may turn out to be a
key is remembered.
-/

namespace Reactor.Yaml

/-- A token. -/
inductive Token where
  | streamEnd
  | documentStart
  | documentEnd
  | directive
  | sequenceStart
  | mappingStart
  | blockEnd
  | flowSequenceStart
  | flowSequenceEnd
  | flowMappingStart
  | flowMappingEnd
  | blockEntry
  | flowEntry
  | key
  | value
  | reference (name : String)
  | anchor (name : String)
  | tag (name : String)
  | scalar (isPlain : Bool) (text : String)
  deriving DecidableEq, Repr, Inhabited

/-- Something that may turn out to be a key: the number of its first token and its place. -/
structure PossibleKey where
  token : Nat
  line : Nat
  column : Nat
  index : Nat
  /-- Whether it has to be a key. -/
  required : Bool
  deriving DecidableEq, Repr, Inhabited

/-- The state between two tokens. -/
structure Scanner where
  cursor : Cursor
  tokens : Array Token := #[]
  /-- Whether a key may start. -/
  keyAllowed : Bool := true
  /-- What may turn out to be a key, outside brackets. -/
  outerKey : Option PossibleKey := none
  /-- The same inside brackets, the innermost first. -/
  flowKeys : List (Option PossibleKey) := []
  /-- The indentation of the innermost block. -/
  indent : Int := -1
  /-- The indentations of the blocks around it. -/
  indents : List Int := []
  /-- The place right behind a quoted scalar. -/
  adjacent : Option Nat := none
  deriving Inhabited

namespace Scanner

def inFlow (scanner : Scanner) : Bool :=
  !scanner.flowKeys.isEmpty

def push (scanner : Scanner) (token : Token) : Scanner :=
  { scanner with tokens := scanner.tokens.push token }

def insert (scanner : Scanner) (number : Nat) (token : Token) : Scanner :=
  let tokens := scanner.tokens.toList
  { scanner with tokens := (tokens.take number ++ token :: tokens.drop number).toArray }

def skip (scanner : Scanner) (count : Nat) : Scanner :=
  { scanner with cursor := scanner.cursor.skip count }

/-! ### Keys -/

def possibleKey (scanner : Scanner) : Option PossibleKey :=
  match scanner.flowKeys with
  | key :: _ => key
  | [] => scanner.outerKey

def setKey (scanner : Scanner) (key : Option PossibleKey) : Scanner :=
  match scanner.flowKeys with
  | _ :: rest => { scanner with flowKeys := key :: rest }
  | [] => { scanner with outerKey := key }

/-- Forget what may turn out to be a key, unless it has to. -/
def removeKey? (scanner : Scanner) : Option Scanner :=
  if (scanner.possibleKey.map PossibleKey.required).getD false then none
  else some (scanner.setKey none)

/-- Remember that a key may start here. -/
def saveKey? (scanner : Scanner) : Option Scanner := do
  if !scanner.keyAllowed then return scanner
  let required := scanner.inFlow && scanner.indent = scanner.cursor.column
  let key : PossibleKey :=
    ⟨scanner.tokens.size, scanner.cursor.line, scanner.cursor.column, scanner.cursor.index, required⟩
  return (← scanner.removeKey?).setKey (some key)

/-- Whether it is too late for a key: it is in one line, and not too far before its colon. -/
def isStale (scanner : Scanner) (key : PossibleKey) : Bool :=
  key.line < scanner.cursor.line || key.index + 1024 < scanner.cursor.index

/-- Forget keys for which it is too late. -/
def dropStale? (scanner : Scanner) : Option Scanner := do
  let keep (key : Option PossibleKey) : Option (Option PossibleKey) :=
    match key with
    | some found =>
      if scanner.isStale found then if found.required then none else some none else some key
    | none => some none
  let outerKey ← keep scanner.outerKey
  let flowKeys ← scanner.flowKeys.mapM keep
  return { scanner with outerKey, flowKeys }

/-! ### Blocks -/

/-- Start a block at a column if it is indented further than the block around it. -/
def openBlock (scanner : Scanner) (column : Nat) (number : Option Nat) (token : Token) : Scanner :=
  if scanner.inFlow || (column : Int) ≤ scanner.indent then scanner
  else
    let scanner :=
      { scanner with indent := column, indents := scanner.indent :: scanner.indents }
    match number with
    | some number => scanner.insert number token
    | none => scanner.push token

/-- Close the blocks with the given indentations that reach beyond a column. -/
def closeUpTo (column : Int) : List Int → Scanner → Scanner
  | [], scanner => scanner
  | outer :: indents, scanner =>
    if scanner.indent ≤ column then scanner
    else closeUpTo column indents { scanner.push .blockEnd with indent := outer, indents }

/-- Close the blocks that reach beyond a column. -/
def closeBlocks (scanner : Scanner) (column : Int) : Scanner :=
  if scanner.inFlow then scanner else closeUpTo column scanner.indents scanner

/-! ### Gaps -/

/-- Pass over blanks, line ends and comments. -/
def skipGap : (fuel : Nat) → Scanner → Scanner
  | 0, scanner => scanner
  | fuel + 1, scanner =>
    match scanner.cursor.rest with
    | [] => scanner
    | character :: _ =>
      if character = ' ' || (character = '\t' && (scanner.inFlow || !scanner.keyAllowed)) then
        skipGap fuel (scanner.skip 1)
      else if isBreak character then
        skipGap fuel { scanner with
          cursor := scanner.cursor.skipBreak, keyAllowed := !scanner.inFlow || scanner.keyAllowed }
      else if character = '#' then
        skipGap fuel { scanner with cursor := scanner.cursor.skipWhile (!isBreak ·) }
      else scanner

/-! ### Tokens -/

def documentToken? (scanner : Scanner) (token : Token) (length : Nat) : Option Scanner := do
  let scanner ← (scanner.closeBlocks (-1)).removeKey?
  return { (scanner.skip length).push token with keyAllowed := false }

def flowStart? (scanner : Scanner) (token : Token) : Option Scanner := do
  let scanner ← scanner.saveKey?
  if scanner.flowKeys.length ≥ 255 then none
  return { (scanner.skip 1).push token with
    flowKeys := none :: scanner.flowKeys, keyAllowed := true }

def flowEnd? (scanner : Scanner) (token : Token) : Option Scanner := do
  let scanner ← scanner.removeKey?
  return { (scanner.skip 1).push token with
    flowKeys := scanner.flowKeys.drop 1, keyAllowed := false }

def flowEntry? (scanner : Scanner) : Option Scanner := do
  let scanner ← scanner.removeKey?
  return { (scanner.skip 1).push .flowEntry with keyAllowed := true }

def blockEntry? (scanner : Scanner) : Option Scanner := do
  if scanner.inFlow || !scanner.keyAllowed then none
  let scanner ← (scanner.openBlock scanner.cursor.column none .sequenceStart).removeKey?
  return { (scanner.skip 1).push .blockEntry with keyAllowed := true }

def key? (scanner : Scanner) : Option Scanner := do
  if !scanner.inFlow && !scanner.keyAllowed then none
  let scanner ← (scanner.openBlock scanner.cursor.column none .mappingStart).removeKey?
  return { (scanner.skip 1).push .key with keyAllowed := !scanner.inFlow }

/-- Read the colon before a value.  What may be a key becomes one. -/
def value? (scanner : Scanner) : Option Scanner :=
  match scanner.possibleKey with
  | some key =>
    let scanner := scanner.insert key.token .key
    let scanner := (scanner.openBlock key.column (some key.token) .mappingStart).setKey none
    some { (scanner.skip 1).push .value with keyAllowed := false }
  | none =>
    if !scanner.inFlow && !scanner.keyAllowed then none
    else
      let scanner := scanner.openBlock scanner.cursor.column none .mappingStart
      some { (scanner.skip 1).push .value with keyAllowed := !scanner.inFlow }

def isAnchorCharacter (character : Char) : Bool :=
  character.isAlphanum || character = '_' || character = '-'

def anchor? (scanner : Scanner) (token : String → Token) : Option Scanner := do
  let scanner := (← scanner.saveKey?).skip 1
  let name := scanner.cursor.rest.takeWhile isAnchorCharacter
  let scanner := scanner.skip name.length
  let closed :=
    match scanner.cursor.rest with
    | character :: _ => endsWord scanner.cursor.rest || "?:,]\x7d%@".toList.contains character
    | [] => true
  if name.isEmpty || !closed then none
  return { scanner.push (token (String.ofList name)) with keyAllowed := false }

def tag? (scanner : Scanner) : Option Scanner := do
  let scanner ← scanner.saveKey?
  let name := scanner.cursor.rest.takeWhile fun character => !isBlank character && !isBreak character
  return { (scanner.skip name.length).push (.tag (String.ofList name)) with keyAllowed := false }

def scalar? (scanner : Scanner) (isPlain : Bool) (read : Cursor → Option Scanned) :
    Option Scanner := do
  let scanner ← scanner.saveKey?
  let found ← read scanner.cursor
  return { scanner.push (.scalar isPlain found.text) with
    cursor := found.cursor
    keyAllowed := found.lineEnded
    adjacent := if isPlain then scanner.adjacent else some found.cursor.index }

def plainScalar? (scanner : Scanner) : Option Scanner :=
  scanner.scalar? true fun cursor =>
    plain? scanner.inFlow (scanner.indent + 1) (3 * cursor.rest.length + 3) .start [] {} cursor

def quotedScalar? (scanner : Scanner) (quote : Char) : Option Scanner :=
  scanner.scalar? false fun cursor =>
    quoted? quote (3 * cursor.rest.length + 3) .start [] {} (cursor.skip 1)

def blockScalar? (scanner : Scanner) (literal : Bool) : Option Scanner :=
  scanner.scalar? false fun cursor => block? literal scanner.indent (cursor.skip 1)

/-- Whether a colon stands before a value: a blank follows, or inside brackets another bracket or a
quoted key right before. -/
def isValueMark (scanner : Scanner) (rest : List Char) : Bool :=
  endsWord rest || (scanner.inFlow &&
    ((rest.head?.map isFlow).getD false || scanner.adjacent = some scanner.cursor.index))

def token? (scanner : Scanner) (character : Char) (rest : List Char) : Option Scanner :=
  match character with
  | '[' => scanner.flowStart? .flowSequenceStart
  | '\x7b' => scanner.flowStart? .flowMappingStart
  | ']' => scanner.flowEnd? .flowSequenceEnd
  | '\x7d' => scanner.flowEnd? .flowMappingEnd
  | ',' => scanner.flowEntry?
  | '-' => if endsWord rest then scanner.blockEntry? else scanner.plainScalar?
  | '?' => if endsWord rest then scanner.key? else scanner.plainScalar?
  | ':' => if scanner.isValueMark rest then scanner.value? else scanner.plainScalar?
  | '*' => scanner.anchor? .reference
  | '&' => scanner.anchor? .anchor
  | '!' => scanner.tag?
  | '\'' | '"' => scanner.quotedScalar? character
  | '|' => if scanner.inFlow then scanner.plainScalar? else scanner.blockScalar? true
  | '>' => if scanner.inFlow then scanner.plainScalar? else scanner.blockScalar? false
  | '%' | '@' | '\x60' => none
  | _ => scanner.plainScalar?

def next? (scanner : Scanner) : Option Scanner := do
  let scanner ← (skipGap (2 * scanner.cursor.rest.length + 1) scanner).dropStale?
  let cursor := scanner.cursor
  let scanner := scanner.closeBlocks cursor.column
  match cursor.rest with
  | [] =>
    let scanner ← (scanner.closeBlocks (-1)).removeKey?
    return scanner.push .streamEnd
  | character :: rest =>
    if cursor.column = 0 && character = '%' then
      scanner.documentToken? .directive (cursor.rest.takeWhile (!isBreak ·)).length
    else if cursor.startsWithMark '-' then scanner.documentToken? .documentStart 3
    else if cursor.startsWithMark '.' then scanner.documentToken? .documentEnd 3
    else scanner.token? character rest

def run? : (fuel : Nat) → Scanner → Option (List Token)
  | 0, _ => none
  | fuel + 1, scanner => do
    let scanner ← scanner.next?
    if scanner.tokens.back? = some .streamEnd then return scanner.tokens.toList
    run? fuel scanner

end Scanner

/-- The tokens of a text.  Every token but the last has at least one character. -/
def tokens? (text : String) : Option (List Token) :=
  Scanner.run? (text.length + 2) { cursor := { rest := text.toList } }

end Reactor.Yaml

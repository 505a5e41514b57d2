import Reactor.Toml.Scalar

/-!
# Reading TOML

A document is a list of lines: names with values, and headers of tables.  What follows a header
belongs to its table.  Names and values may be nested, but not without end.
-/

namespace Reactor.Toml

def skipBlanks (text : List Char) : List Char :=
  text.dropWhile fun character => character = ' ' || character = '\t'

def skipLines (inComment : Bool) : List Char → Option (List Char)
  | [] => some []
  | '\n' :: rest => skipLines false rest
  | '\x0d' :: '\n' :: rest => skipLines false rest
  | character :: rest =>
    if inComment then if isControl character then none else skipLines true rest
    else if character = ' ' || character = '\t' then skipLines false rest
    else if character = '#' then skipLines true rest
    else some (character :: rest)

/-- Drop what may stand at the end of a line, a comment included, and the line end. -/
def endLine (inComment : Bool) : List Char → Option (List Char)
  | [] => some []
  | '\n' :: rest => some rest
  | '\x0d' :: '\n' :: rest => some rest
  | character :: rest =>
    if inComment then if isControl character then none else endLine true rest
    else if character = ' ' || character = '\t' then endLine false rest
    else if character = '#' then endLine true rest
    else none

/-! ### Names -/

/-- How many parts a name may have, and how many arrays and tables in braces may stand around a
value. -/
def nestingLimit : Nat := 79

def isNameCharacter (character : Char) : Bool :=
  character.isAlphanum || character = '_' || character = '-'

def namePart? : List Char → Option (String × List Char)
  | '"' :: rest => basicString [] rest
  | '\'' :: rest => literalString [] rest
  | text =>
    let (name, rest) := text.span isNameCharacter
    if name.isEmpty then none else some (String.ofList name, rest)

/-- Read a name: parts with points between them.  The last part is given apart from those before it,
which are in `path` in reverse.  At most `limit` parts follow. -/
def dottedName? (path : List String) : (limit : Nat) → List Char →
    Option ((List String × String) × List Char)
  | 0, _ => none
  | limit + 1, text => do
    let (part, rest) ← namePart? (skipBlanks text)
    match skipBlanks rest with
    | '.' :: rest => dottedName? (part :: path) limit rest
    | rest => return ((path.reverse, part), rest)

def name? : List Char → Option ((List String × String) × List Char) :=
  dottedName? [] nestingLimit

/-! ### Values -/

mutual

/-- Read a value that at most `limit` arrays and tables in braces may nest in. -/
def value? : (fuel limit : Nat) → List Char → Option (Toml × List Char)
  | 0, _, _ => none
  | fuel + 1, limit, text =>
    match text, limit with
    | '[' :: _, 0 | '\x7b' :: _, 0 => none
    | '[' :: rest, limit + 1 => items? fuel limit [] rest
    | '\x7b' :: rest, limit + 1 =>
      match skipBlanks rest with
      | '\x7d' :: rest => some (table .inline [], rest)
      | rest => members? fuel limit [] rest
    | '"' :: _, _ | '\'' :: _, _ => (string? text).map fun (found, rest) => (str found, rest)
    | _, _ =>
      let (word, rest) := spanWord text
      (ofWord? word).map (·, rest)

/-- Read the rest of an array.  `found` holds its items in reverse. -/
def items? : (fuel limit : Nat) → List Toml → List Char → Option (Toml × List Char)
  | 0, _, _, _ => none
  | fuel + 1, limit, found, text => do
    match ← skipLines false text with
    | ']' :: rest => return (arr found.reverse, rest)
    | text =>
      let (item, rest) ← value? fuel limit text
      match ← skipLines false rest with
      | ',' :: rest => items? fuel limit (item :: found) rest
      | ']' :: rest => return (arr (item :: found).reverse, rest)
      | _ => none

def members? : (fuel limit : Nat) → Members → List Char → Option (Toml × List Char)
  | 0, _, _, _ => none
  | fuel + 1, limit, found, text => do
    let ((path, name), rest) ← name? text
    match rest with
    | '=' :: rest =>
      let (value, rest) ← value? fuel limit (skipBlanks rest)
      let found ← addValue path name value found
      match skipBlanks rest with
      | ',' :: rest => members? fuel limit found rest
      | '\x7d' :: rest => return (table .inline found, rest)
      | _ => none
    | _ => none

end

/-! ### Documents -/

/-- The part of a document that is being read: the table at the end of a path, or one of several
tables that share the header. -/
structure Section where
  path : List String
  name : String
  shared : Bool
  members : Members
  deriving Inhabited

/-- What was read of a document.  Before the first header there is no section. -/
structure Draft where
  root : Members
  current : Option Section
  deriving Inhabited

namespace Draft

def closeSection (draft : Draft) : Option Members :=
  match draft.current with
  | none => some draft.root
  | some active =>
    if active.shared then placeRow active.path active.name active.members draft.root
    else placeTable active.path active.name active.members draft.root

def openSection (draft : Draft) (shared : Bool) (path : List String) (name : String) :
    Option Draft := do
  let root ← draft.closeSection
  let members ← if shared then some [] else headedMembers? path name root
  return ⟨root, some ⟨path, name, shared, members⟩⟩

def add (draft : Draft) (path : List String) (name : String) (value : Toml) : Option Draft :=
  match draft.current with
  | none => (addValue path name value draft.root).map fun root => { draft with root }
  | some active =>
    (addValue path name value active.members).map fun members =>
      { draft with current := some { active with members } }

end Draft

def lines? : (fuel : Nat) → Draft → List Char → Option Members
  | 0, _, _ => none
  | fuel + 1, draft, text => do
    match ← skipLines false text with
    | [] => draft.closeSection
    | '[' :: '[' :: rest =>
      let ((path, name), rest) ← name? rest
      match rest with
      | ']' :: ']' :: rest => lines? fuel (← draft.openSection true path name) (← endLine false rest)
      | _ => none
    | '[' :: rest =>
      let ((path, name), rest) ← name? rest
      match rest with
      | ']' :: rest => lines? fuel (← draft.openSection false path name) (← endLine false rest)
      | _ => none
    | line =>
      let ((path, name), rest) ← name? line
      match rest with
      | '=' :: rest =>
        let (value, rest) ← value? text.length nestingLimit (skipBlanks rest)
        lines? fuel (← draft.add path name value) (← endLine false rest)
      | _ => none

/-- Read a document.  Every line and every part of a value is at least one character, so the length of
the text bounds the number of them. -/
def read? (text : String) : Option Members :=
  let characters := Text.dropOrderMark text.toList
  lines? (characters.length + 1) ⟨[], none⟩ characters

end Reactor.Toml

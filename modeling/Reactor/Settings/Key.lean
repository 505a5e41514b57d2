import Reactor.Decimal.Reading

/-!
# Keys of settings

A key names a setting, or a place inside one: steps follow the name, each a point with a further name
or a number in brackets.  Capital and small letters are not told apart.  A key of any other form is a
name as a whole.
-/

namespace Reactor

/-- What a key means. -/
structure SettingKey where
  name : String
  /-- Whether the key leads into the setting. -/
  inside : Bool
  deriving DecidableEq, Repr, Inhabited

namespace SettingKey

def isNameCharacter (character : Char) : Bool :=
  character.isAlphanum || character = ' ' || character = '_' || character = '-'

def skipBlanks (text : List Char) : List Char :=
  text.dropWhile fun character => character = ' ' || character = '\t'

/-- Read a number in brackets, the opening one left out, and give what follows. -/
def index? (text : List Char) : Option (List Char) :=
  let text := skipBlanks text
  let (negative, text) :=
    match text with
    | '-' :: rest => (true, rest)
    | _ => (false, text)
  let (digits, rest) := text.span Char.isDigit
  let value : Int := Decimal.valueOfDigits digits
  match skipBlanks rest with
  | ']' :: rest =>
    if !digits.isEmpty && Decimal.fitsSigned (if negative then -value else value) then some rest
    else none
  | _ => none

/-- Read one step and give what follows. -/
def step? : List Char → Option (List Char)
  | '.' :: rest =>
    let (name, rest) := rest.span isNameCharacter
    if name.isEmpty then none else some rest
  | '[' :: rest => index? rest
  | _ => none

/-- Whether a text consists of steps.  Every step has at least one character. -/
def areSteps : (fuel : Nat) → List Char → Bool
  | _, [] => true
  | 0, _ => false
  | fuel + 1, text =>
    match step? text with
    | some rest => areSteps fuel rest
    | none => false

def ofString (key : String) : SettingKey :=
  let (name, steps) := key.toList.span isNameCharacter
  if !name.isEmpty && !steps.isEmpty && areSteps steps.length steps then
    ⟨(String.ofList name).toLower, true⟩
  else ⟨key.toLower, false⟩

end SettingKey

end Reactor

import Reactor.Json.Reader
import Reactor.Text.Alphabetic
import Reactor.Value.Datum

/-!
# Literals

A literal is a datum as a person types it: `⊤` or `⊥`, a number with an optional unit such as
`500ms` or `-2.5`, plain JSON, or any other text, which then stands for itself.
-/

namespace Reactor.Literal

open Text

/-- The number at the start of a literal: digits, points and a minus sign in front. -/
def spanNumber : List Char → List Char × List Char
  | '-' :: rest =>
    let (number, units) := rest.span fun character => character.isDigit || character == '.'
    ('-' :: number, units)
  | text => text.span fun character => character.isDigit || character == '.'

def isUnitCharacter (character : Char) : Bool :=
  isAlphabetic character || character.isDigit || "/·^-".toList.contains character

def number? (text : List Char) : Option Datum :=
  let (number, units) := spanNumber text
  (Decimal.read? number).bind fun value =>
    if units.all isUnitCharacter then some (.num value (String.ofList units)) else none

/-- The datum that a typed text stands for.  Blanks around it do not count. -/
def parse (text : String) : Datum :=
  let characters := trim text.toList
  let trimmed := String.ofList characters
  if trimmed = "⊤" ∨ trimmed = "true" then .bool true
  else if trimmed = "⊥" ∨ trimmed = "false" then .bool false
  else
    match number? characters with
    | some number => number
    | none =>
      match (Json.readText Json.nestingLimit characters).bind Datum.ofJson? with
      | some datum => datum
      | none => .text trimmed

end Reactor.Literal

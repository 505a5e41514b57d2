import Reactor.Decimal.Reading
import Reactor.Decimal.Shortest
import Reactor.Json.Basic
import Reactor.Toml.Basic

/-!
# Values of settings

A setting is a count or a text.  What a file or a variable says is taken for either where that makes
sense: a count may be a truth, a text with digits or a float, and a text may be any simple value.
-/

namespace Reactor

/-- What a setting was given. -/
inductive Setting where
  | text (text : String)
  | integer (value : Int)
  | float (value : Float)
  | truth (truth : Bool)
  /-- Nothing, several values or a table, which no setting can be. -/
  | compound
  deriving Inhabited

namespace Setting

def ofToml : Toml → Setting
  | .str found | .moment found => text found
  | .int value => integer value
  | .float value => float value
  | .bool found => truth found
  | .arr _ | .table .. | .tables _ => compound

/-- The value in a file in JSON or another form that is read as JSON.  An integer of more than 64 bits,
the sign included, is a float. -/
def ofJson : Json → Setting
  | .str found => text found
  | .int value => if Decimal.fitsSigned value then integer value else float (Json.floatOfInt value)
  | .float value => float value
  | .bool found => truth found
  | .null | .arr _ | .obj _ => compound

/-- What the text of a variable stands for: a truth, a number or a text. -/
def ofWord (word : String) : Setting :=
  match word.toLower with
  | "true" => truth true
  | "false" => truth false
  | _ =>
    match (Decimal.integer? word.toList).filter Decimal.fitsSigned, Decimal.read? word.toList with
    | some value, _ => integer value
    | none, some value => float value
    | none, none => text word

/-- The number of 64 bits nearest to a float.  Halves are rounded away from zero. -/
def roundCount (value : Float) : Nat :=
  value.round.toUInt64.toNat

def count? : Setting → Option Nat
  | integer value => if 0 ≤ value then some value.toNat else none
  | float value => some (roundCount value)
  | truth found => some found.toNat
  | text found =>
    match found.toLower with
    | "true" | "on" | "yes" => some 1
    | "false" | "off" | "no" => some 0
    | _ => Decimal.natural? found.toList
  | compound => none

def text? : Setting → Option String
  | text found => some found
  | truth found => some (if found then "true" else "false")
  | integer value => some (toString value)
  | float value => some (Decimal.shortest value)
  | compound => none

end Setting

end Reactor

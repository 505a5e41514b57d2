/-!
# Character ranges

A property of characters is given by the lengths of code point ranges, from zero upwards: how many
code points lack the property, how many have it, how many lack it again, and so on.
`Ranges.contains` says whether a character has the property.
-/

namespace Reactor.Text

/-- The lengths of ranges of code points that in turn lack a property and have it. -/
abbrev Ranges := List Nat

/-- Whether a code point, counted from the start of the ranges, lies in one that has the property. -/
def Ranges.containsCode : Ranges → Nat → Bool
  | outside :: inside :: rest, code =>
    outside ≤ code && (code < outside + inside || containsCode rest (code - (outside + inside)))
  | _, _ => false

/-- Whether the code point of a character lies in one of the ranges that have the property. -/
def Ranges.contains (table : Ranges) (character : Char) : Bool :=
  table.containsCode character.toNat

end Reactor.Text

/-!
# JSON values

The members of an object are kept in the order of the text, repeated names included: whether a
repetition is an error or the last one counts is for the reader of the object to say.
-/

namespace Reactor

/-- A JSON value.  A number written without a fraction and an exponent is an integer as long as it
fits into 64 bits. -/
inductive Json where
  | null
  | bool (truth : Bool)
  | int (value : Int)
  | float (value : Float)
  | str (text : String)
  | arr (items : List Json)
  | obj (members : List (String × Json))
  deriving Inhabited

namespace Json

def floatOfInt (value : Int) : Float :=
  if value < 0 then -value.natAbs.toUInt64.toFloat else value.natAbs.toUInt64.toFloat

def toFloat? : Json → Option Float
  | int value => some (floatOfInt value)
  | float value => some value
  | _ => none

def toText? : Json → Option String
  | str text => some text
  | _ => none

def toItems? : Json → Option (List Json)
  | arr items => some items
  | _ => none

def toNat? : Json → Option Nat
  | int value => if 0 ≤ value then some value.toNat else none
  | _ => none

def toBool? : Json → Option Bool
  | bool truth => some truth
  | _ => none

def member? (json : Json) (name : String) : Option Json :=
  match json with
  | obj members => members.lookup name
  | _ => none

/-- Put a member into a list that is ordered by name.  Of two members with one name the later
counts. -/
def insertByName {α : Type} (name : String) (value : α) : List (String × α) → List (String × α)
  | [] => [(name, value)]
  | (other, old) :: rest =>
    if name < other then (name, value) :: (other, old) :: rest
    else if name = other then (name, value) :: rest
    else (other, old) :: insertByName name value rest

mutual

/-- The value with every name of an object once, with its last value, in the order of the names. -/
def unrepeated : Json → Json
  | arr items => arr (unrepeatedItems items)
  | obj members =>
    obj ((unrepeatedMembers members).foldl (fun found (name, value) => insertByName name value found) [])
  | other => other

def unrepeatedItems : List Json → List Json
  | [] => []
  | item :: rest => item.unrepeated :: unrepeatedItems rest

/-- The members of an object whose values are without repeated names. -/
def unrepeatedMembers : List (String × Json) → List (String × Json)
  | [] => []
  | (name, value) :: rest => (name, value.unrepeated) :: unrepeatedMembers rest

end

mutual

/-- The number of values that stand inside one another, the innermost included. -/
def depth : Json → Nat
  | arr items => depthOfItems items + 1
  | obj members => depthOfMembers members + 1
  | _ => 1

def depthOfItems : List Json → Nat
  | [] => 0
  | item :: rest => max item.depth (depthOfItems rest)

def depthOfMembers : List (String × Json) → Nat
  | [] => 0
  | (_, value) :: rest => max value.depth (depthOfMembers rest)

end

end Json

end Reactor

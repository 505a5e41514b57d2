import Reactor.Json.Basic
import Reactor.Value.Basic

/-!
# Plain data

A datum is a value without functions, instances and exceptions.  Hosts send data, and plain JSON can
be taken for data.
-/

namespace Reactor

/-- Plain data.  The unit of a number is kept as it was written. -/
inductive Datum where
  | bool (truth : Bool)
  | num (value : Float) (units : String)
  | text (characters : String)
  | list (items : List Datum)
  | set (members : List Datum)
  | map (entries : List (Datum × Datum))
  deriving Inhabited

namespace Datum

def kind : Datum → Kind
  | bool _ => .boolean
  | num .. => .number
  | text _ => .text
  | list _ => .list
  | set _ => .set
  | map _ => .map

mutual

def toVal : Datum → Val
  | bool truth => .bool truth
  | num value units => .measure value units
  | text characters => .text characters
  | list items => .list (toVals items)
  | set members => .ofMembers (toVals members)
  | map entries => .ofEntries (toEntries entries)

def toVals : List Datum → List Val
  | [] => []
  | item :: rest => item.toVal :: toVals rest

def toEntries : List (Datum × Datum) → List (Val × Val)
  | [] => []
  | (key, value) :: rest => (key.toVal, value.toVal) :: toEntries rest

end

/-- The map of named data in the order of the names, unless one of the data is missing. -/
def ofNamed? (members : List (String × Option Datum)) : Option Datum :=
  let ordered := members.foldl (fun found (name, value) => Json.insertByName name value found) []
  let entry (member : String × Option Datum) : Option (Datum × Datum) :=
    member.2.map fun value => (text member.1, value)
  (ordered.mapM entry).map map

mutual

/-- The datum that plain JSON stands for: arrays are lists, and objects are maps with texts as keys,
in the order of the names.  Nothing stands for `null`. -/
def ofJson? : Json → Option Datum
  | .null => none
  | .bool truth => some (bool truth)
  | .int value => some (num (Json.floatOfInt value) "")
  | .float value => some (num value "")
  | .str characters => some (text characters)
  | .arr items => (ofItems? items).map list
  | .obj members => ofNamed? (ofMembers members)

def ofItems? : List Json → Option (List Datum)
  | [] => some []
  | item :: rest =>
    match ofJson? item, ofItems? rest with
    | some item, some rest => some (item :: rest)
    | _, _ => none

/-- The names of an object with the data that their values stand for. -/
def ofMembers : List (String × Json) → List (String × Option Datum)
  | [] => []
  | (name, value) :: rest => (name, ofJson? value) :: ofMembers rest

end

end Datum

end Reactor

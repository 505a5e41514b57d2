import Reactor.Json.Basic

/-!
# Fields of records in JSON

A record is written as an object, with a member for each field, or as an array, with the fields in
their order.  A choice between several records says which one it is by a tag: the value of one member
of the object, or the first item of the array.  Members that are no fields are ignored, but a field
may not be given twice and an array may not have more items than there are fields.
-/

namespace Reactor.Json

/-- The fields of a record, by name or by place. -/
inductive Fields where
  | named (members : List (String × Json))
  | listed (items : List Json)
  deriving Inhabited

namespace Fields

def ofJson? : Json → Option Fields
  | obj members => some (named members)
  | arr items => some (listed items)
  | _ => none

/-- The only member with a name.  It is an error if there are several. -/
def only? (name : String) (members : List (String × Json)) : Option (Option Json) :=
  match members.filter (·.1 = name) with
  | [] => some none
  | [(_, value)] => some (some value)
  | _ => none

/-- The values of the fields with the given names, as far as they are there. -/
def values? (fields : Fields) (names : List String) : Option (List (Option Json)) :=
  match fields with
  | named members => names.mapM (only? · members)
  | listed items =>
    if items.length ≤ names.length then
      some (items.map some ++ List.replicate (names.length - items.length) none)
    else none

def canBeEmpty : Fields → Bool
  | named _ => true
  | listed items => items.isEmpty

end Fields

/-- The name that a tag stands for.  Where tags are also given by number, it counts through the
names. -/
def choice? (names : List String) (numbered : Bool) : Json → Option String
  | str name => if name ∈ names then some name else none
  | int value => if numbered ∧ 0 ≤ value then names[value.toNat]? else none
  | _ => none

def tagged? (tag : String) (names : List String) (numbered : Bool) (json : Json) :
    Option (String × Fields) :=
  match json with
  | obj members => do
    let name ← choice? names numbered (← (← Fields.only? tag members))
    return (name, .named (members.filter (·.1 ≠ tag)))
  | arr (first :: items) => do
    return (← choice? names numbered first, .listed items)
  | _ => none

end Reactor.Json

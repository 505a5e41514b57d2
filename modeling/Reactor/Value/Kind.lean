/-!
# Kinds of values

Every value has exactly one of nine kinds.  The name of a kind is also the name of the built-in
structure that collects the functions of its values.
-/

namespace Reactor

/-- The kind of a value. -/
inductive Kind where
  | boolean
  | number
  | text
  | list
  | set
  | map
  | record
  | function
  | exception
  deriving DecidableEq, Repr, Inhabited

namespace Kind

def all : List Kind :=
  [boolean, number, text, list, set, map, record, function, exception]

/-- The name of a kind.  Instances of a structure have the kind `Structure`. -/
def name : Kind → String
  | boolean => "Boolean"
  | number => "Number"
  | text => "Text"
  | list => "List"
  | set => "Set"
  | map => "Map"
  | record => "Structure"
  | function => "Function"
  | exception => "Exception"

def ofName? (name : String) : Option Kind :=
  all.find? (·.name = name)

@[simp]
theorem mem_all (kind : Kind) : kind ∈ all := by
  cases kind <;> simp [all]

end Kind

end Reactor

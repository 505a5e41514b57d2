import Reactor.Measure.Number
import Reactor.Value.Kind
import Reactor.Value.Exception

/-!
# Values

Values are plain data.  A function value refers to the expression of its body by the number of a
node, and to the scopes it closes over by their numbers; what those scopes hold is kept elsewhere.
-/

namespace Reactor

abbrev NodeId := Nat

abbrev ScopeId := Nat

/-- A chain of scopes, innermost first: the scope in which an expression is evaluated, followed by
those that enclose it. -/
abbrev Env := List ScopeId

/-- Who made something: the program that runs, or the host that runs it. -/
inductive Owner where
  | host
  | run
  deriving DecidableEq, Repr, Inhabited

/-- What tells apart two functions or definitions that look the same. -/
structure Identity where
  owner : Owner
  serial : Nat
  deriving DecidableEq, Repr, Inhabited

/-- A function written in the program, together with the scopes it closes over. -/
structure Closure where
  identity : Identity
  name : Option String
  params : List String
  body : NodeId
  env : Env
  deriving Inhabited

/-- The definition of a structure: its field names and its functions. -/
structure Definition where
  identity : Identity
  name : String
  fields : List String
  functions : List Closure
  env : Env
  deriving Inhabited

def Definition.function? (definition : Definition) (name : String) : Option Closure :=
  definition.functions.find? (·.name = some name)

/-- A value. -/
inductive Val where
  | bool (truth : Bool)
  | num (number : Number)
  | text (characters : String)
  | list (items : List Val)
  /-- Members in the order of insertion. -/
  | set (members : List Val)
  /-- Keys and values in the order of insertion. -/
  | map (entries : List (Val × Val))
  /-- An instance of a structure, with the values of its fields in order. -/
  | record (definition : Definition) (fields : List Val)
  | closure (function : Closure)
  /-- A function of a structure bound to an instance. -/
  | method (receiver : Val) (function : Closure)
  /-- A built-in function bound to a value. -/
  | native (receiver : Val) (name : String)
  /-- Calling it makes an instance of the structure. -/
  | constructor (definition : Definition)
  /-- Calling it converts a value to the kind. -/
  | conversion (kind : Kind)
  /-- An exception and the node of the expression that gave rise to it. -/
  | exception (cause : Cause) (node : Option NodeId)
  deriving Inhabited

namespace Val

def plain (value : Float) : Val :=
  num { value }

def measure (value : Float) (units : String) : Val :=
  num { value, units := Units.parse units }

def kind : Val → Kind
  | bool _ => .boolean
  | num _ => .number
  | text _ => .text
  | list _ => .list
  | set _ => .set
  | map _ => .map
  | record .. => .record
  | closure _ | method .. | native .. | constructor _ | conversion _ => .function
  | exception .. => .exception

def isException : Val → Bool
  | exception .. => true
  | _ => false

def field? (definition : Definition) (fields : List Val) (name : String) : Option Val :=
  (definition.fields.idxOf? name).bind (fields[·]?)

/-! ### Equality -/

mutual

/-- Equality of a value with another one, or where `turned` of the other one with the value.  A member
of a set is looked for among those stored in another one, which stand on the left of it then. -/
def equals (turned : Bool) : Val → Val → Bool
  | bool left, bool right => left == right
  | num left, num right => bif turned then right.same left else left.same right
  | text left, text right => left == right
  | list left, list right => equalItems turned left right
  | set left, set right =>
    left.length == right.length &&
      bif turned then right.all fun member => hasMember left member else membersIn left right
  | map left, map right =>
    left.length == right.length &&
      bif turned then right.all fun entry => hasEntry left entry else entriesIn left right
  | record leftDefinition left, record rightDefinition right =>
    leftDefinition.identity == rightDefinition.identity && equalItems turned left right
  | closure left, closure right => left.identity == right.identity
  | method leftReceiver left, method rightReceiver right =>
    left.identity == right.identity && equals turned leftReceiver rightReceiver
  | native leftReceiver left, native rightReceiver right =>
    left == right && equals turned leftReceiver rightReceiver
  | constructor left, constructor right => left.identity == right.identity
  | conversion left, conversion right => left == right
  | exception left _, exception right _ => left == right
  | _, _ => false
termination_by structural value => value

def equalItems (turned : Bool) : List Val → List Val → Bool
  | [], [] => true
  | item :: left, other :: right => equals turned item other && equalItems turned left right
  | _, _ => false
termination_by structural items => items

/-- Whether every member on the left equals one stored on the right. -/
def membersIn : List Val → List Val → Bool
  | [], _ => true
  | member :: rest, others => others.any (equals true member) && membersIn rest others
termination_by structural members => members

/-- Whether one of the stored members equals the value. -/
def hasMember : List Val → Val → Bool
  | [], _ => false
  | stored :: rest, value => equals false stored value || hasMember rest value
termination_by structural members => members

/-- Whether every entry on the left equals one on the right. -/
def entriesIn : List (Val × Val) → List (Val × Val) → Bool
  | [], _ => true
  | (key, value) :: rest, others =>
    others.any (fun other => equals false key other.1 && equals false value other.2) &&
      entriesIn rest others
termination_by structural entries => entries

/-- Whether the entry equals one of those that are there. -/
def hasEntry : List (Val × Val) → Val × Val → Bool
  | [], _ => false
  | (key, value) :: rest, entry =>
    equals true key entry.1 && equals true value entry.2 || hasEntry rest entry
termination_by structural entries => entries

end

/-- Equality of values.  Sets and maps are equal when they have the same members or entries in any
order, functions and definitions when they are the same one, and exceptions when their causes are
equal, wherever they arose. -/
def same (left right : Val) : Bool :=
  equals false left right

/-- Whether an item of the list equals the value. -/
def memberOf (value : Val) (items : List Val) : Bool :=
  items.any fun stored => same stored value

/-! ### Sets and maps -/

/-- Add a member to a set, at the end, unless an equal one is there. -/
def insertMember (members : List Val) (item : Val) : List Val :=
  if memberOf item members then members else members ++ [item]

/-- A set of the given values, each at its first place. -/
def ofMembers (items : List Val) : Val :=
  set (items.foldl insertMember [])

/-- Give a key a value.  A key that is there keeps its place and only its value changes; a new key
comes at the end. -/
def insertEntry (key value : Val) : List (Val × Val) → List (Val × Val)
  | [] => [(key, value)]
  | (other, old) :: rest =>
    if same other key then (other, value) :: rest else (other, old) :: insertEntry key value rest

/-- A map of the given entries, each key at its first place with its last value. -/
def ofEntries (entries : List (Val × Val)) : Val :=
  map (entries.foldl (fun entries (key, value) => insertEntry key value entries) [])

/-! ### Text -/

def ownerName : Val → String
  | record definition _ => definition.name
  | value => value.kind.name

mutual

def render : Val → String
  | bool true => "⊤"
  | bool false => "⊥"
  | num number => number.render
  | text characters => "\"" ++ characters ++ "\""
  | list items => "[" ++ " ".intercalate (renderItems items) ++ "]"
  | set members => "\x7b" ++ " ".intercalate (renderItems members) ++ "\x7d"
  | map [] => "\x7b:\x7d"
  | map (entry :: entries) => "\x7b" ++ " ".intercalate (renderEntries (entry :: entries)) ++ "\x7d"
  | record definition fields =>
    definition.name ++ "(" ++ " ".intercalate (renderFields definition.fields fields) ++ ")"
  | closure function =>
    match function.name with
    | some name => "ƒ " ++ name
    | none => "ƒ"
  | method receiver function => "ƒ " ++ receiver.ownerName ++ "." ++ function.name.getD ""
  | native receiver name => "ƒ " ++ receiver.kind.name ++ "." ++ name
  | constructor definition => "ƒ " ++ definition.name
  | conversion kind => "ƒ " ++ kind.name
  | exception cause _ => "!" ++ cause.message

def renderItems : List Val → List String
  | [] => []
  | item :: rest => item.render :: renderItems rest

def renderEntries : List (Val × Val) → List String
  | [] => []
  | (key, value) :: rest => (key.render ++ ":" ++ value.render) :: renderEntries rest

/-- The texts of the fields of an instance, as far as both names and values reach. -/
def renderFields : List String → List Val → List String
  | name :: names, value :: values => (name ++ ":" ++ value.render) :: renderFields names values
  | _, _ => []

end

end Val

end Reactor

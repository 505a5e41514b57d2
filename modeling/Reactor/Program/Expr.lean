/-!
# Expressions

The tree of a program.  A program has no grammar of its own here: trees are handed over ready made.
-/

namespace Reactor

/-- What a type test asks for. -/
inductive TypeTag where
  | bool
  /-- A number with exactly this unit, without a unit when none is given. -/
  | number (units : Option String)
  | text
  | list
  | set
  | map
  | function
  /-- An instance of a structure with this name. -/
  | record (name : String)
  | exception
  deriving DecidableEq, Repr, Inhabited

/-- The name and the inputs of a function that belongs to a structure. -/
structure Signature where
  name : String
  params : List String
  deriving DecidableEq, Repr, Inhabited

/-- An expression. -/
inductive Expr where
  | bool (value : Bool)
  | num (value : Float) (units : Option String)
  | text (characters : String)
  | list (items : List Expr)
  | set (items : List Expr)
  | map (entries : List (Expr × Expr))
  | name (name : String)
  /-- The value that a reaction had before its update. -/
  | previous
  | block (statements : List Expr)
  | bind (name : String) (value : Expr)
  | function (name : Option String) (params : List String) (body : Expr)
  /-- The definition of a structure. -/
  | record (name : String) (fields : List String) (functions : List (Signature × Expr))
  | call (callee : Expr) (args : List Expr)
  | binary (left : Expr) (op : String) (right : Expr)
  | unary (op : String) (operand : Expr)
  | conditional (condition yes no : Expr)
  | access (subject : Expr) (name : String)
  | is (operand : Expr) (tag : TypeTag)
  /-- The latest value of a stream. -/
  | stream (name : String)
  /-- Whether a stream has advanced. -/
  | changed (stream : Expr)
  | reaction (initial condition next : Expr)
  /-- The value of another source, bound to a name that is by default the name of the source. -/
  | borrow (source : String) (name : Option String)
  deriving Inhabited

end Reactor

import Reactor.Program.Expr
import Reactor.Value.Basic

/-!
# Nodes

A node is an expression whose parts are given by number.  Its children are all of its parts; its
operands are those that are evaluated before the node itself, from left to right.  A reaction knows
the name that it is directly bound to.
-/

namespace Reactor

/-- An expression whose parts are the numbers of other nodes. -/
inductive Node where
  | bool (value : Bool)
  | num (value : Float) (units : Option String)
  | text (characters : String)
  | list (items : List NodeId)
  | set (items : List NodeId)
  | map (entries : List (NodeId × NodeId))
  | name (name : String)
  | previous
  | block (statements : List NodeId)
  | bind (name : String) (value : NodeId)
  | function (name : Option String) (params : List String) (body : NodeId)
  | record (name : String) (fields : List String) (functions : List (Signature × NodeId))
  | call (callee : NodeId) (args : List NodeId)
  | binary (left : NodeId) (op : String) (right : NodeId)
  | unary (op : String) (operand : NodeId)
  | conditional (condition yes no : NodeId)
  | access (subject : NodeId) (name : String)
  | is (operand : NodeId) (tag : TypeTag)
  | stream (name : String)
  | changed (stream : NodeId)
  | reaction (initial condition next : NodeId) (binding : Option String)
  | borrow (source : String) (name : Option String)
  deriving Inhabited

namespace Node

/-- All direct parts of a node, function bodies included, from left to right. -/
def children : Node → List NodeId
  | bool _ | num .. | text _ | name _ | previous | stream _ | borrow .. => []
  | list items | set items | block items => items
  | map entries => entries.flatMap fun (key, value) => [key, value]
  | bind _ value => [value]
  | function _ _ body => [body]
  | record _ _ functions => functions.map (·.2)
  | call callee args => callee :: args
  | binary left _ right => [left, right]
  | unary _ operand => [operand]
  | conditional condition yes no => [condition, yes, no]
  | access subject _ => [subject]
  | is operand _ => [operand]
  | changed subject => [subject]
  | reaction initial condition next _ => [initial, condition, next]

/-- The parts that are evaluated before the node, from left to right. -/
def operands : Node → List NodeId
  | list items | set items | block items => items
  | map entries => entries.flatMap fun (key, value) => [key, value]
  | call callee args => callee :: args
  | binary left _ right => [left, right]
  | bind _ only | unary _ only | is only _ | access only _ | conditional only _ _ => [only]
  | bool _ | num .. | text _ | name _ | previous | function .. | record .. | stream _ | changed _
  | reaction .. | borrow .. => []

/-- Whether the node looks at exceptions among its operands.  All other nodes pass them on. -/
def inspectsExceptions : Node → Bool
  | is .. => true
  | _ => false

def isReaction : Node → Bool
  | reaction .. => true
  | _ => false

end Node

end Reactor

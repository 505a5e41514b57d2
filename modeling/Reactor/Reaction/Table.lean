import Reactor.Fault
import Reactor.Value.Basic

/-!
# The reactions of a run

A reaction comes into being when evaluation first reaches its node.  From then on it keeps a value.
It is settled while that value is current, and dirty from the moment in which one of its streams
receives a value until it is updated.
-/

namespace Reactor

/-- Whether the value of a reaction is current. -/
inductive ReactionState where
  | settled
  | dirty
  deriving DecidableEq, Repr, Inhabited

/-- A reaction. -/
structure Reaction where
  node : NodeId
  state : ReactionState
  value : Val
  /-- The streams that its condition names.  It is subscribed to all of them. -/
  streams : List String
  /-- The scopes in which it was first reached. -/
  env : Env
  /-- The name that it is bound to. -/
  binding : Option String
  /-- How often it was updated. -/
  updates : Nat
  deriving Inhabited

namespace Reaction

def settle (reaction : Reaction) (value : Val) : Reaction :=
  { reaction with value, state := .settled, updates := reaction.updates + 1 }

def soil (reaction : Reaction) : Reaction :=
  { reaction with state := .dirty }

end Reaction

/-- The reactions of a run, in the order in which they came into being. -/
structure Reactions where
  table : List Reaction
  deriving Inhabited

namespace Reactions

def empty : Reactions := ⟨[]⟩

def get? (reactions : Reactions) (node : NodeId) : Option Reaction :=
  reactions.table.find? (·.node = node)

/-- Put a reaction in the place of the one with the same node, or at the end. -/
def insertInto (reaction : Reaction) : List Reaction → List Reaction
  | [] => [reaction]
  | other :: rest =>
    if other.node = reaction.node then reaction :: rest else other :: insertInto reaction rest

def insert (reactions : Reactions) (reaction : Reaction) : Reactions :=
  ⟨insertInto reaction reactions.table⟩

def change (reactions : Reactions) (node : NodeId) (update : Reaction → Reaction) : Reactions :=
  ⟨reactions.table.map fun reaction =>
    if reaction.node = node then update reaction else reaction⟩

/-- Mark the reaction of a node dirty.  A subscriber without a reaction is a defect. -/
def markDirty (reactions : Reactions) (node : NodeId) : Except Defect Reactions :=
  match reactions.get? node with
  | some _ => .ok (reactions.change node Reaction.soil)
  | none => .error (.deadSubscriber node)

/-- The nodes of the dirty reactions, in the order in which they came into being. -/
def dirty (reactions : Reactions) : List NodeId :=
  (reactions.table.filter (·.state = .dirty)).map (·.node)

def updateCount (reactions : Reactions) (node : NodeId) : Nat :=
  ((reactions.get? node).map (·.updates)).getD 0

end Reactions

end Reactor

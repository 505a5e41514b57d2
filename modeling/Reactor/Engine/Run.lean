import Std.Data.HashMap
import Reactor.Program.Basic
import Reactor.Reaction.Table
import Reactor.Scope.Reach
import Reactor.Stream.Registry

/-!
# Runs

A run is all that evaluation changes: scopes, streams, reactions, and what is known of nodes and
sources.  A run consists of passes over the main source.  `Run.beginPass` prepares a pass,
`Run.reset` a run, and `Run.release` lets go of a run that is over.

Evaluation is an action on a run.  It gives a value, or it fails with a defect; what it changed up to
then stays changed.
-/

namespace Reactor

/-- How deep evaluation may go. -/
structure Limits where
  /-- The largest number of frames of a machine. -/
  frames : Nat := 10000
  /-- The largest number of machines inside one another. -/
  nesting : Nat := 64
  deriving DecidableEq, Repr, Inhabited

/-- What evaluation needs and never changes. -/
structure Setup where
  program : Program
  limits : Limits
  deriving Inhabited

/-- The state of a run. -/
structure Run where
  scopes : Scopes
  /-- The serial of the next function or definition. -/
  serial : Nat
  streams : Streams
  reactions : Reactions
  /-- The latest value of each node. -/
  nodeValues : Std.HashMap NodeId Val
  /-- The values of the sources that were borrowed in this pass. -/
  borrowed : Bindings
  /-- The sources under evaluation, outermost first. -/
  borrowing : List String
  /-- The latest value of each source in this run. -/
  sourceResults : Bindings
  /-- The number of reactions under evaluation. -/
  reacting : Nat
  /-- The number of machines inside the first one. -/
  nesting : Nat
  /-- A defect inside a nested evaluation that was not yet reported. -/
  defect : Option Defect
  deriving Inhabited

namespace Run

/-- The state before anything has run. -/
def initial : Run where
  scopes := .empty
  serial := 0
  streams := .empty
  reactions := .empty
  nodeValues := ∅
  borrowed := []
  borrowing := []
  sourceResults := []
  reacting := 0
  nesting := 0
  defect := none

/-- The values that outlive a pass. -/
def keptValues (run : Run) : List Val :=
  run.reactions.table.map (·.value) ++ run.streams.values ++ run.nodeValues.values ++
    run.sourceResults.map (·.2)

/-- The chains of scopes in which reactions will be updated. -/
def keptEnvs (run : Run) : List Env :=
  run.reactions.table.map (·.env)

/-- The source that is under evaluation at the start of a pass. -/
def mainNames (setup : Setup) : List String :=
  setup.program.main?.toList.map (·.name)

/-- Forget what belongs to one pass, and the scopes that nothing kept can reach. -/
def beginPass (setup : Setup) (run : Run) : Run :=
  { run with
    borrowed := []
    borrowing := mainNames setup
    reacting := 0
    nesting := 0
    scopes := run.scopes.retire run.keptValues run.keptEnvs }

/-- Whether the initial values of streams hold on to scopes of an earlier run. -/
def initialsCapture (streams : Streams) : Bool :=
  !(Val.capturesOfItems streams.values).isEmpty

/-- Forget the previous run.  Only streams with their initial values and undelivered data stay.  Where
these hold on to no scopes, scopes are counted from the start again. -/
def reset (setup : Setup) (run : Run) : Run :=
  let streams := run.streams.reset
  let capture := initialsCapture streams
  { scopes := if capture then run.scopes.retire [] [] else .empty
    serial := if capture then run.serial else 0
    streams := streams
    reactions := .empty
    nodeValues := ∅
    borrowed := []
    borrowing := mainNames setup
    sourceResults := []
    reacting := 0
    nesting := 0
    defect := none }

/-- Subscribe a reaction to its streams and enter it into the table. -/
def addReaction (run : Run) (reaction : Reaction) : Run :=
  { run with
    streams := run.streams.subscribeAll reaction.streams reaction.node
    reactions := run.reactions.insert reaction }

/-- Let go of subscriptions, reactions and scopes. -/
def release (run : Run) : Run :=
  { run with
    streams := run.streams.unsubscribeAll
    reactions := .empty
    nodeValues := ∅
    borrowed := []
    reacting := 0
    nesting := 0
    scopes := run.scopes.retire [] [] }

end Run

/-- A change of the state of a run, which a defect cuts short. -/
abbrev Action := EStateM Defect Run

namespace Action

/-- Do something and clean up behind it, whether it fails or not. -/
def cleaningUp {α : Type} (clean : Run → Run) (action : Action α) : Action α := fun run =>
  match action run with
  | .ok value run => .ok value (clean run)
  | .error defect run => .error defect (clean run)

/-- Do something and give a defect back instead of failing. -/
def attempt {α : Type} (action : Action α) : Action (Except Defect α) := fun run =>
  match action run with
  | .ok value run => .ok (.ok value) run
  | .error defect run => .ok (.error defect) run

/-- Open a scope around which there is no other. -/
def openRoot : Action Env :=
  modifyGet fun run =>
    let (env, scopes) := run.scopes.root
    (env, { run with scopes })

/-- Open a scope inside others. -/
def openChild (env : Env) : Action Env :=
  modifyGet fun run =>
    let (env, scopes) := run.scopes.child env
    (env, { run with scopes })

/-- Bind a name in the innermost scope. -/
def define (env : Env) (name : String) (value : Val) : Action Unit :=
  modify fun run => { run with scopes := run.scopes.define env name value }

/-- Bind names in the innermost scope. -/
def defineAll (env : Env) (entries : List (String × Val)) : Action Unit :=
  modify fun run => { run with scopes := run.scopes.defineAll env entries }

/-- What a name is bound to, in the innermost scope that binds it. -/
def lookup? (env : Env) (name : String) : Action (Option Val) := do
  return (← get).scopes.lookup? env name

/-- An identity that nothing in this run has yet. -/
def freshIdentity : Action Identity :=
  modifyGet fun run => (⟨.run, run.serial⟩, { run with serial := run.serial + 1 })

/-- Keep the latest value of a node. -/
def record (node : NodeId) (value : Val) : Action Unit :=
  modify fun run => { run with nodeValues := run.nodeValues.insert node value }

/-- Take the defect that waits to be reported. -/
def takeDefect : Action (Option Defect) :=
  modifyGet fun run => (run.defect, { run with defect := none })

/-- Keep a defect to be reported, unless one waits already. -/
def keepDefect (defect : Defect) : Action Unit :=
  modify fun run => { run with defect := run.defect <|> some defect }

/-- Make sure that a stream is there, if it is registered or provided. -/
def ensureStream (name : String) : Action Bool :=
  modifyGet fun run =>
    match run.streams.ensure? name with
    | some streams => (true, { run with streams })
    | none => (false, run)

end Action

end Reactor

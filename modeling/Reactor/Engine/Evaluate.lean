import Reactor.Engine.Machine

/-!
# Evaluation

`Action.evaluate` takes a node to its value on a machine of its own.  Native functions call it for
the functions they are given, so machines may lie inside one another, up to a limit.

`Action.update` recomputes a reaction after its streams have received values.
-/

namespace Reactor.Action

/-- Evaluate a node when `levels` further machines may lie inside one another. -/
def evaluateWithin (setup : Setup) : (levels : Nat) → NodeId → Env → Action Val
  | 0, node, _ => return .failure (.depthLimit setup.limits.nesting) node
  | levels + 1, node, env => do
    modify fun run => { run with nesting := run.nesting + 1 }
    let machine ←
      cleaningUp (fun run => { run with nesting := run.nesting - 1 }) do
        (← Machine.start setup node env).finish setup (evaluateWithin setup levels)
    match machine.result with
    | some value => return value
    | none => throw (.evaluationWithoutValue node)

/-- Evaluate a node on a machine inside those that are at work already. -/
def evaluate (setup : Setup) (node : NodeId) (env : Env) : Action Val := do
  evaluateWithin setup (setup.limits.nesting - (← get).nesting) node env

/-- A machine that is about to evaluate the main source in a scope of its own. -/
def mainMachine (setup : Setup) : Action Machine := do
  match setup.program.main? with
  | some main => Machine.start setup main.root (← openRoot)
  | none => throw .noMainSource

/-- Evaluate the main source from the start to its value. -/
def pass (setup : Setup) : Action Machine := do
  (← mainMachine setup).finish setup (evaluate setup)

/-- The names that the update of a reaction sees: its value so far, and the latest values of its
streams. -/
def updateNames (reaction : Reaction) (streams : Streams) : List (String × Val) :=
  (".", reaction.value) :: reaction.binding.toList.map (·, reaction.value) ++
    reaction.streams.filterMap fun name => (streams.latest? name).map (name, ·)

/-- The new value of a reaction: that of its next expression if its condition holds, and the value so
far otherwise. -/
def nextValue (setup : Setup) (condition next : NodeId) (prior : Val) (env : Env) : Action Val := do
  match ← evaluate setup condition env with
  | .bool true => evaluate setup next env
  | .bool false => return prior
  | .exception cause node => return .exception cause node
  | other => return other.mismatch "Boolean" condition

/-- Begin the update of a reaction, in a scope inside the one in which it was first reached. -/
def beginUpdate (reaction : Reaction) : Action Env := do
  let env ← openChild reaction.env
  defineAll env (updateNames reaction (← get).streams)
  modify fun run => { run with reacting := run.reacting + 1 }
  return env

/-- Update a reaction: give it its next value and mark it settled. -/
def update (setup : Setup) (id : NodeId) : Action Unit := do
  match setup.program.node? id with
  | some (.reaction _ condition next _) =>
    match (← get).reactions.get? id with
    | none => throw (.updateBeforeCreation id)
    | some reaction =>
      let env ← beginUpdate reaction
      let value ←
        cleaningUp (fun run => { run with reacting := run.reacting - 1 }) <|
          nextValue setup condition next reaction.value env
      match (← get).reactions.get? id with
      | none => throw (.vanishedReaction id)
      | some _ =>
        modify fun run => { run with reactions := run.reactions.change id (·.settle value) }
  | _ => throw (.noReactionToUpdate id)

/-- Update reactions one after the other, up to the first defect. -/
def updateAll (setup : Setup) : List NodeId → Action Unit
  | [] => return
  | id :: rest => do
    update setup id
    updateAll setup rest

/-- Mark reactions dirty. -/
def markAllDirty : List NodeId → Action Unit
  | [] => return
  | id :: rest => do
    match (← get).reactions.markDirty id with
    | .ok reactions => modify fun run => { run with reactions }
    | .error defect => throw defect
    markAllDirty rest

end Reactor.Action

import Reactor.Engine.Evaluate

/-!
# Evaluation by recursion

The value of a node can be given without frames: it is computed from the values of its parts, which
lie one level deeper.  `Action.valueAt` evaluates a node at a depth in this way, where nothing is
entered beyond the limit of frames, and `Action.value` is used for the functions that natives call,
where the number of levels inside one another is limited.

No machine takes part in these definitions.  That machines compute the same is shown in the module on
refinement.

Evaluation can also be guarded: `Action.guardedAt` evaluates as `Action.valueAt` does, but hands the
evaluation of every reaction to a guard, which may object to what it did.  Without a guard it is the
same.
-/

namespace Reactor.Action

/-- The values of operands, from left to right.  The first exception comes alone, unless the node looks
at exceptions. -/
def operandValues (inside : NodeId → Action Val) (inspects : Bool) (found : List Val) :
    List NodeId → Action (Except Val (List Val))
  | [] => return .ok found
  | child :: rest => do
      let value ← inside child
      if value.isException && !inspects then return .error value
      else operandValues inside inspects (found ++ [value]) rest

section Nodes

variable (setup : Setup) (callback inside : NodeId → Env → Action Val)

/-- The value of a node that combines its operands. -/
def combinedValue (id : NodeId) (node : Node) (env : Env) : Action Val := do
  match ← operandValues (inside · env) node.inspectsExceptions [] node.operands with
  | .error exception => return exception
  | .ok values =>
    match ← combine setup callback id node values env with
    | .complete value => return value
    | .enter body env => inside body env

/-- The value of a reaction: its value so far, or else its initial value, once its condition has been
evaluated and it has been entered. -/
def reactionValue (id : NodeId) (env : Env) (initial condition : NodeId)
    (binding : Option String) : Action Val := do
  let run ← get
  if 0 < run.reacting then return .failure .nestedReaction id
  else
    match run.reactions.get? id with
    | some reaction => return reaction.value
    | none =>
      set { run with reacting := run.reacting + 1 }
      let value ← inside initial env
      let _ ← inside condition env
      modify fun run => { run with reacting := run.reacting - 1 }
      Frame.settle id value (setup.program.denotedStreams condition) env binding

/-- The value of a borrowed source: what it was in this pass, or else what its root gives in scopes of
its own. -/
def borrowedValue (id : NodeId) (env : Env) (source name : String) : Action Val := do
  match setup.program.source? source with
  | none => return .failure (.unknownSource source) id
  | some found =>
    let run ← get
    match run.borrowed.get? source with
    | some value =>
      define env name value
      return value
    | none =>
      if source ∈ run.borrowing then return .failure (.cyclicBorrow source) id
      else
        set { run with borrowing := run.borrowing ++ [source] }
        let value ← inside found.root (← openRoot)
        modify fun run => { run with borrowing := run.borrowing.filter (· ≠ source) }
        modify fun run =>
          { run with
            borrowed := run.borrowed.define source value
            sourceResults := run.sourceResults.define source value }
        define env name value
        return value

/-- The value of a node, given the values of what lies inside of it. -/
def nodeValue (id : NodeId) (env : Env) : Action Val :=
  match setup.program.node? id with
  | none => throw (.unknownNode id)
  | some (.reaction initial condition _ binding) =>
    reactionValue setup inside id env initial condition binding
  | some (.borrow source name) => borrowedValue setup inside id env source (name.getD source)
  | some node => combinedValue setup callback inside id node env

end Nodes

/-- The value of a node at a depth.  Beyond the limit it is an exception. -/
def valueAt (setup : Setup) (callback : NodeId → Env → Action Val) (depth : Nat) (id : NodeId)
    (env : Env) : Action Val :=
  if depth < setup.limits.frames then do
    let env ← Frame.openScope setup.program id env
    let value ← nodeValue setup callback (valueAt setup callback (depth + 1)) id env
    record id value
    return value
  else return .failure (.depthLimit setup.limits.frames) id
termination_by setup.limits.frames - depth

/-- The value of a node when `levels` further evaluations may lie inside one another. -/
def valueWithin (setup : Setup) : (levels : Nat) → NodeId → Env → Action Val
  | 0, id, _ => return .failure (.depthLimit setup.limits.nesting) id
  | levels + 1, id, env => do
      modify fun run => { run with nesting := run.nesting + 1 }
      cleaningUp (fun run => { run with nesting := run.nesting - 1 })
        (valueAt setup (valueWithin setup levels) 0 id env)

/-- The value of a node that a native asks for. -/
def value (setup : Setup) (id : NodeId) (env : Env) : Action Val := do
  valueWithin setup (setup.limits.nesting - (← get).nesting) id env

/-! ### Reactions under guard -/

section Guarded

variable (setup : Setup) (guard : Action Val → Action Val)

/-- The value of a node, given the values of what lies inside of it.  The guard decides on reactions. -/
def guardedNode (callback inside : NodeId → Env → Action Val) (id : NodeId) (env : Env) :
    Action Val :=
  match setup.program.node? id with
  | some (.reaction ..) => guard (nodeValue setup callback inside id env)
  | _ => nodeValue setup callback inside id env

/-- The value of a node at a depth, with all reactions under guard. -/
def guardedAt (callback : NodeId → Env → Action Val) (depth : Nat) (id : NodeId) (env : Env) :
    Action Val :=
  if depth < setup.limits.frames then do
    let env ← Frame.openScope setup.program id env
    let value ← guardedNode setup guard callback (guardedAt callback (depth + 1)) id env
    record id value
    return value
  else return .failure (.depthLimit setup.limits.frames) id
termination_by setup.limits.frames - depth

/-- The value of a node when `levels` further evaluations may lie inside one another, with all reactions
under guard. -/
def guardedWithin : (levels : Nat) → NodeId → Env → Action Val
  | 0, id, _ => return .failure (.depthLimit setup.limits.nesting) id
  | levels + 1, id, env => do
      modify fun run => { run with nesting := run.nesting + 1 }
      cleaningUp (fun run => { run with nesting := run.nesting - 1 })
        (guardedAt setup guard (guardedWithin levels) 0 id env)

/-- The value of a node that a native asks for, with all reactions under guard. -/
def guarded (id : NodeId) (env : Env) : Action Val := do
  guardedWithin setup guard (setup.limits.nesting - (← get).nesting) id env

/-- The value of the main source, with all reactions under guard. -/
def guardedMain : Action Val := do
  match setup.program.main? with
  | some main => guardedAt setup guard (guarded setup guard) 0 main.root (← openRoot)
  | none => throw .noMainSource

end Guarded

variable {setup : Setup}

theorem guardedNode_id (callback inside : NodeId → Env → Action Val) :
    guardedNode setup id callback inside = nodeValue setup callback inside := by
  funext node env
  unfold guardedNode
  split
  · rfl
  · rfl

theorem guardedAt_id (callback : NodeId → Env → Action Val) (depth : Nat) :
    guardedAt setup id callback depth = valueAt setup callback depth := by
  funext node env
  rw [guardedAt, valueAt]
  split
  · rw [guardedNode_id, guardedAt_id callback (depth + 1)]
  · rfl
termination_by setup.limits.frames - depth

theorem guardedWithin_id (levels : Nat) :
    guardedWithin setup id levels = valueWithin setup levels := by
  induction levels with
  | zero => rfl
  | succ levels ih =>
    funext node env
    rw [guardedWithin, valueWithin, guardedAt_id, ih]

theorem guarded_id : guarded setup id = value setup := by
  funext node env
  unfold guarded value
  exact bind_congr fun run => by rw [guardedWithin_id]

end Reactor.Action

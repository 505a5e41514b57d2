import Reactor.Proofs.Ensures
import Reactor.Engine.Evaluate

/-!
# The log of an evaluation

An evaluation is more than its value: machines are started and take steps, and natives call the
functions that they are given, which may start machines inside of steps.  The log of an evaluation
lists all of this in the order in which it comes to an end.

The log of an action is a function of the run in which the action starts.  It follows the course of
the action and asks the actions themselves for the values and runs in between, so there is one log
function for each action that can lead to a machine.
-/

namespace Reactor

/-- A machine is started or takes a step.  Before the start there are no frames. -/
structure Moment where
  /-- The machines whose natives wait for this one, the innermost first. -/
  waiting : List Machine
  before : Machine
  run : Run
  after : Machine
  runAfter : Run

/-- Something that happens in an evaluation. -/
inductive Event where
  | moved (moment : Moment)
  /-- A native calls a function. -/
  | called (waiting : List Machine) (function : Val) (args : List Val)

/-- What happens, given the run at the start. -/
abbrev Log := Run → List Event

/-- Nothing happens. -/
def Log.silent : Log := fun _ => []

/-- What happens behind an action, given its value.  Nothing happens behind a defect. -/
def Action.behind {α : Type} (action : Action α) (next : α → Log) : Log := fun run =>
  match action run with
  | .ok value after => next value after
  | .error _ _ => []

/-- The log of a plan, given how functions are called and what happens then. -/
def Plan.log {Allowed : Val → List Val → Prop}
    (apply : (function : Val) → (args : List Val) → Allowed function args → Action Val)
    (applied : (function : Val) → (args : List Val) → Allowed function args → Log) :
    Plan Allowed → Log
  | done _ => Log.silent
  | call function args allowed resume => fun run =>
    applied function args allowed run ++
      (apply function args allowed).behind (fun value => (resume value).log apply applied) run

namespace Action

/-! ### Calls -/

/-- The log of a native function. -/
def callNativeLog (node : NodeId) (receiver : Val) (name : String) (args : List Val)
    (apply : (function : Val) → (inputs : List Val) → receiver.Within args function inputs →
      Action Val)
    (applied : (function : Val) → (inputs : List Val) → receiver.Within args function inputs →
      Log) : Log :=
  match Native.lookup receiver.kind name args.length with
  | .error _ => Log.silent
  | .ok function => (function.body.plan node receiver args).log apply applied

/-- The log of a call.  Only natives do anything beside entering a body. -/
def invokeLogWith (node : NodeId) (callee : Val) (args : List Val)
    (apply : (function : Val) → (inputs : List Val) →
      function.weight inputs < callee.weight args → Action Val)
    (applied : (function : Val) → (inputs : List Val) →
      function.weight inputs < callee.weight args → Log) : Log :=
  match callee with
  | .native receiver name =>
    callNativeLog node receiver name args
      (fun function inputs within => apply function inputs (within.weight_lt name))
      (fun function inputs within => applied function inputs (within.weight_lt name))
  | _ => Log.silent

section Calling

variable (evaluate : NodeId → Env → Action Val) (evaluated : NodeId → Env → Log)
  (waiting : List Machine)

/-- The log of a body that a call leads to. -/
def outcomeLog : Outcome → Log
  | .complete _ => Log.silent
  | .enter body env => evaluated body env

/-- The log of a call that a native makes. -/
def applyLog (node : NodeId) (function : Val) (args : List Val) : Log := fun run =>
  .called waiting function args ::
    (invokeLogWith node function args (fun other inputs _ => apply evaluate node other inputs)
        (fun other inputs _ => applyLog node other inputs) run ++
      (invoke evaluate node function args).behind (outcomeLog evaluated) run)
termination_by function.weight args

/-- The log of a call that a program makes. -/
def invokeLog (node : NodeId) (callee : Val) (args : List Val) : Log :=
  invokeLogWith node callee args
    (fun function inputs _ => apply evaluate node function inputs)
    (fun function inputs _ => applyLog evaluate evaluated waiting node function inputs)

/-- The log of an operator. -/
def dispatchLog (node : NodeId) (receiver : Val) (op : String) (args : List Val) : Log :=
  let native : Log :=
    callNativeLog node receiver op args
      (fun function inputs _ => apply evaluate node function inputs)
      (fun function inputs _ => applyLog evaluate evaluated waiting node function inputs)
  match receiver with
  | .record definition _ =>
    match definition.function? op with
    | some _ => Log.silent
    | none => native
  | _ => native

/-- The log of combining operands.  Only calls and operators lead to machines. -/
def combineLog (id : NodeId) (node : Node) (values : List Val) : Log :=
  match node, values with
  | .call .., callee :: args => invokeLog evaluate evaluated waiting id callee args
  | .binary _ op _, [left, right] => dispatchLog evaluate evaluated waiting id left op [right]
  | .unary op _, values =>
    match values.getLast? with
    | some receiver => dispatchLog evaluate evaluated waiting id receiver op []
    | none => Log.silent
  | _, _ => Log.silent

end Calling

end Action

/-- The node of a frame that has all operands and no exception to pass on. -/
def Frame.combines? (program : Program) (frame : Frame) : Option Node :=
  match frame.kind, program.node? frame.node with
  | .operands, some node =>
    match passedOn? node frame.values with
    | some _ => none
    | none =>
      match node.operands[frame.values.length]? with
      | some _ => none
      | none => some node
  | _, _ => none

/-- The log of a step of a frame. -/
def Frame.log (setup : Setup) (evaluate : NodeId → Env → Action Val)
    (evaluated : NodeId → Env → Log) (waiting : List Machine) (frame : Frame) : Log :=
  match frame.combines? setup.program with
  | some node => Action.combineLog evaluate evaluated waiting frame.node node frame.values
  | none => Log.silent

theorem Frame.log_of_kind_ne
    {setup : Setup} {evaluate : Evaluation} {evaluated : NodeId → Env → Log}
    (waiting : List Machine) {frame : Frame} (kind : frame.kind ≠ .operands) :
    frame.log setup evaluate evaluated waiting = Log.silent := by
  have nothing : frame.combines? setup.program = none := by
    unfold combines?
    split
    · next isOperands _ => exact absurd isOperands kind
    · rfl
  rw [log, nothing]

namespace Machine

variable (setup : Setup) (evaluate : NodeId → Env → Action Val)
  (evaluated : List Machine → NodeId → Env → Log) (waiting : List Machine)

/-- The log of a step of a machine that has an active frame.  The step itself comes last. -/
def advanceLog (machine : Machine) (top : Frame) (rest : List Frame)
    (shape : machine.frames = top :: rest) : Log := fun run =>
  top.log setup evaluate (evaluated (machine :: waiting)) (machine :: waiting) run ++
    (machine.advance setup evaluate top rest shape).behind
      (fun next after => [.moved ⟨waiting, machine, run, next.1, after⟩]) run

/-- The log of one step. -/
def stepLog (machine : Machine) : Log :=
  match shape : machine.frames with
  | [] => Log.silent
  | top :: rest => machine.advanceLog setup evaluate evaluated waiting top rest shape

/-- The log of all steps to the end. -/
def finishLog (machine : Machine) : Log :=
  match shape : machine.frames with
  | [] => Log.silent
  | top :: rest => fun run =>
    machine.advanceLog setup evaluate evaluated waiting top rest shape run ++
      (machine.advance setup evaluate top rest shape).behind (fun next => next.1.finishLog) run
termination_by machine.size setup
decreasing_by exact next.2

/-- The log of the start of a machine. -/
def startLog (start : Action Machine) : Log := fun run =>
  start.behind (fun machine after => [.moved ⟨waiting, .empty, run, machine, after⟩]) run

end Machine

namespace Action

/-- The log of an evaluation on a machine of its own. -/
def evaluateWithinLog (setup : Setup) :
    (levels : Nat) → List Machine → NodeId → Env → Log
  | 0, _, _, _ => Log.silent
  | levels + 1, waiting, node, env => fun outer =>
    let run : Run := { outer with nesting := outer.nesting + 1 }
    Machine.startLog waiting (Machine.start setup node env) run ++
      (Machine.start setup node env).behind
        (Machine.finishLog setup (evaluateWithin setup levels) (evaluateWithinLog setup levels)
          waiting) run

/-- The log of an evaluation. -/
def evaluateLog (setup : Setup) (waiting : List Machine) (node : NodeId) (env : Env) : Log :=
  fun run => evaluateWithinLog setup (setup.limits.nesting - run.nesting) waiting node env run

/-- The log of all steps of a machine that no other waits for. -/
def finishLog (setup : Setup) : Machine → Log :=
  Machine.finishLog setup (evaluate setup) (evaluateLog setup) []

/-- The log of a pass over the main source. -/
def passLog (setup : Setup) : Log := fun run =>
  Machine.startLog [] (mainMachine setup) run ++ (mainMachine setup).behind (finishLog setup) run

/-- The log of the new value of a reaction. -/
def nextValueLog (setup : Setup) (condition next : NodeId) (env : Env) : Log := fun run =>
  evaluateLog setup [] condition env run ++
    (evaluate setup condition env).behind (fun answer =>
        match answer with
        | .bool true => evaluateLog setup [] next env
        | _ => Log.silent) run

/-- The log of the update of a reaction. -/
def updateLog (setup : Setup) (id : NodeId) : Log := fun run =>
  match setup.program.node? id, run.reactions.get? id with
  | some (.reaction _ condition next _), some reaction =>
    (beginUpdate reaction).behind (nextValueLog setup condition next) run
  | _, _ => []

/-- The log of the update of reactions one after the other. -/
def updateAllLog (setup : Setup) : List NodeId → Log
  | [] => Log.silent
  | id :: rest => fun run =>
    updateLog setup id run ++ (update setup id).behind (fun _ => updateAllLog setup rest) run

end Action

end Reactor

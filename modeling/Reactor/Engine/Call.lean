import Reactor.Engine.Run
import Reactor.Native.Catalogue

/-!
# Calls

Calling a function of the program means to evaluate its body in a new scope; that is left to the
caller.  Native functions are carried out at once.  They may call functions themselves, and for these
calls bodies are evaluated by the function `evaluate` that is handed in.
-/

namespace Reactor

/-- What is known of a value: the value itself, or a body that gives it. -/
inductive Outcome where
  | complete (value : Val)
  | enter (body : NodeId) (env : Env)
  deriving Inhabited

/-- An exception that arises at a node. -/
def Outcome.failure (cause : Cause) (node : NodeId) : Outcome :=
  complete (.failure cause node)

/-- The fields that the functions of a structure see. -/
def Val.visibleFields : Val → List (String × Val)
  | record definition fields => definition.fields.zip fields
  | _ => []

namespace Action

/-- Enter a function: in a scope inside its own, the fields of the receiver are bound and then the
inputs. -/
def enter (function : Closure) (receiver : Option Val) (args : List Val) (node : NodeId) :
    Action Outcome := do
  if function.params.length = args.length then
    let env ← openChild function.env
    defineAll env ((receiver.elim [] Val.visibleFields) ++ function.params.zip args)
    return .enter function.body env
  else return .failure (.arityMismatch function.params.length args.length) node

/-- Carry out a native function.  A defect in one of its calls is reported here. -/
def callNative (node : NodeId) (receiver : Val) (name : String) (args : List Val)
    (apply : (function : Val) → (inputs : List Val) → receiver.Within args function inputs →
      Action Val) : Action Outcome := do
  match Native.lookup receiver.kind name args.length with
  | .error cause => return .failure cause node
  | .ok function =>
    let value ← (function.body.plan node receiver args).run apply
    match ← takeDefect with
    | some defect => throw defect
    | none => return .complete value

/-- Call a function value, given how smaller calls are carried out. -/
def invokeWith (node : NodeId) (callee : Val) (args : List Val)
    (apply : (function : Val) → (inputs : List Val) →
      function.weight inputs < callee.weight args → Action Val) : Action Outcome :=
  match callee with
  | .closure function => enter function none args node
  | .method receiver function => enter function (some receiver) args node
  | .native receiver name =>
    callNative node receiver name args fun function inputs within =>
      apply function inputs (within.weight_lt name)
  | .constructor definition =>
    if definition.fields.length = args.length then return .complete (.record definition args)
    else return .failure (.arityMismatch definition.fields.length args.length) node
  | .conversion kind =>
    match args with
    | [only] =>
      match (Native.suite kind).conversion with
      | some convert => return .complete (convert only node)
      | none => return .failure (.notCallable callee.render) node
    | args => return .failure (.arityMismatch 1 args.length) node
  | other => return .failure (.notCallable other.render) node

/-- Call a function value for a native function.  A defect is kept to be reported later. -/
def apply (evaluate : NodeId → Env → Action Val) (node : NodeId) (function : Val)
    (args : List Val) : Action Val := do
  let answer ← attempt do
    match ← invokeWith node function args fun other inputs _ => apply evaluate node other inputs with
    | .complete value => pure value
    | .enter body env => evaluate body env
  match answer with
  | .ok value => return value
  | .error defect =>
    keepDefect defect
    return .failure .interrupted node
termination_by function.weight args

/-- Call a function value.  What natives call in turn is carried out at once. -/
def invoke (evaluate : NodeId → Env → Action Val) (node : NodeId) (callee : Val)
    (args : List Val) : Action Outcome :=
  invokeWith node callee args fun function inputs _ => apply evaluate node function inputs

/-- Call the function that an operator names: a function of the receiver's own structure, or else a
native one. -/
def dispatch (evaluate : NodeId → Env → Action Val) (node : NodeId) (receiver : Val) (op : String)
    (args : List Val) : Action Outcome :=
  let native : Action Outcome :=
    callNative node receiver op args fun function inputs _ => apply evaluate node function inputs
  match receiver with
  | .record definition _ =>
    match definition.function? op with
    | some function => enter function (some receiver) args node
    | none => native
  | _ => native

end Action

/-- What a name after a value stands for: a field, a function of its structure or a native function.
Functions are bound to the value. -/
def Val.access (subject : Val) (name : String) (node : NodeId) : Val :=
  let native : Val :=
    if Native.has subject.kind name then .native subject name
    else .failure (.unknownField subject.ownerName name) node
  match subject with
  | .record definition fields =>
    match field? definition fields name, definition.function? name with
    | some value, _ => value
    | none, some function => .method subject function
    | none, none => native
  | _ => native

end Reactor

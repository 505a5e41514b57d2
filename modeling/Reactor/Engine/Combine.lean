import Reactor.Engine.Call

/-!
# Combining operands

Most expressions evaluate their operands and then combine the values.  What comes out is a value, or
one further expression to be evaluated, such as the body of a function or a branch of a conditional.
-/

namespace Reactor

/-- The unit that a text stands for, no unit if there is no text. -/
def Units.ofOption (text : Option String) : Units :=
  text.elim .plain Units.parse

/-- Whether a value is of the type that a tag asks for.  The unit of a number has to be the one of the
tag. -/
def TypeTag.matchedBy : TypeTag → Val → Bool
  | bool, .bool _ | text, .text _ | list, .list _ | set, .set _ | map, .map _
  | exception, .exception .. => true
  | function, value => value.kind = .function
  | number units, .num value => value.units = Units.ofOption units
  | record name, .record definition _ => definition.name = name
  | _, _ => false

/-- Values in pairs.  One that stands alone at the end is dropped. -/
def pairUp : List Val → List (Val × Val)
  | key :: value :: rest => (key, value) :: pairUp rest
  | _ => []

namespace Action

/-- The latest value of a stream, or an exception if there is none. -/
def readStream (name : String) (node : NodeId) : Action Val := do
  if ← ensureStream name then
    match (← get).streams.latest? name with
    | some value => return value
    | none => return .failure (.streamAbsent name) node
  else return .failure (.missingStream name) node

/-- Whether a stream has advanced in the last flush. -/
def streamChanged (setup : Setup) (stream : NodeId) (node : NodeId) : Action Val := do
  match setup.program.node? stream with
  | some (.stream name) =>
    if ← ensureStream name then return .bool ((← get).streams.hasChanged name)
    else return .failure (.missingStream name) node
  | _ => return .failure .expectedStream node

/-- The value of a name: what is bound to it, or the conversion to the kind with this name. -/
def resolve (name : String) (node : NodeId) (env : Env) : Action Val := do
  match ← lookup? env name with
  | some value => return value
  | none =>
    match Native.conversion? name with
    | some kind => return .conversion kind
    | none => return .failure (.unboundName name) node

/-- A function with an identity of its own. -/
def makeClosure (name : Option String) (params : List String) (body : NodeId) (env : Env) :
    Action Closure := do
  return ⟨← freshIdentity, name, params, body, env⟩

/-- The functions of a structure, each with an identity of its own. -/
def makeFunctions (env : Env) : List (Signature × NodeId) → Action (List Closure)
  | [] => return []
  | (signature, body) :: rest => do
    let function ← makeClosure (some signature.name) signature.params body env
    return function :: (← makeFunctions env rest)

/-- Make a function, and bind it in its own scopes if it has a name. -/
def makeFunction (name : Option String) (params : List String) (body : NodeId) (env : Env) :
    Action Val := do
  let value := .closure (← makeClosure name params body env)
  match name with
  | some name => define env name value
  | none => pure ()
  return value

/-- Make a structure and bind its constructor to its name. -/
def makeRecord (name : String) (fields : List String) (functions : List (Signature × NodeId))
    (env : Env) : Action Val := do
  let functions ← makeFunctions env functions
  let value := .constructor ⟨← freshIdentity, name, fields, functions, env⟩
  define env name value
  return value

/-- The last of the values.  There is one if the operands of the node were evaluated. -/
def lastOperand (id : NodeId) (values : List Val) : Action Val :=
  match values.getLast? with
  | some value => pure value
  | none => throw (.missingOperands id)

/-- The outcome of a node whose operands have the given values. -/
def combine (setup : Setup) (evaluate : NodeId → Env → Action Val) (id : NodeId) (node : Node)
    (values : List Val) (env : Env) : Action Outcome := do
  match node with
  | .bool truth => return .complete (.bool truth)
  | .num value units => return .complete (.num ⟨value, Units.ofOption units⟩)
  | .text characters => return .complete (.text characters)
  | .list _ => return .complete (.list values)
  | .set _ => return .complete (.ofMembers values)
  | .map _ => return .complete (.ofEntries (pairUp values))
  | .name word => return .complete (← resolve word id env)
  | .previous =>
    match ← lookup? env "." with
    | some value => return .complete value
    | none => return .failure (.unboundName ".") id
  | .block _ =>
    match values.getLast? with
    | some value => return .complete value
    | none => return .failure .noValue id
  | .bind word _ =>
    let value ← lastOperand id values
    define env word value
    return .complete value
  | .function word params body => return .complete (← makeFunction word params body env)
  | .record word fields functions => return .complete (← makeRecord word fields functions env)
  | .call .. =>
    match values with
    | callee :: args => invoke evaluate id callee args
    | [] => throw (.missingOperands id)
  | .binary _ op _ =>
    match values with
    | [left, right] => dispatch evaluate id left op [right]
    | _ => throw (.missingOperands id)
  | .unary op _ => dispatch evaluate id (← lastOperand id values) op []
  | .conditional _ yes no =>
    match ← lastOperand id values with
    | .bool truth => return .enter (if truth then yes else no) env
    | other => return .complete (other.mismatch "Boolean" id)
  | .access _ word => return .complete ((← lastOperand id values).access word id)
  | .is _ tag => return .complete (.bool (tag.matchedBy (← lastOperand id values)))
  | .stream word => return .complete (← readStream word id)
  | .changed stream => return .complete (← streamChanged setup stream id)
  | .reaction .. | .borrow .. => throw (.wrongFrame id)

end Action

end Reactor

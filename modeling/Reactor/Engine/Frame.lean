import Reactor.Engine.Combine

/-!
# Frames

A frame is the evaluation of one node that is under way.  It advances by small steps: each step
completes the node with a value or descends into another node, whose value the frame receives.  The
`rank` of a frame bounds the number of steps that it can still take; every descent lowers it.
-/

namespace Reactor

/-- How far the evaluation of a reaction is. -/
inductive ReactionPhase where
  | enter
  | initial
  | condition
  deriving DecidableEq, Repr, Inhabited

/-- How far the evaluation of a borrowed source is. -/
inductive BorrowPhase where
  | enter
  | source
  deriving DecidableEq, Repr, Inhabited

/-- What a frame is waiting for. -/
inductive FrameKind where
  /-- The values of the operands, one after the other. -/
  | operands
  /-- The value of a body or branch. -/
  | body
  | reaction (phase : ReactionPhase)
  | borrow (phase : BorrowPhase)
  deriving DecidableEq, Repr, Inhabited

/-- The evaluation of a node in some scopes. -/
structure Frame where
  node : NodeId
  kind : FrameKind
  env : Env
  /-- The values received, oldest first. -/
  values : List Val
  deriving Inhabited

/-- The number of operands of a node. -/
def Program.operandCount (program : Program) (id : NodeId) : Nat :=
  match program.node? id with
  | some node => node.operands.length
  | none => 0

namespace Frame

/-- Hand the value of a child to a frame. -/
def receive (frame : Frame) (value : Val) : Frame :=
  { frame with values := frame.values ++ [value] }

/-- A bound on the number of steps that a frame can still take. -/
def rank (program : Program) (frame : Frame) : Nat :=
  match frame.kind with
  | .operands => program.operandCount frame.node - frame.values.length + 2
  | .body => 1
  | .reaction .enter => 3
  | .reaction .initial => 2
  | .reaction .condition => 1
  | .borrow .enter => 2
  | .borrow .source => 1

/-- The kind with which the evaluation of a node starts. -/
def initialKind (program : Program) (id : NodeId) : FrameKind :=
  match program.node? id with
  | some (.reaction ..) => .reaction .enter
  | some (.borrow ..) => .borrow .enter
  | _ => .operands

/-- The frame of a node that is entered. -/
def fresh (program : Program) (id : NodeId) (env : Env) : Frame :=
  ⟨id, initialKind program id, env, []⟩

/-- The scopes in which a node is evaluated.  A block opens a scope of its own. -/
def openScope (program : Program) (id : NodeId) (env : Env) : Action Env :=
  match program.node? id with
  | some (.block _) => Action.openChild env
  | _ => pure env

theorem rank_pos (program : Program) (frame : Frame) : 0 < frame.rank program := by
  simp only [rank]
  split <;> omega

/-- The number of steps left does not depend on the values received. -/
theorem rank_receive (program : Program) (frame : Frame) (value other : Val) :
    (frame.receive value).rank program = (frame.receive other).rank program := by
  simp [rank, receive]

theorem rank_fresh_le (program : Program) (id : NodeId) (env : Env) :
    (fresh program id env).rank program ≤ program.operandCount id + 3 := by
  simp only [rank, fresh]
  split <;> simp_all

end Frame

/-- What a step of a frame leads to.  A frame that descends has fewer steps left once it receives the
value. -/
inductive Advance (program : Program) (frame : Frame) where
  | complete (value : Val)
  | descend (next : Frame) (child : NodeId) (env : Env)
      (lower : ∀ value, (next.receive value).rank program < frame.rank program)

namespace Frame

/-- The exception that a node passes on: the last of the values, unless the node looks at
exceptions. -/
def passedOn? (node : Node) (values : List Val) : Option Val :=
  values.getLast?.filter fun value => value.isException && !node.inspectsExceptions

/-- Evaluate the next operand, or combine the values when there is none left.  An exception among the
operands is the value of the node, unless the node looks at exceptions. -/
def advanceOperands (setup : Setup) (evaluate : NodeId → Env → Action Val) (frame : Frame)
    (kind : frame.kind = .operands) : Action (Advance setup.program frame) := do
  match present : setup.program.node? frame.node with
  | none => throw (.unknownNode frame.node)
  | some node =>
    match passedOn? node frame.values with
    | some exception => return .complete exception
    | none =>
      match next : node.operands[frame.values.length]? with
      | some child =>
        return .descend frame child frame.env fun value => by
          have inside := (List.getElem?_eq_some_iff.mp next).1
          simp only [rank, receive, kind, Program.operandCount, present, List.length_append,
            List.length_singleton]
          omega
      | none =>
        match ← Action.combine setup evaluate frame.node node frame.values frame.env with
        | .complete value => return .complete value
        | .enter body env =>
          return .descend { frame with kind := .body, values := [] } body env fun value => by
            simp only [rank, receive, kind]
            omega

/-- The value of the body of a function is that of the call. -/
def advanceBody (setup : Setup) (frame : Frame) : Action (Advance setup.program frame) := do
  match frame.values.getLast? with
  | some value => return .complete value
  | none => throw .bodyWithoutValue

/-- Whether all streams are there.  The first one that is missing is given back. -/
def missingStream? : List String → Action (Option String)
  | [] => return none
  | name :: rest => do
    if ← Action.ensureStream name then missingStream? rest else return some name

/-- Subscribe a new reaction to its streams and enter it.  A reaction without streams, or with one
that is missing, does not come into being. -/
def settle (id : NodeId) (value : Val) (streams : List String) (env : Env)
    (binding : Option String) : Action Val := do
  if streams.isEmpty then return .failure .expectedStream id
  else
    match ← missingStream? streams with
    | some name => return .failure (.missingStream name) id
    | none =>
      modify (·.addReaction ⟨id, .settled, value, streams, env, binding, 0⟩)
      return value

/-- The initial value, the condition and the name of the reaction of a frame. -/
def reactionParts (setup : Setup) (frame : Frame) : Action (NodeId × NodeId × Option String) :=
  match setup.program.node? frame.node with
  | some (.reaction initial condition _ binding) => return (initial, condition, binding)
  | _ => throw (.noReactionForFrame frame.node)

/-- Reach a reaction.  One that exists answers with its value; otherwise its initial value is
evaluated.  No reaction comes into being while another is evaluated. -/
def enterReaction (setup : Setup) (frame : Frame) (kind : frame.kind = .reaction .enter) :
    Action (Advance setup.program frame) := do
  let (initial, _, _) ← frame.reactionParts setup
  let run ← get
  if 0 < run.reacting then return .complete (.failure .nestedReaction frame.node)
  else
    match run.reactions.get? frame.node with
    | some reaction => return .complete reaction.value
    | none =>
      set { run with reacting := run.reacting + 1 }
      return .descend { frame with kind := .reaction .initial } initial frame.env fun value => by
        simp [rank, receive, kind]

/-- Evaluate the condition of a new reaction, to see its streams at work once. -/
def testReaction (setup : Setup) (frame : Frame) (kind : frame.kind = .reaction .initial) :
    Action (Advance setup.program frame) := do
  let (_, condition, _) ← frame.reactionParts setup
  return .descend { frame with kind := .reaction .condition } condition frame.env fun value => by
    simp [rank, receive, kind]

/-- Enter a reaction into the table, now that its condition has been looked at. -/
def settleReaction (setup : Setup) (frame : Frame) : Action (Advance setup.program frame) := do
  let (_, condition, binding) ← frame.reactionParts setup
  modify fun run => { run with reacting := run.reacting - 1 }
  match frame.values.head? with
  | none => throw (.lostInitialValue frame.node)
  | some value =>
    let streams := setup.program.denotedStreams condition
    return .complete (← settle frame.node value streams frame.env binding)

/-- The source that a frame borrows, and the name that its value is bound to. -/
def borrowParts (setup : Setup) (frame : Frame) : Action (String × String) :=
  match setup.program.node? frame.node with
  | some (.borrow source name) => return (source, name.getD source)
  | _ => throw (.noBorrowForFrame frame.node)

/-- Reach a borrowed source.  One that was evaluated in this pass answers with its value; otherwise it
is evaluated in scopes of its own. -/
def enterBorrow (setup : Setup) (frame : Frame) (kind : frame.kind = .borrow .enter) :
    Action (Advance setup.program frame) := do
  let (source, name) ← frame.borrowParts setup
  match setup.program.source? source with
  | none => return .complete (.failure (.unknownSource source) frame.node)
  | some found =>
    let run ← get
    match run.borrowed.get? source with
    | some value =>
      Action.define frame.env name value
      return .complete value
    | none =>
      if source ∈ run.borrowing then
        return .complete (.failure (.cyclicBorrow source) frame.node)
      else
        set { run with borrowing := run.borrowing ++ [source] }
        let env ← Action.openRoot
        return .descend { frame with kind := .borrow .source } found.root env fun value => by
          simp [rank, receive, kind]

/-- Keep the value of a source for the rest of the pass, and bind it. -/
def finishBorrow (setup : Setup) (frame : Frame) : Action (Advance setup.program frame) := do
  let (source, name) ← frame.borrowParts setup
  modify fun run => { run with borrowing := run.borrowing.filter (· ≠ source) }
  match frame.values.getLast? with
  | none => throw (.sourceWithoutValue source)
  | some value =>
    modify fun run =>
      { run with
        borrowed := run.borrowed.define source value
        sourceResults := run.sourceResults.define source value }
    Action.define frame.env name value
    return .complete value

/-- What a frame does next, by its kind. -/
def advance (setup : Setup) (evaluate : NodeId → Env → Action Val) (frame : Frame) :
    Action (Advance setup.program frame) :=
  match kind : frame.kind with
  | .operands => frame.advanceOperands setup evaluate kind
  | .body => frame.advanceBody setup
  | .reaction .enter => frame.enterReaction setup kind
  | .reaction .initial => frame.testReaction setup kind
  | .reaction .condition => frame.settleReaction setup
  | .borrow .enter => frame.enterBorrow setup kind
  | .borrow .source => frame.finishBorrow setup

end Frame

end Reactor

import Reactor.Proofs.Engine.Recursion
import Reactor.Proofs.Engine.Stepping

/-!
# Machines implement recursion

A machine that enters a node and takes steps until it has as many frames as before has handed the
value of the node to the frame below, or has it for a result if there is none.  The value is the one
that recursion gives, the frames below are the same but for that value, and the run is the same.

The statement is an equation between actions, uniform in the frames that are there already, and is
proved by induction on the number of frames that may still be entered.  One step of the active frame
corresponds to one unfolding of the recursion; frames that wait for operands are treated by an
induction over the operands that are left.
-/

namespace Reactor

open Reactor.Action List

namespace Machine

/-- Take steps until there are no more frames than a given number. -/
def stepDown (setup : Setup) (evaluate : Evaluation) (depth : Nat) (machine : Machine) :
    Action Machine :=
  match shape : machine.frames with
  | [] => pure machine
  | top :: rest =>
    if depth < machine.depth then do
      let ⟨next, _⟩ ← machine.advance setup evaluate top rest shape
      next.stepDown setup evaluate depth
    else pure machine
termination_by machine.size setup

variable {setup : Setup} {evaluate : Evaluation}

variable {machine : Machine} {depth : Nat}

theorem stepDown_of_le (low : machine.depth ≤ depth) :
    machine.stepDown setup evaluate depth = pure machine := by
  rw [stepDown]
  split
  · rfl
  · rw [if_neg (Nat.not_lt.mpr low)]

theorem stepDown_of_lt (high : depth < machine.depth) :
    machine.stepDown setup evaluate depth =
      (do (← machine.step setup evaluate).stepDown setup evaluate depth) := by
  rcases machine with ⟨_ | ⟨top, rest⟩, height, height_eq, result⟩
  · subst height_eq
    cases high
  · rw [stepDown, step]
    simp only [if_pos high, bind_assoc, pure_bind]

theorem stepDown_push (low : depth ≤ machine.depth) (frame : Frame) :
    (machine.push frame).stepDown setup evaluate depth = (do
        let next ← (machine.push frame).advance setup evaluate frame machine.frames rfl
        next.1.stepDown setup evaluate depth) := by
  rw [stepDown_of_lt (Nat.lt_succ_of_le low)]
  exact (bind_assoc _ _ _).trans (bind_congr fun next => pure_bind _ _)

theorem stepDown_stepDown {low high : Nat} (below : low ≤ high) (machine : Machine) :
    (do (← machine.stepDown setup evaluate high).stepDown setup evaluate low) =
      machine.stepDown setup evaluate low := by
  by_cases deep : high < machine.depth
  · rcases eq_nil_or_push machine with empty | ⟨lower, frame, shape⟩
    · rw [machine.depth_eq, empty] at deep
      cases deep
    · have above : high ≤ lower.depth := Nat.le_of_lt_succ (by simpa [shape] using deep)
      rw [shape, stepDown_push above, stepDown_push (Nat.le_trans below above), bind_assoc]
      refine bind_congr fun next => ?_
      exact stepDown_stepDown below next.1
  · rw [stepDown_of_le (Nat.not_lt.mp deep), pure_bind]
termination_by machine.size setup
decreasing_by exact shape ▸ next.2

theorem finish_eq_stepDown (machine : Machine) :
    machine.finish setup evaluate = machine.stepDown setup evaluate 0 := by
  rcases eq_nil_or_push machine with empty | ⟨lower, frame, shape⟩
  · have shallow : machine.depth ≤ 0 := by simp [machine.depth_eq, empty]
    rw [stepDown_of_le shallow, finish_of_nil empty]
  · rw [shape, finish_push, stepDown_push (Nat.zero_le _)]
    refine bind_congr fun next => ?_
    exact finish_eq_stepDown next.1
termination_by machine.size setup
decreasing_by exact shape ▸ next.2

end Machine

/-! ### One step of a frame -/

namespace Frame

variable {setup : Setup} {evaluate : Evaluation}
  {id : NodeId} {node : Node} {env : Env} {values : List Val}

@[simp]
theorem passedOn?_append (node : Node) (values : List Val) (value : Val) :
    passedOn? node (values ++ [value]) =
      if value.isException && !node.inspectsExceptions then some value else none := by
  simp only [passedOn?, getLast?_append, getLast?_singleton, Option.some_or, Option.filter_some]

theorem rank_receive_operand_lt {program : Program} (present : program.node? id = some node)
    (left : values.length < node.operands.length) (value : Val) :
    (receive ⟨id, .operands, env, values⟩ value).rank program <
      rank program ⟨id, .operands, env, values⟩ := by
  simp only [rank, receive, Program.operandCount, present, length_append, length_singleton]
  omega

theorem rank_receive_body_lt {program : Program} (value : Val) :
    (receive ⟨id, .body, env, []⟩ value).rank program <
      rank program ⟨id, .operands, env, values⟩ := by
  simp only [rank, receive]
  omega

theorem advance_missing (missing : setup.program.node? id = none) :
    advance setup evaluate ⟨id, .operands, env, values⟩ = throw (.unknownNode id) := by
  show advanceOperands setup evaluate ⟨id, .operands, env, values⟩ rfl = _
  unfold advanceOperands
  split
  · rfl
  · next found present =>
    rw [missing] at present
    cases present

section

variable (present : setup.program.node? id = some node)
include present

theorem advance_passes {exception : Val} (raised : passedOn? node values = some exception) :
    advance setup evaluate ⟨id, .operands, env, values⟩ = pure (.complete exception) := by
  show advanceOperands setup evaluate ⟨id, .operands, env, values⟩ rfl = _
  unfold advanceOperands
  split
  · next missing =>
    rw [present] at missing
    cases missing
  · next found same =>
    rw [present] at same
    cases same
    simp only [raised]

theorem advance_operand (calm : passedOn? node values = none) {child : NodeId}
    (next : node.operands[values.length]? = some child) (env : Env) :
    ∃ lower, advance setup evaluate ⟨id, .operands, env, values⟩ =
      pure (.descend ⟨id, .operands, env, values⟩ child env lower) := by
  show ∃ lower, advanceOperands setup evaluate ⟨id, .operands, env, values⟩ rfl = _
  unfold advanceOperands
  split
  · next missing =>
    rw [present] at missing
    cases missing
  · next found same =>
    rw [present] at same
    cases same
    simp only [calm]
    split
    · next other isNext =>
      rw [next] at isNext
      cases isNext
      exact ⟨rank_receive_operand_lt present (List.getElem?_eq_some_iff.mp next).1, rfl⟩
    · next none =>
      rw [next] at none
      cases none

theorem advance_combine (calm : passedOn? node values = none)
    (complete : node.operands[values.length]? = none) (env : Env) :
    ∃ lower, advance setup evaluate ⟨id, .operands, env, values⟩ =
      (do
        match ← combine setup evaluate id node values env with
        | .complete value => return .complete value
        | .enter body inner => return .descend ⟨id, .body, env, []⟩ body inner lower) := by
  show ∃ lower, advanceOperands setup evaluate ⟨id, .operands, env, values⟩ rfl = _
  unfold advanceOperands
  split
  · next missing =>
    rw [present] at missing
    cases missing
  · next found same =>
    rw [present] at same
    cases same
    simp only [calm]
    split
    · next other isNext =>
      rw [complete] at isNext
      cases isNext
    · exact ⟨rank_receive_body_lt, rfl⟩

end

theorem reactionParts_eq {frame : Frame} {initial condition next : NodeId} {binding : Option String}
    (present : setup.program.node? frame.node = some (.reaction initial condition next binding)) :
    frame.reactionParts setup = pure (initial, condition, binding) := by
  simp only [reactionParts, present]

theorem borrowParts_eq {frame : Frame} {source : String} {name : Option String}
    (present : setup.program.node? frame.node = some (.borrow source name)) :
    frame.borrowParts setup = pure (source, name.getD source) := by
  simp only [borrowParts, present]

end Frame

/-! ### From a frame to the value of its node -/

namespace Machine

variable {setup : Setup} {evaluate inside : Evaluation} {machine : Machine}

/-- A node that is entered on top of one more frame gives the value that `inside` gives. -/
def GivesInside (setup : Setup) (evaluate inside : NodeId → Env → Action Val)
    (machine : Machine) : Prop :=
  ∀ next child env,
    (do
      let entered ← (machine.push next).enter setup child env
      entered.stepDown setup evaluate (machine.depth + 1)) =
      (do return machine.push (next.receive (← inside child env)))

theorem stepDown_advance (gives : GivesInside setup evaluate inside machine) (frame : Frame) :
    (machine.push frame).stepDown setup evaluate machine.depth = (do
        match ← frame.advance setup evaluate with
        | .complete value => machine.complete frame.node value
        | .descend next child env _ =>
          let value ← inside child env
          (machine.push (next.receive value)).stepDown setup evaluate machine.depth) := by
  rw [stepDown_of_lt (Nat.lt_succ_self _), step_push_eq, bind_assoc]
  refine bind_congr fun advance => ?_
  cases advance with
  | complete value =>
    simp only [complete, bind_assoc, pure_bind]
    refine bind_congr fun _ => ?_
    exact stepDown_of_le (Nat.le_of_eq (depth_deliver machine value))
  | descend next child env lower =>
    calc (do
          let entered ← (machine.push next).enter setup child env
          entered.stepDown setup evaluate machine.depth)
        = (do
            let entered ← (machine.push next).enter setup child env
            let lower ← entered.stepDown setup evaluate (machine.depth + 1)
            lower.stepDown setup evaluate machine.depth) :=
          bind_congr fun entered => (stepDown_stepDown (Nat.le_succ _) entered).symm
      _ = (do
            let lower ← (do
              let entered ← (machine.push next).enter setup child env
              entered.stepDown setup evaluate (machine.depth + 1))
            lower.stepDown setup evaluate machine.depth) :=
          (bind_assoc _ _ _).symm
      _ = _ := by
          rw [gives next child env]
          simp only [bind_assoc, pure_bind]

theorem stepDown_body (gives : GivesInside setup evaluate inside machine)
    (id : NodeId) (env : Env) (value : Val) :
    (machine.push ⟨id, .body, env, [value]⟩).stepDown setup evaluate machine.depth =
      machine.complete id value := by
  rw [stepDown_advance gives]
  rfl

variable {id : NodeId} {node : Node}

section

variable (gives : GivesInside setup evaluate inside machine)
  (present : setup.program.node? id = some node)
include gives present

theorem stepDown_passes {values : List Val} {exception : Val}
    (raised : Frame.passedOn? node values = some exception) (env : Env) :
    (machine.push ⟨id, .operands, env, values⟩).stepDown setup evaluate machine.depth =
      machine.complete id exception := by
  rw [stepDown_advance gives, Frame.advance_passes present raised, pure_bind]

/-- The induction is on the operands that are left; the frame has received the values of the others,
and the last of them is not to be passed on. -/
theorem stepDown_operands (env : Env) (left : List NodeId) {found : List Val}
    (placed : node.operands.drop found.length = left) (calm : Frame.passedOn? node found = none) :
    (machine.push ⟨id, .operands, env, found⟩).stepDown setup evaluate machine.depth = (do
        match ← operandValues (inside · env) node.inspectsExceptions found left with
        | .error exception => machine.complete id exception
        | .ok values =>
          match ← combine setup evaluate id node values env with
          | .complete value => machine.complete id value
          | .enter body inner => do machine.complete id (← inside body inner)) := by
  induction left generalizing found with
  | nil =>
    have none : node.operands[found.length]? = none := by
      rw [List.getElem?_eq_none_iff]
      exact drop_eq_nil_iff.mp placed
    obtain ⟨lower, advanced⟩ := Frame.advance_combine present calm none env
    rw [stepDown_advance gives, advanced]
    simp only [operandValues, pure_bind, bind_assoc]
    refine bind_congr fun outcome => ?_
    cases outcome with
    | complete value => simp only [pure_bind]
    | enter body inner =>
      simp only [pure_bind]
      exact bind_congr fun value => stepDown_body gives id env value
  | cons child rest ih =>
    have next : node.operands[found.length]? = some child := by
      rw [← head?_drop, placed]
      rfl
    obtain ⟨lower, advanced⟩ := Frame.advance_operand present calm next env
    rw [stepDown_advance gives, advanced]
    simp only [operandValues, pure_bind, bind_assoc]
    refine bind_congr fun value => ?_
    cases raised : value.isException && !node.inspectsExceptions with
    | true =>
      rw [if_pos rfl, pure_bind]
      exact stepDown_passes gives present (by simp [raised]) env
    | false =>
      rw [if_neg Bool.false_ne_true]
      apply ih
      · rw [length_append, length_singleton, ← drop_drop, placed]
        rfl
      · simp [raised]

end

section

variable (gives : GivesInside setup evaluate inside machine) {initial condition next : NodeId}
  {binding : Option String}
  (present : setup.program.node? id = some (.reaction initial condition next binding)) (env : Env)
include gives present

theorem stepDown_tested (value answer : Val) :
    (machine.push ⟨id, .reaction .condition, env, [value, answer]⟩).stepDown
        setup evaluate machine.depth =
      (do
        modify fun run => { run with reacting := run.reacting - 1 }
        let streams := setup.program.denotedStreams condition
        machine.complete id (← Frame.settle id value streams env binding)) := by
  have advanced : Frame.advance setup evaluate ⟨id, .reaction .condition, env, [value, answer]⟩ =
      Frame.settleReaction setup ⟨id, .reaction .condition, env, [value, answer]⟩ := rfl
  rw [stepDown_advance gives, advanced, Frame.settleReaction,
    Frame.reactionParts_eq present, pure_bind]
  simp only [bind_assoc, pure_bind, head?_cons]

theorem stepDown_reaction :
    (machine.push ⟨id, .reaction .enter, env, []⟩).stepDown setup evaluate machine.depth = (do
        let value ← reactionValue setup inside id env initial condition binding
        machine.complete id value) := by
  have entered : Frame.advance setup evaluate ⟨id, .reaction .enter, env, []⟩ =
      Frame.enterReaction setup ⟨id, .reaction .enter, env, []⟩ rfl := rfl
  have tested : ∀ value, Frame.advance setup evaluate ⟨id, .reaction .initial, env, [value]⟩ =
      Frame.testReaction setup ⟨id, .reaction .initial, env, [value]⟩ rfl := fun _ => rfl
  rw [stepDown_advance gives, entered, Frame.enterReaction, Frame.reactionParts_eq present,
    pure_bind, reactionValue, bind_assoc, bind_assoc]
  refine bind_congr fun run => ?_
  dsimp only
  split
  · simp only [pure_bind]
  · cases run.reactions.get? id with
    | some reaction => simp only [pure_bind]
    | none =>
      simp only [bind_assoc, pure_bind]
      refine bind_congr fun _ => bind_congr fun value => ?_
      show (machine.push ⟨id, .reaction .initial, env, [value]⟩).stepDown
        setup evaluate machine.depth = _
      rw [stepDown_advance gives, tested, Frame.testReaction, Frame.reactionParts_eq present,
        pure_bind, pure_bind]
      refine bind_congr fun answer => ?_
      exact stepDown_tested gives present env value answer

end

section

variable (gives : GivesInside setup evaluate inside machine) {source : String}
  {name : Option String} (present : setup.program.node? id = some (.borrow source name)) (env : Env)
include gives present

theorem stepDown_borrowed (value : Val) :
    (machine.push ⟨id, .borrow .source, env, [value]⟩).stepDown setup evaluate machine.depth = (do
        modify fun run => { run with borrowing := run.borrowing.filter (· ≠ source) }
        modify fun run =>
          { run with
            borrowed := run.borrowed.define source value
            sourceResults := run.sourceResults.define source value }
        define env (name.getD source) value
        machine.complete id value) := by
  have advanced : Frame.advance setup evaluate ⟨id, .borrow .source, env, [value]⟩ =
      Frame.finishBorrow setup ⟨id, .borrow .source, env, [value]⟩ := rfl
  rw [stepDown_advance gives, advanced, Frame.finishBorrow, Frame.borrowParts_eq present, pure_bind]
  simp only [bind_assoc, pure_bind, getLast?_singleton]

theorem stepDown_borrow :
    (machine.push ⟨id, .borrow .enter, env, []⟩).stepDown setup evaluate machine.depth = (do
        let value ← borrowedValue setup inside id env source (name.getD source)
        machine.complete id value) := by
  have entered : Frame.advance setup evaluate ⟨id, .borrow .enter, env, []⟩ =
      Frame.enterBorrow setup ⟨id, .borrow .enter, env, []⟩ rfl := rfl
  rw [stepDown_advance gives, entered, Frame.enterBorrow, Frame.borrowParts_eq present,
    pure_bind, borrowedValue]
  dsimp only
  cases setup.program.source? source with
  | none => simp only [pure_bind]
  | some found =>
    simp only [bind_assoc]
    refine bind_congr fun run => ?_
    cases run.borrowed.get? source with
    | some value => simp only [bind_assoc, pure_bind]
    | none =>
      dsimp only
      split
      · simp only [pure_bind]
      · simp only [bind_assoc, pure_bind]
        refine bind_congr fun _ => bind_congr fun fresh => bind_congr fun value => ?_
        exact stepDown_borrowed gives present env value

end

theorem stepDown_combined (gives : GivesInside setup evaluate inside machine)
    (present : setup.program.node? id = some node) (env : Env) :
    (machine.push ⟨id, .operands, env, []⟩).stepDown setup evaluate machine.depth =
      (do machine.complete id (← combinedValue setup evaluate inside id node env)) := by
  rw [stepDown_operands gives present env node.operands rfl rfl, combinedValue, bind_assoc]
  refine bind_congr fun values => ?_
  cases values with
  | error exception => simp only [pure_bind]
  | ok values =>
    simp only [bind_assoc]
    refine bind_congr fun outcome => ?_
    cases outcome with
    | complete value => simp only [pure_bind]
    | enter body inner => rfl

theorem stepDown_fresh
    (gives : GivesInside setup evaluate inside machine) (id : NodeId) (env : Env) :
    (machine.push (.fresh setup.program id env)).stepDown setup evaluate machine.depth =
      (do machine.complete id (← nodeValue setup evaluate inside id env)) := by
  unfold Frame.fresh Frame.initialKind nodeValue
  cases present : setup.program.node? id with
  | none =>
    dsimp only
    rw [stepDown_advance gives, Frame.advance_missing present]
    rfl
  | some node =>
    cases node with
    | reaction initial condition next binding => exact stepDown_reaction gives present env
    | borrow source name => exact stepDown_borrow gives present env
    | _ => exact stepDown_combined gives present env

/-- The induction is on the number of frames that may still be entered. -/
theorem enter_stepDown (setup : Setup) (evaluate : Evaluation)
    (machine : Machine) (node : NodeId) (env : Env) :
    (do
      let entered ← machine.enter setup node env
      entered.stepDown setup evaluate machine.depth) =
      (do return machine.deliver (← valueAt setup evaluate machine.depth node env)) := by
  rw [valueAt]
  by_cases room : machine.depth < setup.limits.frames
  · have gives : GivesInside setup evaluate
        (valueAt setup evaluate (machine.depth + 1)) machine :=
      fun next child env => enter_stepDown setup evaluate (machine.push next) child env
    rw [if_pos room, enter_of_lt room]
    simp only [bind_assoc, pure_bind]
    refine bind_congr fun env => ?_
    exact stepDown_fresh gives node env
  · have full := Nat.not_lt.mp room
    rw [if_neg room, enter_of_le full, pure_bind, pure_bind]
    exact stepDown_of_le (Nat.le_of_eq (depth_deliver machine _))
termination_by setup.limits.frames - machine.depth
decreasing_by
  rw [depth_push]
  omega

/-- A machine of its own ends with the value of the node. -/
theorem start_finish (setup : Setup) (evaluate : Evaluation) (node : NodeId) (env : Env) :
    (do (← start setup node env).finish setup evaluate) =
      (do return empty.deliver (← valueAt setup evaluate 0 node env)) := by
  simp only [finish_eq_stepDown]
  exact enter_stepDown setup evaluate empty node env

end Machine

/-! ### Evaluation on machines of its own -/

namespace Action

theorem cleaningUp_map {α β : Type} (clean : Run → Run) (action : Action α) (f : α → β) :
    cleaningUp clean (do return f (← action)) = (do return f (← cleaningUp clean action)) := by
  funext run
  simp only [cleaningUp, bind, pure, EStateM.bind, EStateM.pure]
  cases action run with
  | ok value after => rfl
  | error defect after => rfl

/-- The machines lie inside one another as the levels of the recursion do. -/
theorem evaluateWithin_eq_valueWithin (setup : Setup) (levels : Nat) :
    evaluateWithin setup levels = valueWithin setup levels := by
  induction levels with
  | zero => rfl
  | succ levels ih =>
    funext node env
    rw [evaluateWithin, valueWithin, Machine.start_finish, ih]
    refine bind_congr fun _ => ?_
    rw [cleaningUp_map, bind_assoc]
    exact bind_pure _

theorem evaluate_eq_value (setup : Setup) : evaluate setup = value setup := by
  funext node env
  unfold evaluate value
  exact bind_congr fun run => by rw [evaluateWithin_eq_valueWithin]

theorem pass_eq (setup : Setup) :
    pass setup = (do return Machine.empty.deliver (← guardedMain setup id)) := by
  unfold pass mainMachine guardedMain
  cases setup.program.main? with
  | none => rfl
  | some main =>
    dsimp only
    rw [bind_assoc, bind_assoc]
    refine bind_congr fun env => ?_
    rw [Machine.start_finish, guardedAt_id, guarded_id, evaluate_eq_value]

end Action

/-- Entering a node and stepping down to the frames that were there computes what recursion computes:
the value of the node at their depth is handed to the frame below, or is the result if there is none,
and nothing else about the frames changes.  As an equation between actions it speaks of the run too,
which is the same afterwards, and of every defect. -/
theorem Machine.stack_implements_recursion
    (setup : Setup) (machine : Machine) (node : NodeId) (env : Env) :
    (do
      let entered ← machine.enter setup node env
      entered.stepDown setup (evaluate setup) machine.depth) =
      (do return machine.deliver (← valueAt setup (value setup) machine.depth node env)) := by
  rw [← evaluate_eq_value]
  exact enter_stepDown setup (evaluate setup) machine node env

end Reactor

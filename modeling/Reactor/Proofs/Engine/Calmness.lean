import Reactor.Proofs.Engine.Propagation
import Reactor.Proofs.Engine.Termination

/-!
# What nested evaluations leave behind

While a native function is carried out, machines lie inside one another, and a defect in one of them
waits until the native is done.  Neither is left over when the native comes to its end: a machine that
ends is counted out again, and the defect that waits is taken and reported.  So `Run.Calm` holds between
the steps of a machine and behind everything that is made of such steps, whether it ends with a value
or with a defect.
-/

namespace Reactor

/-- No machine lies inside the first one, and no defect waits to be reported. -/
structure Run.Calm (run : Run) : Prop where
  outermost : run.nesting = 0
  reported : run.defect = none

namespace Action

variable {setup : Setup} {evaluate : Evaluation}

/-! ### Defects that wait -/

/-- A call that a native makes always has an answer, and whatever waits when a native is done is reported
with it. -/
def reporting (evaluate : NodeId → Env → Action Val) (node : NodeId) :
    Calling.Plain evaluate (fun _ _ => .silent) [] node where
  Gives action _ := Preserves (fun run => run.defect = none) action
  Answers action _ := ∀ run, Ensures action run (fun _ _ => True) (fun _ _ => False)
  enter function receiver args := preserves_enter (steady_calm default) function receiver args node
  complete _ := preserves_pure _
  done _ _ := trivial
  chain first _ rest run := by
    rw [ensures_bind]
    exact (first run).map (fun value after _ => rest value after)
  report answers run _ := by
    rw [ensures_bind]
    refine (answers run).imp ?_ fun _ _ impossible => impossible.elim
    intro value after _
    rw [reported, ensures_bind, takeDefect, ensures_modifyGet]
    split
    · exact rfl
    · exact rfl
  answer _ run := by
    rw [apply, ensures_bind, ensures_attempt]
    exact (ensures_end _ run).imp (fun _ _ _ => trivial) (fun _ _ _ => trivial)

theorem reports_combine (id : NodeId) (node : Node) (values : List Val) (env : Env) :
    Preserves (fun run => run.defect = none) (combine setup evaluate id node values env) :=
  (reporting evaluate id).gives_combine node values env
    (preserves_combine_of_not_calls (steady_calm setup.program) id node values env)
    (preserves_throw _)

end Action

namespace Frame

open Reactor.Action

variable {setup : Setup} {evaluate : Evaluation}

theorem reports_advanceOperands (frame : Frame) (kind : frame.kind = .operands) :
    Preserves (fun run => run.defect = none) (frame.advanceOperands setup evaluate kind) := by
  unfold advanceOperands
  split
  · exact preserves_throw _
  · split
    · exact preserves_pure _
    · split
      · exact preserves_pure _
      · refine (reports_combine _ _ _ _).bind fun outcome => ?_
        split
        · exact preserves_pure _
        · exact preserves_pure _

theorem reports_finishBorrow (frame : Frame) :
    Preserves (fun run => run.defect = none) (frame.finishBorrow setup) := by
  unfold finishBorrow borrowParts
  split
  · refine Preserves.bind (preserves_pure _) fun parts => ?_
    refine Preserves.bind (preserves_modify fun _ reported => reported) fun _ => ?_
    split
    · exact preserves_throw _
    · exact Preserves.bind (preserves_modify fun _ reported => reported) fun _ =>
        (preserves_define (steady_calm default) _ _ _).bind fun _ => preserves_pure _
  · exact preserves_throw _

theorem reports_advance (frame : Frame) :
    Preserves (fun run => run.defect = none) (frame.advance setup evaluate) := by
  by_cases operands : frame.kind = .operands
  · rcases frame with ⟨id, kind, env, values⟩
    cases operands
    exact reports_advanceOperands _ rfl
  · by_cases source : frame.kind = .borrow .source
    · rcases frame with ⟨id, kind, env, values⟩
      cases source
      exact reports_finishBorrow _
    · exact preserves_advance_of_ne (steady_calm setup.program) evaluate operands source

end Frame

namespace Machine

open Reactor.Action

variable {setup : Setup} {evaluate : Evaluation}

theorem reports_step (machine : Machine) :
    Preserves (fun run => run.defect = none) (machine.step setup evaluate) := by
  rcases eq_nil_or_push machine with empty | ⟨lower, frame, rfl⟩
  · rw [step_of_nil empty]
    exact preserves_pure _
  · rw [step_push_eq]
    refine (Frame.reports_advance frame).bind fun advance => ?_
    cases advance with
    | complete value => exact fun run reported => reported
    | descend next child env _ =>
      refine fun run reported => (ensures_enter _ child env run).imp ?_ fun _ _ => False.elim
      rintro _ _ ⟨⟨scopes, rfl⟩, -⟩
      exact reported

end Machine

namespace Action

variable {setup : Setup}

theorem reports_evaluate (node : NodeId) (env : Env) :
    Preserves (fun run => run.defect = none) (evaluate setup node env) := by
  refine preserves_get.bind fun run => ?_
  cases setup.limits.nesting - run.nesting with
  | zero => exact preserves_pure _
  | succ levels =>
    refine Preserves.bind (preserves_modify fun _ reported => reported) fun _ => ?_
    refine Preserves.bind (preserves_cleaningUp ?_ fun _ reported => reported) fun machine => ?_
    · exact (Machine.preserves_start (steady_calm setup.program) node env).bind fun machine =>
        Machine.preserves_finish_of_step Machine.reports_step machine
    · split
      · exact preserves_pure _
      · exact preserves_throw _

/-! ### Machines that are counted -/

theorem preserves_nesting_evaluate (count : Nat) (node : NodeId) (env : Env) :
    Preserves (fun run => run.nesting = count) (evaluate setup node env) :=
  preserves_get.bind fun _ => preserves_nesting_evaluateWithin _ count node env

end Action

/-! ### Calm between steps -/

theorem preserves_calm_of {α : Type} {action : Action α}
    (counted : Preserves (fun run => run.nesting = 0) action)
    (reported : Preserves (fun run => run.defect = none) action) :
    Preserves Run.Calm action :=
  fun run calm => ((counted run calm.outermost).and (reported run calm.reported)).imp
    (fun _ _ kept => ⟨kept.1, kept.2⟩) fun _ _ kept => ⟨kept.1, kept.2⟩

namespace Machine

variable {setup : Setup}

theorem preserves_calm_step (machine : Machine) :
    Preserves Run.Calm (machine.step setup (Action.evaluate setup)) :=
  preserves_calm_of (Mirrors.preserves (machine.mirrors_step (Run.congruence_nesting 0)
    fun node env => (Action.preserves_nesting_evaluate 0 node env).mirrors)) machine.reports_step

end Machine

namespace Action

variable {setup : Setup}

theorem preserves_calm_mainMachine : Preserves Run.Calm (mainMachine setup) :=
  preserves_calm_of
    (Mirrors.preserves (mirrors_mainMachine (Run.congruence_nesting 0).toLikeness))
    (preserves_mainMachine (steady_calm setup.program))

/-- A pass that begins outermost and without a defect ends so. -/
theorem preserves_calm_pass : Preserves Run.Calm (pass setup) :=
  preserves_calm_mainMachine.bind (Machine.preserves_finish_of_step Machine.preserves_calm_step)

theorem preserves_calm_evaluate (node : NodeId) (env : Env) :
    Preserves Run.Calm (evaluate setup node env) :=
  preserves_calm_of (preserves_nesting_evaluate 0 node env) (reports_evaluate node env)

theorem preserves_calm_update (id : NodeId) : Preserves Run.Calm (update setup id) :=
  preserves_update_of (fun _ _ calm => ⟨calm.outermost, calm.reported⟩) preserves_calm_evaluate
    (fun _ _ _ calm => ⟨calm.outermost, calm.reported⟩) id

end Action

end Reactor

import Mathlib.Algebra.Group.Nat.Defs
import Reactor.Proofs.Engine.Stepping
import Reactor.Proofs.Run.Likeness

/-!
# Every evaluation ends

Three recursions lie inside one another.  A machine takes one step after the other; a step may call a
native that asks for evaluations on machines inside; and natives may apply natives without any machine.
Each of them is unrolled here a number of times, with anything at all in the place of what would lie
deeper, and beyond a bound this makes no difference.  So nothing ever goes deeper, whatever functions,
programs and limits there are.

The bounds are of different kinds.  Natives that apply natives get smaller functions or inputs each time,
machines inside one another are counted against a limit, and the steps of a machine are bounded by its
size, which for a machine that starts depends on the program and the limit of frames only.
-/

namespace Reactor

/-! ### Natives that apply natives -/

namespace Action

variable {evaluate : Evaluation} {beyond : Val → List Val → Action Val}

/-- Carry out a call for a native function, where calls inside one another are followed to a depth.
What is to happen beyond it is left open. -/
def applyFor (evaluate : NodeId → Env → Action Val) (beyond : Val → List Val → Action Val)
    (node : NodeId) : (depth : Nat) → Val → List Val → Action Val
  | 0, function, args => beyond function args
  | depth + 1, function, args => do
    let answer ← attempt do
      match ← invokeWith node function args fun other inputs _ =>
          applyFor evaluate beyond node depth other inputs with
      | .complete value => pure value
      | .enter body env => evaluate body env
    match answer with
    | .ok value => return value
    | .error defect =>
      keepDefect defect
      return .failure .interrupted node

/-- Calls inside a call are smaller, so they are no deeper than the call is large. -/
theorem applyFor_eq_apply (node : NodeId) {depth : Nat} {function : Val} {args : List Val}
    (deep : function.weight args < depth) :
    applyFor evaluate beyond node depth function args = apply evaluate node function args := by
  induction depth generalizing function args with
  | zero => exact absurd deep (Nat.not_lt_zero _)
  | succ depth ih =>
    have inside : (fun other inputs (_ : other.weight inputs < function.weight args) =>
          applyFor evaluate beyond node depth other inputs) =
        fun other inputs _ => apply evaluate node other inputs := by
      funext other inputs smaller
      exact ih (Nat.lt_of_lt_of_le smaller (Nat.le_of_lt_succ deep))
    rewrite [applyFor, apply, inside]
    rfl

end Action

/-! ### Steps of a machine -/

namespace Machine

variable {setup : Setup} {evaluate : Evaluation}

theorem runFor_of_nil {machine : Machine} (empty : machine.frames = []) (budget : Nat) :
    machine.runFor setup evaluate budget = pure machine := by
  cases budget with
  | zero => rfl
  | succ budget =>
    have done : machine.isDone = true := by simp [isDone, empty]
    rw [runFor, step_of_nil empty, pure_bind, if_pos done]

theorem size_push_pos (machine : Machine) (frame : Frame) :
    0 < (machine.push frame).size setup :=
  Nat.lt_of_le_of_lt (Nat.zero_le _)
    (size_pop_deliver_lt setup (show (machine.push frame).frames = frame :: machine.frames from rfl)
      default)

theorem runFor_eq_finish {machine : Machine} {budget : Nat} (enough : machine.size setup ≤ budget) :
    machine.runFor setup evaluate budget = machine.finish setup evaluate := by
  induction budget generalizing machine with
  | zero =>
    rcases eq_nil_or_push machine with empty | ⟨lower, frame, rfl⟩
    · rw [runFor_of_nil empty, finish_of_nil empty]
    · exact absurd (size_push_pos lower frame) (Nat.not_lt.mpr enough)
  | succ budget ih =>
    rw [runFor, finish_eq_step]
    funext run
    simp only [bind, EStateM.bind]
    cases moved : machine.step setup evaluate run with
    | error defect last => rfl
    | ok next last =>
      cases done : next.isDone with
      | true => simp only [done, if_true, finish_of_nil (List.isEmpty_iff.mp done)]
      | false =>
        have smaller := Nat.lt_of_lt_of_le (size_of_step moved done) enough
        simp only [done, Bool.false_eq_true, if_false, ih (Nat.le_of_lt_succ smaller)]

theorem ensures_finish_isDone (machine : Machine) (run : Run) :
    Ensures (machine.finish setup evaluate) run (fun final _ => final.isDone = true)
      (fun _ _ => True) := by
  have steps : ∀ machine run, True → Ensures (step setup evaluate machine) run (fun _ _ => True)
      (fun _ _ => True) :=
    fun _ run _ => (ensures_end _ run).imp (fun _ _ _ => trivial) fun _ _ _ => trivial
  exact (ensures_finish steps machine run trivial).map fun _ _ ended => List.isEmpty_iff.mpr ended.1

/-- More than the number of steps of any machine from its start to its end. -/
def stepLimit (setup : Setup) : Nat :=
  setup.program.stepBound ^ (setup.limits.frames + 1)

theorem size_fresh_lt (node : NodeId) (env : Env) :
    (empty.push (.fresh setup.program node env)).size setup < stepLimit setup := by
  have fresh : (Frame.fresh setup.program node env).rank setup.program < setup.program.stepBound :=
    Nat.lt_of_le_of_lt (Frame.rank_fresh_le ..) (Program.operandCount_add_lt ..)
  calc (empty.push (.fresh setup.program node env)).size setup
      = (Frame.fresh setup.program node env).rank setup.program * stepWeight setup 0 := by
        simp [size, push, empty, waitingSize]
    _ < setup.program.stepBound * stepWeight setup 0 :=
        Nat.mul_lt_mul_of_pos_right fresh (stepWeight_pos setup 0)
    _ = stepLimit setup := by
        rw [stepLimit, Nat.pow_succ']
        rfl

theorem ensures_start_size (node : NodeId) (env : Env) (run : Run) :
    Ensures (start setup node env) run (fun machine _ => machine.size setup < stepLimit setup)
      (fun _ _ => False) := by
  have positive : 0 < stepLimit setup :=
    Nat.lt_of_le_of_lt (Nat.zero_le _) (size_fresh_lt node env)
  refine (ensures_enter empty node env run).map ?_
  rintro _ _ ⟨-, ⟨value, rfl⟩ | ⟨other, inner, rfl⟩⟩
  · exact positive
  · exact size_fresh_lt other inner

theorem start_runFor
    {budget : Nat} (enough : stepLimit setup ≤ budget) (node : NodeId) (env : Env) :
    (do (← start setup node env).runFor setup evaluate budget) =
      (do (← start setup node env).finish setup evaluate) := by
  funext run
  have sized : Ensures (start setup node env) run
      (fun machine _ => machine.size setup < stepLimit setup) (fun _ _ => False) :=
    ensures_start_size node env run
  simp only [Ensures] at sized
  simp only [bind, EStateM.bind]
  cases started : start setup node env run with
  | error defect after => rfl
  | ok machine after =>
    rw [started] at sized
    exact congrFun (runFor_eq_finish (Nat.le_of_lt (Nat.lt_of_lt_of_le sized enough))) after

end Machine

/-! ### Machines inside machines -/

theorem Run.congruence_nesting (count : Nat) :
    Run.Congruence fun run twin => twin = run ∧ run.nesting = count where
  same := by
    rintro run twin ⟨rfl, -⟩
    rfl
  beside := by
    rintro run twin after ⟨rfl, level⟩ streams reactions - nesting
    refine ⟨?_, nesting.trans level⟩
    rw [← streams, ← reactions]
  provide := by
    rintro run twin name ⟨rfl, level⟩
    cases ensured : twin.streams.ensure? name with
    | none => exact Or.inl ⟨rfl, rfl⟩
    | some streams => exact Or.inr ⟨streams, streams, rfl, rfl, rfl, rfl, level⟩
  changed := by
    rintro run twin ⟨rfl, -⟩
    rfl
  value := by
    rintro run twin id ⟨rfl, -⟩
    rfl
  react := by
    rintro run twin reacting ⟨rfl, level⟩
    exact ⟨rfl, level⟩
  settle := by
    rintro run twin reaction ⟨rfl, level⟩ -
    exact ⟨rfl, level⟩

theorem Machine.start_finish_congr (setup : Setup) {evaluate evaluate' : Evaluation} {run : Run}
    (called : ∀ node env, Mirrors (fun inner twin => twin = inner ∧ inner.nesting = run.nesting)
      (evaluate node env) (evaluate' node env))
    (node : NodeId) (env : Env) :
    (do (← start setup node env).finish setup evaluate : Action Machine) run =
      (do (← start setup node env).finish setup evaluate' : Action Machine) run := by
  have congruence := Run.congruence_nesting run.nesting
  have mirrors : Mirrors (fun inner twin => twin = inner ∧ inner.nesting = run.nesting)
      (do (← start setup node env).finish setup evaluate)
      (do (← start setup node env).finish setup evaluate') :=
    (mirrors_start congruence.toLikeness node env).bind fun machine =>
      machine.mirrors_finish congruence called
  exact eq_of_mirrors mirrors rfl

namespace Action

variable {setup : Setup} {beyond : Evaluation}

/-- Evaluate a node on a machine of its own for a number of steps at most, where machines inside one
another are followed to a depth.  What is to happen beyond it is left open. -/
def evaluateFor (setup : Setup) (beyond : NodeId → Env → Action Val) (budget : Nat) :
    (depth : Nat) → NodeId → Env → Action Val
  | 0, node, env => beyond node env
  | depth + 1, node, env => do
    if (← get).nesting < setup.limits.nesting then
      modify fun run => { run with nesting := run.nesting + 1 }
      let machine ←
        cleaningUp (fun run => { run with nesting := run.nesting - 1 }) do
          (← Machine.start setup node env).runFor setup (evaluateFor setup beyond budget depth) budget
      match machine.result with
      | some value => return value
      | none => throw (.evaluationWithoutValue node)
    else return .failure (.depthLimit setup.limits.nesting) node

theorem preserves_nesting_evaluateWithin (levels count : Nat) (node : NodeId) (env : Env) :
    Preserves (fun run => run.nesting = count) (evaluateWithin setup levels node env) := by
  induction levels generalizing count node env with
  | zero => exact preserves_pure _
  | succ levels ih =>
    have congruence := Run.congruence_nesting (count + 1)
    have inside : Preserves (fun run => run.nesting = count + 1)
        (do (← Machine.start setup node env).finish setup (evaluateWithin setup levels)) := by
      apply Mirrors.preserves
      exact (Machine.mirrors_start congruence.toLikeness node env).bind fun machine =>
        machine.mirrors_finish congruence fun node env => (ih (count + 1) node env).mirrors
    intro run level
    rw [evaluateWithin, ensures_bind, ensures_modify, ensures_bind, ensures_cleaningUp]
    have raised : ({ run with nesting := run.nesting + 1 } : Run).nesting = count + 1 :=
      congrArg (· + 1) level
    refine (inside _ raised).imp ?_ ?_
    · intro machine after lowered
      have back : after.nesting - 1 = count := by rw [lowered, Nat.add_sub_cancel]
      cases machine.result with
      | some value => exact back
      | none => exact back
    · intro defect after lowered
      show after.nesting - 1 = count
      rw [lowered, Nat.add_sub_cancel]

/-- Machines are no deeper inside one another than the limit allows, and no machine takes more steps
than the limit of steps. -/
theorem evaluateFor_eq_evaluate {budget depth : Nat} (enough : Machine.stepLimit setup ≤ budget)
    (node : NodeId) (env : Env) {run : Run} (deep : setup.limits.nesting - run.nesting < depth) :
    evaluateFor setup beyond budget depth node env run = evaluate setup node env run := by
  induction depth generalizing node env run with
  | zero => exact absurd deep (Nat.not_lt_zero _)
  | succ depth ih =>
    show (if run.nesting < setup.limits.nesting then _ else _ : Action Val) run =
      evaluateWithin setup (setup.limits.nesting - run.nesting) node env run
    by_cases room : run.nesting < setup.limits.nesting
    · obtain ⟨levels, left⟩ : ∃ levels, setup.limits.nesting - run.nesting = levels + 1 :=
        ⟨setup.limits.nesting - run.nesting - 1, by omega⟩
      let counted : Run := { run with nesting := run.nesting + 1 }
      -- Wherever the machine inside calls, one machine more is counted.
      have called : ∀ node env, Mirrors
          (fun inner twin => twin = inner ∧ inner.nesting = counted.nesting)
          (evaluateFor setup beyond budget depth node env)
          (evaluateWithin setup levels node env) := by
        rintro node env inner twin ⟨rfl, level⟩
        have above : twin.nesting = run.nesting + 1 := level
        have remaining : setup.limits.nesting - twin.nesting = levels := by omega
        have same : evaluate setup node env twin = evaluateWithin setup levels node env twin := by
          rw [← remaining]
          rfl
        rw [ih node env (show setup.limits.nesting - twin.nesting < depth by omega), same]
        exact (preserves_nesting_evaluateWithin levels counted.nesting node env).mirrors
          twin twin ⟨rfl, level⟩
      have inside := Machine.start_finish_congr setup called node env
      rw [← Machine.start_runFor enough] at inside
      rw [if_pos room, left, evaluateWithin]
      simp only [bind, EStateM.bind, modify_apply, cleaningUp] at inside ⊢
      rewrite [inside]
      rfl
    · have none : setup.limits.nesting - run.nesting = 0 := Nat.sub_eq_zero_of_le (Nat.not_lt.mp room)
      rw [if_neg room, none]
      rfl

theorem pass_eq_runFor {budget : Nat} (enough : Machine.stepLimit setup ≤ budget) :
    pass setup = (do (← mainMachine setup).runFor setup (evaluate setup) budget) := by
  unfold pass mainMachine
  cases setup.program.main? with
  | none => rfl
  | some main =>
    simp only [bind_assoc]
    refine bind_congr fun env => ?_
    exact (Machine.start_runFor enough main.root env).symm

end Action

end Reactor

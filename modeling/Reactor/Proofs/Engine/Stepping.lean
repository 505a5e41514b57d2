import Reactor.Proofs.Engine.Log

/-!
# Machines step by step

A machine has no frames and is done, or an active frame lies on top of others.  A step of the active
frame completes its node or enters another one.  What a machine does up to its end, and the log of it,
begin with a step.
-/

namespace Reactor

theorem Action.behind_map {α β : Type} (action : Action α) (result : α → β) (next : β → Log) :
    (do return result (← action)).behind next = action.behind fun value => next (result value) := by
  funext run
  simp only [behind, bind, EStateM.bind]
  cases action run <;> rfl

namespace Machine

open Reactor.Action (behind_map)

@[simp]
theorem depth_push (machine : Machine) (frame : Frame) :
    (machine.push frame).depth = machine.depth + 1 :=
  rfl

@[simp]
theorem depth_deliver (machine : Machine) (value : Val) :
    (machine.deliver value).depth = machine.depth := by
  rcases machine with ⟨_ | ⟨top, rest⟩, depth, depth_eq, result⟩
  · exact depth_eq.symm
  · rfl

theorem eq_push_pop
    (machine : Machine) {top : Frame} {rest : List Frame} (shape : machine.frames = top :: rest) :
    machine = machine.pop.push top := by
  rcases machine with ⟨frames, depth, depth_eq, result⟩
  cases shape
  subst depth_eq
  rfl

theorem eq_nil_or_push (machine : Machine) :
    machine.frames = [] ∨ ∃ lower frame, machine = push lower frame := by
  cases shape : machine.frames with
  | nil => exact .inl rfl
  | cons top rest => exact .inr ⟨_, _, machine.eq_push_pop shape⟩

/-! ### Nodes that are entered and completed -/

/-- Enter a node, unless the stack is full. -/
def enter (setup : Setup) (machine : Machine) (node : NodeId) (env : Env) : Action Machine := do
  return (← machine.enterWith setup node env (fun _ => True) (fun _ _ => trivial) trivial).1

/-- Complete a node and hand its value over. -/
def complete (machine : Machine) (node : NodeId) (value : Val) : Action Machine := do
  Action.record node value
  return machine.deliver value

/-- A node was entered on top of a machine, or refused. -/
def Enters (program : Program) (machine next : Machine) : Prop :=
  (∃ value, next = machine.deliver value) ∨ ∃ node env, next = machine.push (.fresh program node env)

variable {setup : Setup} {evaluate : Evaluation} {machine : Machine}

theorem enter_of_lt (room : machine.depth < setup.limits.frames) (node : NodeId) (env : Env) :
    machine.enter setup node env =
      (do
        let env ← Frame.openScope setup.program node env
        return machine.push (.fresh setup.program node env)) := by
  simp [enter, enterWith, room]

theorem enter_of_le (full : setup.limits.frames ≤ machine.depth) (node : NodeId) (env : Env) :
    machine.enter setup node env =
      pure (machine.deliver (.failure (.depthLimit setup.limits.frames) node)) := by
  simp [enter, enterWith, Nat.not_lt.mpr full]

theorem ensures_enter (machine : Machine) (node : NodeId) (env : Env) (run : Run) :
    Ensures (machine.enter setup node env) run
      (fun next after => (∃ scopes, after = { run with scopes }) ∧ machine.Enters setup.program next)
      (fun _ _ => False) := by
  rcases Nat.lt_or_ge machine.depth setup.limits.frames with room | full
  · rw [enter_of_lt room, Frame.openScope]
    split
    · exact ⟨⟨_, rfl⟩, .inr ⟨_, _, rfl⟩⟩
    · exact ⟨⟨_, rfl⟩, .inr ⟨_, _, rfl⟩⟩
  · rw [enter_of_le full]
    exact ⟨⟨_, rfl⟩, .inl ⟨_, rfl⟩⟩

theorem exists_enter_eq (machine : Machine) (node : NodeId) (env : Env) (run : Run) :
    ∃ next last, machine.enter setup node env run = .ok next last := by
  have entered := @ensures_enter setup machine node env run
  rw [Ensures] at entered
  split at entered
  · exact ⟨_, _, ‹_›⟩
  · exact entered.elim

/-! ### Machines that are done -/

theorem step_of_nil (empty : machine.frames = []) :
    machine.step setup evaluate = pure machine := by
  rcases machine with ⟨frames, depth, depth_eq, result⟩
  cases empty
  rfl

theorem finish_of_nil (empty : machine.frames = []) :
    machine.finish setup evaluate = pure machine := by
  rcases machine with ⟨frames, depth, depth_eq, result⟩
  cases empty
  rw [finish]

variable {evaluated : List Machine → NodeId → Env → Log} (waiting : List Machine)

theorem stepLog_of_nil (empty : machine.frames = []) :
    machine.stepLog setup evaluate evaluated waiting = Log.silent := by
  rcases machine with ⟨frames, depth, depth_eq, result⟩
  cases empty
  rfl

theorem finishLog_of_nil (empty : machine.frames = []) :
    machine.finishLog setup evaluate evaluated waiting = Log.silent := by
  rcases machine with ⟨frames, depth, depth_eq, result⟩
  cases empty
  rw [finishLog]

/-! ### Machines with an active frame -/

section

variable (machine : Machine) (frame : Frame)

theorem step_push :
    (machine.push frame).step setup evaluate =
      (do return (← (machine.push frame).advance setup evaluate frame machine.frames rfl).1) :=
  rfl

/-- The active frame completes its node or enters another one. -/
theorem step_push_eq :
    (machine.push frame).step setup evaluate = (do
        match ← frame.advance setup evaluate with
        | .complete value => machine.complete frame.node value
        | .descend next child env _ => (machine.push next).enter setup child env) := by
  rw [step_push]
  unfold advance
  rw [bind_assoc]
  refine bind_congr fun result => ?_
  cases result with
  | complete value => rfl
  | descend next child env lower =>
    have replaced : (machine.push frame).replaceTop next frame machine.frames rfl =
        machine.push next := rfl
    by_cases room : machine.depth + 1 < setup.limits.frames
    · simp [enter, enterWith, replaced, room]
    · simp [enter, enterWith, replaced, room]

theorem finish_push :
    (machine.push frame).finish setup evaluate = (do
        let next ← (machine.push frame).advance setup evaluate frame machine.frames rfl
        next.1.finish setup evaluate) := by
  rw [finish]
  rfl

theorem stepLog_push :
    (machine.push frame).stepLog setup evaluate evaluated waiting = fun run =>
      frame.log setup evaluate (evaluated (machine.push frame :: waiting))
          (machine.push frame :: waiting) run ++
        ((machine.push frame).step setup evaluate).behind
          (fun next after => [.moved ⟨waiting, machine.push frame, run, next, after⟩]) run := by
  funext run
  rw [step_push, behind_map]
  rfl

theorem finishLog_push :
    (machine.push frame).finishLog setup evaluate evaluated waiting = fun run =>
      (machine.push frame).stepLog setup evaluate evaluated waiting run ++
        ((machine.push frame).advance setup evaluate frame machine.frames rfl).behind
          (fun next => next.1.finishLog setup evaluate evaluated waiting) run := by
  rw [finishLog]
  rfl

end

/-! ### One step after the other -/

variable {run last : Run}

theorem finish_eq_step (machine : Machine) :
    machine.finish setup evaluate =
      machine.step setup evaluate >>= fun next => next.finish setup evaluate := by
  rcases eq_nil_or_push machine with empty | ⟨lower, frame, rfl⟩
  · rw [step_of_nil empty, pure_bind]
  · rw [finish_push, step_push, bind_assoc]
    simp only [pure_bind]

theorem finishLog_eq_step (machine : Machine) :
    machine.finishLog setup evaluate evaluated waiting = fun run =>
      machine.stepLog setup evaluate evaluated waiting run ++
        (machine.step setup evaluate).behind (finishLog setup evaluate evaluated waiting) run := by
  rcases eq_nil_or_push machine with empty | ⟨lower, frame, rfl⟩
  · rw [step_of_nil empty, stepLog_of_nil waiting empty]
    rfl
  · rw [finishLog_push, step_push, behind_map]

theorem size_of_push_step {lower next : Machine} {frame : Frame}
    (moved : (lower.push frame).step setup evaluate run = .ok next last) :
    next.size setup < (lower.push frame).size setup := by
  simp only [step_push, bind, EStateM.bind] at moved
  split at moved
  · next further _ _ =>
    cases moved
    exact further.2
  · cases moved

section

variable {next : Machine} (moved : machine.step setup evaluate run = .ok next last)
include moved

theorem finish_of_ok : machine.finish setup evaluate run = next.finish setup evaluate last := by
  rw [finish_eq_step, bind_of_ok moved]

theorem finishLog_of_ok :
    machine.finishLog setup evaluate evaluated waiting run =
      machine.stepLog setup evaluate evaluated waiting run ++
        next.finishLog setup evaluate evaluated waiting last := by
  rw [finishLog_eq_step]
  simp only [Action.behind, moved]

theorem size_of_step (goesOn : next.isDone = false) : next.size setup < machine.size setup := by
  rcases eq_nil_or_push machine with empty | ⟨lower, frame, rfl⟩
  · rw [step_of_nil empty] at moved
    cases moved
    simp [isDone, empty] at goesOn
  · exact size_of_push_step moved

end

section

variable {defect : Defect} (failed : machine.step setup evaluate run = .error defect last)
include failed

theorem finish_of_error : machine.finish setup evaluate run = .error defect last := by
  rw [finish_eq_step]
  simp only [bind, EStateM.bind, failed]

theorem finishLog_of_error :
    machine.finishLog setup evaluate evaluated waiting run =
      machine.stepLog setup evaluate evaluated waiting run := by
  rw [finishLog_eq_step]
  simp only [Action.behind, failed, List.append_nil]

end

/-- What steps preserve holds at the end. -/
theorem ensures_finish {Holds : Machine → Run → Prop} {bad : Defect → Run → Prop}
    (steps : ∀ machine run, Holds machine run → Ensures (machine.step setup evaluate) run Holds bad)
    (machine : Machine) (run : Run) (holds : Holds machine run) :
    Ensures (machine.finish setup evaluate) run
      (fun final after => final.frames = [] ∧ Holds final after) bad := by
  rcases eq_nil_or_push machine with empty | ⟨lower, frame, shape⟩
  · rw [finish_of_nil empty]
    exact ⟨empty, holds⟩
  · have stepped := steps machine run holds
    rw [shape, step_push, ensures_bind] at stepped
    rw [shape, finish_push, ensures_bind]
    exact stepped.map fun next after kept => ensures_finish steps next.1 after kept
termination_by machine.size setup
decreasing_by exact shape ▸ next.2

theorem preserves_finish_of_step {P : Run → Prop}
    (steps : ∀ machine, Preserves P (step setup evaluate machine)) (machine : Machine) :
    Preserves P (machine.finish setup evaluate) :=
  fun run holds => (ensures_finish steps machine run holds).map fun _ _ ended => ended.2

end Machine

end Reactor

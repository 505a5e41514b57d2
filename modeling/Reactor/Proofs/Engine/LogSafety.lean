import Reactor.Proofs.Engine.Stepping
import Reactor.Proofs.Engine.UpdateSafety

/-!
# All that happens in an evaluation is sound

In a sound run every machine that takes a step is sound before the step and after it, and every
function that a native calls has the property that the run keeps, and so have its inputs.  This holds
of machines at every level of nesting.
-/

namespace Reactor

open List

/-- What is sound about an event. -/
def Event.Sound (program : Program) (Good : Val → Prop) : Event → Prop
  | moved moment =>
    (moment.before.frames ≠ [] → moment.before.Sound program Good) ∧ moment.after.Sound program Good
  | called _ function args => Good function ∧ ∀ arg ∈ args, Good arg

namespace Log

variable {program : Program} {Good : Val → Prop}

/-- A log of sound events, as long as the run is sound at the start. -/
def Sound (program : Program) (Good : Val → Prop) (log : Log) : Prop :=
  ∀ run : Run, run.Sound Good → ∀ event ∈ log run, event.Sound program Good

theorem sound_silent : Log.silent.Sound program Good :=
  fun _ _ _ mem => by cases mem

theorem Sound.append {first second : Log} (firstSound : first.Sound program Good)
    (secondSound : second.Sound program Good) :
    Sound program Good fun run => first run ++ second run :=
  fun run sound =>
    forall_mem_append.mpr ⟨firstSound run sound, secondSound run sound⟩

theorem sound_behind {α : Type} {action : Action α} {promise : α → Prop} {next : α → Log}
    (safe : Action.Safe Good action promise)
    (rest : ∀ value, promise value → (next value).Sound program Good) :
    (action.behind next).Sound program Good := by
  intro run sound event mem
  have ended := safe run sound
  simp only [Action.behind] at mem
  simp only [Ensures] at ended
  cases result : action run with
  | ok value after =>
    rw [result] at mem ended
    exact rest value ended.2 after ended.1 event mem
  | error defect after =>
    rw [result] at mem
    cases mem

end Log

namespace Action

variable {program : Program} {Good : Val → Prop} {evaluate : Evaluation}
  {evaluateLog : NodeId → Env → Log} (law : Val.Law program.nodes.size Good)
  (safe : ∀ body env, body < program.nodes.size → Safe Good (evaluate body env) Good)
  (logged : ∀ body env, body < program.nodes.size → (evaluateLog body env).Sound program Good)
  (waiting : List Machine) {id : NodeId}

/-- Calls that are safe have sound logs. -/
def soundCalling (inside : id < program.nodes.size) :
    Calling evaluate evaluate evaluateLog waiting id :=
  let base := @calling False _ _ _ _ law.conduct (Val.Law.reports Good) _ _
    (fun body env below => tallies_iff_safe.mpr (safe body env below)) evaluateLog waiting id []
    inside
  { base with
    Good := fun _ => Good
    Gives := fun world action _ log => base.Gives world action action log ∧ log.Sound program Good
    Answers := fun world action _ log =>
      base.Answers world action action log ∧ log.Sound program Good
    enterClosure := fun good goodArgs => ⟨base.enterClosure good goodArgs, Log.sound_silent⟩
    enterMethod := fun good goodArgs => ⟨base.enterMethod good goodArgs, Log.sound_silent⟩
    complete := fun good => ⟨base.complete good, Log.sound_silent⟩
    done := fun good => ⟨base.done good, Log.sound_silent⟩
    chain := fun first passes rest =>
      ⟨base.chain first.1
          (fun value raised => ⟨(passes value raised).1, (passes value raised).1,
            (passes value raised).2.2⟩)
          fun later value grown good => (rest later value grown good).1,
        first.2.append (Log.sound_behind (tallies_iff_safe.mp first.1) fun value good =>
          (rest () value trivial good).2)⟩
    report := fun answers => ⟨base.report answers.1, answers.2⟩
    answer := by
      intro _ function args log good goodArgs gives
      refine ⟨base.answer good goodArgs gives.1, fun run sound => ?_⟩
      refine forall_mem_cons.mpr ⟨⟨good, goodArgs⟩, gives.2.append
        (Log.sound_behind (tallies_iff_safe.mp gives.1) fun outcome fares => ?_) run sound⟩
      cases outcome with
      | complete value => exact Log.sound_silent
      | enter body env => exact logged body env fares }

include law safe logged in
theorem sound_combineLog (setup : Setup) {node : Node} (present : program.node? id = some node)
    (plain : node.ownsFrame = false) {values : List Val}
    (counted : values.length = node.operands.length) (good : ∀ value ∈ values, Good value) :
    (combineLog evaluate evaluateLog waiting id node values).Sound program Good := by
  have inside := Program.lt_size_of_node? present
  refine (@Calling.gives_combine _ _ _ _ _ (soundCalling law safe logged waiting inside) () setup _ _
    good []
    (fun simple => ⟨?_, Log.sound_silent⟩) fun miscounted => absurd counted miscounted).2
  exact tallies_combine_of_not_calls law.conduct.toManner inside evaluate evaluate simple
    (@Conduct.node _ _ _ _ law.conduct id [] node inside present) (.inr ⟨plain, counted⟩) good

end Action

theorem Frame.of_combines? {program : Program} {frame : Frame} {node : Node}
    (combines : frame.combines? program = some node) :
    frame.kind = .operands ∧ program.node? frame.node = some node ∧
      node.operands.length ≤ frame.values.length := by
  unfold combines? at combines
  split at combines
  · next kind present =>
    split at combines
    · cases combines
    · split at combines
      · cases combines
      · next complete =>
        cases combines
        exact ⟨kind, present, List.getElem?_eq_none_iff.mp complete⟩
  · cases combines

namespace Machine

variable {setup : Setup} {Good : Val → Prop}
  {evaluate : Evaluation} {evaluateLog : List Machine → NodeId → Env → Log}

theorem sound_startLog {start : Action Machine}
    (safe : Action.Safe Good start (Sound setup.program Good)) (waiting : List Machine) :
    (startLog waiting start).Sound setup.program Good := by
  intro run sound
  refine Log.sound_behind safe (fun machine soundMachine => ?_) run sound
  intro after _ event mem
  rw [mem_singleton.mp mem]
  exact ⟨fun some => absurd rfl some, soundMachine⟩

variable (law : Val.Law setup.program.nodes.size Good)
  (safe : ∀ body env, body < setup.program.nodes.size → Action.Safe Good (evaluate body env) Good)
include law safe

theorem sound_frameLog {evaluateLog : NodeId → Env → Log}
    (logged : ∀ body env, body < setup.program.nodes.size →
      (evaluateLog body env).Sound setup.program Good)
    (waiting : List Machine) {frame : Frame} (ready : frame.Ready setup.program)
    (holds : frame.Holds Good) :
    (frame.log setup evaluate evaluateLog waiting).Sound setup.program Good := by
  unfold Frame.log
  split
  · next node combines =>
    obtain ⟨kind, present, complete⟩ := Frame.of_combines? combines
    simp only [Frame.Ready, kind, present, Option.some.injEq] at ready
    obtain ⟨_, rfl, plain, received⟩ := ready
    exact Action.sound_combineLog law safe logged waiting setup present plain
      (Nat.le_antisymm received complete) holds
  · exact Log.sound_silent

variable (logged : ∀ waiting body env, body < setup.program.nodes.size →
    (evaluateLog waiting body env).Sound setup.program Good)
  (waiting : List Machine)
include logged

section

variable {machine : Machine} (sound : machine.Sound setup.program Good)
include sound

theorem sound_stepLog :
    (machine.stepLog setup evaluate evaluateLog waiting).Sound setup.program Good := by
  rcases eq_nil_or_push machine with empty | ⟨lower, frame, rfl⟩
  · rw [stepLog_of_nil waiting empty]
    exact Log.sound_silent
  · rw [stepLog_push]
    refine (sound_frameLog law safe (logged _) _ sound.1.1 sound.1.2).append fun run soundRun => ?_
    refine Log.sound_behind (safe_step law safe sound) (fun next soundNext => ?_) run soundRun
    intro after _ event mem
    rw [mem_singleton.mp mem]
    exact ⟨fun _ => sound, soundNext⟩

end

theorem sound_finishLog {machine : Machine} (sound : machine.Sound setup.program Good) :
    (machine.finishLog setup evaluate evaluateLog waiting).Sound setup.program Good := by
  rcases eq_nil_or_push machine with empty | ⟨lower, frame, shape⟩
  · rw [finishLog_of_nil waiting empty]
    exact Log.sound_silent
  · rw [shape] at sound ⊢
    rw [finishLog_push]
    refine (sound_stepLog law safe logged waiting sound).append (Log.sound_behind
      (fun run soundRun => (ensures_bind _ _).mp (safe_step law safe sound run soundRun)) ?_)
    exact fun next soundNext => sound_finishLog soundNext
termination_by machine.size setup
decreasing_by exact shape ▸ next.2

end Machine

namespace Action

variable {setup : Setup} {Good : Val → Prop} (law : Val.Law setup.program.nodes.size Good)
include law

theorem sound_evaluateWithinLog (levels : Nat) (waiting : List Machine)
    {node : NodeId} (inside : node < setup.program.nodes.size) (env : Env) :
    (evaluateWithinLog setup levels waiting node env).Sound setup.program Good := by
  induction levels generalizing waiting node env with
  | zero => exact Log.sound_silent
  | succ levels ih =>
    have started := Machine.safe_start law inside env
    have finished := Log.sound_behind started fun machine sound =>
      Machine.sound_finishLog law
        (fun body env below => safe_evaluateWithin law levels below env)
        (fun waiting body env below => ih waiting below env) waiting sound
    intro run sound
    exact (Machine.sound_startLog started waiting).append finished _
      ⟨{ sound.holds with }, sound.calm⟩

theorem sound_evaluateLog (waiting : List Machine)
    {node : NodeId} (inside : node < setup.program.nodes.size) (env : Env) :
    (evaluateLog setup waiting node env).Sound setup.program Good :=
  fun run => sound_evaluateWithinLog law _ waiting inside env run

theorem sound_finishLog {machine : Machine} (sound : machine.Sound setup.program Good) :
    (finishLog setup machine).Sound setup.program Good :=
  Machine.sound_finishLog law (fun _ env inside => safe_evaluate law inside env)
    (fun waiting _ env inside => sound_evaluateLog law waiting inside env) [] sound

theorem sound_passLog (hasMain : setup.program.main?.isSome) :
    (passLog setup).Sound setup.program Good :=
  (Machine.sound_startLog (safe_mainMachine law hasMain) []).append
    (Log.sound_behind (safe_mainMachine law hasMain) fun _ sound => sound_finishLog law sound)

theorem sound_nextValueLog {condition next : NodeId}
    (insideCondition : condition < setup.program.nodes.size)
    (insideNext : next < setup.program.nodes.size) (env : Env) :
    (nextValueLog setup condition next env).Sound setup.program Good := by
  refine (sound_evaluateLog law [] insideCondition env).append
    (Log.sound_behind (safe_evaluate law insideCondition env) fun answer _ => ?_)
  split
  · exact sound_evaluateLog law [] insideNext env
  · exact Log.sound_silent

theorem sound_updateLog (id : NodeId) :
    (updateLog setup id).Sound setup.program Good := by
  intro run sound
  unfold updateLog
  split
  · next condition next _ reaction present found =>
    have inside : condition < setup.program.nodes.size ∧ next < setup.program.nodes.size :=
      ⟨Program.child_lt_size present (by simp [Node.children]),
        Program.child_lt_size present (by simp [Node.children])⟩
    exact Log.sound_behind (safe_beginUpdate (sound.holds.reactions.get? found))
      (fun env _ => sound_nextValueLog law inside.1 inside.2 env) run sound
  · simp

theorem sound_updateAllLog {ids : List NodeId}
    {run : Run} (sound : run.Sound Good) (inStep : run.InStep setup.program)
    (known : ∀ id ∈ ids, (run.reactions.get? id).isSome) :
    ∀ event ∈ updateAllLog setup ids run, event.Sound setup.program Good := by
  induction ids generalizing run with
  | nil => exact Log.sound_silent run sound
  | cons id rest ih =>
    refine forall_mem_append.mpr ⟨sound_updateLog law id run sound, ?_⟩
    have updated := ensures_update_with_others law sound inStep known
    simp only [behind]
    simp only [Ensures] at updated
    cases ended : update setup id run with
    | ok _ after =>
      rw [ended] at updated
      obtain ⟨soundAfter, inStepAfter, knownAfter⟩ := updated
      exact ih soundAfter inStepAfter knownAfter
    | error defect after => simp

end Action

end Reactor

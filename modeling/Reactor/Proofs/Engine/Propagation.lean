import Reactor.Proofs.Engine.Exceptions
import Reactor.Proofs.Engine.Refinement
import Reactor.Proofs.Run.Evolution

/-!
# Exceptions end an evaluation

In a program in which no node looks at exceptions and nothing reacts, the first exception that comes up
is the value of the whole evaluation, and all that happens after it is that frames complete with it.
No node is entered any more and no function is called.

This is proved along the course of evaluation, from the plans of natives over frames and machines to
machines inside one another.  Frames that wait for a value pass an exception on, so a machine that has
received one does nothing but complete its frames.
-/

namespace Reactor

open List

/-- The value that an outcome is, if it is not a body to be entered. -/
def Outcome.value? : Outcome → Option Val
  | complete value => some value
  | enter .. => none

namespace Action

open Event

/-! ### Calls -/

theorem steady_calm (program : Program) :
    Run.Steady program fun run => run.defect = none :=
  fun _ _ _ same _ calm => same.trans calm

/-- A call that a native makes.  Where a defect is kept, the value is an exception too, but none has
come up. -/
def Carries (action : Action Val) (log : Log) : Prop :=
  ∀ run : Run, run.defect = none →
    Ensures action run
      (fun value after =>
        (after.defect = none ∧ Ends (log run) (some value)) ∨
          (value.isException = true ∧ Quiet (log run)))
      (fun _ _ => False)

theorem Carries.bind
    {action : Action Val} {log : Log} {next : Val → Action Val} {logged : Val → Log}
    (first : Carries action log)
    (passes : ∀ value : Val, value.isException = true →
      next value = pure value ∧ logged value = .silent)
    (rest : ∀ value, Carries (next value) (logged value)) :
    Carries (action >>= next) fun run => log run ++ action.behind logged run := by
  intro run calm
  refine ensures_bind_behind
    (fun events value after =>
      (after.defect = none ∧ Ends (log run ++ events) (some value)) ∨
        (value.isException = true ∧ Quiet (log run ++ events)))
    (fun _ _ _ => False)
    ((first run calm).map ?_)
  intro value after carried
  cases raised : value.isException with
  | true =>
    rw [(passes value raised).1, (passes value raised).2]
    simpa [Log.silent] using carried
  | false =>
    rcases carried with ⟨calmAfter, ends⟩ | ⟨impossible, -⟩
    · have quiet := ends.quiet fun other same => Option.some.inj same ▸ raised
      refine (rest value after calmAfter).map ?_
      rintro final last (⟨calmLast, endsLast⟩ | ⟨raisedLast, quietLast⟩)
      · exact Or.inl ⟨calmLast, quiet.append_ends endsLast⟩
      · exact Or.inr ⟨raisedLast, quiet.append quietLast⟩
    · rw [raised] at impossible
      cases impossible

theorem Carries.reported {action : Action Val} {log : Log} (carries : Carries action log) :
    Propagates (action >>= Action.reported) log Outcome.value? fun _ => True := by
  intro run calm
  rw [ensures_bind]
  refine (carries run calm).imp ?_ fun _ _ impossible => impossible.elim
  intro value after carried
  simp only [Action.reported, takeDefect, ensures_bind, ensures_modifyGet]
  cases kept : after.defect with
  | none =>
    refine ⟨rfl, trivial, ?_⟩
    rcases carried with ⟨-, ends⟩ | ⟨-, quiet⟩
    · exact ends
    · exact Or.inl quiet
  | some defect =>
    rcases carried with ⟨impossible, -⟩ | ⟨-, quiet⟩
    · rw [kept] at impossible
      cases impossible
    · exact quiet

/-- Calls propagate exceptions if the evaluation of bodies does. -/
def propagating
    {evaluate : NodeId → Env → Action Val} {evaluated : NodeId → Env → Log}
    (propagates : ∀ body env,
      Propagates (evaluate body env) (evaluated body env) some fun _ => True)
    (waiting : List Machine) (node : NodeId) : Calling.Plain evaluate evaluated waiting node where
  Gives action log := Propagates action log Outcome.value? fun _ => True
  Answers := Carries
  enter function receiver args :=
    propagates_of_preserves (preserves_enter (steady_calm default) function receiver args node)
      fun _ => trivial
  complete _ := propagates_pure _ trivial
  done _ _ calm := Or.inl ⟨calm, Or.inl quiet_nil⟩
  chain := Carries.bind
  report := Carries.reported
  answer := by
    intro function args log gives
    have inside := Propagates.bind gives
      (fun outcome _ => show Propagates
          (match outcome with
            | .complete value => pure value
            | .enter body env => evaluate body env)
          (outcomeLog evaluated outcome) some fun _ => True by
        cases outcome with
        | complete value => exact propagates_pure value trivial
        | enter body env => exact propagates body env)
      (fun outcome exception _ isValue raised => by
        cases outcome with
        | complete value =>
          cases isValue
          exact fun run calm => ⟨calm, trivial, rfl, passing_nil⟩
        | enter body env => cases isValue)
    have calls : Quiet [.called waiting function args] := by simp [Quiet, raised?]
    rw [apply]
    intro run calm
    rw [ensures_bind, ensures_attempt]
    refine (inside run calm).imp ?_ ?_
    · rintro value after ⟨calmAfter, -, ends⟩
      exact Or.inl ⟨calmAfter, calls.append_ends ends⟩
    · intro defect after quiet
      exact Or.inr ⟨rfl, calls.append quiet⟩

theorem propagates_combine {setup : Setup} {evaluate : Evaluation} {evaluated : NodeId → Env → Log}
    (waiting : List Machine)
    (propagates : ∀ body env,
      Propagates (evaluate body env) (evaluated body env) some fun _ => True)
    (id : NodeId) (node : Node) (values : List Val) (env : Env) :
    Propagates (combine setup evaluate id node values env)
      (combineLog evaluate evaluated waiting id node values) Outcome.value? fun _ => True :=
  (propagating propagates waiting id).gives_combine node values env
    (fun simple => propagates_of_preserves
      (preserves_combine_of_not_calls (steady_calm default) id node values env simple)
      fun _ => trivial)
    (propagates_of_preserves (preserves_throw _) fun _ => trivial)

end Action

/-- Neither a test for the type of a value nor a reaction.  All other nodes pass exceptions on. -/
def Node.isPlain : Node → Bool
  | .is .. | .reaction .. => false
  | _ => true

/-- A program in which no node looks at exceptions and nothing reacts. -/
def Program.Plain (program : Program) : Prop :=
  ∀ node ∈ program.nodes.toList, node.isPlain = true

namespace Program

instance (program : Program) : Decidable program.Plain :=
  inferInstanceAs (Decidable (∀ node ∈ program.nodes.toList, node.isPlain = true))

variable {program : Program}

section

variable (plain : program.Plain) {id : NodeId} {node : Node}
  (present : program.node? id = some node)
include plain present

theorem Plain.isPlain : node.isPlain = true := by
  obtain ⟨inside, rfl⟩ := Array.getElem?_eq_some_iff.mp present
  exact plain _ (Array.mem_toList_iff.mpr (Array.getElem_mem inside))

theorem Plain.inspectsExceptions : node.inspectsExceptions = false := by
  have isPlain := plain.isPlain present
  cases node with
  | is subject tag => cases isPlain
  | _ => rfl

end

theorem Plain.initialKind_ne (plain : program.Plain) (id : NodeId) (phase : ReactionPhase) :
    Frame.initialKind program id ≠ .reaction phase := by
  unfold Frame.initialKind
  split
  · next present => cases plain.isPlain present
  · nofun
  · nofun

end Program

/-! ### Frames -/

/-- A frame that completes with an exception once it receives one. -/
def Frame.PassesOn (program : Program) (frame : Frame) : Prop :=
  match frame.kind with
  | .operands => ∃ node, program.node? frame.node = some node
  | .body => True
  | .borrow .source => ∃ source name, program.node? frame.node = some (.borrow source name)
  | .reaction _ | .borrow .enter => False

namespace Advance

variable {program : Program} {frame : Frame}

/-- The value of a frame that completes. -/
def value? : Advance program frame → Option Val
  | complete value => some value
  | descend .. => none

/-- A frame that descends will pass an exception on. -/
def PassesOn : Advance program frame → Prop
  | complete _ => True
  | descend next _ _ _ => next.PassesOn program

end Advance

namespace Frame

open Reactor.Action Event

variable {setup : Setup} {evaluate : Evaluation}
  {evaluated : NodeId → Env → Log} (waiting : List Machine)

theorem propagates_operands (propagates : ∀ body env,
      Propagates (evaluate body env) (evaluated body env) some fun _ => True)
    (id : NodeId) (env : Env) (values : List Val) :
    Propagates (advance setup evaluate ⟨id, .operands, env, values⟩)
      (log setup evaluate evaluated waiting ⟨id, .operands, env, values⟩)
      Advance.value? Advance.PassesOn := by
  intro run calm
  cases present : setup.program.node? id with
  | none =>
    rw [advance_missing present]
    simp only [log, combines?, present]
    exact quiet_nil
  | some node =>
    cases passed : passedOn? node values with
    | some exception =>
      rw [advance_passes present passed]
      simp only [log, combines?, present, passed]
      exact ⟨calm, trivial, Or.inl quiet_nil⟩
    | none =>
      cases next : node.operands[values.length]? with
      | some child =>
        obtain ⟨lower, advanced⟩ := advance_operand present passed next env
        rw [advanced]
        simp only [log, combines?, present, passed, next]
        exact ⟨calm, ⟨node, present⟩, Or.inl quiet_nil⟩
      | none =>
        obtain ⟨lower, advanced⟩ := advance_combine present passed next env
        rw [advanced, ensures_bind]
        simp only [log, combines?, present, passed, next]
        refine (propagates_combine waiting propagates id node values env run calm).map ?_
        rintro outcome after ⟨calmAfter, -, ends⟩
        cases outcome with
        | complete value => exact ⟨calmAfter, trivial, ends⟩
        | enter body inner => exact ⟨calmAfter, trivial, ends⟩

theorem propagates_enterBorrow (frame : Frame) (kind : frame.kind = .borrow .enter) :
    Propagates (frame.enterBorrow setup kind) Log.silent Advance.value? Advance.PassesOn := by
  intro run calm
  unfold enterBorrow borrowParts
  split
  · next source name present =>
    simp only [pure_bind]
    split
    · exact ⟨calm, trivial, Or.inl quiet_nil⟩
    · simp only [ensures_bind, ensures_get]
      split
      · exact ⟨calm, trivial, Or.inl quiet_nil⟩
      · split
        · exact ⟨calm, trivial, Or.inl quiet_nil⟩
        · exact ⟨calm, ⟨source, name, present⟩, Or.inl quiet_nil⟩
  · exact quiet_nil

theorem propagates_finishBorrow (frame : Frame) :
    Propagates (frame.finishBorrow setup) Log.silent Advance.value? Advance.PassesOn := by
  intro run calm
  unfold finishBorrow borrowParts
  split
  · simp only [pure_bind, ensures_bind, ensures_modify]
    split
    · exact quiet_nil
    · exact ⟨calm, trivial, Or.inl quiet_nil⟩
  · exact quiet_nil

theorem propagates_advanceBody (frame : Frame) :
    Propagates (frame.advanceBody setup) Log.silent Advance.value? Advance.PassesOn := by
  intro run calm
  unfold advanceBody
  split
  · exact ⟨calm, trivial, Or.inl quiet_nil⟩
  · exact quiet_nil

theorem propagates_advance (plain : setup.program.Plain) (propagates : ∀ body env,
      Propagates (evaluate body env) (evaluated body env) some fun _ => True)
    {frame : Frame}
    (ready : frame.PassesOn setup.program ∨ ∃ id env, frame = .fresh setup.program id env) :
    Propagates (frame.advance setup evaluate) (frame.log setup evaluate evaluated waiting)
      Advance.value? Advance.PassesOn := by
  rcases frame with ⟨id, kind, env, values⟩
  cases kind with
  | operands => exact propagates_operands waiting propagates id env values
  | body => exact propagates_advanceBody _
  | reaction phase =>
    rcases ready with impossible | ⟨other, inner, isFresh⟩
    · exact impossible.elim
    · exact (plain.initialKind_ne other phase (congrArg Frame.kind isFresh).symm).elim
  | borrow phase =>
    cases phase with
    | enter => exact propagates_enterBorrow _ rfl
    | source => exact propagates_finishBorrow _

theorem passes_advance (plain : setup.program.Plain)
    {frame : Frame} (passesOn : frame.PassesOn setup.program)
    {exception : Val} (received : frame.values.getLast? = some exception)
    (raised : exception.isException = true) :
    Passes (frame.advance setup evaluate) (frame.log setup evaluate evaluated waiting)
      Advance.value? Advance.PassesOn exception := by
  intro run calm
  rcases frame with ⟨id, kind, env, values⟩
  cases kind with
  | operands =>
    obtain ⟨node, present⟩ := passesOn
    have passed : passedOn? node values = some exception := by
      simp_all [passedOn?, plain.inspectsExceptions present]
    rw [advance_passes present passed]
    simp only [log, combines?, present, passed]
    exact ⟨calm, trivial, rfl, passing_nil⟩
  | body =>
    have advanced : advance setup evaluate ⟨id, .body, env, values⟩ =
        advanceBody setup ⟨id, .body, env, values⟩ := rfl
    simp only [advanced, advanceBody, received]
    exact ⟨calm, trivial, rfl, passing_nil⟩
  | reaction phase => exact passesOn.elim
  | borrow phase =>
    cases phase with
    | enter => exact passesOn.elim
    | source =>
      obtain ⟨source, name, present⟩ := passesOn
      have advanced : advance setup evaluate ⟨id, .borrow .source, env, values⟩ =
          finishBorrow setup ⟨id, .borrow .source, env, values⟩ := rfl
      simp only [advanced, finishBorrow, borrowParts_eq present, pure_bind, received]
      exact ⟨calm, trivial, rfl, passing_nil⟩

end Frame

/-! ### Machines -/

namespace Machine

open Reactor.Action Event

variable {setup : Setup} {evaluate : Evaluation}
  {evaluated : List Machine → NodeId → Env → Log} (waiting : List Machine)

/-- All frames pass an exception on, from the active one down to the result. -/
def PassesOn (program : Program) (machine : Machine) : Prop :=
  ∀ frame ∈ machine.frames, frame.PassesOn program

/-- All frames pass an exception on, but for an active one that has just been entered. -/
def Ready (program : Program) (machine : Machine) : Prop :=
  machine.PassesOn program ∨
    ∃ lower id env, machine = push lower (.fresh program id env) ∧ lower.PassesOn program

variable {machine : Machine} {frame : Frame}

theorem PassesOn.deliver {program : Program} (passesOn : machine.PassesOn program) (value : Val) :
    (machine.deliver value).PassesOn program := by
  rcases machine with ⟨_ | ⟨top, rest⟩, depth, depth_eq, result⟩
  · exact passesOn
  · obtain ⟨topPasses, restPasses⟩ := forall_mem_cons.mp passesOn
    exact forall_mem_cons.mpr ⟨topPasses, restPasses⟩

@[simp]
theorem received?_deliver (machine : Machine) (value : Val) :
    (machine.deliver value).received? = some value := by
  rcases machine with ⟨_ | ⟨top, rest⟩, depth, depth_eq, result⟩
  · rfl
  · simp [Machine.deliver, received?, Frame.receive]

theorem Enters.ready {program : Program} {next : Machine} (enters : machine.Enters program next)
    (passesOn : machine.PassesOn program) : next.Ready program := by
  rcases enters with ⟨value, rfl⟩ | ⟨node, env, rfl⟩
  · exact .inl (passesOn.deliver value)
  · exact .inr ⟨machine, node, env, rfl, passesOn⟩

theorem Ready.passesOn {program : Program} {machine : Machine} (ready : machine.Ready program)
    {value : Val} (received : machine.received? = some value) :
    machine.PassesOn program := by
  rcases ready with passesOn | ⟨lower, id, env, rfl, -⟩
  · exact passesOn
  · cases received

theorem Ready.of_push {program : Program} (ready : (machine.push frame).Ready program) :
    (frame.PassesOn program ∨ ∃ id env, frame = .fresh program id env) ∧
      machine.PassesOn program := by
  rcases ready with passesOn | ⟨lower, id, env, same, passesOn⟩
  · obtain ⟨framePasses, restPasses⟩ := forall_mem_cons.mp passesOn
    exact ⟨Or.inl framePasses, restPasses⟩
  · have frames := List.cons.inj (congrArg Machine.frames same)
    refine ⟨Or.inr ⟨id, env, frames.1⟩, ?_⟩
    unfold PassesOn
    rw [frames.2]
    exact passesOn

theorem propagates_step (plain : setup.program.Plain) (propagates : ∀ waiting body env,
      Propagates (evaluate body env) (evaluated waiting body env) some fun _ => True)
    (ready : (machine.push frame).Ready setup.program) :
    Propagates ((machine.push frame).step setup evaluate)
      ((machine.push frame).stepLog setup evaluate evaluated waiting) received?
      (Ready setup.program) := by
  obtain ⟨frameReady, passesOn⟩ := ready.of_push
  let inner := machine.push frame :: waiting
  have frameEnds := Frame.propagates_advance inner plain (propagates inner) frameReady
  rw [stepLog_push]
  intro run calm
  refine ensures_behind
    (fun events next after => after.defect = none ∧ Ready setup.program next ∧
      Ends (frame.log setup evaluate (evaluated inner) inner run ++ events) next.received?)
    (fun events _ _ => Quiet (frame.log setup evaluate (evaluated inner) inner run ++ events)) ?_
  rw [step_push_eq, ensures_bind]
  refine (frameEnds run calm).imp ?_ fun _ _ quiet => quiet.append quiet_nil
  rintro advance after ⟨calmAfter, framePasses, ends⟩
  cases advance with
  | complete value =>
    have received := received?_deliver machine value
    have lower : (machine.deliver value).depth < (machine.push frame).depth := by simp
    refine ⟨calmAfter, Or.inl (passesOn.deliver value), ?_⟩
    show Ends _ (machine.deliver value).received?
    rw [received]
    exact ends.append_completed lower received
  | descend next child env lower =>
    have quiet := ends.quiet nofun
    have waits : (machine.push next).PassesOn setup.program :=
      forall_mem_cons.mpr ⟨framePasses, passesOn⟩
    refine (ensures_enter _ child env after).imp ?_ fun _ _ impossible => impossible.elim
    rintro entered _ ⟨⟨scopes, rfl⟩, enters⟩
    exact ⟨calmAfter, enters.ready waits, quiet.append_moved _⟩

theorem passes_step (plain : setup.program.Plain)
    (passesOn : (machine.push frame).PassesOn setup.program)
    {exception : Val} (received : (machine.push frame).received? = some exception)
    (raised : exception.isException = true) :
    Passes ((machine.push frame).step setup evaluate)
      ((machine.push frame).stepLog setup evaluate evaluated waiting) received?
      (PassesOn setup.program) exception := by
  obtain ⟨framePasses, restPasses⟩ := forall_mem_cons.mp passesOn
  let inner := machine.push frame :: waiting
  have completes : Passes (frame.advance setup evaluate)
      (frame.log setup evaluate (evaluated inner) inner) Advance.value? Advance.PassesOn exception :=
    Frame.passes_advance inner plain framePasses received raised
  rw [stepLog_push]
  intro run calm
  refine ensures_behind
    (fun events next after => after.defect = none ∧ PassesOn setup.program next ∧
      next.received? = some exception ∧
        Passing exception (frame.log setup evaluate (evaluated inner) inner run ++ events))
    (fun _ _ _ => False) ?_
  rw [step_push_eq, ensures_bind]
  refine (completes run calm).map ?_
  rintro advance after ⟨calmAfter, -, isValue, passing⟩
  cases advance with
  | complete value =>
    cases isValue
    have lower : (machine.deliver exception).depth < (machine.push frame).depth := by simp
    have delivered := received?_deliver machine exception
    refine ⟨calmAfter, PassesOn.deliver restPasses exception, delivered, ?_⟩
    exact forall_mem_append.mpr ⟨passing, forall_mem_singleton.mpr ⟨lower, delivered⟩⟩
  | descend next child env lower => cases isValue

theorem passes_finish (plain : setup.program.Plain)
    {machine : Machine} (passesOn : machine.PassesOn setup.program)
    {exception : Val} (received : machine.received? = some exception)
    (raised : exception.isException = true) :
    Passes (machine.finish setup evaluate) (machine.finishLog setup evaluate evaluated waiting)
      received? (fun final => final.frames = []) exception := by
  rcases eq_nil_or_push machine with empty | ⟨lower, frame, shape⟩
  · rw [finish_of_nil empty, finishLog_of_nil waiting empty]
    exact fun run calm => ⟨calm, empty, received, passing_nil⟩
  · rw [shape] at passesOn received
    rw [shape, finish_push, finishLog_push]
    refine Passes.bind (fun run calm => (ensures_bind _ _).mp
      (passes_step waiting plain passesOn received raised run calm)) ?_
    intro next nextPasses nextReceived
    exact passes_finish plain nextPasses nextReceived raised
termination_by machine.size setup
decreasing_by exact shape ▸ next.2

theorem propagates_finish (plain : setup.program.Plain) (propagates : ∀ waiting body env,
      Propagates (evaluate body env) (evaluated waiting body env) some fun _ => True)
    {machine : Machine} (ready : machine.Ready setup.program) :
    Propagates (machine.finish setup evaluate)
      (machine.finishLog setup evaluate evaluated waiting)
      received? fun final => final.frames = [] := by
  rcases eq_nil_or_push machine with empty | ⟨lower, frame, shape⟩
  · rw [finish_of_nil empty, finishLog_of_nil waiting empty]
    exact propagates_pure machine empty
  · rw [shape] at ready
    rw [shape, finish_push, finishLog_push]
    refine Propagates.bind (fun run calm => (ensures_bind _ _).mp
      (propagates_step waiting plain propagates ready run calm)) ?_ ?_
    · intro next nextReady
      exact propagates_finish plain propagates nextReady
    · intro next exception nextReady nextReceived raised
      exact passes_finish waiting plain (nextReady.passesOn nextReceived) nextReceived raised
termination_by machine.size setup
decreasing_by exact shape ▸ next.2

theorem propagates_startLog {start : Action Machine} (begins : ∀ run : Run, run.defect = none →
      Ensures start run
        (fun machine after => after.defect = none ∧ machine.Ready setup.program)
        (fun _ _ => True)) :
    Propagates start (startLog waiting start) received? (Ready setup.program) := by
  intro run calm
  refine ensures_behind
    (fun events machine after =>
      after.defect = none ∧ Ready setup.program machine ∧ Ends events machine.received?)
    (fun events _ _ => Quiet events) ((begins run calm).imp ?_ fun _ _ _ => quiet_nil)
  rintro machine after ⟨calmAfter, ready⟩
  exact ⟨calmAfter, ready, quiet_nil.append_moved _⟩

theorem ensures_start
    (setup : Setup) (node : NodeId) (env : Env) (run : Run) (calm : run.defect = none) :
    Ensures (start setup node env) run
      (fun machine after => after.defect = none ∧ machine.Ready setup.program)
      (fun _ _ => True) := by
  refine (ensures_enter empty node env run).imp ?_ fun _ _ _ => trivial
  rintro next _ ⟨⟨scopes, rfl⟩, enters⟩
  exact ⟨calm, enters.ready (forall_mem_nil _)⟩

end Machine

/-! ### Evaluation -/

namespace Action

open Event

theorem propagates_mainMachine (setup : Setup) :
    Propagates (mainMachine setup) (Machine.startLog [] (mainMachine setup)) Machine.received?
      (Machine.Ready setup.program) := by
  refine Machine.propagates_startLog [] ?_
  intro run calm
  unfold mainMachine
  split
  · exact Machine.ensures_start setup _ _ _ calm
  · trivial

variable {setup : Setup} (plain : setup.program.Plain)
include plain

/-- A machine of its own ends with the first exception that comes up on it or on a machine inside of
it.  The induction is on the levels of nesting. -/
theorem propagates_evaluateWithin (levels : Nat) (waiting : List Machine) (node : NodeId)
    (env : Env) :
    Propagates (evaluateWithin setup levels node env)
      (evaluateWithinLog setup levels waiting node env) some fun _ => True := by
  induction levels generalizing waiting node env with
  | zero => exact propagates_pure _ trivial
  | succ levels ih =>
    have finishes := (Machine.propagates_startLog waiting
        (Machine.ensures_start setup node env)).bind
      (fun machine ready => Machine.propagates_finish waiting plain ih ready)
      (fun machine exception ready received raised =>
        Machine.passes_finish waiting plain (ready.passesOn received) received raised)
    intro run calm
    rw [evaluateWithin, ensures_bind, ensures_modify, ensures_bind, ensures_cleaningUp]
    refine (finishes { run with nesting := run.nesting + 1 } calm).map ?_
    rintro machine after ⟨calmAfter, done, ends⟩
    have received : machine.received? = machine.result := by simp [Machine.received?, done]
    rw [received] at ends
    cases result : machine.result with
    | some value => exact ⟨calmAfter, trivial, result ▸ ends⟩
    | none => exact (result ▸ ends).quiet fun _ impossible => by cases impossible

theorem propagates_evaluate (waiting : List Machine) (node : NodeId) (env : Env) :
    Propagates (evaluate setup node env) (evaluateLog setup waiting node env) some fun _ => True :=
  fun run calm => propagates_evaluateWithin plain _ waiting node env run calm

theorem propagates_pass :
    Propagates (pass setup) (passLog setup) Machine.received?
      fun machine => machine.frames = [] :=
  (propagates_mainMachine setup).bind
    (fun _ ready => Machine.propagates_finish [] plain (propagates_evaluate plain) ready)
    (fun _ _ ready received raised =>
      Machine.passes_finish [] plain (ready.passesOn received) received raised)

/-- One step of a machine on which an exception may have come up. -/
theorem ensures_step_of_ends
    {machine : Machine} (ready : machine.Ready setup.program)
    {events : List Event} (ends : Ends events machine.received?)
    {run : Run} (calm : run.defect = none) :
    let stepped := machine.stepLog setup (evaluate setup) (evaluateLog setup) [] run
    Ensures (machine.step setup (evaluate setup)) run
      (fun next after => after.defect = none ∧ next.Ready setup.program ∧
        Ends (events ++ stepped) next.received?)
      (fun _ _ => Quiet (events ++ stepped)) := by
  rcases machine.eq_nil_or_push with empty | ⟨lower, frame, rfl⟩
  · rw [Machine.step_of_nil empty, Machine.stepLog_of_nil [] empty]
    exact ⟨calm, ready, by rwa [Log.silent, append_nil]⟩
  · refine ensures_of_ends ends
      (Machine.propagates_step [] plain (propagates_evaluate plain) ready) ?_ calm
    intro exception received raised run calm
    exact (Machine.passes_step [] plain (ready.passesOn received) received raised run calm).map
      fun _ _ passed => passed.imp_right (.imp_left .inl)

end Action

end Reactor

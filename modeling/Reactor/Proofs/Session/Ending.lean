import Reactor.Proofs.Session.Moves
import Reactor.Proofs.Session.Safety

/-!
# Every run ends

A run that is under way has a machine, and each step makes it smaller until the main source has a value
or a defect halts the run.  So the size of the machine tells how many steps are left, and a call that
goes on to the end makes no more of them than a call that counts its steps.

A session that is sound meets no defect: its run comes to a value.
-/

namespace Reactor

namespace Session

variable {setup : Setup} {session : Session} {machine : Machine}

/-- No run takes more steps than this before it is over. -/
def stepsLeft (session : Session) : Nat :=
  match session.machine with
  | some machine => machine.size session.setup
  | none => 0

theorem stepsLeft_of_machine (present : session.machine = some machine) :
    session.stepsLeft = machine.size session.setup := by
  simp only [stepsLeft, present]

/-! ### Steps -/

section

variable (running : session.state = .running)
include running

theorem step_of_running (present : session.machine = some machine) :
    Call.step session =
      (do Call.afterStep (← Call.perform
        (machine.step session.setup (Action.evaluate session.setup))) : Call Bool) session := by
  simp only [Call.step, Call.activeMachine, bind, EStateM.bind, get_apply, running, present]
  rfl

theorem ensures_step_of_running :
    Ensures Call.step session
      (fun done after => done = true ∧ after.state = .done ∨
        done = false ∧ after.state = .running ∧ after.stepsLeft < session.stepsLeft)
      (fun fault after => ∃ defect, fault = .defect defect ∧ after.state = .halted defect) := by
  cases present : session.machine with
  | none =>
    simp only [Call.step, Call.activeMachine, ensures_bind, ensures_get, running, present,
      Call.ensures_perform, ensures_throw]
    exact ⟨_, rfl, rfl⟩
  | some machine =>
    rw [Ensures, step_of_running running present]
    show Ensures _ session _ _
    rw [ensures_bind, Call.ensures_perform]
    refine (ensures_end _ _).imp ?_ fun defect _ _ => ⟨defect, rfl, rfl⟩
    intro next last moved
    obtain ⟨notices, told⟩ := Call.afterStep_eq next { session with run := last }
    rw [Ensures, told]
    cases done : next.isDone with
    | true =>
      simp only [settled, done, if_true]
      exact Or.inl ⟨trivial, rfl⟩
    | false =>
      simp only [settled, done, Bool.false_eq_true, if_false]
      refine Or.inr ⟨trivial, running, ?_⟩
      rw [stepsLeft_of_machine rfl, stepsLeft_of_machine present]
      exact Machine.size_of_step moved done

theorem over_of_steps {steps : Nat} (enough : session.stepsLeft < steps) :
    (session.course (List.replicate steps .step)).2.Over := by
  induction steps generalizing session with
  | zero => exact absurd enough (Nat.not_lt_zero _)
  | succ steps ih =>
    have stepped : (HostCall.step.outcome session).2.Over ∨
        (HostCall.step.outcome session).2.state = .running ∧
          (HostCall.step.outcome session).2.stepsLeft < session.stepsLeft := by
      refine HostCall.outcome_of_ensures
        (fun _ after => after.Over ∨ after.state = .running ∧ after.stepsLeft < session.stepsLeft) ?_
      simp only [HostCall.perform, ensures_bind]
      refine (ensures_step_of_running running).imp
        (fun _ _ led => led.imp (fun ended => Or.inl ended.2) And.right) ?_
      rintro _ _ ⟨defect, _, halted⟩
      exact Or.inl (Or.inr ⟨defect, halted⟩)
    rw [List.replicate_succ, course_cons]
    rcases stepped with ended | ⟨goesOn, fewer⟩
    · rw [course_steps_of_over ended]
      exact ended
    · exact ih goesOn (Nat.lt_of_lt_of_le fewer (Nat.le_of_lt_succ enough))

end

theorem Sound.done_of_steps {Good : Val → Prop} (law : Val.Law setup.program.nodes.size Good)
    (sound : session.Sound setup Good) (running : session.state = .running)
    {steps : Nat} (enough : session.stepsLeft < steps) :
    (session.course (List.replicate steps .step)).2.state = .done := by
  have after : (session.course (List.replicate steps .step)).2.Sound setup Good := by
    refine (course_keeps (Sound setup Good) (· = .step) (fun _ => True) ?_ _ ?_ session sound).2
    · rintro _ before rfl soundBefore
      exact ⟨trivial, (HostCall.path_of_goes (Call.goes_step rfl).answer).keeps
        (fun sound move => (sound.move law (Or.inl rfl) (List.forall_mem_nil _) move).1) soundBefore⟩
    · exact fun _ mem => List.eq_of_mem_replicate mem
  rcases over_of_steps running enough with done | ⟨defect, halted⟩
  · exact done
  · exact absurd halted (after.not_halted defect)

end Session

/-! ### Going on to the end -/

namespace Call

variable {session : Session} {machine : Machine}

theorem runFor_eq_drive
    (running : session.state = .running) (present : session.machine = some machine)
    {budget : Nat} (enough : machine.size session.setup < budget) :
    runFor budget session =
      (do
        drive session.setup machine
        return true : Call Bool) session := by
  induction budget generalizing session machine with
  | zero => exact absurd enough (Nat.not_lt_zero _)
  | succ budget ih =>
    have stepped := Session.step_of_running running present
    rw [drive_eq_step]
    simp only [runFor, bind, EStateM.bind, stepped, perform, performOr]
    cases moved : machine.step session.setup (Action.evaluate session.setup) session.run with
    | error defect last => rfl
    | ok next last =>
      obtain ⟨notices, told⟩ := afterStep_eq next { session with run := last }
      simp only [told, Session.settled]
      cases done : next.isDone with
      | true => rfl
      | false =>
        exact @ih { session with run := last, machine := some next, notices } next running rfl
          (Nat.lt_of_lt_of_le (Machine.size_of_step moved done) (Nat.le_of_lt_succ enough))

theorem runFor_eq_driveOn
    (running : session.state = .running) {budget : Nat} (enough : session.stepsLeft < budget) :
    runFor budget session =
      (do
        driveOn
        return true : Call Bool) session := by
  cases present : session.machine with
  | none =>
    obtain ⟨rest, rfl⟩ : ∃ rest, budget = rest + 1 := ⟨budget - 1, by omega⟩
    simp only [runFor, step, driveOn, activeMachine, bind, EStateM.bind, get_apply, running, present]
    rfl
  | some machine =>
    rw [Session.stepsLeft_of_machine present] at enough
    rw [runFor_eq_drive running present enough]
    simp only [driveOn, activeMachine, bind, EStateM.bind, get_apply, running, present]
    rfl

theorem ensures_flush_fault (session : Session) :
    Ensures flush session (fun _ _ => True) fun fault _ =>
      (∃ defect, fault = .defect defect) ∨ ∃ defect, session.state = .halted defect ∧
        fault = .halted defect := by
  have ends : ∀ {α : Type} (action : Action α) (session : Session) {good : α → Session → Prop}
      {bad : Fault → Prop}, (∀ value after, good value after) →
        Ensures (perform action) session good fun fault _ =>
          (∃ defect, fault = .defect defect) ∨ bad fault := by
    intro α action session good bad rest
    rw [ensures_perform]
    exact (ensures_end action session.run).imp (fun value _ _ => rest value _)
      fun defect _ _ => Or.inl ⟨defect, rfl⟩
  simp only [flush, refuseHalted, takeIn, commitStreams, rerun, bind_assoc, ensures_bind, ensures_get]
  split
  · next defect state => exact Or.inr ⟨defect, state, rfl⟩
  · simp only [ensures_pure, ensures_modify]
    refine ends _ _ fun _ _ => ends _ _ fun _ _ => ?_
    split
    · simp only [ensures_bind, ensures_get]
      exact ends _ _ fun _ _ => trivial
    · exact trivial

theorem isFatal_of_flush (session : Session) :
    Ensures flush session (fun _ _ => True) fun fault _ => fault.isFatal = true := by
  refine (ensures_flush_fault session).imp (fun _ _ _ => trivial) ?_
  rintro _ _ (⟨defect, rfl⟩ | ⟨defect, -, rfl⟩)
  · rfl
  · rfl

end Call

theorem Machine.exists_value_of_sound
    {setup : Setup} {Good : Val → Prop} (law : Val.Law setup.program.nodes.size Good)
    {machine : Machine} (sound : machine.Sound setup.program Good)
    {run : Run} (soundRun : run.Sound Good) :
    ∃ final last value, machine.finish setup (Action.evaluate setup) run = .ok final last ∧
      final.isDone = true ∧ final.result = some value := by
  have finished := (machine.safe_finish law
    (fun _ env inside => Action.safe_evaluate law inside env) sound run soundRun).and
      (ensures_finish_isDone machine run)
  simp only [Ensures] at finished
  cases ended : machine.finish setup (Action.evaluate setup) run with
  | ok final last =>
    rw [ended] at finished
    obtain ⟨⟨-, value, result, -⟩, done⟩ := finished
    exact ⟨final, last, value, rfl, done, result⟩
  | error defect last =>
    rw [ended] at finished
    exact finished.1.elim

namespace Session

/-! ### Every evaluation ends -/

/-- Evaluations inside of steps end.  Whatever is put in the place of deeper calls, of machines further
inside and of further steps makes no difference. -/
structure EvaluationsEnd (setup : Setup) : Prop where
  /-- Natives that apply natives go no deeper than the first function and its inputs are large. -/
  natives : ∀ evaluate beyond node function args depth, function.weight args < depth →
    Action.applyFor evaluate beyond node depth function args =
      Action.apply evaluate node function args
  /-- Machines inside one another go no deeper than the limit allows. -/
  nested : ∀ beyond node env (run : Run) budget depth,
    Machine.stepLimit setup ≤ budget → setup.limits.nesting - run.nesting < depth →
      Action.evaluateFor setup beyond budget depth node env run =
        Action.evaluate setup node env run
  /-- A pass takes no more steps than the program and the limits tell. -/
  pass : ∀ budget, Machine.stepLimit setup ≤ budget →
    Action.pass setup =
      (do (← Action.mainMachine setup).runFor setup (Action.evaluate setup) budget)

/-- Machines end, and they end with a value where nothing refers to nodes that are not there. -/
structure MachinesEnd (setup : Setup) (Good : Val → Prop) : Prop where
  /-- A machine takes no more steps than its size tells. -/
  done : ∀ (machine : Machine) (run : Run) budget, machine.size setup ≤ budget →
    Ensures (machine.runFor setup (Action.evaluate setup) budget) run
      (fun final _ => final.isDone = true) (fun _ _ => True)
  value : ∀ (machine : Machine) (run : Run) budget, machine.size setup ≤ budget →
    machine.Sound setup.program Good → run.Sound Good → ∃ final last value,
      machine.runFor setup (Action.evaluate setup) budget run = .ok final last ∧
        final.isDone = true ∧ final.result = some value

/-- A run that is under way is over after finitely many steps. -/
structure RunEnds (setup : Setup) (Good : Val → Prop) (session : Session) : Prop where
  ended : ∀ steps, session.stepsLeft < steps →
    (session.course (List.replicate steps .step)).2.Over
  done : ∀ steps, session.stepsLeft < steps → session.Sound setup Good →
    (session.course (List.replicate steps .step)).2.state = .done
  /-- A call that goes on to the end makes no more steps. -/
  runFor : ∀ steps, session.stepsLeft < steps →
    Call.runFor steps session =
      (do
        Call.driveOn
        return true : Call Bool) session

/-- Runs and flushes are refused for a defect only, and where there is none they succeed. -/
structure CallsEnd (setup : Setup) (Good : Val → Prop) (session : Session) : Prop where
  run : ∀ fault after, Call.run session = .error fault after → fault.isFatal = true
  flush : ∀ fault after, Call.flush session = .error fault after → fault.isFatal = true
  succeed : setup.program.main?.isSome → session.Sound setup Good →
    (∃ value after, Call.run session = .ok value after) ∧
      ∃ after, Call.flush session = .ok () after

/--
Every evaluation ends, for all values, scopes and runs.  So a run is over after finitely many steps, with
a value unless a defect halts it, and runs and flushes are refused for no other reason.  Where the bodies
of all functions are nodes of the program there is no defect, so then every run ends with a value, and
runs and flushes succeed.  This is so in all sessions that a host can reach with such functions.
-/
theorem every_evaluation_ends (program : Program) (limits : Limits) :
    let setup : Setup := ⟨program, limits⟩
    let Good := Val.Closed program.nodes.size
    EvaluationsEnd setup ∧ MachinesEnd setup Good ∧
      (∀ session : Session, session.state = .running → session.RunEnds setup Good) ∧
      (∀ session : Session, session.CallsEnd setup Good) ∧
      ∀ calls : List HostCall, program.main?.isSome →
        (∀ call ∈ calls, ∀ value ∈ call.values, Good value) →
          ((create program limits).course calls).2.Sound setup Good := by
  intro setup Good
  have law : Val.Law setup.program.nodes.size Good := Val.closed_law program.nodes.size
  refine ⟨⟨?natives, ?nested, ?pass⟩, ⟨?machines, ?values⟩, ?steps, ?calls, ?reachable⟩
  case natives =>
    intro evaluate beyond node function args depth deep
    exact Action.applyFor_eq_apply node deep
  case nested =>
    intro beyond node env run budget depth enough deep
    exact Action.evaluateFor_eq_evaluate enough node env deep
  case pass =>
    intro budget enough
    exact Action.pass_eq_runFor enough
  case machines =>
    intro machine run budget enough
    rw [Machine.runFor_eq_finish enough]
    exact Machine.ensures_finish_isDone machine run
  case values =>
    intro machine run budget enough sound soundRun
    rw [Machine.runFor_eq_finish enough]
    exact Machine.exists_value_of_sound law sound soundRun
  case steps =>
    intro session running
    exact ⟨fun _ => over_of_steps running, fun _ enough sound => sound.done_of_steps law running enough,
      fun _ => Call.runFor_eq_driveOn running⟩
  case calls =>
    intro session
    refine ⟨?_, ?_, ?_⟩
    · intro fault after refused
      have ends := @Call.goes_run session
      rw [Call.Goes, Ensures, refused] at ends
      exact (ends.2 (Or.inl rfl)).1
    · intro fault after refused
      simpa [Ensures, refused] using Call.isFatal_of_flush session
    · intro hasMain sound
      exact ⟨Session.exists_run_eq law hasMain sound, Session.exists_flush_eq law hasMain sound⟩
  case reachable =>
    intro calls hasMain closed
    exact (sound_course law hasMain (sound_create program limits) calls closed).2

/-- A function has a native apply it again and again, and a native is applied to itself. -/
theorem every_evaluation_ends_in_endless_recursion :
    let program := Program.ofExpr (.block
      [.function (some "f") ["x"] (.call (.access (.list [.name "x"]) "translate") [.name "f"]),
        .call (.name "f") [.bool true]])
    let setup : Setup := ⟨program, ⟨8, 2⟩⟩
    let session := ((create program ⟨8, 2⟩).course [.start]).2
    let native : Val := .native (.list [.bool true]) "translate"
    (program.main?.isSome ∧ session.state = .running) ∧ (∀ node,
        Action.applyFor (Action.evaluate setup) (fun _ _ => throw .noMachine) node
            (native.weight [native] + 1) native [native] =
          Action.apply (Action.evaluate setup) node native [native]) ∧
      (∀ node env,
        Action.evaluateFor setup (fun _ _ => throw .noMachine) (Machine.stepLimit setup) 3 node env
            session.run =
          Action.evaluate setup node env session.run) ∧
      (session.course (List.replicate (session.stepsLeft + 1) .step)).2.state = .done ∧
      (∃ value after, Call.run session = .ok value after) ∧
      ∃ after, Call.flush session = .ok () after := by
  intro program setup session native
  have hasMain : program.main?.isSome := rfl
  have running : session.state = .running := rfl
  obtain ⟨⟨natives, nested, -⟩, -, steps, calls, reachable⟩ := every_evaluation_ends program ⟨8, 2⟩
  have sound : session.Sound setup (Val.Closed program.nodes.size) :=
    reachable [.start] hasMain (by simp [HostCall.values])
  clear_value session
  refine ⟨⟨hasMain, running⟩, ?_, ?_, ?_, ?_⟩
  · intro node
    exact natives _ _ node native [native] _ (Nat.lt_add_one _)
  · intro node env
    exact nested _ node env session.run _ 3 (Nat.le_refl _) (Nat.lt_succ_of_le (Nat.sub_le ..))
  · exact (steps session running).done _ (Nat.lt_add_one _) sound
  · exact (calls session).succeed hasMain sound

/--
A run need not come to a value.  The host has provided a function whose body is no node of the program,
and the fourth step is about to evaluate it.  It reports a defect, and no number of steps leads further.
-/
theorem function_without_body_is_never_done :
    let program := Program.ofExpr (.call (.stream "f") [])
    let function : Val := .closure ⟨⟨.host, 0⟩, none, [], 9, []⟩
    let session := ((create program ⟨8, 1⟩).course
      [.registerWith "f" .any (some function), .start]).2
    session.state = .running ∧
      (session.course (List.replicate 4 .step)).2.state = .halted (.unknownNode 9) ∧
      ∀ steps, (session.course (List.replicate steps .step)).2.state ≠ .done := by
  intro program function session
  have running : session.state = .running := rfl
  have halted : (session.course (List.replicate 4 .step)).2.state = .halted (.unknownNode 9) := rfl
  refine ⟨running, halted, ?_⟩
  intro steps done
  have later : (session.course (List.replicate (steps + 4) .step)).2.state =
      .halted (.unknownNode 9) := by
    rw [Nat.add_comm, ← List.replicate_append_replicate, course_append,
      course_steps_of_over (Or.inr ⟨_, halted⟩)]
    exact halted
  rw [← List.replicate_append_replicate, course_append, course_steps_of_over (Or.inl done), done] at later
  cases later

end Session

end Reactor

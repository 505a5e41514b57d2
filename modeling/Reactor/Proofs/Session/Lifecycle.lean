import Reactor.Proofs.Engine.Calmness
import Reactor.Proofs.Session.Isolation

/-!
# The lifecycle of a session

The parts of a session depend on one another: a machine is held while a run is under way and at no other
time, a run that is done has its result, and a session without a run has no reactions.  Every call takes
some of these parts apart and has to leave them together again.  `Session.Orderly` says how they fit;
the main result is that they fit behind every course of calls, whatever values and streams the host
hands in, and that calls that have nothing to do change nothing.
-/

namespace Reactor

open List

/-! ### Machines that come to an end -/

namespace Machine

variable {setup : Setup} {evaluate : Evaluation}

/-- A machine without frames has a result. -/
def Conclusive (machine : Machine) : Prop :=
  machine.frames = [] → machine.result.isSome

theorem conclusive_push (machine : Machine) (frame : Frame) : (machine.push frame).Conclusive :=
  nofun

theorem conclusive_deliver (machine : Machine) (value : Val) :
    (machine.deliver value).Conclusive := by
  rcases machine with ⟨_ | ⟨top, rest⟩, depth, depth_eq, result⟩
  · exact fun _ => rfl
  · exact nofun

theorem Enters.conclusive {program : Program} {machine next : Machine}
    (enters : machine.Enters program next) : next.Conclusive := by
  rcases enters with ⟨value, rfl⟩ | ⟨node, env, rfl⟩
  · exact conclusive_deliver _ _
  · exact conclusive_push _ _

theorem conclusive_start (node : NodeId) (env : Env) (run : Run) :
    Ensures (start setup node env) run (fun machine _ => machine.Conclusive) (fun _ _ => True) :=
  (ensures_enter _ node env run).imp (fun _ _ entered => entered.2.conclusive) fun _ _ _ => trivial

theorem conclusive_step {machine : Machine} (conclusive : machine.Conclusive) (run : Run) :
    Ensures (machine.step setup evaluate) run
      (fun next _ => next.Conclusive) (fun _ _ => True) := by
  rcases eq_nil_or_push machine with empty | ⟨lower, frame, rfl⟩
  · rw [step_of_nil empty]
    exact conclusive
  · rw [step_push_eq, ensures_bind]
    refine (ensures_end _ run).imp ?_ fun _ _ _ => trivial
    intro advance after _
    cases advance with
    | complete value => exact conclusive_deliver _ value
    | descend next child env _ =>
      exact (ensures_enter _ child env after).imp (fun _ _ entered => entered.2.conclusive)
        fun _ _ _ => trivial

end Machine

namespace Action

variable {setup : Setup}

theorem conclusive_mainMachine (run : Run) :
    Ensures (mainMachine setup) run (fun machine _ => machine.Conclusive) (fun _ _ => True) := by
  unfold mainMachine
  split
  · exact Machine.conclusive_start _ _ _
  · exact trivial

theorem ensures_pass_result (run : Run) :
    Ensures (pass setup) run (fun machine _ => machine.result.isSome) (fun _ _ => True) := by
  rw [pass, ensures_bind]
  refine (conclusive_mainMachine run).map ?_
  intro machine after conclusive
  exact (Machine.ensures_finish (fun _ run kept => Machine.conclusive_step kept run) machine after
    conclusive).map fun _ _ ended => ended.2 ended.1

end Action

/-! ### How the parts of a session fit -/

/-- The parts of a session with a main source fit together. -/
structure Session.Orderly (setup : Setup) (session : Session) : Prop where
  same : session.setup = setup
  held : session.state = .running ↔ session.machine.isSome
  conclusive : ∀ machine, session.machine = some machine → machine.Conclusive
  pending : session.state = .running → session.latest = none
  known : session.state = .done → ∃ main value, setup.program.main? = some main ∧
    session.latest = some value ∧ session.sourceResult? main.name = some value
  cleared : session.state = .idle ∨ session.state = .stopped → session.run.reactions.table = []
  calm : session.run.Calm

namespace Session.Orderly

variable {setup : Setup} {session : Session}

theorem withStreams (orderly : session.Orderly setup) (streams : Streams) {reactions : Reactions}
    (cleared : session.run.reactions.table = [] → reactions.table = []) :
    { session with run := { session.run with streams, reactions } }.Orderly setup where
  same := orderly.same
  held := orderly.held
  conclusive := orderly.conclusive
  pending := orderly.pending
  known := orderly.known
  cleared ended := cleared (orderly.cleared ended)
  calm := ⟨orderly.calm.outermost, orderly.calm.reported⟩

end Session.Orderly

theorem soilAll_of_nil
    {reactions : Reactions} (nodes : List NodeId) (empty : reactions.table = []) :
    (reactions.soilAll nodes).table = [] := by
  simp [Reactions.soilAll, empty]

namespace Session

variable {setup : Setup} {session after : Session} {call : HostCall} {record : List Entry}

theorem orderly_haltFor (same : session.setup = setup) (calm : session.run.Calm) (defect : Defect) :
    (Call.haltFor defect session).Orderly setup where
  same := same
  held := ⟨nofun, nofun⟩
  conclusive := nofun
  pending := nofun
  known := nofun
  cleared := by
    rintro (idle | stopped)
    · cases idle
    · cases stopped
  calm := ⟨rfl, calm.reported⟩

variable {main : Source} (named : setup.program.main? = some main)
include named

theorem orderly_finished (same : session.setup = setup) (calm : session.run.Calm)
    {machine : Machine} (known : machine.result.isSome) :
    (session.finished machine).Orderly setup := by
  obtain ⟨value, result⟩ := Option.isSome_iff_exists.mp known
  simp only [finished, result, same, named]
  refine ⟨rfl, by simp, by simp, by simp, fun _ => ⟨main, value, named, rfl, ?_⟩, ?_, ?_⟩
  · exact Bindings.get?_define_self _ _ _
  · rintro (idle | stopped)
    · cases idle
    · cases stopped
  · exact ⟨calm.outermost, calm.reported⟩

theorem orderly_settled (same : session.setup = setup) {action : Action Machine} {run : Run}
    (ended : Ensures action run (fun machine last => last.Calm ∧ machine.Conclusive ∧
        (machine.isDone = false → session.state = .running ∧ session.latest = none))
      (fun _ last => last.Calm)) :
    (session.settled (action run)).Orderly setup := by
  refine settled_of_ensures ended ?_ ?_ ?_
  · rintro machine last ⟨calm, conclusive, -⟩ empty
    exact @orderly_finished _ { session with run := last } main named same calm machine
      (conclusive empty)
  · rintro machine last ⟨calm, conclusive, goesOn⟩ undone
    obtain ⟨running, pending⟩ := goesOn undone
    refine ⟨same, ⟨fun _ => rfl, fun _ => running⟩, ?_, fun _ => pending, ?_, ?_, calm⟩
    · rintro _ ⟨⟩
      exact conclusive
    · intro done
      cases running.symm.trans done
    · rintro (idle | stopped)
      · cases running.symm.trans idle
      · cases running.symm.trans stopped
  · intro defect last calm
    exact @orderly_haltFor _ { session with run := last } same calm defect

/-- There are reactions to update only while a run is under way or done, and then the main source is
evaluated again behind the updates. -/
theorem Orderly.flushes (orderly : session.Orderly setup) (alive : session.Alive)
    (flushes : session.Flushes record after) :
    after.Orderly setup := by
  have taken : { session with run := session.run.takenIn }.Orderly setup :=
    orderly.withStreams _ (soilAll_of_nil _)
  have updates := @Action.preserves_updateAll_of session.setup _ Action.preserves_calm_update
    session.run.takenIn.reactions.dirty session.run.takenIn taken.calm
  cases flushes with
  | @failed defect run failed =>
    rw [Ensures, failed] at updates
    exact @orderly_haltFor _ { session with run } orderly.same updates defect
  | updated updated fresh =>
    have none (rests : session.state = .idle ∨ session.state = .stopped) :
        session.run.takenIn.reactions.dirty = [] := by
      have empty : session.run.takenIn.reactions.table = [] := taken.cleared rests
      simp [Reactions.dirty, empty]
    have clean : session.run.takenIn.reactions.dirty = [] := by
      cases dirty : session.run.takenIn.reactions.dirty with
      | nil => rfl
      | cons first rest =>
        cases state : session.state with
        | running | done => simp [isStale, state, RunState.isLive, dirty] at fresh
        | halted defect => exact absurd state (alive defect)
        | idle => cases dirty.symm.trans (none (Or.inl state))
        | stopped => cases dirty.symm.trans (none (Or.inr state))
    rw [clean] at updated
    cases updated
    exact { taken with }
  | @passed run updated stale =>
    rw [Ensures, updated] at updates
    have begun : (run.beginPass session.setup).Calm := ⟨rfl, updates.reported⟩
    have ended := ((Action.preserves_calm_pass _ begun).and
      (Action.ensures_pass_result (run.beginPass session.setup))).and
        (Call.ensures_pass_isDone session.setup (run.beginPass session.setup))
    refine { orderly_settled named orderly.same (ended.imp ?_ fun _ _ failed => failed.1.1) with }
    rintro machine last ⟨⟨calm, known⟩, done⟩
    refine ⟨calm, fun _ => known, fun undone => ?_⟩
    rw [done] at undone
    cases undone

theorem Orderly.move (orderly : session.Orderly setup) (move : session.Move call record after) :
    after.Orderly setup := by
  cases move with
  | aside => exact { orderly with }
  | prepared => exact orderly.withStreams _ id
  | handed =>
    refine orderly.withStreams _ fun empty => ?_
    split
    · exact soilAll_of_nil _ empty
    · exact empty
  | @started machine run starts begun =>
    have calm : run.Calm := Action.preserves_calm_mainMachine.of_ok
      (show (session.run.reset session.setup).Calm from ⟨rfl, rfl⟩) begun
    have conclusive := @Action.conclusive_mainMachine session.setup (session.run.reset session.setup)
    rw [Ensures, begun] at conclusive
    refine ⟨orderly.same, ⟨fun _ => rfl, fun _ => rfl⟩, ?_, fun _ => rfl, nofun, ?_, calm⟩
    · rintro _ ⟨⟩
      exact conclusive
    · rintro (idle | stopped)
      · cases idle
      · cases stopped
  | unstarted starts missing =>
    rw [orderly.same, named] at missing
    cases missing
  | @stepped machine running held =>
    refine orderly_settled named orderly.same ?_
    refine ((machine.preserves_calm_step session.run orderly.calm).and
      (Machine.conclusive_step (orderly.conclusive machine held) session.run)).imp ?_ ?_
    · exact fun _ _ ended => ⟨ended.1, ended.2, fun _ => ⟨running, orderly.pending running⟩⟩
    · exact fun _ _ failed => failed.1
  | lost running none => exact orderly_haltFor orderly.same orderly.calm _
  | stopped isStop =>
    have stops : ∀ state : RunState, state ≠ .running → state ≠ .done →
        ({ session with machine := none, run := session.run.release, state } : Session).Orderly
          setup :=
      fun state waits undone => ⟨orderly.same, ⟨fun running => absurd running waits, nofun⟩, nofun,
        fun running => absurd running waits, fun done => absurd done undone, fun _ => rfl,
        ⟨rfl, orderly.calm.reported⟩⟩
    cases state : session.state with
    | running | done => exact stops .stopped nofun nofun
    | idle | stopped | halted _ => exact stops _ nofun nofun
  | flushed isFlush alive flushes => exact orderly.flushes named alive flushes

theorem Orderly.outcome (inStep : session.InStep setup) (orderly : session.Orderly setup)
    (call : HostCall) :
    (call.outcome session).2.Orderly setup :=
  (call.path inStep).keeps (Orderly.move named) orderly

end Session

/-! ### Calls that have nothing to do -/

theorem Scopes.retire_all (scopes : Scopes) :
    scopes.retire [] [] =
      ⟨scopes.cells.map fun scope =>
        if scope.owner = .run then { scope with bindings := [] } else scope⟩ := by
  have unmarked : ∀ (count id : Nat), (Array.replicate count false)[id]? ≠ some true := by
    intro count id
    rw [Array.getElem?_replicate]
    split <;> simp
  rw [retire, flatten_nil, Val.capturesOfItems, append_nil, reachable, mark]
  congr 1
  apply Array.ext
  · simp
  · intro id _ _
    simp [isLost, unmarked]

theorem Run.release_release (run : Run) : run.release.release = run.release := by
  have scopes : (run.scopes.retire [] []).retire [] [] = run.scopes.retire [] [] := by
    rw [Scopes.retire_all, Scopes.retire_all, Array.map_map]
    congr 2
    funext scope
    by_cases own : scope.owner = .run <;> simp [own]
  have streams : run.streams.unsubscribeAll.unsubscribeAll = run.streams.unsubscribeAll := by
    simp [Streams.unsubscribeAll, Streams.changeAll, Stream.unsubscribeAll, Function.comp_def]
  simp only [release, scopes, streams]

namespace Session

variable {setup : Setup} {session : Session}

theorem outcome_step_of_dormant (dormant : session.state = .idle ∨ session.state = .stopped) :
    (HostCall.step.outcome session).2 = session := by
  rcases dormant with state | state
  · simp only [HostCall.outcome, HostCall.perform, Call.step, bind, EStateM.bind, get_apply, state]
    rfl
  · simp only [HostCall.outcome, HostCall.perform, Call.step, bind, EStateM.bind, get_apply, state]
    rfl

/-- Without a run, a flush makes values readable and tells the observers.  Nothing is evaluated. -/
theorem flush_of_dormant (empty : session.run.reactions.table = []) (inStep : session.InStep setup)
    (dormant : session.state = .idle ∨ session.state = .stopped) :
    HostCall.flush.log session = [] ∧
      ∃ notices, (HostCall.flush.outcome session).2 =
        { session with
          run := { session.run with streams := session.run.advancedStreams }
          advanced := !session.run.advancedStreams.changed.isEmpty
          notices } := by
  have alive : session.Alive := by
    rcases dormant with state | state <;> simp [state]
  have resting : session.state.isLive = false := by
    rcases dormant with state | state <;> simp [state, RunState.isLive]
  have same : session.run.takenIn =
      { session.run with streams := session.run.advancedStreams } := by
    have reactions : ∀ nodes, session.run.reactions.soilAll nodes = session.run.reactions := by
      intro nodes
      simp only [Reactions.soilAll, empty, map_nil]
      rw [← empty]
    rw [Run.takenIn, reactions]
  have settled : session.run.reactions.dirty = [] := by
    simp [Reactions.dirty, empty]
  constructor
  · have unlogged : ∀ run, Action.updateAllLog session.setup [] run = [] := fun _ => rfl
    have unchanged : ∀ run, Action.updateAll session.setup [] run = .ok () run := fun _ => rfl
    rcases dormant with state | state <;>
      simp [HostCall.log, Call.flushLog, Call.takeIn_eq inStep, same, settled, unlogged, unchanged,
        state, RunState.isLive]
  · refine ⟨session.observers.foldl
      (fun notices observer => notices.push ⟨observer, .flushed, session.latest⟩)
      session.notices, ?_⟩
    simp only [HostCall.outcome, HostCall.perform, bind, EStateM.bind,
      Call.flush_of_alive inStep alive, Call.refresh, same, settled, get_apply, Action.updateAll,
      Call.perform, Call.performOr, pure, EStateM.pure, modify_apply, resting, Bool.false_and,
      Call.notify]
    rfl

theorem outcome_stop_stop (session : Session) :
    (HostCall.stop.outcome (HostCall.stop.outcome session).2).2 =
      (HostCall.stop.outcome session).2 := by
  cases state : session.state <;>
    simp [HostCall.outcome, HostCall.perform, Call.stop, Call.notify, bind, EStateM.bind, get_apply,
      modify_apply, pure, EStateM.pure, state, RunState.isLive, Run.release_release]

/-! ### Courses -/

theorem orderly_create (program : Program) (limits : Limits) :
    (create program limits).Orderly ⟨program, limits⟩ :=
  ⟨rfl, ⟨nofun, nofun⟩, nofun, nofun, nofun, fun _ => rfl, ⟨rfl, rfl⟩⟩

theorem orderly_course {program : Program} (hasMain : program.main?.isSome) (limits : Limits)
    (calls : List HostCall) :
    ((create program limits).course calls).2.Orderly ⟨program, limits⟩ := by
  obtain ⟨main, named⟩ := Option.isSome_iff_exists.mp hasMain
  exact @course_keeps_moves _ _ (Orderly ⟨program, limits⟩) (fun _ => True)
    (fun _ _ => Orderly.move named) (inStep_create program limits) (orderly_create program limits)
    _ fun _ _ => trivial

theorem InStep.subscriptionCount_eq_zero
    (inStep : session.InStep setup) (ordered : session.run.streams.Ordered)
    (empty : session.run.reactions.table = []) :
    session.run.streams.subscriptionCount = 0 := by
  have alone : ∀ stream ∈ session.run.streams.streams, stream.subscribers = [] := by
    intro stream listed
    have found := (Streams.mem_iff_get? ordered stream).mp listed
    rw [← Streams.subscribers_of_get? found, eq_nil_iff_forall_not_mem]
    intro node subscriber
    have present := inStep.2.isSome_of_subscriber subscriber
    simp [Reactions.get?, empty] at present
  unfold Streams.subscriptionCount
  generalize session.run.streams.streams = streams at alone
  induction streams with
  | nil => rfl
  | cons stream rest ih =>
    simp [alone stream mem_cons_self, ih fun other later => alone other (mem_cons_of_mem _ later)]

/--
The parts of a session with a main source fit together behind every course of calls.  A machine is held
just while a run is under way, and then there is no latest result; a run that is done has one, and it is
the recorded result of the main source; a session that is idle or stopped has no reactions and no
subscriptions.  Nothing is left over from nested evaluations.  Steps that have nothing to do change
nothing, a flush of a session that is idle or stopped evaluates nothing and leaves all but the streams
as it is, and a second stop changes nothing.  That observers are told nothing is part of this, since a
session keeps all that they are told.
-/
theorem parts_fit_after_every_course
    (program : Program) (hasMain : program.main?.isSome) (limits : Limits) (calls : List HostCall) :
    let session := ((create program limits).course calls).2
    (session.state = .running ↔ session.machine.isSome) ∧
      (session.state = .running → session.latest = none) ∧
      (session.state = .done → ∃ main value, program.main? = some main ∧
        session.latest = some value ∧ session.sourceResult? main.name = some value) ∧
      (session.state = .idle ∨ session.state = .stopped →
        session.run.reactions.table = [] ∧ session.run.streams.subscriptionCount = 0) ∧
      session.run.nesting = 0 ∧
      session.run.defect = none ∧
      (session.state = .idle ∨ session.state = .stopped ∨ session.state = .done →
        (HostCall.step.outcome session).2 = session) ∧
      (session.state = .idle ∨ session.state = .stopped →
        HostCall.flush.log session = [] ∧
          ∃ notices, (HostCall.flush.outcome session).2 =
            { session with
              run := { session.run with streams := session.run.advancedStreams }
              advanced := !session.run.advancedStreams.changed.isEmpty
              notices }) ∧
      (HostCall.stop.outcome (HostCall.stop.outcome session).2).2 =
        (HostCall.stop.outcome session).2 := by
  intro session
  have orderly : session.Orderly ⟨program, limits⟩ := orderly_course hasMain limits calls
  have inStep : session.InStep ⟨program, limits⟩ :=
    inStep_course (inStep_create program limits) calls
  have ordered : session.run.streams.Ordered := ordered_course program limits calls
  refine ⟨orderly.held, orderly.pending, orderly.known, ?_, orderly.calm.outermost,
    orderly.calm.reported, ?_,
    fun dormant => flush_of_dormant (orderly.cleared dormant) inStep dormant,
    outcome_stop_stop session⟩
  · intro dormant
    have empty := orderly.cleared dormant
    exact ⟨empty, inStep.subscriptionCount_eq_zero ordered empty⟩
  · rintro (idle | stopped | done)
    · exact outcome_step_of_dormant (Or.inl idle)
    · exact outcome_step_of_dormant (Or.inr stopped)
    · exact outcome_step_of_over (Or.inl done)

/-- A session with a reaction that is stopped: there is nothing to step, to flush or to stop. -/
theorem parts_fit_after_stop :
    let program := Program.ofExpr (.reaction (.bool false) (.changed (.stream "s")) (.stream "s"))
    let session := ((create program ⟨8, 1⟩).course [.register "s", .observe, .run, .stop]).2
    program.main?.isSome ∧ session.state = .stopped ∧
      session.run.reactions.table = [] ∧ session.run.streams.subscriptionCount = 0 ∧
      (HostCall.step.outcome session).2 = session ∧
      HostCall.flush.log session = [] ∧
      (HostCall.stop.outcome (HostCall.stop.outcome session).2).2 =
        (HostCall.stop.outcome session).2 := by
  intro program session
  have hasMain : program.main?.isSome := rfl
  have stopped : session.state = .stopped := by
    unfold session program
    cbv
  obtain ⟨-, -, -, cleared, -, -, steps, flushes, stops⟩ :=
    parts_fit_after_every_course program hasMain ⟨8, 1⟩ [.register "s", .observe, .run, .stop]
  obtain ⟨empty, unsubscribed⟩ := cleared (Or.inr stopped)
  exact ⟨hasMain, stopped, empty, unsubscribed, steps (Or.inr (Or.inl stopped)),
    (flushes (Or.inr stopped)).1, stops⟩

end Session

end Reactor

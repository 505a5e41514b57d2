import Reactor.Proofs.Engine.Termination
import Reactor.Proofs.Session.Log
import Reactor.Proofs.Session.TakingIn

/-!
# The moves of a session

Calls of a host differ in how far they go and in what they answer, but there is little that any of them
can do to a session.  `Session.Move` lists it, each move with what is recorded of it, and `HostCall.goes`
says that every call goes a path of such moves.  So what every move keeps is kept by every call.

A call that is refused because of a defect leaves a session that is stuck.
-/

namespace Reactor

open List

/-! ### What moves lead to -/

namespace Session

/-- The result of a pass that has come to its end is taken over. -/
def finished (session : Session) (machine : Machine) : Session :=
  let run :=
    match machine.result, session.setup.program.main? with
    | some value, some main =>
      { session.run with sourceResults := session.run.sourceResults.define main.name value }
    | _, _ => session.run
  { session with run, machine := none, latest := machine.result, state := .done }

/-- What becomes of a session when its machine goes on, comes to its end or meets a defect. -/
def settled (session : Session) : EStateM.Result Defect Run Machine → Session
  | .ok machine run =>
    if machine.isDone then finished { session with run } machine
    else { session with run, machine := some machine }
  | .error defect run => Call.haltFor defect { session with run }

theorem settled_of_ensures
    {session : Session} {action : Action Machine} {run : Run} {Inv : Session → Prop}
    {good : Machine → Run → Prop} {bad : Defect → Run → Prop} (ended : Ensures action run good bad)
    (done : ∀ machine last, good machine last → machine.frames = [] →
      Inv (finished { session with run := last } machine))
    (goesOn : ∀ machine last, good machine last → machine.isDone = false →
      Inv { session with run := last, machine := some machine })
    (halted : ∀ defect last, bad defect last → Inv (Call.haltFor defect { session with run := last })) :
    Inv (session.settled (action run)) := by
  unfold Ensures at ended
  split at ended
  · next machine last result =>
    rw [result, settled]
    cases isDone : machine.isDone with
    | true => exact done machine last ended (List.isEmpty_iff.mp isDone)
    | false => exact goesOn machine last ended isDone
  · next defect last result =>
    rw [result]
    exact halted defect last ended

/-- Whether a flush evaluates the main source again. -/
def isStale (session : Session) : Bool :=
  session.state.isLive && (!session.run.advancedStreams.changed.isEmpty ||
    !session.run.takenIn.reactions.dirty.isEmpty || session.advanced)

/-- A session that is refused something because of a defect. -/
def Stuck (session : Session) : Prop :=
  (∃ defect, session.state = .halted defect) ∨ session.setup.program.main? = none ∨
    session.state = .done ∧ session.latest = none

end Session

/-- The log of the updates of a flush. -/
def Call.updatesLog (session : Session) : List Event :=
  Action.updateAllLog session.setup session.run.takenIn.reactions.dirty session.run.takenIn

/-- A call that begins a run. -/
def HostCall.Starts (call : HostCall) (session : Session) : Prop :=
  call = .start ∨ call = .run ∧ (session.state = .idle ∨ session.state = .stopped)

/-- Whether a call can be refused for another reason than a defect. -/
def HostCall.isRefusable : HostCall → Bool
  | step | runFor _ | push .. | registerWith .. => true
  | _ => false

/-- A call that changes streams without handing anything to them. -/
inductive HostCall.Prepares (streams : Streams) : HostCall → Streams → Prop where
  | register (name : String) : Prepares streams (.register name) (streams.register name)
  | registerWith {name : String} {kind : StreamKind} {initial : Option Val} {after : Streams}
      (registered : streams.registerWith name kind initial = .ok after) :
      Prepares streams (.registerWith name kind initial) after
  | send (name : String) (datum : Datum) :
      Prepares streams (.send name datum) { streams with inbox := streams.inbox ++ [(name, datum)] }

/-! ### Moves and paths -/

namespace Session

/-- What a flush does to a session that is not halted, with what is recorded of it. -/
inductive Flushes (session : Session) : List Entry → Session → Prop where
  | failed {defect : Defect} {run : Run}
      (failed : Action.updateAll session.setup session.run.takenIn.reactions.dirty session.run.takenIn =
        .error defect run) :
      Flushes session ((Call.updatesLog session).map (.event true))
        (Call.haltFor defect { session with run })
  | updated {run : Run}
      (updated : Action.updateAll session.setup session.run.takenIn.reactions.dirty session.run.takenIn =
        .ok () run)
      (fresh : session.isStale = false) :
      Flushes session ((Call.updatesLog session).map (.event true))
        { session with run, advanced := !session.run.advancedStreams.changed.isEmpty }
  | passed {run : Run}
      (updated : Action.updateAll session.setup session.run.takenIn.reactions.dirty session.run.takenIn =
        .ok () run)
      (stale : session.isStale = true) :
      Flushes session ((Call.updatesLog session).map (.event true) ++
          .pass :: (Action.passLog session.setup (run.beginPass session.setup)).map (.event false))
        { session.settled (Action.pass session.setup (run.beginPass session.setup)) with
          advanced := !session.run.advancedStreams.changed.isEmpty }

/-- What a call can do to a session at once, with what is recorded of it. -/
inductive Move (call : HostCall) (session : Session) : List Entry → Session → Prop where
  | aside (observers : List Nat) (nextObserver : Nat) (notices : Array Notice) :
      Move call session [] { session with observers, nextObserver, notices }
  | prepared {streams : Streams} (prepares : call.Prepares session.run.streams streams) :
      Move call session [] { session with run.streams := streams }
  | handed {name : String} {value : Val} (isPush : call = .push name value)
      (alive : ∀ defect, session.state ≠ .halted defect) :
      Move call session [] { session with run := session.run.handed (name, value) }
  | started {machine : Machine} {run : Run} (starts : call.Starts session)
      (begun : Action.mainMachine session.setup (session.run.reset session.setup) = .ok machine run) :
      Move call session (.pass :: (Call.startLog session).map (.event false))
        { session with
          run, latest := none, advanced := false, machine := some machine, state := .running }
  | unstarted (starts : call.Starts session) (missing : session.setup.program.main? = none) :
      Move call session [.pass]
        { session with run := session.run.reset session.setup, latest := none, advanced := false }
  | stepped {machine : Machine} (running : session.state = .running)
      (held : session.machine = some machine) :
      Move call session ((Call.stepLog session).map (.event false))
        (session.settled (machine.step session.setup (Action.evaluate session.setup) session.run))
  | lost (running : session.state = .running) (none : session.machine = none) :
      Move call session [] (Call.haltFor .noMachine session)
  | stopped (isStop : call = .stop) :
      Move call session []
        { session with
          machine := none
          run := session.run.release
          state := if session.state.isLive then .stopped else session.state }
  | flushed {record : List Entry} {after : Session} (isFlush : call = .flush)
      (alive : ∀ defect, session.state ≠ .halted defect) (flushes : session.Flushes record after) :
      Move call session record after

/-- Moves of a call one after the other. -/
inductive Path (call : HostCall) : Session → List Entry → Session → Prop where
  | nil (session : Session) : Path call session [] session
  | cons {session middle last : Session} {record others : List Entry}
      (move : session.Move call record middle) (rest : middle.Path call others last) :
      Path call session (record ++ others) last

variable {call : HostCall} {session middle last : Session} {record others : List Entry}

theorem Move.path (move : session.Move call record last) : session.Path call record last := by
  have alone := Path.cons move (.nil last)
  rwa [append_nil] at alone

theorem Path.append (path : session.Path call record middle) (rest : middle.Path call others last) :
    session.Path call (record ++ others) last := by
  induction path with
  | nil => exact rest
  | cons move _ ih =>
    rw [append_assoc]
    exact .cons move (ih rest)

theorem Path.told (path : session.Path call record middle) (notices : Array Notice) :
    session.Path call record { middle with notices } := by
  have told : middle.Path call [] { middle with notices } := Move.path (.aside _ _ notices)
  rw [← append_nil record]
  exact path.append told

theorem Path.tracks {Inv : List Entry → Session → Prop}
    (kept : ∀ {past session record after}, Inv past session → Move call session record after →
      Inv (past ++ record) after)
    (path : session.Path call record last) {past : List Entry} (holds : Inv past session) :
    Inv (past ++ record) last := by
  induction path generalizing past with
  | nil => rwa [append_nil]
  | cons move _ ih =>
    rw [← append_assoc]
    exact ih (kept holds move)

theorem Path.keeps {Inv : Session → Prop}
    (kept : ∀ {session record after}, Inv session → Move call session record after → Inv after)
    (path : session.Path call record last) (holds : Inv session) : Inv last :=
  @Path.tracks _ _ _ _ (fun _ => Inv) kept path [] holds

end Session

/-! ### The paths of calls -/

theorem Streams.isFatal_of_push
    {streams after : Streams} {name : String} {value : Val} {fault : Fault}
    (refused : streams.push name value = (after, .error fault)) :
    fault.isFatal = false := by
  simp only [push] at refused
  split at refused
  · cases refused
    rfl
  · split at refused
    · cases refused
      rfl
    · split at refused
      · cases refused
      · cases refused
        rfl

theorem Streams.isFatal_of_registerWith
    {streams : Streams} {name : String} {kind : StreamKind} {initial : Option Val} {fault : Fault}
    (refused : streams.registerWith name kind initial = .error fault) :
    fault.isFatal = false := by
  simp only [registerWith] at refused
  split at refused
  · cases refused
    rfl
  · split at refused
    · split at refused
      · cases refused
      · cases refused
        rfl
    · cases refused

theorem Action.exists_mainMachine_eq
    {setup : Setup} {main : Source} (named : setup.program.main? = some main) (run : Run) :
    ∃ machine last, mainMachine setup run = .ok machine last := by
  simp only [mainMachine, named]
  exact Machine.exists_enter_eq _ _ _ _

theorem Action.isSome_of_mainMachine {setup : Setup} {run last : Run} {machine : Machine}
    (begun : mainMachine setup run = .ok machine last) : setup.program.main?.isSome := by
  cases named : setup.program.main? with
  | some main => rfl
  | none =>
    simp only [mainMachine, named] at begun
    cases begun

namespace Call

open Session (Path Move)

variable {α β : Type} {call : HostCall} {session : Session} {setup : Setup} {machine : Machine}

theorem afterStep_eq (machine : Machine) (session : Session) :
    ∃ notices, afterStep machine session =
      .ok machine.isDone { session.settled (.ok machine session.run) with notices } := by
  unfold afterStep
  cases done : machine.isDone with
  | true => exact ⟨_, by simp only [Session.settled, done, if_true]; rfl⟩
  | false => exact ⟨_, by simp only [Session.settled, done, Bool.false_eq_true, if_false]; rfl⟩

theorem drive_eq_step (machine : Machine) :
    drive setup machine =
      (do
        let next ← perform (machine.step setup (Action.evaluate setup))
        if ← afterStep next then return else drive setup next) := by
  funext session
  rcases Machine.eq_nil_or_push machine with empty | ⟨lower, frame, rfl⟩
  · obtain ⟨notices, told⟩ := afterStep_eq machine session
    rw [Machine.step_of_nil empty]
    rcases machine with ⟨frames, depth, depth_eq, result⟩
    cases empty
    rw [drive]
    simp only [bind, EStateM.bind, perform, performOr, pure, EStateM.pure, told]
    rfl
  · have advances : drive setup (lower.push frame) = (do
        let next ← perform
          ((lower.push frame).advance setup (Action.evaluate setup) frame lower.frames rfl)
        if ← afterStep next.1 then return else drive setup next.1) := by
      rw [drive]
      rfl
    rw [advances, Machine.step_push]
    simp only [bind, EStateM.bind, perform, performOr]
    cases (lower.push frame).advance setup (Action.evaluate setup) frame lower.frames rfl session.run with
    | ok next last => rfl
    | error defect last => rfl

/-- An action goes a path of moves.  If the call can be refused for a defect only, it is; and then the
session is stuck. -/
def Goes (call : HostCall) (action : Call α) (session : Session) (record : List Entry)
    (promise : α → Session → Prop) : Prop :=
  Ensures action session
    (fun value after => session.Path call record after ∧ promise value after)
    (fun fault after => session.Path call record after ∧
      (call.isRefusable = false ∨ fault.isFatal = true → fault.isFatal = true ∧ after.Stuck))

section

variable {action : Call α} {promise : α → Session → Prop}

theorem Goes.bind {next : α → Call β} {record others : List Entry} {promise' : β → Session → Prop}
    (first : Goes call action session record promise)
    (rest : ∀ value after, action session = .ok value after → promise value after →
      Goes call (next value) after others promise')
    (failed : ∀ fault after, action session = .error fault after → others = []) :
    Goes call (action >>= next) session (record ++ others) promise' := by
  unfold Goes at first ⊢
  rw [ensures_bind]
  refine ((ensures_end action session).and first).imp ?_ ?_
  · rintro value after ⟨ended, path, promised⟩
    exact Ensures.imp (rest value after ended promised)
      (fun _ _ later => later.imp_left path.append) (fun _ _ later => later.imp_left path.append)
  · rintro fault after ⟨ended, refused⟩
    rwa [failed fault after ended, append_nil]

theorem Goes.answer {answer : α → Answer} {record : List Entry}
    (goes : Goes call action session record promise) :
    Goes call (do return answer (← action)) session record fun _ _ => True := by
  unfold Goes at goes ⊢
  rw [ensures_bind]
  exact goes.map (fun _ _ ended => ⟨ended.1, trivial⟩)

theorem goes_of_halted {defect : Defect} (halted : session.state = .halted defect)
    (refused : action session = .error (.halted defect) session) :
    Goes call action session [] promise := by
  simp only [Goes, Ensures, refused]
  exact ⟨.nil session, fun _ => ⟨rfl, Or.inl ⟨defect, halted⟩⟩⟩

end

theorem goes_start (starts : call.Starts session) :
    Goes call start session (.pass :: (startLog session).map (.event false)) fun _ after =>
      after.state = .running := by
  simp only [Goes, start, ensures_bind, ensures_modify, ensures_get, ensures_performOr]
  cases named : session.setup.program.main? with
  | some main =>
    obtain ⟨machine, last, begun⟩ :=
      Action.exists_mainMachine_eq named (session.run.reset session.setup)
    simp only [Ensures, begun]
    exact ⟨(Move.started starts begun).path, trivial⟩
  | none =>
    have silent : startLog session = [] := by
      simp only [startLog, Machine.startLog, Action.behind, Action.mainMachine, named]
      rfl
    rw [silent]
    simp only [Action.mainMachine, named]
    exact ⟨(Move.unstarted starts named).path, fun _ => ⟨rfl, Or.inr (Or.inl named)⟩⟩

section

variable (running : session.state = .running) (held : session.machine = some machine)
include running held

theorem path_of_step {next : Machine} {last : Run}
    (moved : machine.step session.setup (Action.evaluate session.setup) session.run = .ok next last)
    (notices : Array Notice) :
    session.Path call ((stepLog session).map (.event false))
      { session.settled (.ok next last) with notices } := by
  have stepped : session.Move call _ _ := .stepped running held
  rw [moved] at stepped
  exact stepped.path.told notices

theorem path_of_failed_step {defect : Defect} {last : Run}
    (failed : machine.step session.setup (Action.evaluate session.setup) session.run =
      .error defect last) :
    session.Path call ((stepLog session).map (.event false))
      (haltFor defect { session with run := last }) := by
  have stepped : session.Move call _ _ := .stepped running held
  rw [failed] at stepped
  exact stepped.path

end

theorem goes_step (refusable : call.isRefusable = true) :
    Goes call step session ((stepLog session).map (.event false)) fun _ _ => True := by
  unfold Goes
  cases state : session.state with
  | idle | stopped =>
    simp only [step, ensures_bind, ensures_get, state, stepLog]
    exact ⟨.nil session, fun fatal => by simp [refusable, Fault.isFatal] at fatal⟩
  | halted defect =>
    simp only [stepLog, state]
    refine goes_of_halted state ?_
    simp only [step, bind, EStateM.bind, get_apply, state]
    rfl
  | done =>
    simp only [step, ensures_bind, ensures_get, state, stepLog]
    exact ⟨.nil session, trivial⟩
  | running =>
    simp only [step, activeMachine, ensures_bind, ensures_get, state]
    cases held : session.machine with
    | none =>
      simp only [stepLog, state, held]
      exact ⟨(Move.lost state held).path, fun _ => ⟨rfl, Or.inl ⟨.noMachine, rfl⟩⟩⟩
    | some machine =>
      simp only [ensures_pure, ensures_perform]
      refine (ensures_end _ _).imp ?_ ?_
      · intro next last moved
        obtain ⟨notices, told⟩ := afterStep_eq next { session with run := last }
        simp only [Ensures, told]
        exact ⟨path_of_step state held moved notices, trivial⟩
      · intro defect last failed
        exact ⟨path_of_failed_step state held failed, fun _ => ⟨rfl, Or.inl ⟨defect, rfl⟩⟩⟩

theorem goes_drive {machine : Machine} {session : Session}
    (running : session.state = .running) (held : session.machine = some machine) :
    Goes call (drive session.setup machine) session
      ((Action.finishLog session.setup machine session.run).map (.event false)) fun _ after =>
        after.state = .done := by
  have logged : stepLog session = machine.stepLog session.setup (Action.evaluate session.setup)
      (Action.evaluateLog session.setup) [] session.run := by
    simp only [stepLog, running, held]
  rw [Goes, drive_eq_step, ensures_bind, ensures_perform, Action.finishLog]
  refine (ensures_end _ _).imp ?_ ?_
  · intro next last moved
    obtain ⟨notices, told⟩ := afterStep_eq next { session with run := last }
    have path : session.Path call _ _ := path_of_step running held moved notices
    rw [Machine.finishLog_of_ok [] moved, map_append, ← logged, ensures_bind, Ensures, told]
    cases done : next.isDone with
    | true =>
      rw [Machine.finishLog_of_nil [] (List.isEmpty_iff.mp done)]
      simp only [Log.silent, map_nil, append_nil, if_true, Session.settled, done] at path ⊢
      exact ⟨path, rfl⟩
    | false =>
      simp only [Session.settled, done, Bool.false_eq_true, if_false] at path ⊢
      have smaller := Machine.size_of_step moved done
      have rest := @goes_drive next
        { session with run := last, machine := some next, notices } running rfl
      exact Ensures.imp rest (fun _ _ later => later.imp_left path.append)
        fun _ _ later => later.imp_left path.append
  · intro defect last failed
    rw [Machine.finishLog_of_error [] failed, ← logged]
    exact ⟨path_of_failed_step running held failed, fun _ => ⟨rfl, Or.inl ⟨defect, rfl⟩⟩⟩
termination_by machine.size session.setup
decreasing_by exact smaller

theorem goes_driveOn :
    Goes call driveOn session ((driveLog session).map (.event false)) fun _ after =>
      ¬ (session.state = .idle ∨ session.state = .stopped) → after.state = .done := by
  unfold Goes
  cases state : session.state with
  | idle | stopped =>
    simp only [driveOn, refuseHalted, ensures_bind, ensures_get, state, driveLog]
    exact ⟨.nil session, by simp⟩
  | halted defect =>
    simp only [driveLog, state]
    refine goes_of_halted state ?_
    simp only [driveOn, refuseHalted, bind, EStateM.bind, get_apply, state]
    rfl
  | done =>
    simp only [driveOn, refuseHalted, ensures_bind, ensures_get, state, driveLog]
    exact ⟨.nil session, fun _ => state⟩
  | running =>
    simp only [driveOn, activeMachine, ensures_bind, ensures_get, state, driveLog]
    cases held : session.machine with
    | none => exact ⟨(Move.lost state held).path, fun _ => ⟨rfl, Or.inl ⟨.noMachine, rfl⟩⟩⟩
    | some machine =>
      rw [ensures_pure]
      exact Ensures.imp (goes_drive state held)
        (fun _ _ ended => ended.imp_right fun done _ => done) fun _ _ refused => refused

theorem goes_runToEnd :
    Goes .run runToEnd session (HostCall.run.record session) fun _ after => after.state = .done := by
  have fresh (rests : session.state = .idle ∨ session.state = .stopped) :
      Goes .run (do start; driveOn) session (.pass :: (freshLog session).map (.event false))
        fun _ after => after.state = .done := by
    rw [freshLog, map_append, ← cons_append]
    refine (goes_start (Or.inr ⟨rfl, rests⟩)).bind ?_ ?_
    · intro _ started begun running
      simp only [begun]
      exact Ensures.imp goes_driveOn
        (fun _ _ ended => ended.imp_right fun done => done (by simp [running]))
        fun _ _ refused => refused
    · intro fault after failed
      simp only [failed, map_nil]
  rw [Goes, runToEnd, HostCall.record, ensures_bind, ensures_get]
  cases state : session.state with
  | idle => exact fresh (Or.inl state)
  | stopped => exact fresh (Or.inr state)
  | running | done | halted _ =>
    exact Ensures.imp goes_driveOn
      (fun _ _ ended => ended.imp_right fun done => done (by simp [state]))
      fun _ _ refused => refused

theorem goes_run :
    Goes .run run session (HostCall.run.record session) fun value after =>
      after.state = .done ∧ after.latest = some value := by
  rw [Goes, run, ensures_bind]
  refine Ensures.imp goes_runToEnd ?_ fun _ _ refused => refused
  rintro _ after ⟨path, done⟩
  rw [ensures_bind, ensures_get]
  cases latest : after.latest with
  | some value => exact ⟨path, done, latest⟩
  | none => exact ⟨path, fun _ => ⟨rfl, Or.inr (Or.inr ⟨done, latest⟩)⟩⟩

theorem goes_runFor (refusable : call.isRefusable = true) (budget : Nat) {session : Session} :
    Goes call (runFor budget) session ((runForLog budget session).map (.event false))
      fun _ _ => True := by
  induction budget generalizing session with
  | zero => exact ⟨.nil session, trivial⟩
  | succ budget ih =>
    rw [runFor, runForLog, map_append]
    refine (goes_step refusable).bind ?_ ?_
    · intro done after ended _
      simp only [ended]
      cases done with
      | true => exact ⟨.nil after, trivial⟩
      | false => exact ih
    · intro fault after failed
      simp only [failed, map_nil]

theorem goes_stop : Goes .stop stop session [] fun _ _ => True := by
  have given : session.Path .stop [] _ := (Move.stopped rfl).path
  simp only [Goes, stop, ensures_bind, ensures_get, ensures_modify]
  cases live : session.state.isLive with
  | true => exact ⟨by simpa [live] using given.told _, trivial⟩
  | false => exact ⟨by simpa [live] using given, trivial⟩

theorem flushRecord_of_alive (inStep : session.InStep setup) (alive : session.Alive) :
    flushRecord session = (updatesLog session).map (.event true) ++
      match Action.updateAll session.setup session.run.takenIn.reactions.dirty session.run.takenIn with
      | .error _ _ => []
      | .ok _ run =>
        if session.isStale then
          .pass :: (Action.passLog session.setup (run.beginPass session.setup)).map (.event false)
        else [] := by
  have refreshed : flushRecord session = refreshRecord session.run.advancedStreams.changed
      session.run.takenIn.reactions.dirty { session with run := session.run.takenIn } := by
    unfold flushRecord
    rw [takeIn_eq inStep]
    cases state : session.state with
    | halted defect => exact absurd state (alive defect)
    | idle | running | done | stopped => rfl
  exact refreshed

theorem ensures_pass_isDone (setup : Setup) (run : Run) :
    Ensures (Action.pass setup) run (fun machine _ => machine.isDone = true) (fun _ _ => True) := by
  rw [Action.pass, ensures_bind]
  exact (ensures_end _ run).imp (fun machine last _ => machine.ensures_finish_isDone last)
    fun _ _ _ => trivial

variable (inStep : session.InStep setup)
include inStep

theorem flushes_flush (alive : session.Alive) :
    Ensures flush session
      (fun _ after => ∃ middle notices, session.Flushes (flushRecord session) middle ∧
        middle.Alive ∧ after = { middle with notices })
      (fun fault after => session.Flushes (flushRecord session) after ∧
        ∃ defect, fault = .defect defect ∧ after.state = .halted defect) := by
  rw [ensures_congr (flush_of_alive inStep alive), flushRecord_of_alive inStep alive]
  simp only [refresh, ensures_bind, ensures_get, ensures_perform, ensures_modify]
  refine (ensures_end _ _).imp ?_ ?_
  · intro _ run updated
    simp only [updated]
    split
    · next stale =>
      rw [if_pos (show session.isStale = true from stale)]
      have passed := Session.Flushes.passed updated stale
      simp only [rerun, finishPass, notify, ensures_bind, ensures_get, ensures_perform,
        ensures_modify]
      refine ((ensures_end _ _).and (ensures_pass_isDone session.setup _)).imp ?_ ?_
      · rintro machine last ⟨ended, done⟩
        simp only [ended, Session.settled, done, if_true] at passed
        exact ⟨_, _, passed, nofun, rfl⟩
      · rintro defect last ⟨failed, -⟩
        rw [failed] at passed
        exact ⟨passed, defect, rfl, rfl⟩
    · next fresh =>
      rw [if_neg (show ¬ session.isStale = true from fresh), append_nil]
      exact ⟨_, _, .updated updated (Bool.eq_false_iff.mpr fresh), alive, rfl⟩
  · intro defect run failed
    simp only [failed, append_nil]
    exact ⟨.failed failed, defect, rfl, rfl⟩

theorem goes_flush : Goes .flush flush session (flushRecord session) fun _ _ => True := by
  by_cases halted : ∃ defect, session.state = .halted defect
  · obtain ⟨defect, state⟩ := halted
    simp only [flushRecord, state]
    refine goes_of_halted state ?_
    simp only [flush, refuseHalted, bind, EStateM.bind, get_apply, state]
    rfl
  · have alive : session.Alive := fun defect state =>
      halted ⟨defect, state⟩
    refine (flushes_flush inStep alive).imp ?_ ?_
    · rintro _ _ ⟨middle, notices, flushes, -, rfl⟩
      exact ⟨(Move.flushed rfl alive flushes).path.told notices, trivial⟩
    · rintro _ after ⟨flushes, defect, rfl, halted⟩
      exact ⟨(Move.flushed rfl alive flushes).path, fun _ => ⟨rfl, Or.inl ⟨defect, halted⟩⟩⟩

theorem goes_push (name : String) (value : Val) :
    Goes (.push name value) (push name value) session [] fun _ _ => True := by
  by_cases halted : ∃ defect, session.state = .halted defect
  · obtain ⟨defect, state⟩ := halted
    refine goes_of_halted state ?_
    simp only [push, refuseHalted, bind, EStateM.bind, get_apply, state]
    rfl
  · have alive : session.Alive := fun defect state =>
      halted ⟨defect, state⟩
    have path : session.Path (.push name value) [] _ := (Move.handed rfl alive).path
    simp only [Goes, Ensures, push_of_alive inStep alive]
    cases judged : session.run.streams.refusal? name value with
    | none => exact ⟨path, trivial⟩
    | some fault =>
      have harmless := Streams.isFatal_of_push (Streams.push_of_refused judged)
      exact ⟨path, fun fatal => by simp [harmless, HostCall.isRefusable] at fatal⟩

end Call

namespace HostCall

variable {setup : Setup} {session : Session}

/-- Every call goes a path of moves, and what is recorded on the way is its record. -/
theorem goes (inStep : session.InStep setup) (call : HostCall) :
    Call.Goes call call.perform session (call.record session) fun _ _ => True := by
  cases call with
  | start => exact (Call.goes_start (Or.inl rfl)).answer
  | step => exact (Call.goes_step rfl).answer
  | run => exact Call.goes_run.answer
  | runFor budget => exact (Call.goes_runFor rfl budget).answer
  | stop => exact Call.goes_stop.answer
  | flush => exact (Call.goes_flush inStep).answer
  | push stream value => exact (Call.goes_push inStep stream value).answer
  | send stream datum => exact ⟨(Session.Move.prepared (.send stream datum)).path, trivial⟩
  | register stream => exact ⟨(Session.Move.prepared (.register stream)).path, trivial⟩
  | registerWith stream kind initial =>
    simp only [Call.Goes, perform, Call.registerWith, ensures_bind, ensures_get]
    split
    · next streams registered =>
      exact ⟨(Session.Move.prepared (.registerWith registered)).path, trivial⟩
    · next fault refused =>
      have harmless := Streams.isFatal_of_registerWith refused
      exact ⟨.nil session, fun fatal => by simp [harmless, isRefusable] at fatal⟩
  | observe => exact ⟨(Session.Move.aside ..).path, trivial⟩
  | ignore observer => exact ⟨(Session.Move.aside ..).path, trivial⟩

theorem path_of_goes {call : HostCall} {promise : Answer → Session → Prop}
    (goes : Call.Goes call call.perform session (call.record session) promise) :
    session.Path call (call.record session) (call.outcome session).2 :=
  outcome_of_ensures (fun _ => session.Path call (call.record session))
    (Ensures.imp goes (fun _ _ ended => ended.1) fun _ _ refused => refused.1)

theorem path (inStep : session.InStep setup) (call : HostCall) :
    session.Path call (call.record session) (call.outcome session).2 :=
  path_of_goes (call.goes inStep)

theorem stuck_of_refused (inStep : session.InStep setup) {call : HostCall} {fault : Fault}
    (refused : (call.outcome session).1 = .error fault)
    (fatal : call.isRefusable = false ∨ fault.isFatal = true) : (call.outcome session).2.Stuck := by
  refine outcome_of_ensures (fun answer after => ∀ fault, answer = .error fault →
      call.isRefusable = false ∨ fault.isFatal = true → after.Stuck)
    (Ensures.imp (call.goes inStep) (fun _ _ _ => nofun) ?_) fault refused fatal
  rintro fault after ⟨-, stuck⟩ _ ⟨⟩ fatal
  exact (stuck fatal).2

end HostCall

end Reactor

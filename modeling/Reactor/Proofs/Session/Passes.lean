import Reactor.Proofs.Run.Resembling
import Reactor.Proofs.Session.Isolation
import Reactor.Proofs.Session.Retirement

/-!
# The latest pass of a session

A pass begins with a start, with a run to the end when no run is under way, or with a flush that
evaluates the main source again: `HostCall.begins`.  It may be taken further by steps, and in between a
host may do many other things.  As long as no other pass begins and no stream is registered, all of this
leaves the pass as it is: its result is that of a pass over the main source from the run with which it
began, and the run of the session looks like the one behind that pass.  This is what
`Session.follows_course` says.
-/

namespace Reactor

/-! ### How passes begin -/

/-- The run from which a call begins a pass over the main source, if it does. -/
def HostCall.begins : HostCall → Session → Option Run
  | start, session => session.setup.program.main?.map fun _ => session.run.reset session.setup
  | run, session =>
    match session.state with
    | .idle | .stopped =>
      session.setup.program.main?.map fun _ => session.run.reset session.setup
    | _ => none
  | flush, session => (Call.rerunFrom? session).map (·.beginPass session.setup)
  | _, _ => none

/-- Whether a call registers a stream that was not there. -/
def HostCall.registers (call : HostCall) (session : Session) : Bool :=
  match call with
  | register name | registerWith name _ _ =>
    (session.run.streams.get? name).isNone &&
      ((call.outcome session).2.run.streams.get? name).isSome
  | _ => false

/-- Calls of which none begins a pass and none registers a stream. -/
def Session.Undisturbed (session : Session) : List HostCall → Prop
  | [] => True
  | call :: rest =>
    call.begins session = none ∧ call.registers session = false ∧
      (call.outcome session).2.Undisturbed rest

/-! ### A pass on its way -/

/-- The session is on the pass that began with a run, and nothing else has happened to it: its machine
comes to the end of that pass, or the pass has come to its end. -/
structure Session.OnPass (begun : Run) (session : Session) : Prop where
  underway : session.state = .running → ∃ machine, session.machine = some machine ∧
    machine.finish session.setup (Action.evaluate session.setup) session.run =
      Action.pass session.setup begun
  ended : session.state = .done → ∃ machine run results,
    Action.pass session.setup begun = .ok machine run ∧ session.latest = machine.result ∧
      session.run = { run with sourceResults := results }
  advanced : session.state.isLive → session.advanced = !begun.streams.changed.isEmpty

theorem Session.onPass_of_dormant
    {begun : Run} {session : Session} (dormant : session.state.isLive = false) :
    session.OnPass begun where
  underway running := by rw [running] at dormant; cases dormant
  ended done := by rw [done] at dormant; cases dormant
  advanced live := by rw [dormant] at live; cases live

/-! ### Sessions that follow a pass -/

theorem Run.stable_changed (program : Program) (names : List String) :
    Run.Stable program fun run => run.streams.changed = names := by
  intro run after change same
  cases change with
  | elsewhere streams _ => rwa [streams]
  | provide ensured =>
    rw [Streams.ensure?_eq] at ensured
    obtain ⟨_, _, rfl⟩ := Option.map_eq_some_iff.mp ensured
    exact (Streams.changed_ensured _ _).trans same
  | settle reaction _ _ _ _ _ _ => exact (Streams.changed_subscribeAll _ _ _).trans same

namespace Session

variable {begun : Run} {setup : Setup} {session original : Session}

theorem OnPass.changed (onPass : session.OnPass begun) (live : session.state.isLive) :
    session.run.streams.changed = begun.streams.changed := by
  have stable := fun names => Run.stable_changed session.setup.program names
  have passed := Action.preserves_pass (stable begun.streams.changed) begun rfl
  cases state : session.state with
  | idle | stopped | halted _ => rw [state] at live; cases live
  | running =>
    obtain ⟨machine, -, finished⟩ := onPass.underway state
    have ended := machine.preserves_finish (stable session.run.streams.changed)
      (Action.preserves_evaluate (stable session.run.streams.changed)) session.run rfl
    rw [Ensures, finished] at ended
    rw [Ensures] at passed
    split at passed
    · next last result =>
      rw [result] at ended
      exact ended.symm.trans passed
    · next last result =>
      rw [result] at ended
      exact ended.symm.trans passed
  | done =>
    obtain ⟨machine, run, results, ended, -, same⟩ := onPass.ended state
    rw [Ensures, ended] at passed
    rw [same]
    exact passed

/-- A session that looks like one on a pass. -/
def Follows (begun : Run) (session : Session) : Prop :=
  ∃ original : Session, original.OnPass begun ∧ Like Run.Resembles original session

theorem OnPass.follows (onPass : session.OnPass begun) : session.Follows begun :=
  ⟨session, onPass, rfl, Run.Resembles.refl _⟩

theorem follows_of_dormant (dormant : session.state.isLive = false) : session.Follows begun :=
  (onPass_of_dormant dormant).follows

section

variable (follows : session.Follows begun)
include follows

theorem Follows.withRun {run : Run}
    (kept : ∀ {first : Run}, first.Resembles session.run → first.Resembles run) :
    { session with run }.Follows begun := by
  obtain ⟨original, onPass, same, resembles⟩ := follows
  exact ⟨original, onPass, by rw [same], kept resembles⟩

theorem Follows.takenIn (ordered : session.run.streams.Ordered)
    (noChange : session.run.advancedStreams.changed = []) (still : session.advanced = false)
    (notices : Array Notice) :
    Follows begun { session with run := session.run.takenIn, notices } := by
  cases live : session.state.isLive with
  | false => exact follows_of_dormant live
  | true =>
    obtain ⟨original, onPass, like⟩ := follows
    have alive : original.state.isLive := by rwa [← like.state]
    have quiet : begun.streams.changed = [] := by
      have advanced := onPass.advanced alive
      rw [show original.advanced = session.advanced by rw [like.1], still] at advanced
      simpa using advanced
    have before : session.run.streams.changed = [] := by
      rw [like.2.changed, onPass.changed alive, quiet]
    refine ⟨{ original with notices }, ⟨onPass.underway, onPass.ended, onPass.advanced⟩, ?_,
      like.2.takenIn ordered.nodup before noChange⟩
    rw [like.1]

theorem Follows.stepped (running : session.state = .running) {machine : Machine}
    (held : session.machine = some machine) :
    (session.settled (machine.step session.setup (Action.evaluate session.setup) session.run)).Follows
      begun := by
  obtain ⟨original, onPass, like⟩ := follows
  obtain ⟨run, rfl, resembles⟩ := like.parts
  have concord := Run.concord_resembles
  obtain ⟨_, present, finished⟩ := onPass.underway running
  cases held.symm.trans present
  have meets : Meets Run.Resembles
      (machine.step original.setup (Action.evaluate original.setup) original.run)
      (machine.step original.setup (Action.evaluate original.setup) run) :=
    machine.mirrors_step concord.toCongruence
      (Action.mirrors_evaluate concord.toCongruence concord.nest) original.run run resembles
  rw [Machine.finish_eq_step] at finished
  cases stepped : machine.step original.setup (Action.evaluate original.setup) original.run with
  | error defect last =>
    obtain ⟨other, same, -⟩ := meets.of_error stepped
    rw [same]
    exact follows_of_dormant rfl
  | ok next last =>
    obtain ⟨other, same, still⟩ := meets.of_ok stepped
    have advanced := onPass.advanced (by rw [show original.state = _ from running]; rfl)
    rw [bind_of_ok stepped] at finished
    rw [same, settled]
    split
    · next done =>
      rw [Machine.finish_of_nil (List.isEmpty_iff.mp done)] at finished
      refine ⟨Session.finished { original with run := last } next, ⟨by simp [Session.finished], fun _ => ?_,
        fun _ => advanced⟩, ?_⟩
      · simp only [Session.finished]
        split
        · exact ⟨next, last, _, finished.symm, rfl, rfl⟩
        · exact ⟨next, last, last.sourceResults, finished.symm, rfl, rfl⟩
      · rw [← likeIf_eq_like]
        exact (Call.mirrors_finishPass concord.toLikeness next { original with run := last }
          { original with run := other } ⟨rfl, fun _ => ⟨rfl, rfl, rfl⟩, still⟩).2
    · refine ⟨{ original with run := last, machine := some next }, ⟨fun _ => ⟨next, rfl, finished⟩,
        fun done => ?_, fun _ => advanced⟩, rfl, still⟩
      cases (show original.state = _ from running).symm.trans done

end

/-- A call that neither registers streams nor begins another pass takes the pass further, or leaves it
as it is.  Where it begins this one, it does so before anything else. -/
theorem Follows.move
    (hasMain : session.setup.program.main?.isSome) (follows : session.Follows begun) {call : HostCall}
    (apart : call ≠ .start ∧ call ≠ .flush ∧ (∀ name, call ≠ .register name) ∧
      ∀ name kind initial, call ≠ .registerWith name kind initial)
    (opens : call.Starts session → session.run.reset session.setup = begun)
    {record : List Entry} {after : Session} (move : session.Move call record after) :
    after.Follows begun ∧ (call.Starts after → after.run.reset after.setup = begun) := by
  have ongoing {after : Session} (under : after.state ≠ .idle ∧ after.state ≠ .stopped) :
      call.Starts after → after.run.reset after.setup = begun := by
    rintro (isStart | ⟨-, idle | stopped⟩)
    · exact absurd isStart apart.1
    · exact absurd idle under.1
    · exact absurd stopped under.2
  have other {after : Session} (isOther : call ≠ .run) :
      call.Starts after → after.run.reset after.setup = begun := by
    rintro (isStart | ⟨isRun, -⟩)
    · exact absurd isStart apart.1
    · exact absurd isRun isOther
  cases move with
  | aside observers nextObserver notices =>
    obtain ⟨original, onPass, like⟩ := follows
    refine ⟨⟨{ original with observers, nextObserver, notices },
      ⟨onPass.underway, onPass.ended, onPass.advanced⟩, ?_, like.2⟩, opens⟩
    rw [like.1]
  | prepared prepares =>
    cases prepares with
    | register name => exact absurd rfl (apart.2.2.1 name)
    | registerWith => exact absurd rfl (apart.2.2.2 _ _ _)
    | send name datum =>
      exact ⟨follows.withRun fun resembles => resembles.of_tables (fun _ => rfl) rfl rfl,
        other nofun⟩
  | @handed name value isPush alive =>
    exact ⟨follows.withRun fun resembles => resembles.handed (name, value), other (by simp [isPush])⟩
  | @started machine run starts began =>
    refine ⟨OnPass.follows ⟨fun _ => ⟨machine, rfl, ?_⟩, nofun, fun _ => ?_⟩, ongoing ⟨nofun, nofun⟩⟩
    · rw [← opens starts]
      exact (bind_of_ok began _).symm
    · rw [← opens starts]
      rfl
  | unstarted starts missing =>
    rw [missing] at hasMain
    cases hasMain
  | @stepped machine running held =>
    refine ⟨follows.stepped running held, ongoing ?_⟩
    refine @settled_of_ensures _ _ _ (fun after => after.state ≠ .idle ∧ after.state ≠ .stopped) _ _
      (ensures_end _ session.run) ?_ ?_ ?_
    · exact fun _ _ _ _ => ⟨nofun, nofun⟩
    · intro _ _ _ _
      simp [running]
    · exact fun _ _ _ => ⟨nofun, nofun⟩
  | lost => exact ⟨follows_of_dormant rfl, ongoing ⟨nofun, nofun⟩⟩
  | stopped isStop =>
    refine ⟨follows_of_dormant ?_, other (by simp [isStop])⟩
    cases live : session.state.isLive with
    | true => rfl
    | false => exact live
  | flushed isFlush => exact absurd isFlush apart.2.1

theorem Follows.outcome (inStep : session.InStep setup) (hasMain : setup.program.main?.isSome)
    (follows : session.Follows begun) {call : HostCall}
    (apart : call ≠ .start ∧ call ≠ .flush ∧ (∀ name, call ≠ .register name) ∧
      ∀ name kind initial, call ≠ .registerWith name kind initial)
    (opens : call.Starts session → session.run.reset session.setup = begun) :
    (call.outcome session).2.Follows begun := by
  refine (@Path.keeps _ _ _ _ (fun session => session.InStep setup ∧ session.Follows begun ∧
    (call.Starts session → session.run.reset session.setup = begun)) ?_ (call.path inStep)
    ⟨inStep, follows, opens⟩).2.1
  rintro session record after ⟨inStep, follows, opens⟩ move
  exact ⟨inStep.move move, follows.move (by rwa [inStep.1]) apart opens move⟩

end Session

namespace Call

open Session

variable {begun : Run} {setup : Setup} {session : Session}

/-- A flush begins a pass and takes it to its end, or it changes nothing but what waits, what is marked
and what observers were told, or it is no longer live. -/
theorem ensures_flush_passes (inStep : session.InStep setup) (alive : session.Alive) :
    Ensures flush session
      (fun _ after =>
        (∃ begun, HostCall.flush.begins session = some begun ∧ after.OnPass begun) ∨
          HostCall.flush.begins session = none ∧
            (after.state.isLive = false ∨
              session.run.advancedStreams.changed = [] ∧ session.advanced = false ∧
                after = { session with run := session.run.takenIn, notices := after.notices }))
      (fun _ after => after.state.isLive = false) := by
  simp only [Ensures, flush_of_alive inStep alive]
  show Ensures (refresh _ _) _ _ _
  simp only [refresh, ensures_bind, ensures_get, ensures_perform]
  refine (ensures_end _ session.run.takenIn).imp ?_ fun _ _ _ => rfl
  intro _ run updated
  have begins := rerunFrom?_eq inStep alive updated
  have changed : run.streams.changed = session.run.advancedStreams.changed := by
    have kept := Action.preserves_updateAll
      (Run.stable_changed session.setup.program session.run.advancedStreams.changed)
      (fun _ _ _ same => same) session.run.takenIn.reactions.dirty session.run.takenIn rfl
    rwa [Ensures, updated] at kept
  simp only [ensures_modify]
  split
  · next again =>
    rw [if_pos (show session.isStale = true from again)] at begins
    simp only [rerun, finishPass, notify, ensures_bind, ensures_get, ensures_perform,
      ensures_modify]
    refine (ensures_end _ (run.beginPass session.setup)).imp ?_ fun _ _ _ => rfl
    intro machine last passed
    refine Or.inl ⟨run.beginPass session.setup, by rw [HostCall.begins, begins]; rfl, nofun,
      fun _ => ?_, fun _ => ?_⟩
    · simp only
      split
      · exact ⟨machine, last, _, passed, rfl, rfl⟩
      · exact ⟨machine, last, last.sourceResults, passed, rfl, rfl⟩
    · exact congrArg (fun names => !names.isEmpty) changed.symm
  · next calm =>
    rw [if_neg (show ¬ session.isStale = true from calm)] at begins
    refine Or.inr ⟨by rw [HostCall.begins, begins]; rfl, ?_⟩
    cases live : session.state.isLive with
    | false => exact Or.inl rfl
    | true =>
      simp only [live, Bool.true_and, Bool.or_eq_true, Bool.not_eq_true', not_or,
        Bool.not_eq_false, List.isEmpty_iff, Bool.not_eq_true] at calm
      obtain ⟨⟨noChange, noMark⟩, still⟩ := calm
      rw [noMark] at updated
      cases updated
      refine Or.inr ⟨noChange, still, ?_⟩
      simp only [noChange, still]
      rfl

theorem onPass_start (named : session.setup.program.main?.isSome) :
    Ensures start session
      (fun _ after => after.OnPass (session.run.reset session.setup))
      (fun _ _ => False) := by
  unfold start
  rw [ensures_bind, ensures_modify, ensures_bind, ensures_get, ensures_bind, ensures_performOr]
  obtain ⟨main, isMain⟩ := Option.isSome_iff_exists.mp named
  obtain ⟨machine, last, began⟩ :=
    Action.exists_mainMachine_eq isMain (session.run.reset session.setup)
  rw [Ensures, began]
  exact ⟨fun _ => ⟨machine, rfl, (bind_of_ok began _).symm⟩, nofun, fun _ => rfl⟩

end Call

namespace HostCall

open Session

variable {begun : Run} {setup : Setup} {session : Session} {call : HostCall}

theorem follows_of_begins (inStep : session.InStep setup) (hasMain : setup.program.main?.isSome)
    (begins : call.begins session = some begun) : (call.outcome session).2.Follows begun := by
  have named : session.setup.program.main?.isSome := by rwa [inStep.1]
  obtain ⟨main, isMain⟩ := Option.isSome_iff_exists.mp named
  cases call with
  | start =>
    rw [HostCall.begins, isMain] at begins
    cases begins
    refine outcome_of_ensures (fun _ => Follows _) ((ensures_bind _ _).mpr ?_)
    exact (Call.onPass_start named).imp (fun _ _ ended => ended.follows)
      fun _ _ impossible => impossible.elim
  | run =>
    have rests : session.state = .idle ∨ session.state = .stopped := by
      cases state : session.state with
      | idle => exact Or.inl rfl
      | stopped => exact Or.inr rfl
      | running | done | halted _ => simp [HostCall.begins, state] at begins
    have started : session.run.reset session.setup = begun := by
      rcases rests with state | state <;> simpa [HostCall.begins, state, isMain] using begins
    refine (follows_of_dormant ?_).outcome inStep hasMain ⟨nofun, nofun, nofun, nofun⟩ fun _ => started
    rcases rests with state | state <;> rw [state] <;> rfl
  | flush =>
    by_cases alive : session.Alive
    · refine outcome_of_ensures (fun _ => Follows begun) ((ensures_bind _ _).mpr
        ((Call.ensures_flush_passes inStep alive).imp ?_ fun _ _ dormant => follows_of_dormant dormant))
      rintro _ after (⟨other, same, onPass⟩ | ⟨none, -⟩)
      · rw [begins] at same
        cases same
        exact onPass.follows
      · rw [begins] at none
        cases none
    · obtain ⟨defect, halted⟩ := not_forall_not.mp alive
      simp [HostCall.begins, Call.rerunFrom?, halted] at begins
  | _ => cases begins

theorem follows_flush (inStep : session.InStep setup) (ordered : session.run.streams.Ordered)
    (follows : session.Follows begun) (calm : HostCall.flush.begins session = none) :
    (HostCall.flush.outcome session).2.Follows begun := by
  by_cases alive : session.Alive
  · refine outcome_of_ensures (fun _ => Follows begun) ((ensures_bind _ _).mpr
      ((Call.ensures_flush_passes inStep alive).imp ?_
        fun _ _ dormant => follows_of_dormant dormant))
    rintro _ after (⟨other, begins, -⟩ | ⟨-, dormant | ⟨noChange, still, same⟩⟩)
    · rw [calm] at begins
      cases begins
    · exact follows_of_dormant dormant
    · rw [same]
      exact follows.takenIn ordered noChange still after.notices
  · rw [(flush_of_halted alive).1.choose_spec]
    exact follows

theorem register_of_present
    {name : String} (calm : (HostCall.register name).registers session = false) :
    ((HostCall.register name).outcome session).2 = session := by
  have same : ((HostCall.register name).outcome session).2 =
      { session with run.streams := session.run.streams.register name } := rfl
  simp only [registers, same, Streams.register] at calm ⊢
  cases present : session.run.streams.get? name with
  | some stream => rfl
  | none =>
    have new : session.run.streams.get? (Stream.create name .any none).name = none := present
    simp only [present, Streams.get?_add new] at calm
    simp [Stream.create] at calm

theorem registerWith_of_present {name : String} {kind : StreamKind} {initial : Option Val}
    (calm : (HostCall.registerWith name kind initial).registers session = false) :
    ((HostCall.registerWith name kind initial).outcome session).2 = session := by
  rw [registers, Call.outcome_registerWith] at calm
  rw [Call.outcome_registerWith]
  unfold Streams.registerWith at calm ⊢
  split
  · next streams registered =>
    split at registered
    · cases registered
    · next fits =>
      rw [fits] at calm
      cases present : session.run.streams.get? name with
      | some existing =>
        simp only [present] at registered
        split at registered
        · cases registered
          rfl
        · cases registered
      | none =>
        have new : session.run.streams.get? (Stream.create name kind initial).name = none :=
          present
        simp only [present, Streams.get?_add new] at calm
        simp [Stream.create] at calm
  · rfl

theorem follows_outcome (inStep : session.InStep setup) (ordered : session.run.streams.Ordered)
    (hasMain : setup.program.main?.isSome) (follows : session.Follows begun)
    (calm : call.begins session = none) (noStream : call.registers session = false) :
    (call.outcome session).2.Follows begun := by
  have named : session.setup.program.main?.isSome := by rwa [inStep.1]
  obtain ⟨main, isMain⟩ := Option.isSome_iff_exists.mp named
  have opens : call ≠ .start → call.Starts session → session.run.reset session.setup = begun := by
    rintro notStart (isStart | ⟨rfl, state | state⟩)
    · exact absurd isStart notStart
    · simp [HostCall.begins, state, isMain] at calm
    · simp [HostCall.begins, state, isMain] at calm
  cases call with
  | start => simp [HostCall.begins, isMain] at calm
  | flush => exact follows_flush inStep ordered follows calm
  | register stream => rwa [register_of_present noStream]
  | registerWith stream kind initial => rwa [registerWith_of_present noStream]
  | _ => exact follows.outcome inStep hasMain ⟨nofun, nofun, nofun, nofun⟩ (opens nofun)

end HostCall

namespace Session

variable {begun : Run} {setup : Setup}

theorem follows_course
    (hasMain : setup.program.main?.isSome) {calls : List HostCall} {session : Session}
    (inStep : session.InStep setup) (ordered : session.run.streams.Ordered)
    (follows : session.Follows begun) (undisturbed : session.Undisturbed calls) :
    (session.course calls).2.Follows begun := by
  induction calls generalizing session with
  | nil => exact follows
  | cons call rest ih =>
    obtain ⟨calm, noStream, later⟩ := undisturbed
    exact ih (inStep.outcome call) ((call.path inStep).keeps ordered_move ordered)
      (HostCall.follows_outcome inStep ordered hasMain follows calm noStream) later

end Session

end Reactor

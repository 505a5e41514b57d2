import Reactor.Proofs.Engine.Propagation
import Reactor.Proofs.Engine.UpdateSafety
import Reactor.Proofs.Session.Watching

/-!
# Exceptions end a pass

In a program in which no node looks at exceptions and nothing reacts, a pass over the main source ends
with the first exception that comes up in it, on the machine of the main source or on one that a native
has started.  This holds of every pass: of the one that a run begins with, and of those that flushes
make on what was pushed and sent.  It does not matter what else the host does while a pass is on its
way, and how it takes the pass to its end.

`Session.Heeds` says how a session stands between two calls, given what has happened since its latest
pass began, and `Heeds.move` that every move of a session keeps it.
-/

namespace Reactor

open List Event

/-- The exception that comes up in a history, if any does, is what the history comes to. -/
def History.Ends (history : History) (outcome : Option Val) : Prop :=
  Event.Ends (history.map Prod.snd) outcome

/-- Nothing reacts in a plain program, so nothing is ever dirty. -/
theorem Run.InStep.dirty_of_plain
    {program : Program} {run : Run} (inStep : run.InStep program) (plain : program.Plain) :
    run.reactions.dirty = [] := by
  have empty : run.reactions.table = [] := by
    refine eq_nil_iff_forall_not_mem.mpr fun reaction member => ?_
    obtain ⟨_, _, _, _, present, -⟩ := inStep.faithful reaction member
    cases plain.isPlain present
  simp [Reactions.dirty, empty]

namespace Session

/-- How a session stands, given what has happened since its latest pass began.  While the pass is on
its way, an exception that has come up is what the machine has received last. -/
structure Heeds (setup : Setup) (history : History) (session : Session) : Prop where
  same : session.setup = setup
  past : ∃ outcome, history.Ends outcome
  live : session.state.isLive = true →
    session.run.defect = none ∧ setup.program.main?.isSome
  running : session.state = .running →
    ∃ machine, session.machine = some machine ∧ machine.Ready setup.program ∧
      history.Ends machine.received?
  done : session.state = .done → history.Ends session.latest
  quiet : session.state.isLive = false → session.state ≠ .stopped →
    Quiet (history.map Prod.snd)

variable {setup : Setup} {history : History} {session after : Session} {call : HostCall}
  {record : List Entry}

theorem heeds_settled (same : session.setup = setup) (hasMain : setup.program.main?.isSome)
    {action : Action Machine} {run : Run}
    (ended : Ensures action run
      (fun machine last => last.defect = none ∧ machine.Ready setup.program ∧
        history.Ends machine.received? ∧ (machine.isDone = false → session.state = .running))
      (fun _ _ => Quiet (history.map Prod.snd))) :
    (session.settled (action run)).Heeds setup history := by
  refine settled_of_ensures ended ?_ ?_ ?_
  · rintro machine last ⟨calm, -, ends, -⟩ empty
    have received : machine.received? = machine.result := by simp [Machine.received?, empty]
    rw [received] at ends
    have calmAfter : (finished { session with run := last } machine).run.defect = none := by
      unfold finished
      dsimp only
      split
      · exact calm
      · exact calm
    refine ⟨same, ⟨_, ends⟩, fun _ => ⟨calmAfter, hasMain⟩, fun running => ?_, fun _ => ends,
      fun idle => ?_⟩
    · cases running
    · cases idle
  · rintro machine last ⟨calm, ready, ends, goesOn⟩ undone
    have running := goesOn undone
    refine ⟨same, ⟨_, ends⟩, fun _ => ⟨calm, hasMain⟩, fun _ => ⟨machine, rfl, ready, ends⟩, ?_, ?_⟩
    · simp [running]
    · simp [running, RunState.isLive]
  · intro defect last quiet
    refine ⟨same, ⟨none, .inl quiet⟩, fun live => ?_, fun running => ?_, fun done => ?_,
      fun _ _ => quiet⟩
    · cases live
    · cases running
    · cases done

/-- Only what a session is while its pass is on its way matters. -/
theorem Heeds.of_run (heeds : session.Heeds setup history) {run : Run}
    (defect : run.defect = session.run.defect) : { session with run }.Heeds setup history :=
  { heeds with live := fun live => (heeds.live live).imp_left defect.trans }

theorem Heeds.flushes
    (heeds : session.Heeds setup history) (plain : setup.program.Plain)
    (inStep : session.InStep setup) (flushes : session.Flushes record after) :
    history.Fine (fun past => ∃ outcome, past.Ends outcome) record ∧
      after.Heeds setup (history.behind record) := by
  obtain rfl : session.setup = setup := heeds.same
  have clean : session.run.takenIn.reactions.dirty = [] := inStep.takenIn.dirty_of_plain plain
  have silent : Call.updatesLog session = [] := by
    rw [Call.updatesLog, clean]
    rfl
  cases flushes with
  | failed failed =>
    rw [clean] at failed
    cases failed
  | updated updated fresh =>
    rw [clean] at updated
    cases updated
    rw [silent]
    exact ⟨trivial, { heeds.of_run rfl with }⟩
  | passed updated stale =>
    rw [clean] at updated
    cases updated
    obtain ⟨calm, hasMain⟩ := heeds.live (Bool.and_eq_true_iff.mp stale).1
    rw [silent, map_nil, nil_append, History.behind_pass]
    refine ⟨⟨heeds.past, History.fine_events _ _⟩, { heeds_settled rfl hasMain ?_ with }⟩
    simp only [History.Ends, History.map_snd_add, map_nil, nil_append]
    refine (Action.propagates_pass plain (session.run.takenIn.beginPass session.setup) calm).map ?_
    rintro machine last ⟨calmLast, empty, ends⟩
    exact ⟨calmLast, .inl (by simp [Machine.PassesOn, empty]), ends, by
      simp [Machine.isDone, empty]⟩

theorem Heeds.move
    (heeds : session.Heeds setup history) (plain : setup.program.Plain)
    (inStep : session.InStep setup) (move : session.Move call record after) :
    history.Fine (fun past => ∃ outcome, past.Ends outcome) record ∧
      after.Heeds setup (history.behind record) := by
  cases move with
  | aside => exact ⟨trivial, { heeds with }⟩
  | prepared => exact ⟨trivial, heeds.of_run rfl⟩
  | handed =>
    refine ⟨trivial, heeds.of_run ?_⟩
    unfold Run.handed
    split
    · rfl
    · rfl
  | @started machine run starts begun =>
    obtain rfl : session.setup = setup := heeds.same
    have started := Action.propagates_mainMachine session.setup
      (session.run.reset session.setup) rfl
    rw [Ensures, begun] at started
    obtain ⟨calm, ready, ends⟩ := started
    rw [History.behind_pass]
    refine ⟨⟨heeds.past, History.fine_events _ _⟩, ?_⟩
    have ends : History.Ends (History.add [] false (Call.startLog session)) machine.received? := by
      rwa [History.Ends, History.map_snd_add]
    refine ⟨rfl, ⟨_, ends⟩, fun _ => ⟨calm, Action.isSome_of_mainMachine begun⟩,
      fun _ => ⟨machine, rfl, ready, ends⟩, fun done => ?_, fun idle => ?_⟩
    · cases done
    · cases idle
  | unstarted starts missing =>
    obtain rfl : session.setup = setup := heeds.same
    have idle (live : session.state.isLive = true) : False := by
      simpa [missing] using (heeds.live live).2
    refine ⟨⟨heeds.past, trivial⟩, rfl, ⟨none, .inl quiet_nil⟩, fun live => (idle live).elim,
      fun running => (idle ?_).elim, fun done => (idle ?_).elim, fun _ _ => quiet_nil⟩
    · rw [show session.state = .running from running]
      rfl
    · rw [show session.state = .done from done]
      rfl
  | @stepped machine running held =>
    obtain rfl : session.setup = setup := heeds.same
    obtain ⟨calm, hasMain⟩ := heeds.live (by rw [running]; rfl)
    obtain ⟨other, holds, ready, ends⟩ := heeds.running running
    cases held.symm.trans holds
    rw [History.behind_events, Call.stepLog]
    simp only [running, held]
    refine ⟨History.fine_events _ _, heeds_settled rfl hasMain ?_⟩
    simp only [History.Ends, History.map_snd_add]
    exact (Action.ensures_step_of_ends plain ready ends calm).map fun next last stepped =>
      ⟨stepped.1, stepped.2.1, stepped.2.2, fun _ => running⟩
  | lost running none =>
    obtain ⟨machine, held, -⟩ := heeds.running running
    cases none.symm.trans held
  | stopped isStop =>
    refine ⟨trivial, ?_⟩
    cases live : session.state.isLive with
    | true =>
      rw [if_pos rfl]
      refine ⟨heeds.same, heeds.past, fun isLive => ?_, fun running => ?_, fun done => ?_,
        fun _ goesOn => absurd rfl goesOn⟩
      · cases isLive
      · cases running
      · cases done
    | false =>
      rw [if_neg Bool.false_ne_true]
      refine ⟨heeds.same, heeds.past, fun isLive => ?_, fun running => ?_, heeds.done, heeds.quiet⟩
      · cases live.symm.trans isLive
      · simp [show session.state = .running from running, RunState.isLive] at live
  | flushed isFlush alive flushes => exact heeds.flushes plain inStep flushes

theorem heeds_course (program : Program) (limits : Limits) (plain : program.Plain)
    (calls : List HostCall) :
    let record := (create program limits).courseRecord calls
    History.Fine (fun past => ∃ outcome, past.Ends outcome) [] record ∧
      ((create program limits).course calls).2.Heeds ⟨program, limits⟩ (History.behind [] record) := by
  have quiet : Quiet (([] : History).map Prod.snd) := quiet_nil
  have created : (create program limits).Heeds ⟨program, limits⟩ [] :=
    ⟨rfl, ⟨none, .inl quiet⟩, by simp [create, RunState.isLive], by simp [create],
      by simp [create], fun _ _ => quiet⟩
  refine @course_tracks ⟨program, limits⟩ _
    (fun past session => History.Fine (fun past => ∃ outcome, past.Ends outcome) [] past ∧
      session.Heeds ⟨program, limits⟩ (History.behind [] past))
    (fun _ => True) ?_ (inStep_create program limits) [] ⟨trivial, created⟩ calls fun _ _ => trivial
  rintro call past session record after - inStep ⟨fine, heeds⟩ move
  rw [History.fine_append, History.behind_append]
  exact ⟨⟨fine, (heeds.move plain inStep move).1⟩, (heeds.move plain inStep move).2⟩

/-! ### The value of a pass -/

/-- The latest pass of a session comes to a value: it is on its way to it and can be taken to its end,
or has come to it, unless it was given up. -/
structure ComesTo (value : Val) (session : Session) : Prop where
  state : session.state = .running ∨ session.state = .done ∨ session.state = .stopped
  run : session.state ≠ .stopped →
    ∃ after, HostCall.run.outcome session = (.ok (.value value), after) ∧
      after.latest = some value
  done : session.state = .done → session.latest = some value

theorem Heeds.comesTo
    (heeds : session.Heeds setup history) (plain : setup.program.Plain)
    (inStep : session.InStep setup)
    {event : Event} (happened : event ∈ history.map Prod.snd)
    {exception : Val} (raised : event.raised? = some exception) :
    session.ComesTo exception := by
  have ends {history : History} {outcome : Option Val} (ends : history.Ends outcome)
      (happened : event ∈ history.map Prod.snd) : outcome = some exception := by
    obtain ⟨earlier, later, split⟩ := append_of_mem happened
    exact (Event.Ends.of_raised? ends split raised).1
  have loud {history : History} (happened : event ∈ history.map Prod.snd) :
      ¬ Quiet (history.map Prod.snd) := fun quiet => by
    rw [quiet event happened] at raised
    cases raised
  have state : session.state = .running ∨ session.state = .done ∨ session.state = .stopped := by
    cases state : session.state with
    | running => exact .inl rfl
    | done => exact .inr (.inl rfl)
    | stopped => exact .inr (.inr rfl)
    | idle => exact (loud happened (heeds.quiet (by rw [state]; rfl) (by simp [state]))).elim
    | halted defect =>
      exact (loud happened (heeds.quiet (by rw [state]; rfl) (by simp [state]))).elim
  refine ⟨state, fun goesOn => ?_, fun done => ends (heeds.done done) happened⟩
  have live : session.state.isLive = true := by
    rcases state with state | state | state
    · rw [state]
      rfl
    · rw [state]
      rfl
    · exact absurd state goesOn
  -- to run a session that is live begins no pass
  have recorded : HostCall.run.record session = (Call.driveLog session).map (.event false) := by
    rw [HostCall.record]
    cases state : session.state with
    | running | done => rfl
    | idle | stopped | halted _ => simp [state, RunState.isLive] at live
  have tracked {after : Session} (path : session.Path .run (HostCall.run.record session) after) :
      after.Heeds setup (history.add false (Call.driveLog session)) ∧
        event ∈ (history.add false (Call.driveLog session)).map Prod.snd := by
    have kept := (@Path.tracks _ _ _ _
      (fun past session => session.InStep setup ∧ session.Heeds setup (history.behind past))
      (fun both move => ⟨both.1.move move, by
        rw [History.behind_append]
        exact (both.2.move plain both.1 move).2⟩) path [] ⟨inStep, heeds⟩).2
    rw [nil_append, recorded, History.behind_events] at kept
    rw [History.map_snd_add]
    exact ⟨kept, mem_append_left _ happened⟩
  have ran : Call.Goes .run Call.run session (HostCall.run.record session) _ := Call.goes_run
  cases ended : Call.run session with
  | ok value after =>
    rw [Call.Goes, Ensures, ended] at ran
    obtain ⟨path, done, latest⟩ := ran
    obtain ⟨later, stays⟩ := tracked path
    cases latest.symm.trans (ends (later.done done) stays)
    refine ⟨after, ?_, latest⟩
    simp only [HostCall.outcome, HostCall.perform, bind, EStateM.bind, ended]
    rfl
  | error fault after =>
    rw [Call.Goes, Ensures, ended] at ran
    obtain ⟨path, stuck⟩ := ran
    obtain ⟨later, stays⟩ := tracked path
    rcases (stuck (.inl rfl)).2 with ⟨defect, halted⟩ | missing | ⟨done, missing⟩
    · exact (loud stays (later.quiet (by rw [halted]; rfl) (by simp [halted]))).elim
    · rw [later.same] at missing
      simpa [missing] using (heeds.live live).2
    · rw [ends (later.done done) stays] at missing
      cases missing

/--
The first exception ends a pass.  Whatever a host calls, take a part of the record of all that happens
in which no pass begins.  If a frame of any machine completes with an exception at its first event, or
is delivered one, then all that happens in the rest of it is that frames complete with this exception:
no node is entered any more and no function is called.  And if no other pass has begun since, the
exception is what the run comes to, unless the host has given up the run.  A flush is a call like any
other, so this holds with whatever contents of streams a pass begins.
-/
theorem first_exception_ends_pass
    (program : Program) (limits : Limits) (plain : program.Plain) (calls : List HostCall) :
    let session := create program limits
    let record := session.courseRecord calls
    record.filterMap Entry.event? = session.courseLog calls ∧
      ∀ earlier part (parts : History) later exception,
        record = earlier ++ (part :: parts).map (fun part => .event part.1 part.2) ++ later →
        part.2.raised? = some exception →
          (∀ next ∈ parts, next.2.PassesOn exception) ∧
            (later = [] → (session.course calls).2.ComesTo exception) := by
  intro session record
  obtain ⟨fine, heeds⟩ := heeds_course program limits plain calls
  refine ⟨filterMap_courseRecord session calls, ?_⟩
  intro earlier part parts later exception split raised
  have good := heeds.past
  have whole : session.courseRecord calls = _ := split
  rw [whole] at fine good
  obtain ⟨before, after, outcome, ends⟩ := fine.stretch good
  constructor
  · have shape : (before ++ (part :: parts) ++ after).map Prod.snd =
        before.map Prod.snd ++ part.2 :: (parts ++ after).map Prod.snd := by
      simp
    have passing := (Event.Ends.of_raised? ends shape raised).2
    intro next member
    exact passing next.2 (mem_map_of_mem (mem_append_left _ member))
  · rintro rfl
    rw [whole, append_nil, History.behind_append, History.behind_parts] at heeds
    exact heeds.comesTo plain (inStep_course (inStep_create program limits) calls) (by simp) raised

/-- Whether a frame completes with the report of an unbound name, or is delivered it. -/
def raisesUnbound (name : String) (node : NodeId) : Entry → Bool
  | .pass => false
  | .event _ event =>
    match event.raised? with
    | some (.failure (.unboundName other) place) => other == name && place == node
    | _ => false

theorem exists_of_raisesUnbound {name : String} {node : NodeId} {entry : Entry}
    (raises : raisesUnbound name node entry = true) :
    ∃ part : Bool × Event, entry = .event part.1 part.2 ∧
      part.2.raised? = some (.failure (.unboundName name) node) := by
  unfold raisesUnbound at raises
  split at raises
  · cases raises
  · next updating event =>
    split at raises
    · next other place raised =>
      obtain ⟨rfl, rfl⟩ : other = name ∧ place = node := by simpa using raises
      exact ⟨(updating, event), rfl, raised⟩
    · cases raises

/-- A run ends without an exception.  Then a value is pushed, and in the pass of the flush a function
that a native calls on the first of two items meets a name that is not bound. -/
theorem first_exception_ends_pass_of_flush :
    let program := Program.ofExpr
      (.call (.access (.list [.bool true, .bool false]) "translate")
        [.function none ["item"] (.conditional (.stream "s") (.name "x") (.name "item"))])
    let session := create program ⟨8, 1⟩
    let calls : List HostCall :=
      [.registerWith "s" .any (some (.bool false)), .run, .push "s" (.bool true), .flush]
    let exception := Val.failure (.unboundName "x") 5
    (program.Plain ∧ (session.course (calls.take 2)).2.latest.any Val.isException = false) ∧
      (∃ earlier, ∃ part next last : Bool × Event,
        session.courseRecord calls =
            earlier ++ [part, next, last].map (fun part => .event part.1 part.2) ∧
          part.2.raised? = some exception ∧ next.2.PassesOn exception ∧
            last.2.PassesOn exception) ∧
      (session.course calls).2.latest = some exception := by
  intro program session calls exception
  have plain : program.Plain := by decide
  have facts : ((session.course (calls.take 2)).2.latest.any Val.isException,
      (session.courseRecord calls).length, (session.courseRecord calls).drop 44 |>.all
        (raisesUnbound "x" 5), (session.course calls).2.state) = (false, 47, true, .done) := by
    decide +kernel
  simp only [Prod.mk.injEq] at facts
  obtain ⟨calm, length, raises, done⟩ := facts
  obtain ⟨first, second, third, shape⟩ :=
    List.length_eq_three.mp (show ((session.courseRecord calls).drop 44).length = 3 by
      rw [List.length_drop, length])
  simp only [shape, all_cons, all_nil, Bool.and_true, Bool.and_eq_true] at raises
  obtain ⟨part, rfl, raised⟩ := exists_of_raisesUnbound raises.1
  obtain ⟨next, rfl, -⟩ := exists_of_raisesUnbound raises.2.1
  obtain ⟨last, rfl, -⟩ := exists_of_raisesUnbound raises.2.2
  have whole : session.courseRecord calls = (session.courseRecord calls).take 44 ++
      [part, next, last].map (fun part => .event part.1 part.2) := by
    rw [map_cons, map_cons, map_cons, map_nil, ← shape, take_append_drop]
  obtain ⟨passing, comes⟩ := (first_exception_ends_pass program ⟨8, 1⟩ plain calls).2
    _ part [next, last] [] exception (by rw [append_nil]; exact whole) raised
  exact ⟨⟨plain, calm⟩, ⟨_, part, next, last, whole, raised, passing next (by simp),
    passing last (by simp)⟩, (comes rfl).done done⟩

end Session

end Reactor

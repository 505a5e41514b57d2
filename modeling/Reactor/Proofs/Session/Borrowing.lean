import Reactor.Proofs.Engine.Lending
import Reactor.Proofs.Session.Pooling

/-!
# What a flush borrows

What is known of sources is forgotten where a pass begins.  A flush commits, updates reactions and then
begins a pass.  So in the pass every source is evaluated again before its value is used, and all that
it reads is what the flush has committed.

The updates come before the pass.  A source that was borrowed since the last pass began is still known
then, and an update that borrows it gets the value from before the commit.  This is the only way in
which a flush uses an older value, and `update_borrows_value_from_before_flush` is a case of it.
-/

namespace Reactor

open List

/-- A borrow completes with the value of a source: the source has just ended with it, or it is known. -/
def Moment.Borrows (program : Program) (moment : Moment) : Loans := fun source value =>
  Event.Lends program (.moved moment) source value ∨
    ∃ top rest name, moment.before.frames = top :: rest ∧ top.kind = .borrow .enter ∧
      program.node? top.node = some (.borrow source name) ∧ (program.source? source).isSome ∧
        moment.run.borrowed.get? source = some value

theorem Run.Traced.borrows
    {program : Program} {known : Bindings} {streams : Streams} {earlier : List Event}
    {moment : Moment} {source : String} {value : Val}
    (traced : moment.run.Traced known streams (Event.loans program earlier))
    (borrows : moment.Borrows program source value) :
    known.get? source = some value ∨
      Event.loans program (earlier ++ [.moved moment]) source value := by
  rw [Run.loans_append]
  rcases borrows with lends | ⟨_, _, _, _, _, _, _, found⟩
  · exact Or.inr (Or.inr ⟨_, mem_singleton_self _, lends⟩)
  · exact (traced.known_or_lent source value found).imp_right Or.inl

namespace Call

variable {setup : Setup} {session : Session}

theorem flushLog_eq (inStep : session.InStep setup) (alive : session.Alive) :
    flushLog session = updatesLog session ++
      match Action.updateAll session.setup session.run.takenIn.reactions.dirty
        session.run.takenIn with
      | .error _ _ => []
      | .ok _ run =>
        if session.state.isLive && (!session.run.advancedStreams.changed.isEmpty ||
          !session.run.takenIn.reactions.dirty.isEmpty || session.advanced) then
          Action.passLog session.setup (run.beginPass session.setup)
        else [] := by
  rw [← filterMap_flushRecord, flushRecord_of_alive inStep alive, filterMap_append,
    Entry.filterMap_events]
  cases Action.updateAll session.setup session.run.takenIn.reactions.dirty session.run.takenIn with
  | error defect run => rfl
  | ok _ run =>
    dsimp only
    by_cases stale : session.isStale = true
    · rw [if_pos stale, filterMap_cons_none rfl, Entry.filterMap_events]
      exact congrArg _ (if_pos stale).symm
    · rw [if_neg stale]
      exact congrArg _ (if_neg stale).symm

theorem flushLog_of_halted (halted : ¬ session.Alive) : flushLog session = [] := by
  obtain ⟨defect, notAlive⟩ := Classical.not_forall.mp halted
  simp only [flushLog, Classical.not_not.mp notAlive]

/-- What a pass that a flush begins finds known, it has found out itself. -/
theorem traced_rerun {earlier later : List Event} {moment : Moment} (happens :
      (match Action.updateAll session.setup session.run.takenIn.reactions.dirty
        session.run.takenIn with
      | .error _ _ => []
      | .ok _ run =>
        if session.state.isLive && (!session.run.advancedStreams.changed.isEmpty ||
          !session.run.takenIn.reactions.dirty.isEmpty || session.advanced) then
          Action.passLog session.setup (run.beginPass session.setup)
        else []) = earlier ++ .moved moment :: later) :
    moment.run.Traced [] session.run.advancedStreams
      (Event.loans session.setup.program earlier) := by
  have updates := Action.traces_updateAll session.setup session.run.takenIn.reactions.dirty
    session.run.takenIn
  simp only [Ensures] at updates
  cases updated : Action.updateAll session.setup session.run.takenIn.reactions.dirty
      session.run.takenIn with
  | error defect after =>
    rw [updated] at happens
    cases earlier <;> cases happens
  | ok _ run =>
    rw [updated] at happens updates
    dsimp only at happens
    split at happens
    · have traced := (Action.traces_pass session.setup).traced happens
      exact ⟨traced.known_or_lent, updates.ended.streams.trans traced.streams⟩
    · cases earlier <;> cases happens

end Call

namespace Session

/--
Whenever a borrow completes with the value of a source in the course of a flush, all that was readable
once the flush had committed can be read at that moment.  The value is one that an evaluation of the
source has ended with in this flush, or else it was known before the flush and an update borrows it.
-/
theorem flush_borrows_lent_or_known (program : Program) (limits : Limits) (calls : List HostCall) :
    let session := ((create program limits).course calls).2
    ∀ earlier moment later source value,
      Call.flushLog session = earlier ++ .moved moment :: later →
      moment.Borrows program source value →
        session.run.advancedStreams.Extends moment.run.streams ∧
          (Event.loans program (earlier ++ [.moved moment]) source value ∨
            (session.run.borrowed.get? source = some value ∧
              earlier.length < (Call.updatesLog session).length)) := by
  intro session earlier moment later source value happens borrows
  have inStep : session.InStep ⟨program, limits⟩ := inStep_course (inStep_create program limits) calls
  have alive : ∀ defect, session.state ≠ .halted defect := by
    refine Classical.byContradiction fun halted => ?_
    rw [Call.flushLog_of_halted halted] at happens
    cases earlier <;> cases happens
  have same : program = session.setup.program := congrArg Setup.program inStep.1.symm
  rw [same] at borrows ⊢
  rw [Call.flushLog_eq inStep alive] at happens
  rcases Event.placed happens with ⟨rest, inUpdates⟩ | ⟨middle, before, inRerun⟩
  · have traced := (Action.traces_updateAll session.setup
      session.run.takenIn.reactions.dirty).traced inUpdates
    refine ⟨traced.streams, (traced.borrows borrows).symm.imp_right fun known => ⟨known, ?_⟩⟩
    rw [inUpdates, List.length_append, List.length_cons]
    omega
  · have traced := Call.traced_rerun inRerun
    refine ⟨traced.streams, Or.inl ?_⟩
    rcases traced.borrows borrows with impossible | lent
    · cases impossible
    · rw [before, List.append_assoc, Run.loans_append]
      exact Or.inr lent

/-! ### A value from before the flush -/

/-- The frame that borrows at an event, if one does, and whether a source is then known with one value
while a stream reads another. -/
def glance (source stream : String) (known read : Val) :
    Event → Option (NodeId × BorrowPhase × Bool)
  | .moved moment =>
    match moment.before.frames with
    | ⟨node, .borrow phase, _, _⟩ :: _ =>
      some (node, phase, (moment.run.borrowed.get? source).any known.agrees &&
        (moment.run.streams.latest? stream).any read.agrees)
    | _ => none
  | .called .. => none

theorem not_lends_of_glance
    (source stream : String) (known read : Val) {program : Program} {event : Event}
    (other : ∀ node sees, glance source stream known read event ≠ some (node, .source, sees))
    (lent : String) (value : Val) : ¬ event.Lends program lent value := by
  cases event with
  | called _ _ _ => exact id
  | moved moment =>
    rintro ⟨⟨node, _, env, values⟩, rest, shape, rfl, -⟩
    simp [glance, shape] at other

/-- The first borrow in a flush finds its source known. -/
theorem flush_borrows_of_glances
    (program : Program) {session : Session} {source stream : String} {known read : Val}
    {node : NodeId} {rest : List (NodeId × BorrowPhase × Bool)}
    (present : program.node? node = some (.borrow source none))
    (there : (program.source? source).isSome)
    (glances : (Call.flushLog session).filterMap (glance source stream known read) =
      (node, .enter, true) :: rest) :
    ∃ earlier moment later, Call.flushLog session = earlier ++ .moved moment :: later ∧
      moment.Borrows program source known ∧ moment.run.streams.latest? stream = some read ∧
        ∀ value, ¬ Event.loans program (earlier ++ [.moved moment]) source value := by
  obtain ⟨earlier, event, later, flushed, before, glanced, -⟩ := filterMap_eq_cons_iff.mp glances
  cases event with
  | called _ _ _ => cases glanced
  | moved moment =>
    have notLent : ∀ value, ¬ Event.loans program (earlier ++ [.moved moment]) source value := by
      rintro value ⟨event, mem, lends⟩
      refine not_lends_of_glance source stream known read (fun place sees => ?_) source value lends
      rcases mem_append.mp mem with early | here
      · simp [before event early]
      · simp [mem_singleton.mp here, glanced]
    simp only [glance] at glanced
    split at glanced
    · next shape =>
      simp only [Option.some.injEq, Prod.mk.injEq, Bool.and_eq_true] at glanced
      obtain ⟨rfl, rfl, found, reads⟩ := glanced
      exact ⟨earlier, moment, later, flushed, Or.inr ⟨_, _, none, shape, rfl, present, there,
        Val.eq_some_of_agrees found⟩, Val.eq_some_of_agrees reads, notLent⟩
    · cases glanced

/-- In the flush an update borrows a value that was known before. -/
theorem flush_borrows_lent_or_known_in_update :
    let program := (Program.ofExpr (.block
      [.borrow "a" none,
        .reaction (.bool false) (.changed (.stream "s")) (.borrow "a" none)])).addSource
          "a" (.stream "s")
    let session := ((create program ⟨8, 1⟩).course
      [.registerWith "s" .any (some (.bool false)), .run, .push "s" (.bool true)]).2
    ∃ earlier moment later,
      Call.flushLog session = earlier ++ .moved moment :: later ∧
        moment.Borrows program "a" (.bool false) ∧
        session.run.advancedStreams.Extends moment.run.streams ∧
        session.run.borrowed.get? "a" = some (.bool false) ∧
        earlier.length < (Call.updatesLog session).length := by
  intro program session
  have glances : (Call.flushLog session).filterMap (glance "a" "s" (.bool false) (.bool true)) =
      [(4, .enter, true), (0, .enter, false), (0, .source, false)] := by
    decide +kernel
  obtain ⟨earlier, moment, later, happens, borrows, -, notLent⟩ :=
    flush_borrows_of_glances program rfl rfl glances
  have traced := flush_borrows_lent_or_known program ⟨8, 1⟩
    [.registerWith "s" .any (some (.bool false)), .run, .push "s" (.bool true)]
  obtain ⟨streams, lent | known⟩ := traced earlier moment later "a" (.bool false) happens borrows
  · exact absurd lent (notLent _)
  · exact ⟨earlier, moment, later, happens, borrows, streams, known⟩

/--
A source reads a stream and is borrowed in a pass.  The stream receives another value, and a reaction
is updated that borrows the source.  It gets the value from before, though the stream reads the new
one at that moment, and the source has not been evaluated in the flush.
-/
theorem update_borrows_value_from_before_flush :
    let program := (Program.ofExpr (.block
      [.borrow "a" none,
        .reaction (.bool false) (.changed (.stream "s")) (.borrow "a" none)])).addSource
          "a" (.stream "s")
    let session := ((create program ⟨8, 1⟩).course
      [.registerWith "s" .any (some (.bool false)), .run, .push "s" (.bool true)]).2
    ∃ earlier moment later,
      Call.flushLog session = earlier ++ .moved moment :: later ∧
        moment.Borrows program "a" (.bool false) ∧
        moment.run.streams.latest? "s" = some (.bool true) ∧
        ∀ value, ¬ Event.loans program (earlier ++ [.moved moment]) "a" value := by
  intro program session
  have glances : (Call.flushLog session).filterMap (glance "a" "s" (.bool false) (.bool true)) =
      [(4, .enter, true), (0, .enter, false), (0, .source, false)] := by
    decide +kernel
  exact flush_borrows_of_glances program rfl rfl glances

end Session

end Reactor

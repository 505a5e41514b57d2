import Reactor.Proofs.Engine.UpdateLevels
import Reactor.Proofs.Session.Borrowing
import Reactor.Proofs.Session.Ending
import Reactor.Proofs.Session.Lifecycle

/-!
# Levels of a session

Every call of a host leaves all values on their levels and shows no cycle among sources, as long as
reactions that several sources may reach hold no functions.  The machine of a run that is under way
climbs from the stage of the main source, and once the run is done it is back there.

A flush is the only call that evaluates something beside the machine.  The updates of reactions stay on
their levels if no source that was borrowed is under evaluation: `Session.UpdatesApart`.
-/

namespace Reactor

open List

variable {setup : Setup} {ranking : Ranking setup.program} {levels : Levels}

/-! ### Sessions on levels -/

namespace Machine

variable {base stage : Stage ranking}

theorem Climbs.of_borrowing_eq
    {machine : Machine} {run after : Run} (climbs : machine.Climbs base levels run)
    (same : after.borrowing = run.borrowing) : machine.Climbs base levels after := by
  unfold Climbs at climbs ⊢
  rw [same]
  exact climbs

theorem Stacked.borrowing_grows {frames : List Frame} (stacked : Stacked levels base frames stage) :
    base.borrowing <+: stage.borrowing := by
  induction stacked with
  | empty => exact prefix_refl _
  | frame _ placed _ ih => exact ih.trans placed.bears.borrowing_grows

theorem Climbs.borrowing_grows
    {machine : Machine} {run : Run} (climbs : machine.Climbs base levels run) :
    base.borrowing <+: run.borrowing := by
  unfold Climbs at climbs
  split at climbs
  · rw [climbs.1]
  · obtain ⟨stage, above, -, placed, same, stacked⟩ := climbs
    rw [same]
    exact stacked.borrowing_grows.trans placed.bears.borrowing_grows

end Machine

namespace Session

/-- A session in which all values are on their levels.  The machine of a run that is under way climbs,
and once the run is done no source that was borrowed is under evaluation. -/
structure OnLevels (ranking : Ranking setup.program) (levels : Levels) (session : Session) : Prop where
  run : session.run.Levelled ranking levels
  machine : ∀ machine, session.machine = some machine →
    machine.Climbs (Stage.main ranking) levels session.run
  done : session.state = .done → session.run.borrowing = [ranking.main.name]

/-- All values of a session are on some levels. -/
def Levelled (ranking : Ranking setup.program) (session : Session) : Prop :=
  ∃ levels, session.OnLevels ranking levels

variable {session : Session}

theorem OnLevels.withRun
    (onLevels : session.OnLevels ranking levels) {run : Run} (levelled : run.Levelled ranking levels)
    (same : run.borrowing = session.run.borrowing) :
    ({ session with run } : Session).OnLevels ranking levels where
  run := levelled
  machine machine isHeld := (onLevels.machine machine isHeld).of_borrowing_eq same
  done isDone := same.trans (onLevels.done isDone)

/-- A flush updates reactions only if no source that was borrowed is under evaluation.  Updates that
borrow no such source are left out with the others. -/
def UpdatesApart (session : Session) : Prop :=
  session.state = .running → 1 < session.run.borrowing.length →
    session.run.takenIn.reactions.dirty = []

instance (session : Session) : Decidable session.UpdatesApart :=
  inferInstanceAs (Decidable (_ → _ → _))

/-- There are reactions to update only while no source that was borrowed is under evaluation. -/
theorem OnLevels.borrowing_of_dirty
    (onLevels : session.OnLevels ranking levels) (orderly : session.Orderly setup)
    (alive : session.Alive) (apart : session.UpdatesApart)
    (dirty : session.run.takenIn.reactions.dirty ≠ []) :
    session.state.isLive ∧ session.run.borrowing = [ranking.main.name] := by
  have none (empty : session.run.reactions.table = []) : False :=
    dirty (by simp [Run.takenIn, Reactions.dirty, soilAll_of_nil _ empty])
  cases state : session.state with
  | idle => exact (none (orderly.cleared (Or.inl state))).elim
  | stopped => exact (none (orderly.cleared (Or.inr state))).elim
  | halted defect => exact absurd state (alive defect)
  | done => exact ⟨rfl, onLevels.done state⟩
  | running =>
    obtain ⟨machine, isHeld⟩ := Option.isSome_iff_exists.mp (orderly.held.mp state)
    have few : session.run.borrowing.length ≤ 1 :=
      Nat.le_of_not_lt fun more => dirty (apart state more)
    have least := (onLevels.machine machine isHeld).borrowing_grows
    exact ⟨rfl, (least.eq_of_length_le few).symm⟩

end Session

namespace Run.Levelled

variable {run : Run}

variable (levelled : run.Levelled ranking levels)
include levelled

theorem soilAll {streams : Streams} (fits : streams.Holds (Val.Fits ranking [] 0))
    (nodes : List NodeId) :
    Levelled ranking levels { run with streams, reactions := run.reactions.soilAll nodes } :=
  { levelled with
    streams := fits
    reactions := by
      intro reaction mem
      obtain ⟨before, listed, rfl⟩ := mem_map.mp mem
      obtain ⟨level, fitsBefore⟩ := levelled.reactions before listed
      split
      · exact ⟨level, { fitsBefore with }⟩
      · exact ⟨level, fitsBefore⟩ }

theorem handed (name : String) (datum : Datum) :
    (run.handed (name, datum.toVal)).Levelled ranking levels := by
  have fabric := Val.fits_fabric ranking [] 0 0
  have streams := levelled.streams.push fabric name (fabric.datum datum)
  simp only [Run.handed]
  split
  · exact levelled.soilAll streams _
  · exact { levelled with streams := streams }

theorem takenIn : run.takenIn.Levelled ranking levels :=
  levelled.soilAll (levelled.streams.drain (Val.fits_fabric ranking [] 0 0)).commit _

end Run.Levelled

/-! ### Moves -/

namespace Session

open Reactor.Action

variable {call : HostCall} {session after : Session} {record : List Entry}

/-- As long as shared reactions hold no functions at the moments of a record, the record shows no cycle
and behind it all values are on their levels. -/
def Clear (ranking : Ranking setup.program) (record : List Entry) (session : Session) : Prop :=
  (∀ event ∈ record.filterMap Entry.event?, event.Guarded setup.program) →
    (∀ event ∈ record.filterMap Entry.event?, event.Uncycled) ∧ session.Levelled ranking

theorem Levelled.clear (onLevels : session.Levelled ranking) : session.Clear ranking [] :=
  fun _ => ⟨forall_mem_nil _, onLevels⟩

theorem Clear.append {others : List Entry} (clear : session.Clear ranking record)
    (rest : session.Levelled ranking → after.Clear ranking others) :
    after.Clear ranking (record ++ others) := by
  intro guarded
  rw [filterMap_append, forall_mem_append] at guarded ⊢
  obtain ⟨uncycled, onLevels⟩ := clear guarded.1
  obtain ⟨more, levelled⟩ := rest onLevels guarded.2
  exact ⟨⟨uncycled, more⟩, levelled⟩

theorem levelled_settled {action : Action Machine} {run : Run} (ended : Ensures action run
      (fun machine last => ∃ levels, last.Levelled ranking levels ∧
        (machine.frames = [] → last.borrowing = [ranking.main.name]) ∧
        (machine.isDone = false → session.state = .running ∧
          machine.Climbs (Stage.main ranking) levels last))
      (fun _ _ => False)) :
    (session.settled (action run)).Levelled ranking := by
  refine settled_of_ensures ended ?_ ?_ nofun
  · rintro machine last ⟨levels, levelled, main, -⟩ empty
    unfold finished
    refine ⟨levels, ?_, nofun, fun _ => ?_⟩
    · dsimp only
      split
      · exact { levelled with }
      · exact levelled
    · dsimp only
      split
      · exact main empty
      · exact main empty
  · rintro machine last ⟨levels, levelled, -, goesOn⟩ underway
    obtain ⟨running, climbs⟩ := goesOn underway
    refine ⟨levels, levelled, ?_, fun done => nomatch running.symm.trans done⟩
    rintro _ ⟨⟩
    exact climbs

theorem Levelled.move (onLevels : session.Levelled ranking) (orderly : session.Orderly setup)
    (plain : ∀ value ∈ call.values, ∃ datum : Datum, value = datum.toVal) (noFlush : call ≠ .flush)
    (move : session.Move call record after) : after.Clear ranking record := by
  intro guarded
  have silent : ∀ event ∈ ([] : List Event), event.Uncycled := forall_mem_nil _
  obtain ⟨levels, onLevels⟩ := onLevels
  obtain rfl := orderly.same
  cases move with
  | aside => exact ⟨silent, levels, onLevels.run, onLevels.machine, onLevels.done⟩
  | prepared prepares =>
    have fits := onLevels.run.streams
    refine ⟨silent, levels, onLevels.withRun { onLevels.run with streams := ?_ } rfl⟩
    cases prepares with
    | register name => exact fits.register name
    | registerWith registered =>
      refine fits.registerWith (fun value given => ?_) registered
      obtain ⟨datum, rfl⟩ := plain value (by simp [HostCall.values, given])
      exact (Val.fits_fabric ranking [] 0 0).datum datum
    | send name datum => exact fits
  | @handed name value isPush _ =>
    obtain ⟨datum, rfl⟩ := plain value (by simp [isPush, HostCall.values])
    exact ⟨silent, levels, onLevels.withRun (onLevels.run.handed name datum) rfl⟩
  | started starts begun =>
    obtain ⟨fresh, levelled⟩ := onLevels.run.reset session.setup
    have main : (session.run.reset session.setup).borrowing = [ranking.main.name] := by
      simp [Run.reset, Run.mainNames, ranking.isMain]
    rw [filterMap_cons_none rfl, Entry.filterMap_events] at guarded ⊢
    obtain ⟨uncycled, started⟩ :=
      Machine.clear_startLog [] (leads_mainMachine levelled main) guarded
    rw [Ensures, begun] at started
    obtain ⟨extended, -, levelledAfter, climbs⟩ := started
    refine ⟨uncycled, extended, levelledAfter, ?_, by simp⟩
    rintro _ ⟨⟩
    exact climbs
  | unstarted starts missing =>
    rw [ranking.isMain] at missing
    cases missing
  | @stepped machine running held =>
    rw [Entry.filterMap_events] at guarded ⊢
    simp only [Call.stepLog, running, held] at guarded ⊢
    obtain ⟨uncycled, ended⟩ :=
      Machine.clear_step evaluates [] onLevels.run (onLevels.machine machine held) guarded
    refine ⟨uncycled, levelled_settled (ended.map ?_)⟩
    rintro next last ⟨extended, -, levelled, climbs⟩
    refine ⟨extended, levelled, fun empty => ?_, fun _ => ⟨running, climbs⟩⟩
    simp only [Machine.Climbs, empty] at climbs
    exact climbs.1
  | lost running none =>
    have held := orderly.held.mp running
    rw [none] at held
    cases held
  | stopped isStop =>
    refine ⟨silent, levels, onLevels.run.release, by simp, ?_⟩
    cases state : session.state with
    | idle | running | done | stopped | halted _ => simp [RunState.isLive]
  | flushed isFlush _ _ => exact absurd isFlush noFlush

/-! ### Flushes -/

theorem OnLevels.clear_updates (onLevels : session.OnLevels ranking levels)
    (inStep : session.InStep setup) (orderly : session.Orderly setup)
    (alive : session.Alive) (apart : session.UpdatesApart) :
    Action.Clear setup.program (updateAll setup session.run.takenIn.reactions.dirty)
      (updateAllLog setup session.run.takenIn.reactions.dirty) session.run.takenIn
      fun _ after => (∃ extended, after.Levelled ranking extended) ∧
        (session.run.takenIn.reactions.dirty = [] → after = session.run.takenIn) := by
  by_cases none : session.run.takenIn.reactions.dirty = []
  · rw [none]
    exact Action.clear_silent ⟨⟨levels, onLevels.run.takenIn⟩, fun _ => rfl⟩
  · have known : ∀ id ∈ session.run.takenIn.reactions.dirty,
        (session.run.takenIn.reactions.get? id).isSome := by
      intro id mem
      obtain ⟨reaction, found, -⟩ := (Reactions.mem_dirty inStep.takenIn.once id).mp mem
      simp [found]
    have main := (onLevels.borrowing_of_dirty orderly alive apart none).2
    refine (clear_updateAll onLevels.run.takenIn main inStep.takenIn known).imp ?_
    rintro _ after ⟨extended, -, levelled, -⟩
    exact ⟨⟨extended, levelled⟩, fun empty => absurd empty none⟩

theorem Levelled.flushes (onLevels : session.Levelled ranking)
    (inStep : session.InStep setup) (orderly : session.Orderly setup)
    (alive : session.Alive) (apart : session.UpdatesApart)
    (flushes : session.Flushes record after) : after.Clear ranking record := by
  intro guarded
  obtain ⟨levels, onLevels⟩ := onLevels
  have updates := onLevels.clear_updates inStep orderly alive apart
  obtain rfl := inStep.1
  cases flushes with
  | failed failed =>
    rw [Entry.filterMap_events] at guarded
    have ended := (updates guarded).2
    rw [Ensures, failed] at ended
    exact ended.elim
  | @updated run ended fresh =>
    rw [Entry.filterMap_events] at guarded ⊢
    obtain ⟨uncycled, taken⟩ := updates guarded
    rw [Ensures, ended] at taken
    -- Where no pass follows, no reaction was dirty.
    have none : session.run.takenIn.reactions.dirty = [] := by
      refine Classical.byContradiction fun some => ?_
      have live := (onLevels.borrowing_of_dirty orderly alive apart some).1
      simp [isStale, live, some] at fresh
    have levelled := onLevels.withRun onLevels.run.takenIn rfl
    rw [taken.2 none]
    exact ⟨uncycled, levels, levelled.run, levelled.machine, levelled.done⟩
  | @passed run ended stale =>
    rw [filterMap_append, filterMap_cons_none rfl, Entry.filterMap_events,
      Entry.filterMap_events, forall_mem_append] at guarded ⊢
    obtain ⟨uncycled, taken⟩ := updates guarded.1
    rw [Ensures, ended] at taken
    obtain ⟨⟨extended, levelled⟩, -⟩ := taken
    have main : (run.beginPass session.setup).borrowing = [ranking.main.name] := by
      simp [Run.beginPass, Run.mainNames, ranking.isMain]
    obtain ⟨uncycledPass, passed⟩ := clear_pass (levelled.beginPass session.setup) main guarded.2
    have settled : (session.settled
        (Action.pass session.setup (run.beginPass session.setup))).Levelled ranking := by
      refine levelled_settled ((passed.and (Call.ensures_pass_isDone session.setup _)).imp ?_
        fun _ _ impossible => impossible.1)
      rintro final last ⟨⟨further, -, levelledLast, same, -⟩, done⟩
      refine ⟨further, levelledLast, fun _ => same, fun underway => ?_⟩
      rw [done] at underway
      cases underway
    obtain ⟨final, onFinal⟩ := settled
    exact ⟨⟨uncycled, uncycledPass⟩, final, onFinal.run, onFinal.machine, onFinal.done⟩

end Session

namespace HostCall

variable {session : Session}

/-- Whether a call is a flush. -/
def isFlush : HostCall → Bool
  | flush => true
  | _ => false

theorem clear_outcome (inStep : session.InStep setup) (orderly : session.Orderly setup)
    (onLevels : session.Levelled ranking) {call : HostCall}
    (plain : ∀ value ∈ call.values, ∃ datum : Datum, value = datum.toVal)
    (apart : call.isFlush → session.UpdatesApart) :
    (call.outcome session).2.Clear ranking (call.record session) := by
  by_cases isFlush : call = .flush
  · subst isFlush
    by_cases alive : session.Alive
    · refine outcome_of_ensures (fun _ => Session.Clear ranking _)
        ((ensures_bind _ _).mpr ((Call.flushes_flush inStep alive).imp ?_ ?_))
      · rintro _ _ ⟨middle, notices, flushes, -, rfl⟩ guarded
        obtain ⟨uncycled, levels, levelled⟩ :=
          onLevels.flushes inStep orderly alive (apart rfl) flushes guarded
        exact ⟨uncycled, levels, levelled.run, levelled.machine, levelled.done⟩
      · rintro _ after ⟨flushes, -⟩
        exact onLevels.flushes inStep orderly alive (apart rfl) flushes
    · obtain ⟨defect, notAlive⟩ := Classical.not_forall.mp alive
      have halted := Classical.not_not.mp notAlive
      have unchanged : (flush.outcome session).2 = session := by
        simp only [outcome, perform, Call.flush, Call.refuseHalted, bind, EStateM.bind, get_apply, halted]
        rfl
      rw [unchanged, record, Call.flushRecord, halted]
      exact onLevels.clear
  · have tracked := (call.path inStep).tracks
      (fun {past session record after}
          (before : session.Orderly setup ∧ session.Clear ranking past) move =>
        ⟨before.1.move ranking.isMain move,
          before.2.append fun onLevels => onLevels.move before.1 plain isFlush move⟩)
      ⟨orderly, onLevels.clear⟩
    exact tracked.2

end HostCall

end Reactor

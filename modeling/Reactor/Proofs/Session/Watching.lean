import Reactor.Proofs.Engine.Watching
import Reactor.Proofs.Session.Keeping

/-!
# Watching the course of a session

The record of a course is its log with two things more: it shows where passes over the main source
begin, and which events belong to the updates of reactions.  What happens between two passes is one
history.

A watch over evaluations becomes one over whole courses if it can begin anew with every pass and if
updates do not break it.  `Session.Watched` is what holds between the calls of a host, and
`Session.watched_course` says that every course keeps it, whatever a host does: step through a run,
flush in the middle of it, or give it up.
-/

namespace Reactor

open List

namespace History

/-- What has happened since the last pass began, behind a record. -/
def behind : History → List Entry → History
  | history, [] => history
  | _, .pass :: rest => behind [] rest
  | history, .event updating event :: rest => behind (history ++ [(updating, event)]) rest

theorem behind_append (history : History) (record others : List Entry) :
    history.behind (record ++ others) = (history.behind record).behind others := by
  induction record generalizing history with
  | nil => rfl
  | cons entry rest ih =>
    cases entry with
    | pass => exact ih []
    | event updating event => exact ih _

@[simp]
theorem behind_events (history : History) (updating : Bool) (events : List Event) :
    history.behind (events.map (.event updating)) = history.add updating events := by
  induction events generalizing history with
  | nil => exact (history.add_nil updating).symm
  | cons event rest ih =>
    rw [map_cons, behind, ih]
    simp [add]

@[simp]
theorem behind_pass (history : History) (events : List Event) :
    history.behind (.pass :: events.map (.event false)) = add [] false events := by
  rw [behind, behind_events]

theorem behind_parts (history parts : History) :
    history.behind (parts.map fun part => .event part.1 part.2) = history ++ parts := by
  induction parts generalizing history with
  | nil => exact (append_nil history).symm
  | cons part rest ih => simp [behind, ih]

/-- Every history in a record that ends with a pass is good. -/
def Fine (Good : History → Prop) : History → List Entry → Prop
  | _, [] => True
  | history, .pass :: rest => Good history ∧ Fine Good [] rest
  | history, .event updating event :: rest => Fine Good (history ++ [(updating, event)]) rest

variable {Good : History → Prop} {history : History}

theorem fine_append {record others : List Entry} :
    Fine Good history (record ++ others) ↔
      Fine Good history record ∧ Fine Good (history.behind record) others := by
  induction record generalizing history with
  | nil => simp [Fine, behind]
  | cons entry rest ih =>
    cases entry with
    | pass => simp only [cons_append, Fine, behind, ih, and_assoc]
    | event updating event => simp only [cons_append, Fine, behind, ih]

@[simp]
theorem fine_events (updating : Bool) (events : List Event) :
    Fine Good history (events.map (.event updating)) := by
  induction events generalizing history with
  | nil => trivial
  | cons event rest ih => exact ih

/-- What stands together in a record without a pass between is part of a good history. -/
theorem Fine.stretch {earlier later : List Entry} {parts : History}
    (fine : Fine Good history (earlier ++ parts.map (fun part => .event part.1 part.2) ++ later))
    (good : Good (history.behind
      (earlier ++ parts.map (fun part => .event part.1 part.2) ++ later))) :
    ∃ before after, Good (before ++ parts ++ after) := by
  have ends : ∀ (later : List Entry) (start : History), Fine Good start later →
      Good (start.behind later) → ∃ after, Good (start ++ after) := by
    intro later
    induction later with
    | nil => exact fun start _ good => ⟨[], by rwa [append_nil]⟩
    | cons entry rest ih =>
      intro start fine good
      cases entry with
      | pass => exact ⟨[], by simpa using fine.1⟩
      | event updating event =>
        obtain ⟨after, good⟩ := ih _ fine good
        exact ⟨(updating, event) :: after, by simpa using good⟩
  rw [fine_append, behind_append, behind_parts] at fine
  rw [behind_append, behind_append, behind_parts] at good
  obtain ⟨after, good⟩ := ends later _ fine.2 good
  exact ⟨_, after, good⟩

end History

/-! ### Watches over courses -/

/-- What is asked of a watch over the course of a session.  `Rest` is about runs that are not under
way. -/
structure CourseWatch (setup : Setup) extends Watch setup false where
  Rest : Run → Prop
  reset : ∀ run : Run, Holds [] [] (run.reset setup)
  resetRest : ∀ run : Run, Rest (run.reset setup)
  renew : ∀ {history run}, Past history run → Holds [] [] (run.beginPass setup)
  release : ∀ {history run}, Past history run → Rest run.release
  releaseRest : ∀ {run}, Rest run → Rest run.release
  taken : ∀ {machines history run} streams nodes, Holds machines history run →
    Holds machines history { run with streams, reactions := run.reactions.soilAll nodes }
  takenRest : ∀ {run} streams nodes, Rest run →
    Rest { run with streams, reactions := run.reactions.soilAll nodes }
  updates : ∀ {machines history run} ids, Holds machines history run →
    Ensures (Action.updateAll setup ids) run
      (fun _ => Past (history.add true (Action.updateAllLog setup ids run)))
      (fun _ => Past (history.add true (Action.updateAllLog setup ids run)))

variable {setup : Setup}

/-- The history is past, at some run. -/
def CourseWatch.Ended (watch : CourseWatch setup) (history : History) : Prop :=
  ∃ run, watch.Past history run

/-- The watch holds between calls.  A machine is held only while a run of the main source is under way,
and there are reactions only in a run that was not given up. -/
structure Session.Watched (watch : CourseWatch setup) (history : History) (session : Session) :
    Prop where
  same : session.setup = setup
  past : watch.Ended history
  live : session.state.isLive = true →
    watch.Holds session.machine.toList history session.run ∧ setup.program.main?.isSome
  underway : session.machine.isSome → session.state = .running
  rest : session.state.isLive = false → session.run.reactions = .empty ∧ watch.Rest session.run

theorem Session.Watched.idle {watch : CourseWatch setup} {history : History} {session : Session}
    (watched : session.Watched watch history) (idle : session.state.isLive = false) :
    session.machine = none := by
  cases held : session.machine with
  | none => rfl
  | some machine => simp [watched.underway (by simp [held]), RunState.isLive] at idle

/-! ### Moves -/

namespace Session

open Reactor.Watch

variable {watch : CourseWatch setup} {history : History} {session after : Session}
  {call : HostCall} {record : List Entry}

theorem watched_haltFor
    (same : session.setup = setup) (past : watch.Past history session.run) (defect : Defect) :
    (Call.haltFor defect session).Watched watch history where
  same := same
  past := ⟨session.run, past⟩
  live := nofun
  underway := nofun
  rest _ := ⟨rfl, watch.release past⟩

theorem Watched.taken
    (watched : session.Watched watch history) (streams : Streams) (nodes : List NodeId) :
    { session with
      run := { session.run with streams, reactions := session.run.reactions.soilAll nodes } }.Watched
        watch history :=
  { watched with
    live := fun live => (watched.live live).imp_left (watch.taken streams nodes)
    rest := fun idle => by
      obtain ⟨empty, rest⟩ := watched.rest idle
      exact ⟨by simp [empty, Reactions.soilAll, Reactions.empty], watch.takenRest streams nodes rest⟩ }

theorem Watched.withStreams (watched : session.Watched watch history) (streams : Streams) :
    { session with run := { session.run with streams } }.Watched watch history := by
  have taken := watched.taken streams []
  rwa [Reactions.soilAll_nil] at taken

theorem watched_settled (same : session.setup = setup) (hasMain : setup.program.main?.isSome)
    {action : Action Machine} {run : Run}
    (ended : Ensures action run (fun machine last => watch.Holds [machine] history last ∧
        (machine.isDone = false → session.state = .running))
      (fun _ => watch.Past history)) :
    (session.settled (action run)).Watched watch history := by
  refine settled_of_ensures ended ?_ ?_ ?_
  · rintro machine last ⟨holds, -⟩ empty
    have still := watch.ended holds empty
    refine ⟨same, ⟨_, watch.past still⟩, fun _ => ⟨?_, hasMain⟩, nofun, nofun⟩
    unfold finished
    dsimp only
    split
    · exact watch.aside still { Run.Aside.refl last with }
    · exact still
  · rintro machine last ⟨holds, goesOn⟩ undone
    have running := goesOn undone
    exact ⟨same, ⟨_, watch.past holds⟩, fun _ => ⟨holds, hasMain⟩, fun _ => running, fun idle => by
      simp [running, RunState.isLive] at idle⟩
  · intro defect last past
    exact @watched_haltFor _ watch _ { session with run := last } same past defect

/-- If reactions are updated while a machine is held, the machine is abandoned for a new pass. -/
theorem Watched.flushes
    (watched : session.Watched watch history) (flushes : session.Flushes record after) :
    history.Fine watch.Ended record ∧ after.Watched watch (history.behind record) := by
  obtain rfl : session.setup = setup := watched.same
  have taken : { session with run := session.run.takenIn }.Watched watch history := watched.taken _ _
  have still (idle : session.state.isLive = false) : session.run.takenIn.reactions.dirty = [] := by
    have empty : session.run.takenIn.reactions = .empty := (taken.rest idle).1
    rw [empty]
    rfl
  have updates (live : session.state.isLive = true) :=
    watch.updates session.run.takenIn.reactions.dirty (taken.live live).1
  cases flushes with
  | @failed defect run failed =>
    rw [History.behind_events]
    refine ⟨History.fine_events _ _, ?_⟩
    cases live : session.state.isLive with
    | true =>
      have past := updates live
      rw [Ensures, failed] at past
      exact @watched_haltFor _ watch _ { session with run } rfl past defect
    | false =>
      rw [still live] at failed
      cases failed
  | updated updated fresh =>
    have clean : session.run.takenIn.reactions.dirty = [] := by
      cases live : session.state.isLive with
      | false => exact still live
      | true =>
        cases dirty : session.run.takenIn.reactions.dirty with
        | nil => rfl
        | cons first rest => simp [isStale, live, dirty] at fresh
    rw [History.behind_events, Call.updatesLog, clean, Action.updateAllLog, History.add_silent]
    rw [clean] at updated
    cases updated
    exact ⟨History.fine_events _ _, { taken with }⟩
  | @passed run updated stale =>
    have live : session.state.isLive = true := (Bool.and_eq_true_iff.mp stale).1
    have past := updates live
    rw [Ensures, updated] at past
    rw [History.fine_append, History.behind_append, History.behind_events, History.behind_pass]
    refine ⟨⟨History.fine_events _ _, ⟨run, past⟩, History.fine_events _ _⟩, ?_⟩
    have ended := watch.keeps_pass (watch.renew past)
    refine { watched_settled rfl (taken.live live).2 (ended.map ?_) with }
    rintro final last ⟨empty, holds⟩
    refine ⟨holds, fun undone => ?_⟩
    simp [Machine.isDone, empty] at undone

theorem Watched.move
    (watched : session.Watched watch history) (move : session.Move call record after) :
    history.Fine watch.Ended record ∧ after.Watched watch (history.behind record) := by
  cases move with
  | aside => exact ⟨trivial, { watched with }⟩
  | prepared => exact ⟨trivial, watched.withStreams _⟩
  | handed =>
    unfold Run.handed
    split
    · exact ⟨trivial, watched.taken _ _⟩
    · exact ⟨trivial, watched.withStreams _⟩
  | @started machine run starts begun =>
    obtain rfl : session.setup = setup := watched.same
    have holds := keeps_started (aside_mainMachine session.setup) (watch.reset session.run)
    rw [Ensures, begun] at holds
    rw [History.behind_pass]
    exact ⟨⟨watched.past, History.fine_events _ _⟩, rfl, ⟨run, watch.past holds⟩,
      fun _ => ⟨holds, Action.isSome_of_mainMachine begun⟩, fun _ => rfl, by simp [RunState.isLive]⟩
  | unstarted starts missing =>
    -- nothing was under way, and nothing is
    obtain rfl : session.setup = setup := watched.same
    have idle : session.state.isLive = false := by
      cases live : session.state.isLive with
      | false => rfl
      | true => simpa [missing] using (watched.live live).2
    refine ⟨⟨watched.past, trivial⟩, rfl, ⟨_, watch.past (watch.reset session.run)⟩, fun live => ?_,
      watched.underway, fun _ => ⟨rfl, watch.resetRest session.run⟩⟩
    cases idle.symm.trans live
  | @stepped machine running held =>
    obtain rfl : session.setup = setup := watched.same
    obtain ⟨holds, hasMain⟩ := watched.live (by rw [running]; rfl)
    rw [held] at holds
    rw [History.behind_events, Call.stepLog]
    simp only [running, held]
    exact ⟨History.fine_events _ _, watched_settled rfl hasMain
      ((keeps_step watch.knows watch.keeps_evaluate [] machine history session.run holds).map
        (fun _ _ kept => ⟨kept, fun _ => running⟩))⟩
  | lost running none =>
    exact ⟨trivial, watched_haltFor watched.same
      (watch.past (watched.live (by rw [running]; rfl)).1) .noMachine⟩
  | stopped isStop =>
    have released : watch.Rest session.run.release := by
      cases live : session.state.isLive with
      | true => exact watch.release (watch.past (watched.live live).1)
      | false => exact watch.releaseRest (watched.rest live).2
    refine ⟨trivial, watched.same, watched.past, fun live => ?_, by simp, fun _ => ⟨rfl, released⟩⟩
    dsimp only at live
    split at live
    · cases live
    · next idle => exact absurd live idle
  | flushed isFlush alive flushes => exact watched.flushes flushes

/-! ### Courses -/

theorem watched_create (watch : CourseWatch ⟨program, limits⟩) (past : watch.Past [] .initial)
    (rest : watch.Rest .initial) : (create program limits).Watched watch [] :=
  ⟨rfl, ⟨_, past⟩, nofun, nofun, fun _ => ⟨rfl, rest⟩⟩

theorem watched_course (inStep : session.InStep setup) (watched : session.Watched watch history)
    (calls : List HostCall) :
    history.Fine watch.Ended (session.courseRecord calls) ∧
      (session.course calls).2.Watched watch (history.behind (session.courseRecord calls)) := by
  refine @course_tracks setup session
    (fun past session => history.Fine watch.Ended past ∧ session.Watched watch (history.behind past))
    (fun _ => True) ?_ inStep [] ⟨trivial, watched⟩ calls fun _ _ => trivial
  rintro call past session record after _ - ⟨fine, watched⟩ move
  rw [History.fine_append, History.behind_append]
  exact ⟨⟨fine, (watched.move move).1⟩, (watched.move move).2⟩

end Session

end Reactor

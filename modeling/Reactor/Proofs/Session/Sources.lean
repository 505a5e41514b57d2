import Reactor.Proofs.Engine.Sources
import Reactor.Proofs.Session.Watching

/-!
# Sources between two passes

Whatever a host does, a source is evaluated at most once between the beginnings of two passes.  Updates
of reactions that come with a flush belong to the time before the pass that the flush begins; they go
on with the sources that are listed and known, even if a run is interrupted in the middle of a source.
-/

namespace Reactor

open List

open Run (mainNames)

namespace Session

variable {setup : Setup}

theorem nodup_mainNames (setup : Setup) : (mainNames setup).Nodup := by
  unfold mainNames
  cases setup.program.main? with
  | none => simp
  | some main => simp

theorem watches_fresh
    {run : Run} (borrowed : run.borrowed = []) (borrowing : run.borrowing = mainNames setup) :
    run.Watches setup (mainNames setup) [] [] where
  lists :=
    { listed := borrowing.trans (append_nil _).symm
      tidy := ⟨borrowing ▸ nodup_mainNames setup, fun _ _ => by rw [borrowed]; rfl⟩
      found := by
        rintro source (mem | known)
        · cases mem
        · rw [borrowed] at known
          cases known }
  recalls := ⟨forall_mem_nil _, forall_mem_nil _⟩
  single := ⟨forall_mem_nil _, List.Pairwise.nil⟩

theorem watches_updateAll
    {base : List String} (mains : ∀ name ∈ mainNames setup, name ∈ base) (ids : List NodeId)
    {history : History} {run : Run} (watches : run.Watches setup base [] history) :
    Ensures (Action.updateAll setup ids) run
      (fun _ => Run.Watches setup base [] (history.add true (Action.updateAllLog setup ids run)))
      (fun _ after => after.Tidy ∧
        (history.add true (Action.updateAllLog setup ids run)).Single setup) :=
  @Watch.keeps_updateAll _ _ (Action.lending setup true base mains)
    (fun watches borrowed borrowing _ => ⟨watches.lists.beside borrowed borrowing rfl,
      watches.recalls.beside borrowed borrowing, watches.single⟩)
    (fun past borrowed borrowing _ => ⟨past.1.beside borrowed borrowing, past.2⟩) ids history run
    watches

/-- Sources are watched in the course of a session. -/
def lending (setup : Setup) : CourseWatch setup where
  toWatch := Action.lending setup false (mainNames setup) fun _ isMain => isMain
  Rest run := run.Tidy
  reset _ := watches_fresh rfl rfl
  resetRest _ := (watches_fresh rfl rfl).lists.tidy
  renew _ := watches_fresh rfl rfl
  release past := ⟨past.1.distinct, fun _ _ => rfl⟩
  releaseRest tidy := ⟨tidy.distinct, fun _ _ => rfl⟩
  taken _ _ watches :=
    ⟨watches.lists.beside rfl rfl rfl, watches.recalls.beside rfl rfl, watches.single⟩
  takenRest _ _ tidy := tidy.beside rfl rfl
  updates := by
    intro machines history run ids watches
    -- the sources that are listed lie on no machine of an update
    have mains : ∀ name ∈ mainNames setup, name ∈ run.borrowing := fun name isMain =>
      watches.lists.listed ▸ mem_append_left _ isMain
    exact (watches_updateAll mains ids ⟨watches.lists.alone, watches.recalls, watches.single⟩).map
      (fun _ _ watches => ⟨watches.lists.tidy, watches.single⟩)

theorem lending_course (program : Program) (limits : Limits) (calls : List HostCall) :
    let session := create program limits
    let watch := lending ⟨program, limits⟩
    History.Fine watch.Ended [] (session.courseRecord calls) ∧
      (session.course calls).2.Watched watch (History.behind [] (session.courseRecord calls)) :=
  watched_course (inStep_create program limits)
    (watched_create (lending ⟨program, limits⟩)
      ⟨⟨List.Pairwise.nil, forall_mem_nil _⟩, forall_mem_nil _, List.Pairwise.nil⟩
      ⟨List.Pairwise.nil, forall_mem_nil _⟩) calls

/--
Between two passes a source is evaluated at most once.  Whatever a host calls, take a part of the record
of all that happens in which no pass begins.  Of two moments in it, one after the other, not both enter
the root of the same source; and if the evaluation of a source ends at the first, and a frame has
reached this source at the second, the frame completes with the value that the evaluation ended with and
binds it to its own name in its own scope.  The main source is never entered.  At every moment, and at
the end of the course, no source is listed twice as in progress, and none that is listed is known.
-/
theorem sources_evaluated_once_per_pass
    (program : Program) (limits : Limits) (calls : List HostCall) :
    let setup : Setup := ⟨program, limits⟩
    let session := create program limits
    let record := session.courseRecord calls
    record.filterMap Entry.event? = session.courseLog calls ∧
      (∀ earlier (parts : History) later,
        record = earlier ++ parts.map (fun part => .event part.1 part.2) ++ later →
          (parts.Pairwise fun first second => first.2.InTurn setup second.2) ∧
            ∀ part ∈ parts, ∀ moment, part.2 = .moved moment → moment.Tidy setup) ∧
      (session.course calls).2.run.Tidy := by
  intro setup session record
  obtain ⟨fine, watched⟩ := lending_course program limits calls
  refine ⟨filterMap_courseRecord session calls, ?_, ?_⟩
  · intro earlier parts later split
    have past := watched.past
    rw [show session.courseRecord calls = _ from split] at fine past
    obtain ⟨before, behind, _, -, single⟩ := fine.stretch past
    have within := (List.pairwise_append.mp (List.pairwise_append.mp single.inTurn).1).2.1
    exact ⟨within, fun part member => single.tidy part
      (List.mem_append_left _ (List.mem_append_right _ member))⟩
  · cases live : (session.course calls).2.state.isLive with
    | true => exact (watched.live live).1.lists.tidy
    | false => exact (watched.rest live).2

/-- The frame that borrows at an event, if one does, and the Boolean that it has received last. -/
def borrower? : Event → Option (NodeId × BorrowPhase × Option Bool)
  | .moved moment =>
    match moment.before.frames with
    | ⟨node, .borrow phase, _, values⟩ :: _ =>
      match values.getLast? with
      | some (.bool truth) => some (node, phase, some truth)
      | _ => some (node, phase, none)
    | _ => none
  | .called .. => none

theorem exists_of_borrower {event : Event} {node : NodeId} {phase : BorrowPhase} {last : Option Bool}
    (borrows : borrower? event = some (node, phase, last)) :
    ∃ moment top rest, event = .moved moment ∧ moment.before.frames = top :: rest ∧
      top.kind = .borrow phase ∧ top.node = node ∧
      ∀ truth, last = some truth → top.values.getLast? = some (.bool truth) := by
  unfold borrower? at borrows
  split at borrows
  · split at borrows
    · next moment _ _ _ _ _ _ shape =>
      split at borrows
      · next received =>
        cases borrows
        exact ⟨moment, _, _, rfl, shape, rfl, rfl, fun _ same => by cases same; exact received⟩
      · cases borrows
        exact ⟨moment, _, _, rfl, shape, rfl, rfl, fun _ impossible => by cases impossible⟩
    · cases borrows
  · cases borrows

/-- A source is borrowed twice in a pass, and the second borrow binds the value to its own name. -/
theorem sources_evaluated_once_per_pass_for_second_borrow :
    let program := (Program.ofExpr
      (.block [.borrow "a" none, .borrow "a" (some "b")])).addSource "a" (.bool true)
    ∃ earlier first middle second later top rest,
      (create program ⟨8, 1⟩).courseRecord [.run] =
        earlier ++ .event false (.moved first) :: middle ++ .event false (.moved second) :: later ∧
      Event.Lends program (.moved first) "a" (.bool true) ∧
      second.before.frames = top :: rest ∧ top.Reaches program "a" "b" ∧
      second.Binds top "b" (.bool true) := by
  intro program
  have borrowed : (Call.freshLog (create program ⟨8, 1⟩)).filterMap borrower? =
      [(0, .enter, none), (0, .source, some true), (1, .enter, none)] := by
    decide +kernel
  obtain ⟨earlier, entering, events, split, -, -, borrowed⟩ := List.filterMap_eq_cons_iff.mp borrowed
  obtain ⟨middle, ending, others, rfl, -, lends, borrowed⟩ := List.filterMap_eq_cons_iff.mp borrowed
  obtain ⟨between, reaching, later, rfl, -, reaches, -⟩ := List.filterMap_eq_cons_iff.mp borrowed
  obtain ⟨first, frame, _, rfl, shape, kind, node, last⟩ := exists_of_borrower lends
  obtain ⟨second, top, rest, rfl, reached, enters, other, -⟩ := exists_of_borrower reaches
  have lent : Event.Lends program (.moved first) "a" (.bool true) :=
    ⟨frame, _, shape, kind, last true rfl, none, by rw [node]; rfl⟩
  have isReached : top.Reaches program "a" "b" := ⟨enters, some "b", by rw [other]; rfl, rfl⟩
  have recorded : (create program ⟨8, 1⟩).courseRecord [.run] = [.pass] ++
      ((Call.freshLog (create program ⟨8, 1⟩)).map (false, ·)).map
        (fun part => .event part.1 part.2) ++ [] := by
    rw [List.map_map]
    rfl
  have inTurn := ((sources_evaluated_once_per_pass program ⟨8, 1⟩ [.run]).2.1 _ _ _ recorded).1
  rw [split] at recorded inTurn
  refine ⟨.pass :: (earlier ++ entering :: middle).map (.event false), first,
    between.map (.event false), second, later.map (.event false), top, rest, ?_, lent, reached,
    isReached, ?_⟩
  · rw [recorded]
    simp [Function.comp_def]
  · rw [List.pairwise_map] at inTurn
    have behind := (List.pairwise_cons.mp (List.pairwise_append.mp inTurn).2.1).2
    have follows := (List.pairwise_cons.mp (List.pairwise_append.mp behind).2.1).1
    exact (follows (.moved second) (by simp)).bound "a" (.bool true) second top rest "b" lent rfl
      reached isReached

end Session

end Reactor

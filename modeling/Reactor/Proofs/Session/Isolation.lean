import Reactor.Proofs.Session.Coalescing
import Reactor.Proofs.Session.Keeping
import Reactor.Proofs.Stream.Order

/-!
# Runs that do not leak into each other

A start forgets the run before it.  Streams stay registered, with their initial values, and data that
were sent wait on; nothing else of a session finds its way into the next run.  So two sessions for one
program that have the same streams and the same data under way cannot be told apart once both are
started, whatever their hosts did before: in the middle of a reaction, of a borrowed source or of a
flush.  Observers are the one exception, since they belong to the host and not to the run.

The argument has two parts.  After a start the two sessions are the same but for their observers.  And
calls that do not concern observers cannot tell such sessions apart.
-/

namespace Reactor

open List

/-! ### What is left of a run after a reset -/

theorem Run.initialsCapture_reset {streams : Streams}
    (plain : ∀ stream ∈ streams.streams, ∀ value ∈ stream.initial, value.isPlain = true) :
    Run.initialsCapture streams.reset = false := by
  have nothing : ∀ listed : List Stream,
      (∀ stream ∈ listed, ∀ value ∈ stream.initial, value.isPlain = true) →
      Val.capturesOfItems ((listed.map Stream.reset).flatMap Stream.values) = [] := by
    intro listed plain
    induction listed with
    | nil => simp [Val.capturesOfItems]
    | cons stream rest ih =>
      have later := ih fun other mem => plain other (mem_cons_of_mem _ mem)
      rw [map_cons, flatMap_cons, Val.capturesOfItems_append, later, append_nil]
      cases initial : stream.initial with
      | none => simp [Stream.reset, Stream.values, initial, Val.capturesOfItems]
      | some value =>
        have held := Val.captures_of_isPlain value (plain stream mem_cons_self value initial)
        simp [Stream.reset, Stream.values, initial, Val.capturesOfItems, held]
  simp only [initialsCapture]
  rw [show streams.reset.values = (streams.streams.map Stream.reset).flatMap Stream.values from rfl,
    nothing streams.streams plain]
  rfl

theorem Run.reset_congr (setup : Setup) {run twin : Run}
    (plain : ∀ stream ∈ run.streams.streams, ∀ value ∈ stream.initial, value.isPlain = true)
    (same : twin.streams.reset = run.streams.reset) :
    twin.reset setup = run.reset setup := by
  simp only [Run.reset, same, initialsCapture_reset plain]
  rfl

theorem Stream.reset_congr {stream twin : Stream} (name : twin.name = stream.name)
    (same : (twin.kind, twin.initial) = (stream.kind, stream.initial)) :
    twin.reset = stream.reset := by
  obtain ⟨kind, initial⟩ := Prod.mk.inj same
  simp only [Stream.reset, name, kind, initial]

theorem Streams.reset_congr
    {streams twin : Streams} (ordered : streams.Ordered) (twinOrdered : twin.Ordered)
    (registered : ∀ name, (twin.get? name).map (fun stream => (stream.kind, stream.initial)) =
      (streams.get? name).map fun stream => (stream.kind, stream.initial))
    (inbox : twin.inbox = streams.inbox) :
    twin.reset = streams.reset := by
  have looked : ∀ name, twin.reset.get? name = streams.reset.get? name := by
    intro name
    rw [get?_reset, get?_reset]
    have same := registered name
    cases found : streams.get? name with
    | none =>
      rw [found] at same
      rw [Option.map_eq_none_iff.mp same]
    | some stream =>
      rw [found] at same
      obtain ⟨other, there, parts⟩ := Option.map_eq_some_iff.mp same
      rw [there, Option.map_some, Option.map_some, Stream.reset_congr _ parts]
      rw [name_of_get? there, name_of_get? found]
  have orderedReset : streams.reset.Ordered := ordered.changeAll fun _ => rfl
  have twinOrderedReset : twin.reset.Ordered := twinOrdered.changeAll fun _ => rfl
  have listed := streams_eq_of_get? orderedReset twinOrderedReset looked
  calc twin.reset = ⟨twin.reset.streams, [], twin.inbox⟩ := rfl
    _ = streams.reset := by rw [listed, inbox]; rfl

/-! ### Streams stay in order -/

theorem Run.stable_ordered (program : Program) :
    Stable program fun run => run.streams.Ordered := by
  intro run after change ordered
  cases change with
  | elsewhere unchanged _ => rwa [unchanged]
  | provide ensured => exact ordered.ensure? ensured
  | settle reaction _ _ _ _ _ _ => exact ordered.subscribeAll _ _

namespace Session

theorem ordered_move {call : HostCall} {session after : Session} {record : List Entry}
    (ordered : session.run.streams.Ordered) (move : session.Move call record after) :
    after.run.streams.Ordered := by
  refine (move.keeps (Run.stable_ordered session.setup.program)
    (fun _ ordered => ordered.changeAll fun _ => rfl)
    (fun _ => ⟨ordered.advance, fun _ _ _ ordered => ordered⟩)
    (fun _ _ => ordered.changeAll fun _ => rfl) ?_ ?_ fun _ => ordered).2
  · intro streams prepares ordered
    cases prepares with
    | register name => exact ordered.register name
    | registerWith registered => exact ordered.registerWith registered
    | send name datum => exact ordered.of_names rfl
  · intro name value _ ordered
    unfold Run.handed
    split
    · exact ordered.hand (name, value)
    · exact ordered.hand (name, value)

theorem ordered_course (program : Program) (limits : Limits) (calls : List HostCall) :
    ((create program limits).course calls).2.run.streams.Ordered :=
  @course_keeps_moves _ _ (fun session => session.run.streams.Ordered) (fun _ => True)
    (fun _ _ => ordered_move) (inStep_create program limits) List.Pairwise.nil _ fun _ _ => trivial

end Session

/-! ### Sessions that differ in their observers -/

theorem Streams.akin_iff_eq {streams twin : Streams} :
    Akin (fun _ => False) streams twin ↔ twin = streams := by
  constructor
  · rintro ⟨listed, changed, inbox⟩
    have same : streams.streams = twin.streams := by
      refine forall₂_eq_eq_eq ▸ listed.imp fun stream other akin => ?_
      rw [akin.rest, akin.untouched id]
    calc twin = ⟨twin.streams, twin.changed, twin.inbox⟩ := rfl
      _ = streams := by rw [← same, changed, inbox]
  · rintro rfl
    exact ⟨forall₂_same.mpr fun stream _ => .refl stream, rfl, rfl⟩

namespace Session

variable {setup : Setup} {session twin : Session}

/-- Sessions that agree on everything but their observers and what these were told. -/
def Matches : Session → Session → Prop :=
  LikeIf False (Run.Akin fun _ => False)

theorem Matches.parts (like : session.Matches twin) :
    ∃ observers nextObserver notices, twin = { session with observers, nextObserver, notices } := by
  obtain ⟨run, observers, nextObserver, notices, rfl, -, akin⟩ := LikeIf.parts like
  obtain ⟨streams, rfl, same⟩ := akin.parts
  obtain rfl := Streams.akin_iff_eq.mp same
  exact ⟨observers, nextObserver, notices, rfl⟩

theorem matches_of_rest (observers : List Nat) (nextObserver : Nat) (notices : Array Notice) :
    session.Matches { session with observers, nextObserver, notices } :=
  ⟨rfl, nofun, rfl, Streams.akin_iff_eq.mpr rfl⟩

/-! ### Programs without a main source -/

/-- No run has ever begun. -/
structure Asleep (session : Session) : Prop where
  state : session.state = .idle
  machine : session.machine = none
  reactions : session.run.reactions = .empty
  nodeValues : session.run.nodeValues = ∅

theorem soilAll_empty (nodes : List NodeId) : Reactions.empty.soilAll nodes = .empty := by
  induction nodes with
  | nil => rfl
  | cons node rest ih => exact ih

theorem Asleep.move (missing : session.setup.program.main? = none) (asleep : session.Asleep)
    {call : HostCall} {record : List Entry} {after : Session} (move : session.Move call record after) :
    after.Asleep ∧ record.filterMap Entry.event? = [] := by
  cases move with
  | aside => exact ⟨{ asleep with }, rfl⟩
  | prepared => exact ⟨{ asleep with }, rfl⟩
  | handed =>
    refine ⟨{ asleep with reactions := ?_, nodeValues := ?_ }, rfl⟩
    · unfold Run.handed
      split
      · rw [asleep.reactions, soilAll_empty]
      · exact asleep.reactions
    · exact asleep.nodeValues
  | started starts begun =>
    have named := Action.isSome_of_mainMachine begun
    rw [missing] at named
    cases named
  | unstarted starts missing => exact ⟨{ asleep with reactions := rfl, nodeValues := rfl }, rfl⟩
  | stepped running held => cases asleep.state.symm.trans running
  | lost running none => cases asleep.state.symm.trans running
  | stopped isStop =>
    refine ⟨⟨?_, rfl, rfl, rfl⟩, rfl⟩
    simp only [asleep.state, RunState.isLive, Bool.false_eq_true, if_false]
  | flushed isFlush alive flushes =>
    have reactions : session.run.takenIn.reactions = .empty := by
      rw [Run.takenIn, asleep.reactions, soilAll_empty]
    have clean : session.run.takenIn.reactions.dirty = [] := by
      rw [reactions]
      rfl
    cases flushes with
    | failed failed =>
      rw [clean] at failed
      cases failed
    | updated updated fresh =>
      rw [clean] at updated
      cases updated
      refine ⟨{ asleep with reactions, nodeValues := asleep.nodeValues }, ?_⟩
      rw [Entry.filterMap_events, Call.updatesLog, clean]
      rfl
    | passed updated stale => simp [isStale, asleep.state, RunState.isLive] at stale

theorem asleep_course {program : Program} (missing : program.main? = none) (limits : Limits)
    (calls : List HostCall) :
    ((create program limits).course calls).2.Asleep ∧
      (create program limits).courseLog calls = [] := by
  rw [← filterMap_courseRecord]
  refine @course_tracks ⟨program, limits⟩ _
    (fun past session => session.Asleep ∧ past.filterMap Entry.event? = []) (fun _ => True) ?_
    (inStep_create program limits) [] ⟨⟨rfl, rfl, rfl, rfl⟩, rfl⟩ calls fun _ _ => trivial
  rintro call past session record after _ inStep ⟨asleep, quiet⟩ move
  obtain ⟨still, nothing⟩ := asleep.move (by rw [inStep.1]; exact missing) move
  exact ⟨still, by rw [filterMap_append, quiet, nothing]; rfl⟩

/-! ### Starts -/

theorem meets_start (sameSetup : twin.setup = session.setup)
    (reset : twin.run.reset session.setup = session.run.reset session.setup)
    (asleep : session.setup.program.main? = none → session.Asleep ∧ twin.Asleep) :
    Meets Matches (Call.start session) (Call.start twin) := by
  simp only [Call.start, bind, EStateM.bind, modify_apply, get_apply, Call.performOr, sameSetup,
    reset]
  cases ended : Action.mainMachine session.setup (session.run.reset session.setup) with
  | ok machine run => exact ⟨rfl, matches_of_rest ..⟩
  | error defect run =>
    have missing : session.setup.program.main? = none := by
      cases named : session.setup.program.main? with
      | none => rfl
      | some main =>
        obtain ⟨machine, last, began⟩ :=
          Action.exists_mainMachine_eq named (session.run.reset session.setup)
        cases began.symm.trans ended
    obtain ⟨first, second⟩ := asleep missing
    rw [first.state, second.state, first.machine, second.machine]
    exact ⟨rfl, matches_of_rest ..⟩

/--
Runs do not leak into each other.  Take two sessions for one program and the same limits, whatever their
hosts did, that have the same streams with plain initial values and the same data under way.  Start
both.  Then whatever calls follow on both are answered alike, and behind them the sessions agree on how
far the run is, on the latest values of the main source, of all sources and of all nodes, on the
reactions with their states and numbers of updates, and on the number of subscriptions.  Calls that
concern observers are left out, since the numbers of observers are counted by session.
-/
theorem started_runs_agree
    (program : Program) (limits : Limits) (before others later : List HostCall) :
    let one := ((create program limits).course before).2
    let other := ((create program limits).course others).2
    (∀ name, (other.run.streams.get? name).map (fun stream => (stream.kind, stream.initial)) =
      (one.run.streams.get? name).map fun stream => (stream.kind, stream.initial)) →
    (∀ name stream, one.run.streams.get? name = some stream →
      ∀ value ∈ stream.initial, value.isPlain = true) →
    other.run.streams.inbox = one.run.streams.inbox →
    (∀ call ∈ later, call.concernsObservers = false) →
      let first := one.course (.start :: later)
      let second := other.course (.start :: later)
      second.1 = first.1 ∧
        second.2.state = first.2.state ∧
        second.2.latest = first.2.latest ∧
        (∀ name, second.2.sourceResult? name = first.2.sourceResult? name) ∧
        (∀ node, second.2.valueOf? node = first.2.valueOf? node) ∧
        second.2.run.reactions = first.2.run.reactions ∧
        second.2.run.streams.subscriptionCount = first.2.run.streams.subscriptionCount := by
  intro one other registered plain inbox apart first second
  have inStep : one.InStep ⟨program, limits⟩ := inStep_course (inStep_create program limits) before
  have otherInStep : other.InStep ⟨program, limits⟩ :=
    inStep_course (inStep_create program limits) others
  have ordered : one.run.streams.Ordered := ordered_course program limits before
  have streams : other.run.streams.reset = one.run.streams.reset :=
    Streams.reset_congr ordered (ordered_course program limits others) registered inbox
  have reset : other.run.reset one.setup = one.run.reset one.setup := by
    refine Run.reset_congr one.setup (fun stream listed value initial => ?_) streams
    exact plain stream.name stream ((Streams.mem_iff_get? ordered stream).mp listed) value initial
  have started : Meets Matches (HostCall.start.perform one) (HostCall.start.perform other) := by
    refine Meets.bind (meets_start (otherInStep.1.trans inStep.1.symm) reset fun missing => ?_)
      fun _ => mirrors_pure _
    rw [inStep.1] at missing
    exact ⟨(asleep_course missing limits before).1, (asleep_course missing limits others).1⟩
  obtain ⟨answer, like⟩ := HostCall.outcome_of_meets started
  obtain ⟨answers, last⟩ := likeIf_course like fun call member concerned => by
    rw [apart call member] at concerned
    cases concerned
  have agree : first.2.Matches second.2 := last
  have sameAnswers : second.1 = first.1 := by
    simp only [first, second, course_cons, answer, answers]
  obtain ⟨observers, nextObserver, notices, equal⟩ := agree.parts
  rw [equal]
  exact ⟨sameAnswers, rfl, rfl, fun _ => rfl, fun _ => rfl, rfl, rfl⟩

/-- One session is started again while it borrows a source, the other after it was done and stopped. -/
theorem started_runs_agree_after_borrowing :
    let program := (Program.ofExpr (.block
      [.borrow "aux" none,
        .reaction (.name "aux") (.changed (.stream "s")) (.stream "s")])).addSource "aux" (.stream "s")
    let initial : Val := .bool false
    let before : List HostCall := [.registerWith "s" .any initial, .start, .step, .step, .step]
    let others : List HostCall := [.observe, .registerWith "s" .any initial, .run, .stop]
    let later : List HostCall := [.run, .push "s" (.bool true), .flush]
    let one := ((create program ⟨8, 1⟩).course before).2
    let other := ((create program ⟨8, 1⟩).course others).2
    one.run.borrowing = ["main", "aux"] ∧ other.state = .stopped ∧
      (other.course (.start :: later)).1 = (one.course (.start :: later)).1 ∧
      (other.course (.start :: later)).2.run.reactions =
        (one.course (.start :: later)).2.run.reactions := by
  intro program initial before others later one other
  have oneIs : (one.run.streams.streams.map fun stream => (stream.name, stream.kind, stream.initial),
      one.run.streams.inbox, one.run.borrowing) =
      ([("s", .any, some initial)], [], ["main", "aux"]) := by
    unfold one
    cbv
  have otherIs : (other.run.streams.streams.map fun stream => (stream.name, stream.kind, stream.initial),
      other.run.streams.inbox, other.state) = ([("s", .any, some initial)], [], .stopped) := by
    unfold other
    cbv
  obtain ⟨listed, rest⟩ := Prod.mk.inj oneIs
  obtain ⟨inbox, borrowing⟩ := Prod.mk.inj rest
  obtain ⟨otherListed, otherRest⟩ := Prod.mk.inj otherIs
  obtain ⟨otherInbox, stopped⟩ := Prod.mk.inj otherRest
  have looked : ∀ streams : Streams,
      streams.streams.map (fun stream => (stream.name, stream.kind, stream.initial)) =
        [("s", .any, some initial)] →
      ∀ name, (streams.get? name).map (fun stream => (stream.kind, stream.initial)) =
        if "s" = name then some (.any, some initial) else none := by
    intro streams listed name
    obtain ⟨stream, alone, parts⟩ := List.map_eq_singleton_iff.mp listed
    obtain ⟨named, kindIs, initialIs⟩ : stream.name = "s" ∧ stream.kind = .any ∧
        stream.initial = some initial := by simpa using parts
    by_cases here : "s" = name
    · simp [Streams.get?, alone, named, kindIs, initialIs, here]
    · simp [Streams.get?, alone, named, here]
  have agree := started_runs_agree program ⟨8, 1⟩ before others later
    (fun name => (looked _ otherListed name).trans (looked _ listed name).symm)
    (fun name stream found value held => by
      have same := looked _ listed name
      rw [show one.run.streams.get? name = some stream from found] at same
      split at same
      · obtain ⟨-, initialIs⟩ : stream.kind = .any ∧ stream.initial = some initial := by
          simpa using same
        rw [initialIs] at held
        cases held
        rfl
      · cases same)
    (otherInbox.trans inbox.symm) (by decide)
  exact ⟨borrowing, stopped, agree.1, agree.2.2.2.2.2.1⟩

end Session

end Reactor

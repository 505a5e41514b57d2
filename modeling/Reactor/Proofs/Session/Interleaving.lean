import Reactor.Proofs.Run.Overlay
import Reactor.Proofs.Session.Pooling

/-!
# Pushes between steps

A host may push values to streams while a run is under way, before or after any of its steps.  Every
order of some pushes and some steps is compared with the steps alone: the session that the order leads
to is the one that the steps alone lead to, overlaid with the pushed values.  The induction over an order
moves both sessions at a step and only one of them at a push.

Hence all orders lead to the same answers and to the same session, but for which reactions are dirty,
and a flush removes that difference.  A pass sees nothing of the values that are pushed during it, and
the next flush takes all of them in.

All this supposes that no step halts the run, since a session that is halted refuses every push.
-/

namespace Reactor

open List

namespace HostCall

/-- Whether a call hands over a value. -/
def isPush : HostCall → Bool
  | push _ _ => true
  | _ => false

/-- Whether a call is for one step. -/
def isStep : HostCall → Bool
  | step => true
  | _ => false

end HostCall

/-- The orders in which a host can push some values, one after the other, and make a number of steps. -/
inductive Interleaves : List (String × Val) → Nat → List HostCall → Prop where
  | done : Interleaves [] 0 []
  | push {messages : List (String × Val)} {steps : Nat} {calls : List HostCall}
      (stream : String) (value : Val) :
      Interleaves messages steps calls →
      Interleaves ((stream, value) :: messages) steps (.push stream value :: calls)
  | step {messages : List (String × Val)} {steps : Nat} {calls : List HostCall} :
      Interleaves messages steps calls → Interleaves messages (steps + 1) (.step :: calls)

theorem Run.stable_kinds (program : Program) (streams : Streams) :
    Stable program fun run => ∀ name, run.streams.kind? name = streams.kind? name := by
  intro run after change same name
  rw [← same name]
  cases change with
  | elsewhere unchanged _ => rw [unchanged]
  | @provide stream others ensured =>
    have equal : run.streams.ensured stream = others := by
      rw [Streams.ensured, ensured, Option.getD_some]
    rw [← equal]
    exact Streams.kind?_ensured run.streams stream name
  | settle reaction _ _ _ _ _ _ => exact Streams.kind?_subscribeAll _ _ name

namespace Session

/-- The answers to the calls of one sort, in their order. -/
def answersTo (session : Session) (chosen : HostCall → Bool) (calls : List HostCall) :
    List (Except Fault Answer) :=
  ((calls.zip (session.course calls).1).filter fun (call, _) => chosen call).map (·.2)

variable {chosen : HostCall → Bool}

theorem answersTo_of_chosen (session : Session) {call : HostCall}
    (selected : chosen call = true) (rest : List HostCall) :
    session.answersTo chosen (call :: rest) =
      (call.outcome session).1 :: (call.outcome session).2.answersTo chosen rest := by
  simp [answersTo, selected]

theorem answersTo_of_passed (session : Session) {call : HostCall}
    (passed : chosen call = false) (rest : List HostCall) :
    session.answersTo chosen (call :: rest) = (call.outcome session).2.answersTo chosen rest := by
  simp [answersTo, passed]

theorem answersTo_of_all (session : Session) {calls : List HostCall}
    (all : ∀ call ∈ calls, chosen call = true) :
    session.answersTo chosen calls = (session.course calls).1 := by
  induction calls generalizing session with
  | nil => rfl
  | cons call rest ih =>
    rw [answersTo_of_chosen session (all call mem_cons_self),
      ih _ fun other mem => all other (mem_cons_of_mem _ mem)]
    rfl

variable {setup : Setup} {session alone : Session} {messages earlier : List (String × Val)}

theorem alive_of_steps {steps : Nat}
    (alive : ∀ defect, (session.course (List.replicate steps .step)).2.state ≠ .halted defect) :
    session.Alive := by
  intro defect halted
  rw [course_steps_of_over (Or.inr ⟨defect, halted⟩)] at alive
  exact alive defect halted

theorem kinds_step (same : session.setup = setup) (name : String) :
    (HostCall.step.outcome session).2.run.streams.kind? name = session.run.streams.kind? name := by
  have kept : ∀ {middle after : Session} {record : List Entry},
      (middle.setup = setup ∧ ∀ name, middle.run.streams.kind? name = session.run.streams.kind? name) →
      middle.Move .step record after →
        after.setup = setup ∧
          ∀ name, after.run.streams.kind? name = session.run.streams.kind? name := by
    rintro middle after record ⟨rfl, kinds⟩ move
    refine move.keeps (Run.stable_kinds middle.setup.program session.run.streams) ?_ (by nofun) ?_
      (by nofun) (by nofun) fun _ => kinds
    · intro run kinds name
      rw [← kinds name]
      exact Streams.kind?_unsubscribeAll name
    · simp [HostCall.Starts]
  exact ((HostCall.path_of_goes (Call.goes_step rfl).answer).keeps kept ⟨same, fun _ => rfl⟩).2 name

/-- Whatever the order of pushes and steps, it is as if all values were handed over afterwards. -/
theorem overlaid_of_interleaves {steps : Nat} {calls : List HostCall}
    (order : Interleaves messages steps calls)
    (same : alone.setup = setup) (inStep : session.InStep setup)
    (like : Like (Run.Overlaid earlier) alone session)
    (alive : ∀ defect, (alone.course (List.replicate steps .step)).2.state ≠ .halted defect) :
    Like (Run.Overlaid (earlier ++ messages))
        (alone.course (List.replicate steps .step)).2 (session.course calls).2 ∧
      session.answersTo HostCall.isPush calls = messages.map (Call.pushAnswer alone.run.streams) ∧
      session.answersTo HostCall.isStep calls = (alone.course (List.replicate steps .step)).1 := by
  induction order generalizing alone session earlier with
  | done =>
    rw [append_nil]
    exact ⟨like, rfl, rfl⟩
  | @push messages steps calls stream value order ih =>
    have lives : session.Alive := by
      intro defect
      rw [like.state]
      exact alive_of_steps alive defect
    have pushed := Call.outcome_push inStep lives stream value
    have next : ((HostCall.push stream value).outcome session).2.InStep setup :=
      inStep.outcome _
    have answer : Call.pushAnswer session.run.streams (stream, value) =
        Call.pushAnswer alone.run.streams (stream, value) := by
      unfold Call.pushAnswer
      rw [like.2.streams, Streams.refusal?_congr (Streams.kind?_handAll _ earlier stream)]
    have after : Like (Run.Overlaid (earlier ++ [(stream, value)])) alone
        ((HostCall.push stream value).outcome session).2 := by
      rw [pushed]
      obtain ⟨run, rfl, overlaid⟩ := like.parts
      exact ⟨rfl, overlaid.handed (stream, value)⟩
    obtain ⟨final, pushes, steps⟩ := ih same next after alive
    refine ⟨?_, ?_, ?_⟩
    · rw [append_assoc] at final
      exact final
    · rw [answersTo_of_chosen session rfl, pushes, pushed, answer]
      rfl
    · rw [answersTo_of_passed session rfl, steps]
  | @step messages steps calls order ih =>
    have meets : Meets (Like (Run.Overlaid earlier))
        (HostCall.step.perform alone) (HostCall.step.perform session) := by
      rw [← likeIf_eq_like] at like ⊢
      exact ((Call.mirrors_step (Run.concord_overlaid earlier)).bind fun _ => mirrors_pure _)
        alone session like
    obtain ⟨answer, after⟩ := HostCall.outcome_of_meets meets
    have next : (HostCall.step.outcome session).2.InStep setup :=
      inStep.outcome _
    have sameNext : (HostCall.step.outcome alone).2.setup = setup := by
      rw [← after.setup]
      exact next.1
    rw [replicate_succ, course_cons] at alive ⊢
    obtain ⟨final, pushes, steps⟩ := ih sameNext next after alive
    refine ⟨final, ?_, ?_⟩
    · rw [answersTo_of_passed session rfl, pushes]
      refine map_congr_left fun message _ => ?_
      unfold Call.pushAnswer
      rw [Streams.refusal?_congr (kinds_step same message.1)]
    · rw [answersTo_of_chosen session rfl, steps, answer]

/-! ### The flush behind an order -/

variable {one other : Session} {ledger : Ledger}

theorem marked_of_dirty (inStep : session.InStep setup) (pooled : session.run.Pooled ledger) :
    ∀ reaction ∈ session.run.reactions.table, reaction.state = .dirty → reaction.node ∈
      session.run.advancedStreams.changed.flatMap session.run.advancedStreams.subscribers := by
  intro reaction mem dirty
  obtain ⟨name, named, waits⟩ := pooled.justified reaction mem dirty
  rw [mem_subscribers_changed_iff inStep pooled (Reactions.get?_of_mem_table inStep.2.once mem)]
  refine ⟨name, named, ?_⟩
  rw [received_eq_waiting pooled, Streams.waiting_drain]
  exact append_ne_nil_of_left_ne_nil waits _

section

variable {others : Ledger} (inStep : one.InStep setup) (pooled : one.run.Pooled ledger)
  (otherInStep : other.InStep setup) (otherPooled : other.run.Pooled others)
include inStep pooled otherInStep otherPooled

theorem reactions_takenIn_congr (marks : other.run.reactions.unmarked = one.run.reactions.unmarked)
    (again : other.run.advancedStreams.changed.flatMap other.run.advancedStreams.subscribers =
      one.run.advancedStreams.changed.flatMap one.run.advancedStreams.subscribers) :
    other.run.takenIn.reactions = one.run.takenIn.reactions := by
  show other.run.reactions.soilAll _ = one.run.reactions.soilAll _
  rw [← Reactions.soilAll_unmarked (marked_of_dirty inStep pooled),
    ← Reactions.soilAll_unmarked (marked_of_dirty otherInStep otherPooled), marks, again]

theorem flush_congr (alive : one.Alive)
    (rest : other = { one with run := { one.run with reactions := other.run.reactions } })
    (marks : other.run.reactions.unmarked = one.run.reactions.unmarked) :
    Call.flush other = Call.flush one := by
  have streams : other.run.streams = one.run.streams := by rw [rest]
  have otherAlive : other.Alive := by
    rw [rest]
    exact alive
  have advanced : other.run.advancedStreams = one.run.advancedStreams := by
    simp only [Run.advancedStreams, streams]
  have reactions := reactions_takenIn_congr inStep pooled otherInStep otherPooled marks
    (by rw [advanced])
  have taken : other.run.takenIn = one.run.takenIn := by
    calc other.run.takenIn
        = { other.run with
            streams := other.run.advancedStreams, reactions := other.run.takenIn.reactions } := rfl
      _ = one.run.takenIn := by
          rw [advanced, reactions, rest]
          rfl
  rw [Call.flush_of_alive inStep alive, Call.flush_of_alive otherInStep otherAlive, advanced, taken]
  congr 1
  rw [rest]

end

theorem past_flush (inStep : session.InStep setup) (alive : session.Alive)
    {name : String} (waits : session.run.streams.waiting name ≠ []) :
    (HostCall.flush.outcome session).2.run.streams.past name =
      session.run.streams.past name ++ (session.run.streams.waiting name ++
        session.run.streams.admitted session.run.streams.letters name) := by
  have there : (session.run.streams.get? name).isSome := by
    cases found : session.run.streams.get? name with
    | some stream => rfl
    | none => exact absurd (Streams.waiting_of_absent found) waits
  have extended : session.run.advancedStreams.Extends
      (HostCall.flush.outcome session).2.run.streams := by
    refine HostCall.outcome_of_ensures
      (fun _ after => session.run.advancedStreams.Extends after.run.streams) ?_
    simp only [HostCall.perform, ensures_bind]
    exact ensures_flush_extends inStep alive
  have present : (session.run.advancedStreams.get? name).isSome := by
    unfold Run.advancedStreams
    rw [Streams.get?_commit, Option.isSome_map]
    exact (Streams.keepsSubscribers_drain session.run.streams).registered name there
  rw [extended.past name present]
  unfold Run.advancedStreams
  rw [Streams.past_commit, Streams.past_drain there, Streams.waiting_drain]

/-! ### All orders agree -/

/--
Pushes commute with steps.  Whatever a host has called before, take two orders of the same pushes and
the same number of steps, such that the steps alone do not halt the run.  Then every push and every step
has the same answer in both orders; the sessions behind them agree on everything but which reactions are
dirty; and after a flush they agree on everything.

The pass sees nothing of the pushes: the steps are answered as without them, and all that they leave
behind is the same, but for marks of reactions and for what waits at streams.  Nothing is lost: a flush
puts the accepted values behind the history of their stream, after those that waited before and ahead
of the data that were sent.
-/
theorem pushes_commute_with_steps (program : Program) (limits : Limits) (calls : List HostCall)
    (messages : List (String × Val)) (steps : Nat) (first second : List HostCall)
    (oneOrder : Interleaves messages steps first) (otherOrder : Interleaves messages steps second) :
    let session := ((create program limits).course calls).2
    let alone := session.course (List.replicate steps .step)
    let one := (session.course first).2
    let other := (session.course second).2
    (∀ defect, alone.2.state ≠ .halted defect) →
      session.answersTo HostCall.isPush first = session.answersTo HostCall.isPush second ∧
      session.answersTo HostCall.isStep first = session.answersTo HostCall.isStep second ∧
      other = { one with run := { one.run with reactions := other.run.reactions } } ∧
      other.run.reactions.unmarked = one.run.reactions.unmarked ∧
      Call.flush other = Call.flush one ∧
      (session.answersTo HostCall.isStep first = alone.1 ∧
        one = { alone.2 with run :=
          { alone.2.run with streams := one.run.streams, reactions := one.run.reactions } } ∧
        one.run.reactions.unmarked = alone.2.run.reactions.unmarked ∧
        one.run.streams = alone.2.run.streams.handAll messages ∧
        ∀ name stream, alone.2.run.streams.get? name = some stream →
          one.run.streams.get? name = some { stream with
            pending := stream.pending ++ alone.2.run.streams.admitted messages name }) ∧
      ∀ name, alone.2.run.streams.admitted messages name ≠ [] →
        (HostCall.flush.outcome one).2.run.streams.past name =
          one.run.streams.past name ++ (alone.2.run.streams.waiting name ++
            alone.2.run.streams.admitted messages name ++
            one.run.streams.admitted one.run.streams.letters name) := by
  intro session alone one other alive
  have inStep : session.InStep ⟨program, limits⟩ := inStep_course (inStep_create program limits) calls
  have pooled : session.run.Pooled ((create program limits).ledger .empty calls) :=
    pooled_course (inStep_create program limits) (pooled_create program limits) calls
  have start : Like (Run.Overlaid []) session session := ⟨rfl, Run.Overlaid.refl session.run⟩
  obtain ⟨oneLike, onePushes, oneSteps⟩ :=
    overlaid_of_interleaves oneOrder inStep.1 inStep start alive
  obtain ⟨otherLike, otherPushes, otherSteps⟩ :=
    overlaid_of_interleaves otherOrder inStep.1 inStep start alive
  have oneInStep : one.InStep ⟨program, limits⟩ := inStep_course inStep first
  have onePooled : one.run.Pooled (session.ledger _ first) := pooled_course inStep pooled first
  have oneAlive : ∀ defect, one.state ≠ .halted defect := by
    rw [oneLike.state]
    exact alive
  have streams : one.run.streams = alone.2.run.streams.handAll messages := oneLike.2.streams
  have rest : other = { one with run := { one.run with reactions := other.run.reactions } } := by
    obtain ⟨run, oneIs, overlaid⟩ := oneLike.parts
    obtain ⟨twin, otherIs, twinOverlaid⟩ := otherLike.parts
    obtain ⟨reactions, rfl, -⟩ := overlaid.parts
    obtain ⟨others, rfl, -⟩ := twinOverlaid.parts
    show (session.course second).2 =
      { (session.course first).2 with run :=
        { (session.course first).2.run with reactions := (session.course second).2.run.reactions } }
    rw [oneIs, otherIs]
  have marks : other.run.reactions.unmarked = one.run.reactions.unmarked :=
    otherLike.2.reactions.trans oneLike.2.reactions.symm
  refine ⟨onePushes.trans otherPushes.symm, oneSteps.trans otherSteps.symm, rest, marks, ?_,
    ⟨oneSteps, ?_, oneLike.2.reactions, streams, ?_⟩, ?_⟩
  · exact flush_congr oneInStep onePooled (inStep_course inStep second)
      (pooled_course inStep pooled second) oneAlive rest marks
  · obtain ⟨run, oneIs, overlaid⟩ := oneLike.parts
    obtain ⟨reactions, rfl, -⟩ := overlaid.parts
    show (session.course first).2 = { alone.2 with run :=
      { alone.2.run with
        streams := (session.course first).2.run.streams
        reactions := (session.course first).2.run.reactions } }
    rw [oneIs]
  · intro name stream found
    rw [streams]
    exact Streams.get?_handAll_of_get? found messages
  · intro name admitted
    have waiting : one.run.streams.waiting name =
        alone.2.run.streams.waiting name ++ alone.2.run.streams.admitted messages name := by
      rw [streams, Streams.waiting_handAll]
    have waits : one.run.streams.waiting name ≠ [] := by
      rw [waiting]
      exact List.append_ne_nil_of_right_ne_nil _ admitted
    rw [past_flush oneInStep oneAlive waits, waiting]

/-- One push is refused.  The others mark the reaction only if it has come into being, and yet the
flush is the same. -/
theorem pushes_commute_with_step_that_creates_reaction :
    let program := Program.ofExpr (.reaction (.bool false) (.changed (.stream "s")) (.stream "s"))
    let session := ((create program ⟨8, 1⟩).course [.register "s", .start]).2
    let first : List HostCall := [.push "s" (.bool true), .step, .step, .push "t" (.bool true), .step,
      .push "s" (.bool false), .step, .step]
    let second : List HostCall := [.step, .step, .step, .step, .step, .push "s" (.bool true),
      .push "t" (.bool true), .push "s" (.bool false)]
    let one := (session.course first).2
    let other := (session.course second).2
    session.state = .running ∧
      (one.run.reactions.get? 4).map (·.state) = some .settled ∧
      (other.run.reactions.get? 4).map (·.state) = some .dirty ∧
      session.answersTo HostCall.isPush first =
        [.ok .nothing, .error (.unknownStream "t"), .ok .nothing] ∧
      session.answersTo HostCall.isPush first = session.answersTo HostCall.isPush second ∧
      Call.flush other = Call.flush one := by
  intro program session first second one other
  have finished : (session.course (List.replicate 5 .step)).2.state = .done := by
    unfold session
    cbv
  obtain ⟨pushes, -, -, -, flushed, -⟩ := pushes_commute_with_steps program ⟨8, 1⟩
    [.register "s", .start] [("s", .bool true), ("t", .bool true), ("s", .bool false)] 5 first second
    (.push _ _ (.step (.step (.push _ _ (.step (.push _ _ (.step (.step .done))))))))
    (.step (.step (.step (.step (.step (.push _ _ (.push _ _ (.push _ _ .done))))))))
    (fun defect halted => RunState.noConfusion (finished.symm.trans halted))
  refine ⟨by unfold session; cbv, by unfold one session first; cbv,
    by unfold other session second; cbv, by unfold session first; cbv, pushes, flushed⟩

/--
A step that halts the run does not commute with a push.  The host has provided a function whose body is
no node of the program, and the fourth step is about to evaluate it.  Before this step the push is
accepted, and after it the push is refused.
-/
theorem push_does_not_commute_with_step_that_halts :
    let program := Program.ofExpr (.call (.stream "f") [])
    let function : Val := .closure ⟨⟨.host, 0⟩, none, [], 9, []⟩
    let session := ((create program ⟨8, 1⟩).course
      [.register "g", .registerWith "f" .any (some function), .start]).2
    let first : List HostCall := [.push "g" (.bool true), .step, .step, .step, .step]
    let second : List HostCall := [.step, .step, .step, .step, .push "g" (.bool true)]
    session.state = .running ∧
      Interleaves [("g", .bool true)] 4 first ∧ Interleaves [("g", .bool true)] 4 second ∧
      session.answersTo HostCall.isPush first = [.ok .nothing] ∧
      session.answersTo HostCall.isPush second = [.error (.halted (.unknownNode 9))] := by
  intro program function session first second
  refine ⟨by unfold session; cbv, ?_, ?_, by unfold session first; cbv,
    by unfold session second; cbv⟩
  · exact .push _ _ (.step (.step (.step (.step .done))))
  · exact .step (.step (.step (.step (.push _ _ .done))))

end Session

end Reactor

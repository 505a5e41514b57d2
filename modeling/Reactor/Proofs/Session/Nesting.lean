import Reactor.Proofs.Engine.Nesting
import Reactor.Proofs.Session.Watching

/-!
# Reactions inside reactions

A reaction that is reached while another is evaluated is an exception.  A run tells by a count, which
must agree with the frames there are whatever a host does: step through a reaction, flush in the middle
of it, or give the run up.  The main result is what becomes of every frame that reaches a reaction in a
course of calls, told by the frames around it and by whether a reaction is being updated.
-/

namespace Reactor

open List

namespace Session

/-- The count is watched in the course of a session. -/
def nesting (setup : Setup) : CourseWatch setup where
  toWatch := Action.nesting setup false 0 (by simp)
  Rest run := run.reacting = 0
  reset _ := ⟨Run.counts_nil rfl, forall_mem_nil _⟩
  resetRest _ := rfl
  renew _ := ⟨Run.counts_nil rfl, forall_mem_nil _⟩
  release _ := rfl
  releaseRest _ := rfl
  taken := by
    rintro machines history run streams nodes ⟨counts, nests⟩
    refine ⟨{ counts with absent := fun node member => ?_ }, nests⟩
    -- to mark reactions dirty is not to make one
    rw [Reactions.get?_soilAll, counts.absent node member]
    rfl
  takenRest _ _ free := free
  updates := by
    rintro machines history run ids ⟨-, nests⟩
    have logged := Action.nests_updateAllLog ids nests run
    rw [Ensures]
    split
    · exact logged
    · exact logged

theorem nests_course (program : Program) (limits : Limits) (calls : List HostCall) :
    let session := create program limits
    (∀ updating event, .event updating event ∈ session.courseRecord calls →
      Event.NestsIn ⟨program, limits⟩ (updating, event)) ∧
      (session.course calls).2.run.Counts program 0 (session.course calls).2.machine.toList := by
  intro session
  obtain ⟨fine, watched⟩ := watched_course (inStep_create program limits)
    (watched_create (nesting ⟨program, limits⟩) (forall_mem_nil _) rfl) calls
  refine ⟨?_, ?_⟩
  · intro updating event mem
    obtain ⟨earlier, later, record⟩ := append_of_mem mem
    have past := watched.past
    rw [← singleton_append, ← append_assoc] at record
    rw [record] at fine past
    obtain ⟨before, behind, _, nests⟩ := @History.Fine.stretch _ _ _ _ [(updating, event)]
      fine past
    exact nests (updating, event) (by simp)
  · cases live : (session.course calls).2.state.isLive with
    | true => exact (watched.live live).1.1
    | false =>
      rw [watched.idle live]
      exact Run.counts_nil (watched.rest live).2

/-! ### A reaction that reaches itself -/

/-- Whether a reaction has the exception for its value. -/
def refused (node : NodeId) (reaction : Reaction) : Bool :=
  match reaction.value with
  | .failure .nestedReaction other => other == node
  | _ => false

/-- An entry at which a reaction is reached: whether it belongs to an update, the node, whether a
reaction is evaluated around it, and whether the table has the exception for it. -/
def reached? : Entry → Option (Bool × NodeId × Bool × Bool)
  | .event updating (.moved moment) =>
    match moment.before.frames with
    | ⟨node, .reaction .enter, _, _⟩ :: _ =>
      some (updating, node, moment.enclosing.any (·.reacts),
        (moment.run.reactions.get? node).any (refused node))
    | _ => none
  | _ => none

theorem eq_of_refused
    {node : NodeId} {reaction : Reaction} (isRefused : refused node reaction = true) :
    reaction.value = .failure .nestedReaction node := by
  unfold refused at isRefused
  split at isRefused
  · next found =>
    rw [found, eq_of_beq isRefused]
    rfl
  · cases isRefused

theorem exists_of_reached {entry : Entry} {updating nested known : Bool} {node : NodeId}
    (reached : reached? entry = some (updating, node, nested, known)) :
    ∃ moment top rest, entry = .event updating (.moved moment) ∧
      moment.before.frames = top :: rest ∧ top.kind = .reaction .enter ∧ top.node = node ∧
      moment.enclosing.any (·.reacts) = nested ∧
      (moment.run.reactions.get? node).any (refused node) = known := by
  unfold reached? at reached
  split at reached
  · split at reached
    · next moment _ _ _ _ _ shape =>
      cases reached
      exact ⟨moment, _, _, rfl, shape, rfl, rfl, rfl, rfl⟩
    · cases reached
  · cases reached

/-- A reaction whose update calls a function is the main source, and the body of the function is the
reaction itself.  In a flush it is reached twice. -/
theorem exists_reached_in_flush :
    let function : Val := .closure ⟨⟨.host, 0⟩, none, [], 5, []⟩
    let program := Program.ofExpr
      (.reaction (.bool false) (.changed (.stream "s")) (.call (.stream "f") []))
    let record := (create program ⟨8, 2⟩).courseRecord
      [.register "s", .registerWith "f" .any (some function), .run, .push "s" (.bool true), .flush]
    (∃ entry ∈ record, reached? entry = some (true, 5, false, false)) ∧
      ∃ entry ∈ record, reached? entry = some (false, 5, false, true) := by
  intro function program record
  have reached : record.filterMap reached? = [(false, 5, false, false), (true, 5, false, false),
      (false, 5, false, true)] := by
    decide +kernel
  have found : ∀ {about}, about ∈ record.filterMap reached? →
      ∃ entry ∈ record, reached? entry = some about :=
    mem_filterMap.mp
  rw [reached] at found
  exact ⟨found (by simp), found (by simp)⟩

/-! ### All courses -/

/-- A reaction is evaluated around the active frame: a frame on its machine or on one that waits for it
evaluates an initial value or a condition, or the evaluation belongs to an update. -/
def Nested (updating : Bool) (moment : Moment) : Prop :=
  updating = true ∨ ∃ frame ∈ moment.enclosing, frame.reacts = true

/-- What comes of it that a frame reaches a reaction. -/
structure Reached (setup : Setup) (updating : Bool) (moment : Moment) (top : Frame) : Prop where
  refused : Nested updating moment →
    moment.Completes top.node (.failure .nestedReaction top.node)
  /-- The frame completes with what the table has, or begins the reaction if the table has none. -/
  answered : ¬ Nested updating moment →
    match moment.run.reactions.get? top.node with
    | some reaction => moment.Completes top.node reaction.value
    | none => moment.Begins setup top
  /-- Otherwise the exception can only be a value that the reaction was given by an update of its
  own. -/
  exception_iff : moment.Completes top.node (.failure .nestedReaction top.node) ↔
    Nested updating moment ∨ ∃ reaction, moment.run.reactions.get? top.node = some reaction ∧
      reaction.value = .failure .nestedReaction top.node

/-- What a moment has to do with reactions. -/
structure ReactsApart (setup : Setup) (updating : Bool) (moment : Moment) : Prop where
  reached : ∀ top rest, moment.before.frames = top :: rest → top.kind = .reaction .enter →
    Reached setup updating moment top
  /-- The step that reaches a reaction does not fail. -/
  succeeds : ∀ top rest, moment.after.frames = top :: rest → top.kind = .reaction .enter →
    ∀ evaluate run, ∃ next final, moment.after.step setup evaluate run = .ok next final
  /-- No step changes a reaction that there is. -/
  grown : moment.run.reactions.Grown moment.runAfter.reactions
  /-- While a reaction is evaluated around the active frame, none comes into being. -/
  still : Nested updating moment → moment.runAfter.reactions = moment.run.reactions
  /-- At most one frame evaluates a reaction. -/
  single : (Machine.reactingNodes (moment.before :: moment.waiting)).length ≤ 1
  singleAfter : (Machine.reactingNodes (moment.after :: moment.waiting)).length ≤ 1
  /-- No frame does in an update. -/
  apart : updating = true → Machine.reactingNodes (moment.after :: moment.waiting) = []

/--
Reactions are refused exactly for nesting, at every moment of every course of calls.  Between calls the
count of reactions that are evaluated is the number of frames that do so on the machine that is held,
which is one at most.
-/
theorem reactions_refused_exactly_for_nesting
    (program : Program) (limits : Limits) (calls : List HostCall) :
    let session := create program limits
    let last := (session.course calls).2
    (session.courseRecord calls).filterMap Entry.event? = session.courseLog calls ∧
      (∀ updating moment, .event updating (.moved moment) ∈ session.courseRecord calls →
        ReactsApart ⟨program, limits⟩ updating moment) ∧
      last.run.reacting = (Machine.reactingNodes last.machine.toList).length ∧
      (Machine.reactingNodes last.machine.toList).length ≤ 1 := by
  intro session last
  obtain ⟨parts, counts⟩ := nests_course program limits calls
  refine ⟨filterMap_courseRecord session calls, ?_, ?_, counts.single⟩
  · intro updating moment member
    obtain ⟨base, updates, nests⟩ := parts _ _ member
    have same : Nested updating moment =
        (0 < base ∨ ∃ frame ∈ moment.enclosing, frame.reacts = true) := by
      unfold Nested
      rw [show (updating = true) = (0 < base) from propext updates]
    refine ⟨?_, fun _ _ => nests.exists_step_of_reached, nests.2.1.grown, ?_, nests.1.single,
      nests.2.1.counts.single, fun isUpdate => nests.2.1.counts.apart (updates.mp isUpdate)⟩
    · intro top rest shape kind
      have reached := nests.reached shape kind
      refine ⟨?_, ?_, ?_⟩
      · intro inside
        rw [same] at inside
        rwa [if_pos inside] at reached
      · intro outside
        rw [same] at outside
        rwa [if_neg outside] at reached
      · rw [same]
        exact nests.completes_nested_iff shape kind
    · rw [same]
      exact nests.reactions_eq
  · have count := counts.counted
    rwa [Nat.zero_add] at count

/-- The update that reaches the reaction itself gets the exception. -/
theorem reactions_refused_exactly_for_nesting_in_update :
    let function : Val := .closure ⟨⟨.host, 0⟩, none, [], 5, []⟩
    let program := Program.ofExpr
      (.reaction (.bool false) (.changed (.stream "s")) (.call (.stream "f") []))
    let record := (create program ⟨8, 2⟩).courseRecord
      [.register "s", .registerWith "f" .any (some function), .run, .push "s" (.bool true), .flush]
    ∃ moment top rest, .event true (.moved moment) ∈ record ∧
      moment.before.frames = top :: rest ∧ top.kind = .reaction .enter ∧
      moment.Completes top.node (.failure .nestedReaction top.node) ∧
      moment.runAfter.reactions = moment.run.reactions := by
  intro function program record
  obtain ⟨⟨entry, member, reached⟩, -⟩ := exists_reached_in_flush
  obtain ⟨moment, top, rest, rfl, shape, kind, -⟩ := exists_of_reached reached
  have apart := (reactions_refused_exactly_for_nesting program ⟨8, 2⟩ _).2.1 true moment member
  exact ⟨moment, top, rest, member, shape, kind, (apart.reached top rest shape kind).refused (.inl rfl),
    apart.still (.inl rfl)⟩

/--
The update of a reaction reaches the reaction itself, through a function of the host, so it gives the
reaction the exception for its value.  In the pass that follows the reaction is reached with nothing
around it and completes with the exception, which is what the table has.
-/
theorem exception_answered_outside_reactions :
    let function : Val := .closure ⟨⟨.host, 0⟩, none, [], 5, []⟩
    let program := Program.ofExpr
      (.reaction (.bool false) (.changed (.stream "s")) (.call (.stream "f") []))
    let record := (create program ⟨8, 2⟩).courseRecord
      [.register "s", .registerWith "f" .any (some function), .run, .push "s" (.bool true), .flush]
    ∃ moment top rest, .event false (.moved moment) ∈ record ∧
      moment.before.frames = top :: rest ∧ top.kind = .reaction .enter ∧
      (∀ frame ∈ moment.enclosing, frame.reacts = false) ∧
      moment.Completes top.node (.failure .nestedReaction top.node) := by
  intro function program record
  obtain ⟨-, entry, member, reached⟩ := exists_reached_in_flush
  obtain ⟨moment, top, rest, rfl, shape, kind, node, nested, known⟩ := exists_of_reached reached
  obtain ⟨base, -, nests⟩ := (nests_course program ⟨8, 2⟩ _).1 false (.moved moment) member
  refine ⟨moment, top, rest, member, shape, kind, by simpa using nested, ?_⟩
  refine (nests.completes_nested_iff shape kind).mpr (.inr ?_)
  cases held : moment.run.reactions.get? 5 with
  | none => simp [held] at known
  | some reaction =>
    rw [held] at known
    exact ⟨reaction, node ▸ held, node ▸ eq_of_refused known⟩

end Session

end Reactor

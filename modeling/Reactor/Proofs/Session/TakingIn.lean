import Reactor.Proofs.Reaction.Growth
import Reactor.Proofs.Run.InStep
import Reactor.Proofs.Session.Course

/-!
# Taking in what was handed over

Where subscriptions and the table of reactions are in step, marking subscribers dirty never fails, and
so the calls that do it can be written down as plain changes of the run: `Run.handed` for a push and
`Run.takenIn` for the first part of a flush.  What remains of a flush is `Call.refresh`; if it succeeds,
the dirty reactions have been updated once each, and all that happened to the table besides is that
reactions have come into being.
-/

namespace Reactor

open List

/-! ### Marking several reactions dirty -/

namespace Reactions

/-- Mark the reactions of some nodes dirty. -/
def soilAll (reactions : Reactions) (nodes : List NodeId) : Reactions :=
  ⟨reactions.table.map fun reaction =>
    if reaction.node ∈ nodes then reaction.soil else reaction⟩

section

variable (reactions : Reactions)

theorem soilAll_nil : reactions.soilAll [] = reactions := by
  simp [soilAll]

theorem soilAll_cons (node : NodeId) (rest : List NodeId) :
    reactions.soilAll (node :: rest) = (reactions.change node Reaction.soil).soilAll rest := by
  simp only [soilAll, change, map_map]
  congr 1
  apply map_congr_left
  intro reaction _
  by_cases here : reaction.node = node
  · by_cases later : reaction.node ∈ rest <;> simp_all [Reaction.soil]
  · simp [here]

theorem get?_soilAll (nodes : List NodeId) (node : NodeId) :
    (reactions.soilAll nodes).get? node = (reactions.get? node).map fun reaction =>
        if node ∈ nodes then reaction.soil else reaction := by
  have samePlace : ∀ reaction : Reaction,
      (if reaction.node ∈ nodes then reaction.soil else reaction).node = reaction.node := by
    intro reaction
    split
    · rfl
    · rfl
  simp only [get?, soilAll, find?_map, Function.comp_def, samePlace]
  cases found : reactions.table.find? (·.node = node) with
  | none => rfl
  | some reaction =>
    have here : reaction.node = node := by simpa using find?_some found
    simp [here]

theorem nodes_soilAll (nodes : List NodeId) :
    (reactions.soilAll nodes).nodes = reactions.nodes := by
  simp only [Reactions.nodes, soilAll, map_map]
  apply map_congr_left
  intro reaction _
  simp only [Function.comp_apply]
  split
  · rfl
  · rfl

end

variable {reactions : Reactions}

theorem forall_mem_soilAll {P : Reaction → Prop} (soil : ∀ reaction, P reaction → P reaction.soil)
    (holds : ∀ reaction ∈ reactions.table, P reaction) (nodes : List NodeId) :
    ∀ reaction ∈ (reactions.soilAll nodes).table, P reaction := by
  intro reaction mem
  obtain ⟨before, listed, rfl⟩ := mem_map.mp mem
  split
  · exact soil before (holds before listed)
  · exact holds before listed

theorem mem_dirty (once : reactions.nodes.Nodup) (node : NodeId) :
    node ∈ reactions.dirty ↔
      ∃ reaction, reactions.get? node = some reaction ∧ reaction.state = .dirty := by
  constructor
  · intro mem
    obtain ⟨reaction, listed, rfl⟩ := mem_map.mp mem
    obtain ⟨present, isDirty⟩ := mem_filter.mp listed
    exact ⟨reaction, get?_of_mem_table once present, by simpa using isDirty⟩
  · rintro ⟨reaction, found, isDirty⟩
    exact mem_map.mpr ⟨reaction,
      mem_filter.mpr ⟨mem_table_of_get? found, by simpa using isDirty⟩, node_of_get? found⟩

theorem nodup_dirty (once : reactions.nodes.Nodup) :
    reactions.dirty.Nodup :=
  (filter_sublist.map _).nodup once

end Reactions

theorem Action.markAllDirty_eq {nodes : List NodeId} {run : Run}
    (there : ∀ node ∈ nodes, (run.reactions.get? node).isSome) :
    markAllDirty nodes run = .ok () { run with reactions := run.reactions.soilAll nodes } := by
  induction nodes generalizing run with
  | nil => rw [Reactions.soilAll_nil]; rfl
  | cons node rest ih =>
    obtain ⟨reaction, found⟩ := Option.isSome_iff_exists.mp (there node mem_cons_self)
    have marked : run.reactions.markDirty node =
        .ok (run.reactions.change node Reaction.soil) := by
      simp [Reactions.markDirty, found]
    have later : ∀ other ∈ rest,
        ((run.reactions.change node Reaction.soil).get? other).isSome := by
      intro other mem
      have present := there other (mem_cons_of_mem _ mem)
      rw [Reactions.get?_change _ _ _
        (show ∀ reaction : Reaction, reaction.soil.node = reaction.node from fun _ => rfl)]
      split
      · simpa using present
      · exact present
    rw [Reactions.soilAll_cons]
    have ended := @ih { run with reactions := run.reactions.change node Reaction.soil } later
    rw [← ended]
    simp only [markAllDirty, bind, EStateM.bind, get_apply, marked, modify_apply]

/-! ### Pushes and the first part of a flush as changes of the run -/

namespace Run

/-- The run after a value was handed to a stream.  If it was accepted, the subscribers are dirty. -/
def handed (run : Run) (message : String × Val) : Run :=
  { run with
    streams := run.streams.hand message
    reactions :=
      match run.streams.refusal? message.1 message.2 with
      | none => run.reactions.soilAll (run.streams.subscribers message.1)
      | some _ => run.reactions }

/-- The streams after all that was sent and pushed became readable. -/
def advancedStreams (run : Run) : Streams :=
  run.streams.drain.1.commit

/-- The run after all that was sent and pushed became readable and the subscribers were marked. -/
def takenIn (run : Run) : Run :=
  { run with
    streams := run.advancedStreams
    reactions := run.reactions.soilAll
      (run.advancedStreams.changed.flatMap run.advancedStreams.subscribers) }

variable {program : Program} {run : Run}

theorem InStep.isSome_of_subscriber (inStep : InStep program run) {name : String} {node : NodeId}
    (subscriber : node ∈ run.streams.subscribers name) :
    (run.reactions.get? node).isSome := by
  obtain ⟨reaction, found, -⟩ := (inStep.subscribed name node).mp subscriber
  simp [found]

theorem InStep.advancedStreams (inStep : InStep program run) :
    InStep program { run with streams := run.advancedStreams } :=
  inStep.of_streams rfl
    ((Streams.keepsSubscribers_drain run.streams).trans (Streams.keepsSubscribers_commit _))

end Run

/-- A session with a given setup whose run is in step. -/
def Session.InStep (setup : Setup) (session : Session) : Prop :=
  session.setup = setup ∧ session.run.InStep setup.program

namespace Call

variable {session : Session} {setup : Setup}

theorem refuseHalted_of_alive (alive : session.Alive) :
    refuseHalted session = .ok () session := by
  simp only [refuseHalted, bind, EStateM.bind, get_apply]
  cases state : session.state with
  | halted defect => exact absurd state (alive defect)
  | idle | running | done | stopped => rfl

section

variable {defect : Defect} (halted : session.state = .halted defect)
include halted

theorem refuseHalted_of_halted : refuseHalted session = .error (.halted defect) session := by
  simp only [refuseHalted, bind, EStateM.bind, get_apply, halted]
  rfl

theorem outcome_push_of_halted (name : String) (value : Val) :
    (HostCall.push name value).outcome session = (.error (.halted defect), session) := by
  simp only [HostCall.outcome, HostCall.perform, push, bind, EStateM.bind,
    refuseHalted_of_halted halted]

theorem outcome_flush_of_halted :
    HostCall.flush.outcome session = (.error (.halted defect), session) := by
  simp only [HostCall.outcome, HostCall.perform, flush, bind, EStateM.bind,
    refuseHalted_of_halted halted]

end

theorem push_of_alive (inStep : session.InStep setup)
    (alive : session.Alive) (name : String) (value : Val) :
    push name value session =
      match session.run.streams.refusal? name value with
      | none => .ok () { session with run := session.run.handed (name, value) }
      | some fault => .error fault { session with run := session.run.handed (name, value) } := by
  simp only [push, bind, EStateM.bind, refuseHalted_of_alive alive, get_apply, modify_apply]
  cases judged : session.run.streams.refusal? name value with
  | some fault =>
    simp only [Run.handed, Streams.hand, judged, Streams.push_of_refused judged]
    rfl
  | none =>
    have marked : Action.markAllDirty (session.run.streams.subscribers name)
        { session.run with streams := session.run.streams.hand (name, value) } =
        .ok () { session.run with
          streams := session.run.streams.hand (name, value)
          reactions := session.run.reactions.soilAll (session.run.streams.subscribers name) } :=
      Action.markAllDirty_eq fun node subscriber => inStep.2.isSome_of_subscriber subscriber
    simp only [Streams.hand, Streams.push_of_accepted judged] at marked
    simp only [Run.handed, Streams.hand, judged, Streams.push_of_accepted judged, perform,
      performOr, marked]

/-- What is said to a push: whether the stream accepts the value. -/
def pushAnswer (streams : Streams) (message : String × Val) : Except Fault Answer :=
  match streams.refusal? message.1 message.2 with
  | none => .ok .nothing
  | some fault => .error fault

theorem outcome_registerWith (session : Session) (name : String) (kind : StreamKind)
    (initial : Option Val) :
    (HostCall.registerWith name kind initial).outcome session =
      match session.run.streams.registerWith name kind initial with
      | .ok streams => (.ok .nothing, { session with run.streams := streams })
      | .error fault => (.error fault, session) := by
  simp only [HostCall.outcome, HostCall.perform, registerWith, bind, EStateM.bind, get_apply]
  cases session.run.streams.registerWith name kind initial <;> rfl

theorem outcome_push (inStep : session.InStep setup)
    (alive : session.Alive) (name : String) (value : Val) :
    (HostCall.push name value).outcome session = (pushAnswer session.run.streams (name, value),
        { session with run := session.run.handed (name, value) }) := by
  have pushed := push_of_alive inStep alive name value
  unfold pushAnswer
  cases judged : session.run.streams.refusal? name value with
  | none =>
    rw [judged] at pushed
    simp only [HostCall.outcome, HostCall.perform, bind, EStateM.bind, pushed]
    rfl
  | some fault =>
    rw [judged] at pushed
    simp only [HostCall.outcome, HostCall.perform, bind, EStateM.bind, pushed]

theorem takeIn_eq (inStep : session.InStep setup) :
    takeIn session =
      .ok (session.run.advancedStreams.changed, session.run.takenIn.reactions.dirty)
        { session with run := session.run.takenIn } := by
  have marked : Action.markAllDirty
      (session.run.advancedStreams.changed.flatMap session.run.advancedStreams.subscribers)
      { session.run with streams := session.run.advancedStreams } =
      .ok () session.run.takenIn := by
    refine Action.markAllDirty_eq fun node mem => ?_
    obtain ⟨name, -, subscriber⟩ := mem_flatMap.mp mem
    exact inStep.2.advancedStreams.isSome_of_subscriber subscriber
  unfold Run.advancedStreams at marked
  simp only [takeIn, commitStreams, bind, EStateM.bind, modify_apply, get_apply, pure, EStateM.pure,
    perform, performOr, marked]
  rfl

/-- What a flush does after it has taken values in: it updates the dirty reactions and evaluates the
main source again if anything has changed. -/
def refresh (changed : List String) (dirty : List NodeId) : Call Unit := do
  perform (Action.updateAll (← get).setup dirty)
  let session ← get
  let stale := !changed.isEmpty || !dirty.isEmpty || session.advanced
  modify fun session => { session with advanced := !changed.isEmpty }
  if session.state.isLive && stale then rerun
  notify .flushed

theorem flush_eq :
    flush = (do
      refuseHalted
      let (changed, dirty) ← takeIn
      refresh changed dirty) :=
  rfl

theorem flush_of_alive (inStep : session.InStep setup) (alive : session.Alive) :
    flush session =
      refresh session.run.advancedStreams.changed session.run.takenIn.reactions.dirty
        { session with run := session.run.takenIn } := by
  simp only [flush_eq, bind, EStateM.bind, refuseHalted_of_alive alive, takeIn_eq inStep]

/-! ### The rest of a flush -/

/--
What is left of a flush updates the given reactions once each; then reactions may come into being.  If
it fails, it lets go of all reactions.
-/
theorem ensures_refresh_reactions
    {dirty : List NodeId} (once : dirty.Nodup) (changed : List String) (session : Session) :
    Ensures (refresh changed dirty) session
      (fun _ after => ∃ (values : NodeId → Val) (updated : Reactions),
        (∀ node, updated.get? node =
          if node ∈ dirty then (session.run.reactions.get? node).map (·.settle (values node))
          else session.run.reactions.get? node) ∧
        updated.Grown after.run.reactions)
      (fun _ after => after.run.reactions = .empty) := by
  simp only [refresh, ensures_bind, ensures_get, ensures_perform]
  refine (Action.ensures_updateAll_reactions dirty once session.run).imp ?_ (fun _ _ _ => rfl)
  rintro _ run ⟨values, updated⟩
  simp only [ensures_modify]
  split
  · simp only [rerun, finishPass, notify, ensures_bind, ensures_get, ensures_perform,
      ensures_modify]
    refine (Action.preserves_pass_grown (run.beginPass session.setup)
      (Reactions.Grown.refl run.reactions)).imp ?_ (fun _ _ _ => rfl)
    intro machine after grown
    refine ⟨values, run.reactions, updated, ?_⟩
    split
    · exact grown
    · exact grown
  · exact ⟨values, run.reactions, updated, Reactions.Grown.refl _⟩

end Call

end Reactor

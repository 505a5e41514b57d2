import Reactor.Proofs.Run.Evolution

/-!
# Subscriptions and the table of reactions in step

Subscriptions are kept with the streams, and the reactions that they belong to are kept in a table of
their own.  `Run.InStep` says that the two tell the same story: a node is subscribed to a stream just
when the table holds a reaction of that node whose condition names the stream.

Evaluation keeps a run in step, and so do updates of reactions, pushes, commits and all other changes
of streams.  In a run that is in step every subscriber can be marked dirty.
-/

namespace Reactor

open List

/-! ### The streams that a condition names -/

namespace Program

theorem nodup_streamsBelow (program : Program) (found : List String) (pending : List NodeId)
    (distinct : found.Nodup) :
    (program.streamsBelow found pending).Nodup := by
  fun_induction program.streamsBelow found pending with
  | case1 found => exact distinct
  | case2 found id pending present ih => exact ih distinct
  | case3 found id pending node present noted ih =>
    apply ih
    cases node with
    | stream name =>
      simp only [noted]
      split
      · exact distinct
      · next absent =>
        refine nodup_append.mpr ⟨distinct, by simp, ?_⟩
        intro old mem new isNew
        rw [mem_singleton.mp isNew]
        exact fun equal => absent (equal ▸ mem)
    | _ => exact distinct

theorem nodup_denotedStreams (program : Program) (id : NodeId) :
    (program.denotedStreams id).Nodup :=
  nodup_streamsBelow program [] [id] nodup_nil

end Program

/--
What the table holds of a reaction agrees with its node: the node is a reaction, and the streams are
those that its condition names, of which there is at least one.
-/
def Reaction.Faithful (program : Program) (reaction : Reaction) : Prop :=
  ∃ initial condition next binding,
    program.node? reaction.node = some (.reaction initial condition next binding) ∧
      reaction.streams = program.denotedStreams condition ∧
      reaction.streams ≠ []

theorem Reaction.Faithful.nodup {program : Program} {reaction : Reaction}
    (faithful : reaction.Faithful program) :
    reaction.streams.Nodup := by
  obtain ⟨initial, condition, next, binding, -, denoted, -⟩ := faithful
  rw [denoted]
  exact program.nodup_denotedStreams condition

theorem Reaction.Faithful.streams_eq {program : Program} {left right : Reaction}
    (leftFaithful : left.Faithful program) (rightFaithful : right.Faithful program)
    (same : left.node = right.node) :
    left.streams = right.streams := by
  obtain ⟨_, _, _, _, leftPresent, leftDenoted, -⟩ := leftFaithful
  obtain ⟨_, _, _, _, rightPresent, rightDenoted, -⟩ := rightFaithful
  rw [same, rightPresent] at leftPresent
  cases leftPresent
  rw [leftDenoted, rightDenoted]

namespace Run

/-- Subscriptions and the table of reactions agree. -/
structure InStep (program : Program) (run : Run) : Prop where
  /-- A node is subscribed just to the streams of its reaction. -/
  subscribed : ∀ name node,
    node ∈ run.streams.subscribers name ↔
      ∃ reaction, run.reactions.get? node = some reaction ∧ name ∈ reaction.streams
  /-- The streams of every reaction are there. -/
  registered : ∀ reaction ∈ run.reactions.table,
    ∀ name ∈ reaction.streams, (run.streams.get? name).isSome
  /-- Every reaction has the streams that the condition of its node names. -/
  faithful : ∀ reaction ∈ run.reactions.table, reaction.Faithful program
  /-- No reaction is listed twice. -/
  once : run.reactions.nodes.Nodup

variable {program : Program} {run after : Run}

theorem inStep_of_empty (reactions : run.reactions = .empty)
    (subscribers : ∀ name, run.streams.subscribers name = []) :
    InStep program run := by
  constructor
  · intro name node
    simp [subscribers name, reactions, Reactions.empty, Reactions.get?]
  · simp [reactions, Reactions.empty]
  · simp [reactions, Reactions.empty]
  · simp [reactions, Reactions.empty, Reactions.nodes]

section

variable (inStep : InStep program run)
include inStep

theorem InStep.of_streams (reactions : after.reactions = run.reactions)
    (streams : run.streams.KeepsSubscribers after.streams) :
    InStep program after := by
  constructor
  · intro name node
    rw [streams.subscribers name, reactions]
    exact inStep.subscribed name node
  · intro reaction mem name named
    rw [reactions] at mem
    exact streams.registered name (inStep.registered reaction mem name named)
  · rw [reactions]
    exact inStep.faithful
  · rw [reactions]
    exact inStep.once

theorem InStep.of_change (changed : NodeId) {update : Reaction → Reaction}
    (placed : ∀ reaction, (update reaction).node = reaction.node)
    (streams : ∀ reaction, (update reaction).streams = reaction.streams) :
    InStep program { run with reactions := run.reactions.change changed update } := by
  have back : ∀ reaction ∈ (run.reactions.change changed update).table,
      ∃ old ∈ run.reactions.table, reaction.node = old.node ∧ reaction.streams = old.streams := by
    intro reaction mem
    obtain ⟨old, present, rfl⟩ := mem_map.mp mem
    refine ⟨old, present, ?_⟩
    split
    · exact ⟨placed old, streams old⟩
    · exact ⟨rfl, rfl⟩
  constructor
  · intro name node
    rw [inStep.subscribed name node]
    simp only [Reactions.get?_change run.reactions changed node placed]
    split
    · constructor
      · rintro ⟨reaction, found, named⟩
        exact ⟨update reaction, by simp [found], by rwa [streams]⟩
      · rintro ⟨reaction, found, named⟩
        obtain ⟨old, present, rfl⟩ := Option.map_eq_some_iff.mp found
        exact ⟨old, present, by rwa [streams] at named⟩
    · exact Iff.rfl
  · intro reaction mem name named
    obtain ⟨old, present, -, same⟩ := back reaction mem
    exact inStep.registered old present name (same ▸ named)
  · intro reaction mem
    obtain ⟨old, present, sameNode, sameStreams⟩ := back reaction mem
    simpa only [Reaction.Faithful, sameNode, sameStreams] using inStep.faithful old present
  · show (run.reactions.change changed update).nodes.Nodup
    rw [Reactions.nodes_change run.reactions changed placed]
    exact inStep.once

theorem InStep.addReaction {reaction : Reaction} (faithful : reaction.Faithful program)
    (registered : ∀ name ∈ reaction.streams, (run.streams.get? name).isSome) :
    InStep program (run.addReaction reaction) := by
  have entries : ∀ entry ∈ (run.reactions.insert reaction).table,
      entry = reaction ∨ entry ∈ run.reactions.table := by
    intro entry mem
    have found := Reactions.get?_of_mem_table
      (Reactions.nodup_nodes_insert inStep.once reaction) mem
    rw [Reactions.get?_insert] at found
    split at found
    · cases found
      exact Or.inl rfl
    · exact Or.inr (Reactions.mem_table_of_get? found)
  constructor
  · intro name node
    show node ∈ (run.streams.subscribeAll reaction.streams reaction.node).subscribers name ↔
      ∃ entry, (run.reactions.insert reaction).get? node = some entry ∧ name ∈ entry.streams
    rw [Streams.mem_subscribers_subscribeAll registered, inStep.subscribed name node,
      Reactions.get?_insert]
    split
    · next same =>
      constructor
      · rintro (⟨named, -⟩ | ⟨old, found, named⟩)
        · exact ⟨reaction, rfl, named⟩
        · -- An older entry of this node has the same streams.
          refine ⟨reaction, rfl, ?_⟩
          have oldFaithful := inStep.faithful old (Reactions.mem_table_of_get? found)
          have sameNode : reaction.node = old.node :=
            same.symm.trans (Reactions.node_of_get? found).symm
          rwa [faithful.streams_eq oldFaithful sameNode]
      · rintro ⟨entry, equal, named⟩
        cases equal
        exact Or.inl ⟨named, same⟩
    · next differs =>
      constructor
      · rintro (⟨-, same⟩ | found)
        · exact absurd same differs
        · exact found
      · exact Or.inr
  · intro entry mem name named
    show ((run.streams.subscribeAll reaction.streams reaction.node).get? name).isSome
    rw [Streams.registered_subscribeAll]
    rcases entries entry mem with rfl | old
    · exact registered name named
    · exact inStep.registered entry old name named
  · intro entry mem
    rcases entries entry mem with rfl | old
    · exact faithful
    · exact inStep.faithful entry old
  · exact Reactions.nodup_nodes_insert inStep.once reaction

end

theorem stable_inStep (program : Program) : Stable program (InStep program) := by
  intro run after change inStep
  cases change with
  | elsewhere streams reactions =>
    refine inStep.of_streams reactions ?_
    rw [streams]
    exact .refl _
  | provide ensured =>
    exact inStep.of_streams rfl (Streams.grows_ensure? ensured).keepsSubscribers
  | settle reaction present denoted named registered _ _ =>
    exact inStep.addReaction ⟨_, _, _, _, present, denoted, named⟩ registered

theorem InStep.settle (inStep : InStep program run) (id : NodeId) (value : Val) :
    InStep program { run with reactions := run.reactions.change id (·.settle value) } :=
  inStep.of_change id (fun _ => rfl) (fun _ => rfl)

theorem InStep.soil (inStep : InStep program run) (id : NodeId) :
    InStep program { run with reactions := run.reactions.change id Reaction.soil } :=
  inStep.of_change id (fun _ => rfl) (fun _ => rfl)

theorem InStep.release (run : Run) : InStep program run.release :=
  inStep_of_empty rfl fun name => Streams.subscribers_unsubscribeAll run.streams name

theorem InStep.reset (setup : Setup) (run : Run) : InStep program (run.reset setup) :=
  inStep_of_empty rfl fun name => Streams.subscribers_reset run.streams name

/-! ### A first reach that fails -/

theorem missingStream?_of_missing (names : List String) (run : Run)
    (missing : ∃ name ∈ names, run.streams.ensure? name = none) :
    ∃ name ∈ names, ∃ streams,
      Frame.missingStream? names run = .ok (some name) { run with streams } ∧
        run.streams.KeepsSubscribers streams ∧
        streams.get? name = none := by
  induction names generalizing run with
  | nil =>
    obtain ⟨name, mem, -⟩ := missing
    cases mem
  | cons first rest ih =>
    cases ensured : run.streams.ensure? first with
    | none =>
      refine ⟨first, mem_cons_self, run.streams, ?_, .refl _,
        Streams.get?_eq_none_of_ensure? ensured⟩
      simp only [Frame.missingStream?, bind, EStateM.bind, Action.ensureStream, modifyGet_apply,
        ensured]
      rfl
    | some streams =>
      have later : ∃ name ∈ rest, streams.ensure? name = none := by
        obtain ⟨name, mem, absent⟩ := missing
        rcases mem_cons.mp mem with rfl | mem
        · rw [absent] at ensured
          cases ensured
        · exact ⟨name, mem, Streams.ensure?_eq_none_of_ensure? ensured absent⟩
      obtain ⟨name, mem, after, ended, kept, absent⟩ :=
        ih { run with streams } later
      refine ⟨name, mem_cons_of_mem _ mem, after, ?_,
        (Streams.grows_ensure? ensured).keepsSubscribers.trans kept, absent⟩
      simp only [Frame.missingStream?, bind, EStateM.bind, Action.ensureStream, modifyGet_apply,
        ensured]
      exact ended

theorem settle_of_missing
    (id : NodeId) (value : Val) (names : List String) (env : Env) (binding : Option String)
    (run : Run) (failing : names = [] ∨ ∃ name ∈ names, run.streams.ensure? name = none) :
    ∃ cause streams,
      Frame.settle id value names env binding run =
          .ok (.failure cause id) { run with streams } ∧
        run.streams.KeepsSubscribers streams ∧
        (names = [] ∨ ∃ name ∈ names, streams.get? name = none) := by
  rcases failing with rfl | missing
  · exact ⟨.expectedStream, run.streams, rfl, .refl _, Or.inl rfl⟩
  · obtain ⟨name, mem, streams, ended, kept, absent⟩ :=
      missingStream?_of_missing names run missing
    have named : names.isEmpty = false := by
      cases names with
      | nil => cases mem
      | cons first rest => rfl
    refine ⟨.missingStream name, streams, ?_, kept, Or.inr ⟨name, mem, absent⟩⟩
    simp only [Frame.settle, named, Bool.false_eq_true, if_false, bind, EStateM.bind, ended]
    rfl

/--
A first reach that fails leaves nothing behind: the table is as it was and has no entry for the node,
subscriptions are as they were, and none of them is for the node.
-/
theorem InStep.settleReaction_of_missing (setup : Setup) {run : Run}
    (inStep : InStep setup.program run)
    {frame : Frame} {initial condition next : NodeId} {binding : Option String} {value : Val}
    (present : setup.program.node? frame.node = some (.reaction initial condition next binding))
    (received : frame.values.head? = some value)
    (failing : setup.program.denotedStreams condition = [] ∨
      ∃ name ∈ setup.program.denotedStreams condition, run.streams.ensure? name = none) :
    ∃ cause after,
      frame.settleReaction setup run = .ok (.complete (.failure cause frame.node)) after ∧
        after.reactions = run.reactions ∧
        after.reactions.get? frame.node = none ∧
        ∀ name,
          after.streams.subscribers name = run.streams.subscribers name ∧
            frame.node ∉ after.streams.subscribers name := by
  obtain ⟨cause, streams, ended, kept, still⟩ :=
    settle_of_missing frame.node value (setup.program.denotedStreams condition) frame.env binding
      { run with reacting := run.reacting - 1 } failing
  have absent : run.reactions.get? frame.node = none := by
    -- An entry would have streams that are all there, which is what fails.
    cases found : run.reactions.get? frame.node with
    | none => rfl
    | some reaction =>
      have mem := Reactions.mem_table_of_get? found
      obtain ⟨_, _, _, _, entryPresent, denoted, named⟩ := inStep.faithful reaction mem
      rw [Reactions.node_of_get? found, present] at entryPresent
      cases entryPresent
      rcases still with none | ⟨name, isNamed, missing⟩
      · exact absurd (denoted.trans none) named
      · have there := inStep.registered reaction mem name (denoted ▸ isNamed)
        have later := kept.registered name there
        rw [missing] at later
        cases later
  refine ⟨cause, { run with reacting := run.reacting - 1, streams }, ?_, rfl, absent, ?_⟩
  · simp only [Frame.settleReaction, Frame.reactionParts, present, received, bind, EStateM.bind,
      pure, EStateM.pure, modify_apply, ended]
  · intro name
    refine ⟨kept.subscribers name, ?_⟩
    show frame.node ∉ streams.subscribers name
    rw [kept.subscribers name]
    intro subscriber
    obtain ⟨reaction, found, -⟩ := (inStep.subscribed name frame.node).mp subscriber
    rw [absent] at found
    cases found

/-! ### Marking subscribers -/

theorem InStep.markDirty (inStep : InStep program run) {name : String} {node : NodeId}
    (subscriber : node ∈ run.streams.subscribers name) :
    run.reactions.markDirty node = .ok (run.reactions.change node Reaction.soil) := by
  obtain ⟨reaction, found, -⟩ := (inStep.subscribed name node).mp subscriber
  simp [Reactions.markDirty, found]

/-- Subscribers are known reactions, so all of them can be marked. -/
theorem InStep.markAllDirty (inStep : InStep program run) {nodes : List NodeId}
    (subscribers : ∀ node ∈ nodes, ∃ name, node ∈ run.streams.subscribers name) :
    ∃ reactions,
      Action.markAllDirty nodes run = .ok () { run with reactions } ∧
        InStep program { run with reactions } := by
  induction nodes generalizing run with
  | nil => exact ⟨run.reactions, rfl, inStep⟩
  | cons node rest ih =>
    obtain ⟨name, subscriber⟩ := subscribers node mem_cons_self
    have marked := inStep.markDirty subscriber
    obtain ⟨reactions, ended, after⟩ := ih (inStep.soil node)
      fun other mem => subscribers other (mem_cons_of_mem _ mem)
    refine ⟨reactions, ?_, after⟩
    rw [← ended]
    simp only [Action.markAllDirty, bind, EStateM.bind, get_apply, marked, modify_apply]

end Run

end Reactor

import Reactor.Proofs.Session.Likeness
import Reactor.Proofs.Session.TakingIn
import Reactor.Proofs.Stream.Commuting

/-!
# Runs that differ by what was handed over

One run is overlaid with messages if another is like it in everything, except that the messages were
also handed to its streams and that more or fewer of its reactions may be dirty.  Evaluation cannot tell
the two apart, since it never reads what waits and never asks whether a reaction is dirty.  Handing over
one more message on one side keeps the relation, with one more message.
-/

namespace Reactor

open List

/-! ### Reactions without their marks -/

namespace Reactions

/-- The reactions, all of them taken for settled. -/
def unmarked (reactions : Reactions) : Reactions :=
  ⟨reactions.table.map fun reaction => { reaction with state := .settled }⟩

theorem get?_unmarked (reactions : Reactions) (node : NodeId) :
    reactions.unmarked.get? node =
      (reactions.get? node).map fun reaction => { reaction with state := .settled } := by
  simp only [get?, unmarked, find?_map, Function.comp_def]

theorem value_congr
    {reactions others : Reactions} (same : others.unmarked = reactions.unmarked) (node : NodeId) :
    (others.get? node).map (·.value) = (reactions.get? node).map (·.value) := by
  have found : others.unmarked.get? node = reactions.unmarked.get? node := by rw [same]
  rw [get?_unmarked, get?_unmarked] at found
  simpa [Function.comp_def] using congrArg (Option.map (·.value)) found

theorem unmarked_soilAll (reactions : Reactions) (nodes : List NodeId) :
    (reactions.soilAll nodes).unmarked = reactions.unmarked := by
  simp only [unmarked, soilAll, map_map]
  congr 1
  apply map_congr_left
  intro reaction _
  by_cases here : reaction.node ∈ nodes <;> simp [here, Reaction.soil]

theorem unmarked_insert (reactions : Reactions) (reaction : Reaction) :
    (reactions.insert reaction).unmarked =
      reactions.unmarked.insert { reaction with state := .settled } := by
  rcases reactions with ⟨table⟩
  simp only [unmarked, insert, Reactions.mk.injEq]
  induction table with
  | nil => rfl
  | cons other rest ih =>
    by_cases here : other.node = reaction.node
    · simp [insertInto, here]
    · simpa [insertInto, here] using ih

theorem soilAll_unmarked {reactions : Reactions} {nodes : List NodeId}
    (again : ∀ reaction ∈ reactions.table, reaction.state = .dirty → reaction.node ∈ nodes) :
    reactions.unmarked.soilAll nodes = reactions.soilAll nodes := by
  simp only [unmarked, soilAll, map_map]
  congr 1
  apply map_congr_left
  intro reaction mem
  by_cases here : reaction.node ∈ nodes
  · simp [here, Reaction.soil]
  · have settled : reaction.state = .settled := by
      cases state : reaction.state with
      | settled => rfl
      | dirty => exact absurd (again reaction mem state) here
    simp only [Function.comp_apply, here, if_false]
    rw [← settled]

end Reactions

namespace Run

/-- The twin is like the run, except that some messages were handed to its streams and that other
reactions may be dirty. -/
structure Overlaid (messages : List (String × Val)) (run twin : Run) : Prop where
  rest : twin =
    { run with streams := run.streams.handAll messages, reactions := twin.reactions }
  reactions : twin.reactions.unmarked = run.reactions.unmarked

variable {messages : List (String × Val)} {run twin : Run}

theorem Overlaid.parts (overlaid : Overlaid messages run twin) :
    ∃ reactions, twin = { run with streams := run.streams.handAll messages, reactions } ∧
      reactions.unmarked = run.reactions.unmarked :=
  ⟨twin.reactions, overlaid.rest, overlaid.reactions⟩

theorem Overlaid.streams (overlaid : Overlaid messages run twin) :
    twin.streams = run.streams.handAll messages := by
  rw [overlaid.rest]

theorem Overlaid.refl (run : Run) : Overlaid [] run run :=
  ⟨rfl, rfl⟩

theorem likeness_overlaid (messages : List (String × Val)) : Likeness (Overlaid messages) where
  same overlaid := by
    obtain ⟨reactions, rfl, -⟩ := overlaid.parts
    rfl
  beside overlaid streams reactions _ _ := by
    refine ⟨?_, ?_⟩
    · rw [overlaid.streams, streams]
    · rw [reactions]
      exact overlaid.reactions
  provide name overlaid := by
    rename_i run twin
    have kinds := Streams.kind?_handAll run.streams messages name
    obtain ⟨reactions, rfl, marks⟩ := overlaid.parts
    rcases Streams.ensure?_of_kinds kinds with absent | ⟨present, twinPresent, there⟩
    · exact Or.inl absent
    · rw [← Streams.handAll_ensured] at twinPresent
      exact Or.inr ⟨run.streams.ensured name, (run.streams.ensured name).handAll messages,
        present, twinPresent, Streams.latest?_handAll there messages, rfl, marks⟩
  changed overlaid := by
    rw [overlaid.streams, Streams.changed_handAll]

/-- Evaluation can neither see what was handed over nor which reactions are dirty. -/
theorem concord_overlaid (messages : List (String × Val)) : Concord (Overlaid messages) where
  toLikeness := likeness_overlaid messages
  value id overlaid := Reactions.value_congr overlaid.reactions id
  react count overlaid := by
    obtain ⟨reactions, rfl, marks⟩ := overlaid.parts
    exact ⟨rfl, marks⟩
  settle reaction overlaid there := by
    obtain ⟨reactions, rfl, marks⟩ := overlaid.parts
    refine ⟨?_, ?_⟩
    · simp only [addReaction, Streams.handAll_subscribeAll there]
    · simp only [addReaction, Reactions.unmarked_insert, marks]
  nest count overlaid := by
    obtain ⟨reactions, rfl, marks⟩ := overlaid.parts
    exact ⟨rfl, marks⟩
  release overlaid := by
    obtain ⟨reactions, rfl, marks⟩ := overlaid.parts
    refine ⟨?_, rfl⟩
    simp only [release, Streams.handAll_unsubscribeAll]

theorem Overlaid.handed (overlaid : Overlaid messages run twin) (message : String × Val) :
    Overlaid (messages ++ [message]) run (twin.handed message) := by
  have streams : run.streams.handAll (messages ++ [message]) = twin.streams.hand message := by
    rw [overlaid.streams]
    exact foldl_append
  refine ⟨?_, ?_⟩
  · rw [streams]
    obtain ⟨reactions, rfl, -⟩ := overlaid.parts
    rfl
  · rw [← overlaid.reactions]
    unfold Run.handed
    cases twin.streams.refusal? message.1 message.2 with
    | some fault => rfl
    | none => exact Reactions.unmarked_soilAll _ _

end Run

end Reactor

import Reactor.Proofs.Run.Overlay
import Reactor.Proofs.Stream.Reading

/-!
# Runs that look the same

Two runs look the same if the same can be read in both, the same streams have just advanced and the
reactions differ in their marks alone.  What waits at streams, who has subscribed and which streams that
are provided have come into being makes no difference.  Evaluation cannot tell such runs apart.  What a
host does between two passes, except registering streams, leaves a run looking as it did.
-/

namespace Reactor.Run

/-- The twin looks like the run. -/
structure Resembles (run twin : Run) : Prop where
  rest : twin = { run with streams := twin.streams, reactions := twin.reactions }
  reading : ∀ name, twin.streams.reading name = run.streams.reading name
  changed : twin.streams.changed = run.streams.changed
  reactions : twin.reactions.unmarked = run.reactions.unmarked

variable {run twin : Run}

theorem Resembles.refl (run : Run) : run.Resembles run :=
  ⟨rfl, fun _ => rfl, rfl, rfl⟩

theorem Resembles.parts (resembles : run.Resembles twin) :
    ∃ streams reactions, twin = { run with streams, reactions } ∧
      (∀ name, streams.reading name = run.streams.reading name) ∧
      streams.changed = run.streams.changed ∧ reactions.unmarked = run.reactions.unmarked :=
  ⟨twin.streams, twin.reactions, resembles.rest, resembles.reading, resembles.changed,
    resembles.reactions⟩

theorem Resembles.of_tables
    (resembles : run.Resembles twin) {streams : Streams} {reactions : Reactions}
    (reading : ∀ name, streams.reading name = twin.streams.reading name)
    (changed : streams.changed = twin.streams.changed)
    (marks : reactions.unmarked = twin.reactions.unmarked) :
    run.Resembles { twin with streams, reactions } where
  rest := by rw [resembles.rest]
  reading name := (reading name).trans (resembles.reading name)
  changed := changed.trans resembles.changed
  reactions := marks.trans resembles.reactions

theorem likeness_resembles : Likeness Resembles where
  same resembles := resembles.rest
  beside resembles streams reactions _ _ := by
    refine ⟨rfl, fun name => ?_, ?_, ?_⟩
    · rw [streams]
      exact resembles.reading name
    · rw [streams]
      exact resembles.changed
    · rw [reactions]
      exact resembles.reactions
  provide name resembles := by
    rename_i run twin
    have same := resembles.reading name
    cases reads : run.streams.reading name with
    | none =>
      exact Or.inl ⟨Streams.ensure?_of_no_reading reads,
        Streams.ensure?_of_no_reading (same.trans reads)⟩
    | some latest =>
      obtain ⟨ensured, newest⟩ := Streams.ensure?_of_reading reads
      obtain ⟨ensuredTwin, newestTwin⟩ := Streams.ensure?_of_reading (same.trans reads)
      obtain ⟨streams, reactions, rfl, reading, changed, marks⟩ := resembles.parts
      refine Or.inr ⟨_, _, ensured, ensuredTwin, newestTwin.trans newest.symm, rfl,
        fun other => ?_, ?_, marks⟩
      · simp only [Streams.reading_ensured, reading]
      · simp only [Streams.changed_ensured, changed]
  changed resembles := resembles.changed

theorem concord_resembles : Concord Resembles where
  toLikeness := likeness_resembles
  value id resembles := Reactions.value_congr resembles.reactions id
  react count resembles := by
    obtain ⟨streams, reactions, rfl, reading, changed, marks⟩ := resembles.parts
    exact ⟨rfl, reading, changed, marks⟩
  settle reaction resembles _ := by
    obtain ⟨streams, reactions, rfl, reading, changed, marks⟩ := resembles.parts
    refine ⟨rfl, fun name => ?_, ?_, ?_⟩
    · simp only [addReaction, Streams.reading_subscribeAll, reading]
    · simp only [addReaction, Streams.changed_subscribeAll, changed]
    · simp only [addReaction, Reactions.unmarked_insert, marks]
  nest count resembles := by
    obtain ⟨streams, reactions, rfl, reading, changed, marks⟩ := resembles.parts
    exact ⟨rfl, reading, changed, marks⟩
  release resembles := by
    obtain ⟨streams, reactions, rfl, reading, changed, marks⟩ := resembles.parts
    refine ⟨rfl, fun name => ?_, changed, rfl⟩
    simp only [release, Streams.reading_unsubscribeAll, reading]

theorem Resembles.handed (resembles : run.Resembles twin) (message : String × Val) :
    run.Resembles (twin.handed message) := by
  refine resembles.of_tables (fun name => Streams.reading_hand _ _ name)
    (Streams.changed_handAll twin.streams [message]) ?_
  cases twin.streams.refusal? message.1 message.2 with
  | some fault => rfl
  | none => exact Reactions.unmarked_soilAll _ _

/-- Where no stream had advanced and none advances, taking in makes no difference that can be seen. -/
theorem Resembles.takenIn (resembles : run.Resembles twin) (distinct : twin.streams.names.Nodup)
    (before : twin.streams.changed = []) (after : twin.advancedStreams.changed = []) :
    run.Resembles twin.takenIn := by
  refine resembles.of_tables (fun name => ?_) (after.trans before.symm)
    (Reactions.unmarked_soilAll _ _)
  refine Streams.reading_drain_commit distinct ?_
  rw [show twin.streams.drain.1.commit.changed = [] from after]
  exact List.not_mem_nil

end Reactor.Run

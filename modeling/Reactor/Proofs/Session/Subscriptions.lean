import Reactor.Proofs.Session.Keeping

/-!
# Subscriptions in a session

Whatever a host calls, and in whatever order, the subscriptions of streams and the table of reactions
stay in step.  A call that meets a defect lets go of both at once; every other call changes them
together or not at all.
-/

namespace Reactor

namespace Session

section

variable {setup : Setup} {session : Session} (inStep : session.InStep setup)
include inStep

theorem InStep.markAllDirty_of_push {name : String} {value : Val} {streams : Streams}
    {nodes : List NodeId} (pushed : session.run.streams.push name value = (streams, .ok nodes)) :
    ∃ reactions,
      Action.markAllDirty nodes { session.run with streams } =
        .ok () { session.run with streams, reactions } := by
  have kept := Streams.keepsSubscribers_push session.run.streams name value
  rw [pushed] at kept
  have after : Run.InStep setup.program { session.run with streams } :=
    inStep.2.of_streams rfl kept
  have subscribers : ∀ node ∈ nodes, ∃ stream, node ∈ streams.subscribers stream := by
    intro node mem
    rw [Streams.subscribers_of_push pushed] at mem
    exact ⟨name, mem⟩
  obtain ⟨reactions, ended, -⟩ := after.markAllDirty subscribers
  exact ⟨reactions, ended⟩

theorem InStep.markAllDirty_of_commit {streams : Streams}
    (committed : streams = session.run.streams.drain.1.commit) :
    ∃ reactions,
      Action.markAllDirty (streams.changed.flatMap streams.subscribers)
          { session.run with streams } =
        .ok () { session.run with streams, reactions } := by
  have after : Run.InStep setup.program { session.run with streams } := by
    refine inStep.2.of_streams rfl ?_
    rw [committed]
    exact (Streams.keepsSubscribers_drain _).trans (Streams.keepsSubscribers_commit _)
  have subscribers : ∀ node ∈ streams.changed.flatMap streams.subscribers,
      ∃ stream, node ∈ streams.subscribers stream := by
    intro node mem
    obtain ⟨name, -, subscriber⟩ := List.mem_flatMap.mp mem
    exact ⟨name, subscriber⟩
  obtain ⟨reactions, ended, -⟩ := after.markAllDirty subscribers
  exact ⟨reactions, ended⟩

end

/--
Subscriptions and the table of reactions never drift apart.  After any calls of the host a node is
subscribed to a stream just when the table holds its reaction and the reaction has the stream; the
streams of a reaction are registered, distinct, at least one, and those that its condition names; and
no reaction is listed twice.

A first reach that fails, in any run that is in step, leaves neither an entry nor a subscription.
Hence the subscribers that a push gives back and those that a flush finds can all be marked dirty.
-/
theorem subscriptions_match_reactions
    (program : Program) (limits : Limits) (calls : List HostCall) :
    let session := ((create program limits).course calls).2
    (session.run.InStep program ∧
        ∀ reaction ∈ session.run.reactions.table, reaction.streams.Nodup) ∧
      (∀ (run : Run), run.InStep program →
        ∀ (frame : Frame) (initial condition next : NodeId) (binding : Option String) (value : Val),
          program.node? frame.node = some (.reaction initial condition next binding) →
          frame.values.head? = some value →
          (program.denotedStreams condition = [] ∨
            ∃ name ∈ program.denotedStreams condition, run.streams.ensure? name = none) →
          ∃ cause after,
            frame.settleReaction ⟨program, limits⟩ run =
                .ok (.complete (.failure cause frame.node)) after ∧
              after.reactions = run.reactions ∧
              after.reactions.get? frame.node = none ∧
              ∀ name,
                after.streams.subscribers name = run.streams.subscribers name ∧
                  frame.node ∉ after.streams.subscribers name) ∧
      (∀ name value streams nodes,
        session.run.streams.push name value = (streams, .ok nodes) →
          ∃ reactions,
            Action.markAllDirty nodes { session.run with streams } =
              .ok () { session.run with streams, reactions }) ∧
      (∀ streams, streams = session.run.streams.drain.1.commit →
        ∃ reactions,
          Action.markAllDirty (streams.changed.flatMap streams.subscribers)
              { session.run with streams } =
            .ok () { session.run with streams, reactions }) := by
  intro session
  have inStep : session.InStep ⟨program, limits⟩ :=
    inStep_course (inStep_create program limits) calls
  refine ⟨⟨inStep.2, ?_⟩, ?_, ?_, ?_⟩
  · intro reaction member
    exact (inStep.2.faithful reaction member).nodup
  · intro run runInStep frame initial condition next binding value present received failing
    exact Run.InStep.settleReaction_of_missing ⟨program, limits⟩ runInStep present received failing
  · intro name value streams nodes pushed
    exact inStep.markAllDirty_of_push pushed
  · intro streams committed
    exact inStep.markAllDirty_of_commit committed

end Session

end Reactor

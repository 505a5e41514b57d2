import Reactor.Proofs.Engine.Sparing
import Reactor.Proofs.Session.Lifecycle
import Reactor.Proofs.Session.Sources

/-!
# Updates do not interfere

The update of a reaction evaluates in a scope that is opened for it, beside a reaction that counts as
being evaluated.  So no reaction comes into being, and of all that a run holds only what the evaluation
of expressions may touch can change.  What another reaction sees when it is updated does not depend on
whether this one was updated before.
-/

namespace Reactor

open List

/-! ### What an update leaves as it is -/

/-- The streams are the same, or the one that tells the time has come into being. -/
def Streams.Timed (streams after : Streams) : Prop :=
  after = streams ∨ streams.get? "Time" = none ∧
    after = streams.add (.create "Time" (.only .number) (some (.measure 0 "ms")))

theorem Streams.Timed.ensure?
    {streams after last : Streams} (timed : streams.Timed after) {name : String}
    (ensured : after.ensure? name = some last) : streams.Timed last := by
  simp only [Streams.ensure?] at ensured
  split at ensured
  · cases ensured
    exact timed
  · next absent =>
    simp only [provided?] at ensured
    split at ensured
    · next isTime =>
      cases ensured
      subst isTime
      rcases timed with rfl | ⟨missing, rfl⟩
      · exact .inr ⟨absent, rfl⟩
      · rw [get?_add (by exact missing)] at absent
        simp [Stream.create] at absent
    · cases ensured

/-- All but what the update of a reaction may change is as it was. -/
structure Run.Undisturbed (id : NodeId) (run after : Run) : Prop where
  others : ∀ other, other ≠ id → after.reactions.get? other = run.reactions.get? other
  own : ∀ reaction, run.reactions.get? id = some reaction →
    ∃ value, after.reactions.get? id = some (reaction.settle value)
  order : after.reactions.table.map (·.node) = run.reactions.table.map (·.node)
  streams : run.streams.Timed after.streams
  scopes : run.scopes.Spares [] after.scopes
  reacting : after.reacting = run.reacting
  nesting : after.nesting = run.nesting
  borrowing : after.borrowing = run.borrowing
  defect : after.defect = run.defect

namespace Action

variable {setup : Setup}

/-- What is evaluated in an update leaves the table and the count as they are, and the streams but for
the time. -/
structure Held (origin run : Run) : Prop where
  reactions : run.reactions = origin.reactions
  reacting : run.reacting = origin.reacting + 1
  streams : origin.streams.Timed run.streams

theorem unmoved_held (origin : Run) : Run.Unmoved (Held origin) where
  beside held streams reactions reacting :=
    ⟨reactions.trans held.reactions, reacting.trans held.reacting, streams ▸ held.streams⟩
  provide held ensured := { held with streams := held.streams.ensure? ensured }

theorem ensures_update_apart (id : NodeId) (run : Run) :
    Ensures (update setup id) run
      (fun _ after => (∃ value, after.reactions = run.reactions.change id (·.settle value)) ∧
        after.reacting = run.reacting ∧ run.streams.Timed after.streams ∧
          run.scopes.Spares [] after.scopes)
      (fun _ _ => True) := by
  have new : ∀ outer, run.scopes.Allows [] (run.scopes.child outer).1 := fun outer =>
    (Scopes.Spares.refl run.scopes []).allows_new outer
  have opened : ∀ outer, run.scopes.Spares [] (run.scopes.child outer).2 := fun outer =>
    (Scopes.Spares.refl run.scopes []).push _
  have ended := @ensures_update_of setup
    (fun last => Held run last ∧ run.scopes.Spares [] last.scopes) id run
    (fun reaction _ => ⟨⟨rfl, rfl, .inl rfl⟩, (opened _).defineAll (new _) _⟩)
    fun outer node last ⟨held, spared⟩ =>
      (preserves_evaluate_active (fun {_} (held : Held run _) => held.reacting ▸ Nat.succ_pos _)
        (unmoved_held run) node _ last held).and
          (spares_evaluate setup node (new outer) last spared)
  refine ended.map ?_
  rintro _ _ ⟨last, value, ⟨held, spared⟩, rfl⟩
  exact ⟨⟨value, by rw [← held.reactions]⟩, by simp [held.reacting], held.streams, spared⟩

end Action

/-! ### Reachable runs -/

namespace Session

variable {setup : Setup}

/-- The runs of a session: the one between calls, and those between the updates of a flush. -/
def Traverses (session : Session) (run : Run) : Prop :=
  run = session.run ∨ ∃ ids, Action.updateAll session.setup ids session.run.takenIn = .ok () run

theorem Traverses.reactions_of_empty
    {session : Session} {run : Run} (reaches : session.Traverses run)
    (empty : session.run.reactions = .empty) : run.reactions = .empty := by
  rcases reaches with rfl | ⟨ids, updated⟩
  · exact empty
  · have taken : session.run.takenIn.reactions = .empty := by
      simp [Run.takenIn, empty, Reactions.soilAll, Reactions.empty]
    cases ids with
    | nil =>
      cases updated
      exact taken
    | cons id rest =>
      have never : Ensures (Action.updateAll session.setup (id :: rest)) session.run.takenIn
          (fun _ _ => False) (fun _ _ => True) := by
        rw [Action.updateAll, ensures_bind]
        unfold Action.update
        split
        · rw [ensures_bind, ensures_get, taken]
          exact trivial
        · exact trivial
      rw [Ensures, updated] at never
      exact never.elim

theorem Traverses.ready {program : Program} {limits : Limits} {calls : List HostCall} {run : Run}
    (reaches : ((create program limits).course calls).2.Traverses run) {id : NodeId}
    (known : (run.reactions.get? id).isSome) :
    run.Calm ∧ run.Lists program run.borrowing [] ∧
      ∀ name ∈ Run.mainNames ⟨program, limits⟩, name ∈ run.borrowing := by
  have watched := (lending_course program limits calls).2
  cases live : ((create program limits).course calls).2.state.isLive with
  | false =>
    rw [reaches.reactions_of_empty (watched.rest live).1] at known
    cases known
  | true =>
    obtain ⟨watches, hasMain⟩ := watched.live live
    have calm := (orderly_course hasMain limits calls).calm
    have mains : ∀ name ∈ Run.mainNames ⟨program, limits⟩,
        name ∈ ((create program limits).course calls).2.run.borrowing := fun name isMain =>
      watches.lists.listed ▸ mem_append_left _ isMain
    rcases reaches with rfl | ⟨ids, updated⟩
    · exact ⟨calm, watches.lists.alone, mains⟩
    · rw [watched.same] at updated
      have calmTaken : ((create program limits).course calls).2.run.takenIn.Calm :=
        ⟨calm.outermost, calm.reported⟩
      have calmAfter := (Action.preserves_updateAll_of Action.preserves_calm_update ids).of_ok
        calmTaken updated
      have kept := @watches_updateAll ⟨program, limits⟩ _ mains ids []
        ((create program limits).course calls).2.run.takenIn
        ⟨watches.lists.alone.beside rfl rfl rfl, ⟨forall_mem_nil _, forall_mem_nil _⟩,
          forall_mem_nil _, List.Pairwise.nil⟩
      rw [Ensures, updated] at kept
      refine ⟨calmAfter, kept.lists.alone, ?_⟩
      rw [kept.lists.listed]
      exact fun name isMain => mem_append_left _ (mains name isMain)

/--
Updates do not interfere.  Take any run that a host can bring a session to, between calls or between the
updates of a flush, and a reaction in it.  If the update of the reaction succeeds, it has settled on a
value.  All other reactions, the order in which reactions came into being, all streams and all scopes
that there were are as they were, with the counts of nested evaluations and of reactions under evaluation
and the list of sources in progress; only the stream that tells the time may have come into being.
-/
theorem updates_do_not_interfere (program : Program) (limits : Limits) (calls : List HostCall) :
    let session := ((create program limits).course calls).2
    ∀ run, session.Traverses run → ∀ id, (run.reactions.get? id).isSome →
      Ensures (Action.update ⟨program, limits⟩ id) run (fun _ => run.Undisturbed id)
        (fun _ _ => True) := by
  intro session run reaches id known
  obtain ⟨calm, lists, mains⟩ := reaches.ready known
  have listed := (ensures_bind _ _).mp (watches_updateAll mains [id]
    ⟨lists, ⟨List.forall_mem_nil _, List.forall_mem_nil _⟩, List.forall_mem_nil _, List.Pairwise.nil⟩)
  refine (((Action.ensures_update_apart id run).and
    (Action.preserves_calm_update id run calm)).and listed).imp ?_ fun _ _ _ => trivial
  rintro _ after ⟨⟨⟨⟨value, changed⟩, reacting, streams, scopes⟩, calmAfter⟩, watches⟩
  have settles : ∀ reaction : Reaction, (reaction.settle value).node = reaction.node := fun _ => rfl
  refine ⟨?_, ?_, ?_, streams, scopes, reacting, calmAfter.outermost.trans calm.outermost.symm,
    watches.lists.listed.trans (List.append_nil _), calmAfter.reported.trans calm.reported.symm⟩
  · intro other differs
    rw [changed, Reactions.get?_change _ _ _ settles, if_neg differs]
  · intro reaction found
    refine ⟨value, ?_⟩
    rw [changed, Reactions.get?_change _ _ _ settles, if_pos rfl, found]
    rfl
  · rw [changed, Reactions.change, List.map_map]
    refine List.map_congr_left fun reaction _ => ?_
    dsimp only [Function.comp]
    split
    · rfl
    · rfl

/-- A reaction that is updated after the streams have taken values in. -/
theorem updates_do_not_interfere_for_dirty_reaction :
    let program := Program.ofExpr
      (.reaction (.bool false) (.changed (.stream "s")) (.bind "x" (.stream "Time")))
    let run := ((create program ⟨8, 1⟩).course
      [.register "s", .run, .push "s" (.bool true)]).2.run.takenIn
    ∃ after, Action.update ⟨program, ⟨8, 1⟩⟩ 5 run = .ok () after ∧ run.Undisturbed 5 after := by
  intro program run
  have known : (run.reactions.get? 5).isSome = true := by
    unfold run
    cbv
  have succeeds : Ensures (Action.update ⟨program, ⟨8, 1⟩⟩ 5) run (fun _ _ => True)
      fun _ _ => False := by
    unfold run
    cbv
  have undisturbed := updates_do_not_interfere program ⟨8, 1⟩
    [.register "s", .run, .push "s" (.bool true)] run (.inr ⟨[], rfl⟩) 5 known
  clear_value run
  have ends := undisturbed.and succeeds
  rw [Ensures] at ends
  cases result : Action.update ⟨program, ⟨8, 1⟩⟩ 5 run with
  | error defect after =>
    rw [result] at ends
    exact ends.2.elim
  | ok value after =>
    rw [result] at ends
    exact ⟨after, rfl, ends.1⟩

end Session

end Reactor

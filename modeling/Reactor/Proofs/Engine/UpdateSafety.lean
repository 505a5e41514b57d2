import Reactor.Proofs.Engine.Safety
import Reactor.Proofs.Run.InStep

/-!
# Updates are safe

The update of a reaction needs more than a sound run: the reaction has to be in the table, before its
new value is evaluated and after.  Evaluation never removes a reaction, so in a run that is in step
the updates of reactions that are in the table meet no defect.
-/

namespace Reactor

open List

namespace Run

theorem stable_known (program : Program) (id : NodeId) :
    Stable program fun run => (run.reactions.get? id).isSome := by
  intro run after change known
  cases change with
  | elsewhere streams reactions => rwa [reactions]
  | provide ensured => exact known
  | settle reaction =>
    simp only [addReaction, Reactions.get?_insert]
    split
    · rfl
    · exact known

theorem known_settle {run : Run} {id : NodeId} (known : (run.reactions.get? id).isSome)
    (changed : NodeId) (value : Val) :
    ((run.reactions.change changed (·.settle value)).get? id).isSome := by
  have placed : ∀ reaction : Reaction, (reaction.settle value).node = reaction.node :=
    fun _ => rfl
  rw [Reactions.get?_change _ _ _ placed]
  split
  · simpa using known
  · exact known

theorem InStep.node?_of_get? {program : Program} {run : Run} (inStep : run.InStep program)
    {id : NodeId} {reaction : Reaction} (found : run.reactions.get? id = some reaction) :
    ∃ initial condition next binding,
      program.node? id = some (.reaction initial condition next binding) := by
  obtain ⟨initial, condition, next, binding, present, -⟩ :=
    inStep.faithful reaction (Reactions.mem_table_of_get? found)
  rw [Reactions.node_of_get? found] at present
  exact ⟨initial, condition, next, binding, present⟩

end Run

namespace Action

variable {setup : Setup} {Good : Val → Prop}

theorem Safe.keeping {α : Type} {action : Action α} {promise : α → Prop} {P : Run → Prop}
    (safe : Safe Good action promise) (kept : Preserves P action)
    {run : Run} (sound : run.Sound Good) (holds : P run) :
    Ensures action run
      (fun value after => after.Sound Good ∧ promise value ∧ P after) (fun _ _ => False) :=
  ((safe run sound).and (kept run holds)).imp
    (fun _ _ ended => ⟨ended.1.1, ended.1.2, ended.2⟩)
    (fun _ _ impossible => impossible.1)

theorem safe_beginUpdate {reaction : Reaction} (good : Good reaction.value) :
    Safe Good (beginUpdate reaction) fun _ => True := by
  refine (safe_openChild _).bind fun env _ => safe_get.bind fun run sound => ?_
  refine (safe_defineAll env ?_).bind fun _ _ => ?_
  · intro entry mem
    simp only [updateNames, cons_append, mem_cons, mem_append, mem_map,
      mem_filterMap, Option.map_eq_some_iff] at mem
    rcases mem with rfl | ⟨name, -, rfl⟩ | ⟨name, -, value, latest, rfl⟩
    · exact good
    · exact good
    · exact sound.holds.streams.latest? latest
  · exact Safe.bind (safe_modify fun run sound => ⟨{ sound.holds with }, sound.calm⟩)
      fun _ _ => safe_pure trivial

/-- An update of a reaction that is known ends without a defect. -/
theorem ensures_update (law : Val.Law setup.program.nodes.size Good)
    {run : Run} (sound : run.Sound Good) (inStep : run.InStep setup.program)
    {id : NodeId} (known : (run.reactions.get? id).isSome) :
    Ensures (update setup id) run (fun _ after => after.Sound Good) (fun _ _ => False) := by
  obtain ⟨reaction, found⟩ := Option.isSome_iff_exists.mp known
  obtain ⟨initial, condition, next, binding, present⟩ := inStep.node?_of_get? found
  have stable := Run.stable_known setup.program id
  have inside : condition < setup.program.nodes.size ∧ next < setup.program.nodes.size :=
    ⟨Program.child_lt_size present (by simp [Node.children]),
      Program.child_lt_size present (by simp [Node.children])⟩
  have good : Good reaction.value := sound.holds.reactions.get? found
  simp only [update, present, ensures_bind, ensures_get, found]
  refine ((safe_beginUpdate good).keeping (preserves_beginUpdate stable.steady reaction) sound known).map
    ?_
  rintro env begun ⟨sound, -, known⟩
  rw [ensures_cleaningUp]
  have evaluated := (safe_nextValue law inside.1 inside.2 good env).keeping
    (preserves_nextValue stable condition next reaction.value env) sound known
  refine evaluated.map ?_
  rintro value after ⟨sound, goodValue, known⟩
  obtain ⟨still, stillFound⟩ := Option.isSome_iff_exists.mp known
  simp only [stillFound, ensures_modify]
  exact ⟨{ sound.holds with
    reactions := sound.holds.reactions.change id fun _ _ => goodValue }, sound.calm⟩

theorem preserves_update_others (id : NodeId) (others : List NodeId) :
    Preserves (fun run => run.InStep setup.program ∧
      ∀ other ∈ others, (run.reactions.get? other).isSome) (update setup id) := by
  refine preserves_update ?_ ?_ id
  · intro run after change ⟨inStep, known⟩
    exact ⟨Run.stable_inStep setup.program run after change inStep, fun other mem =>
      Run.stable_known setup.program other run after change (known other mem)⟩
  · intro run changed value ⟨inStep, known⟩
    exact ⟨inStep.settle changed value, fun other mem =>
      Run.known_settle (known other mem) changed value⟩

variable (law : Val.Law setup.program.nodes.size Good)
include law

variable {run : Run} (sound : run.Sound Good) (inStep : run.InStep setup.program)
include sound inStep

theorem ensures_update_with_others {id : NodeId} {others : List NodeId}
    (known : ∀ other ∈ id :: others, (run.reactions.get? other).isSome) :
    Ensures (update setup id) run
      (fun _ after => after.Sound Good ∧ after.InStep setup.program ∧
        ∀ other ∈ others, (after.reactions.get? other).isSome)
      (fun _ _ => False) := by
  obtain ⟨knownHere, knownOthers⟩ := forall_mem_cons.mp known
  have kept := preserves_update_others id others run ⟨inStep, knownOthers⟩
  exact ((ensures_update law sound inStep knownHere).and kept).imp
    (fun _ _ ended => ended) (fun _ _ impossible => impossible.1)

/-- An update leaves the other reactions known, so all of them can be updated. -/
theorem ensures_updateAll {ids : List NodeId} (known : ∀ id ∈ ids, (run.reactions.get? id).isSome) :
    Ensures (updateAll setup ids) run
      (fun _ after => after.Sound Good ∧ after.InStep setup.program) (fun _ _ => False) := by
  induction ids generalizing run with
  | nil => exact ⟨sound, inStep⟩
  | cons id rest ih =>
    simp only [updateAll, ensures_bind]
    refine (ensures_update_with_others law sound inStep known).map ?_
    rintro - after ⟨sound, inStep, known⟩
    exact ih sound inStep known

end Action

end Reactor

import Reactor.Proofs.Engine.Upkeep
import Reactor.Proofs.Run.Avoiding

/-!
# Evaluation avoids what cannot be reached

A run that avoids certain scopes goes on to avoid them while nodes are evaluated and reactions are
updated.  A machine avoids them if its frames run in other scopes and have received values that avoid
them; the value that comes out avoids them as well.
-/

namespace Reactor

open List

/-- A frame that cannot reach certain scopes. -/
structure Frame.Avoids (dead : ScopeId → Prop) (frame : Frame) : Prop where
  env : Env.Avoids dead frame.env
  values : ∀ value ∈ frame.values, value.Avoids dead

/-- A machine that cannot reach certain scopes. -/
structure Machine.Avoids (dead : ScopeId → Prop) (machine : Machine) : Prop where
  frames : ∀ frame ∈ machine.frames, frame.Avoids dead
  result : ∀ value, machine.result = some value → value.Avoids dead

theorem Machine.Avoids.deliver
    {dead : ScopeId → Prop} {machine : Machine} (avoided : machine.Avoids dead)
    {value : Val} (kept : value.Avoids dead) :
    (machine.deliver value).Avoids dead := by
  rcases machine with ⟨_ | ⟨top, rest⟩, depth, depth_eq, result⟩
  · exact ⟨by simp [Machine.deliver], by simpa [Machine.deliver] using kept⟩
  · obtain ⟨here, others⟩ := forall_mem_cons.mp avoided.frames
    have received : (top.receive value).Avoids dead :=
      ⟨here.env, forall_mem_append.mpr ⟨here.values, by simpa using kept⟩⟩
    exact ⟨forall_mem_cons.mpr ⟨received, others⟩, avoided.result⟩

/-! ### What evaluation asks for -/

namespace Run.Avoids

variable {dead : ScopeId → Prop} {origin : Scopes} {program : Program}

theorem conduct (old : ∀ id, dead id → id < origin.size) :
    Conduct program (fun run twin => twin = run ∧ run.Avoids dead origin) (Val.Avoids dead)
      fun _ env => Env.Avoids dead env where
  fabric _ := Val.avoids_fabric dead _
  defines := by
    rintro _ env definition alive rfl functions
    rw [Val.avoids_constructor]
    refine forall_mem_append.mpr ⟨alive, fun id mem => ?_⟩
    obtain ⟨function, listed, within⟩ := mem_flatMap.mp mem
    exact Val.avoids_closure.mp (functions function listed) id within
  access name _ avoided := avoided.access name _
  same := by
    rintro _ run ⟨rfl, -⟩
    rfl
  lookup alive related found := related.2.lookup? alive found
  define := by
    rintro _ run _ env _ name - avoidedValue ⟨rfl, avoided⟩
    exact ⟨rfl, avoided.define env name avoidedValue⟩
  identity := by
    rintro _ run ⟨rfl, avoided⟩
    exact ⟨rfl, { avoided with }⟩
  provide := by
    rintro _ run name ⟨rfl, avoided⟩
    cases ensured : run.streams.ensure? name with
    | none => exact .inl ⟨rfl, rfl⟩
    | some streams =>
      refine .inr ⟨streams, streams, rfl, rfl, rfl, rfl, { avoided with streams := ?_ }⟩
      exact Streams.Holds.ensure? (Val.avoids_fabric dead 0) avoided.streams ensured
  latest related found := related.2.streams.latest? found
  changed := by
    rintro _ run ⟨rfl, -⟩
    rfl
  node alive _ := ⟨fun _ _ => alive, fun _ _ _ _ _ => Val.avoids_closure.mpr alive⟩
  openBody := by
    rintro _ run function alive ⟨rfl, avoided⟩
    exact ⟨⟨rfl, avoided.child function.env⟩,
      forall_mem_cons.mpr ⟨avoided.new old, Val.avoids_closure.mp alive⟩⟩
  owner := Val.avoids_native.mp
  bound avoided := (Val.avoids_method.mp avoided).symm.imp_right Val.avoids_closure.mpr
  method avoided found := Val.avoids_method.mpr
    ⟨Val.avoids_of_function? (Val.avoids_record.mp avoided).1 found, avoided⟩
  construct avoided _ args := Val.avoids_record.mpr ⟨Val.avoids_constructor.mp avoided, args⟩
  fields := Val.Avoids.visibleFields
  cycle _ _ := Val.avoids_failure _ _
  openRoot := by
    rintro _ run ⟨rfl, avoided⟩
    exact ⟨⟨rfl, avoided.root⟩, fun _ _ => forall_mem_singleton.mpr (avoided.new old)⟩
  openChild := by
    rintro _ run _ env alive ⟨rfl, avoided⟩
    exact ⟨⟨rfl, avoided.child env⟩, forall_mem_cons.mpr ⟨avoided.new old, alive⟩⟩
  record := by
    rintro _ run _ node avoidedValue ⟨rfl, avoided⟩
    exact ⟨rfl, avoided.record node avoidedValue⟩
  borrowed related known := related.2.borrowed.get? known
  borrow := by
    rintro _ run _ ⟨rfl, avoided⟩
    exact ⟨rfl, { avoided with }⟩

theorem reacts :
    Reacts program (fun run twin => twin = run ∧ run.Avoids dead origin) (Val.Avoids dead)
      fun _ env => Env.Avoids dead env where
  value := by
    rintro _ run _ ⟨rfl, -⟩
    rfl
  good related found := related.2.reactions.get? found
  react := by
    rintro _ run _ ⟨rfl, avoided⟩
    exact ⟨rfl, { avoided with }⟩
  settle := by
    rintro _ run _ _ _ _ _ _ _ _ ⟨rfl, avoided⟩ - - - avoidedValue alive
    exact ⟨rfl, avoided.addReaction avoidedValue alive⟩

theorem reports :
    Reports True (fun run twin => twin = run ∧ run.Avoids dead origin) (Val.Avoids dead) where
  take := by
    rintro _ run ⟨rfl, avoided⟩
    exact ⟨⟨rfl, { avoided with }⟩, .inl trivial⟩
  keep := by
    rintro _ run _ - ⟨rfl, avoided⟩
    exact ⟨rfl, { avoided with }⟩
  lend := by
    rintro _ run _ source avoidedValue ⟨rfl, avoided⟩
    exact ⟨rfl, { avoided with
      borrowed := avoided.borrowed.define source avoidedValue
      results := avoided.results.define source avoidedValue }⟩

theorem nest {run twin : Run} (related : twin = run ∧ run.Avoids dead origin) :
    twin.nesting = run.nesting ∧ ∀ count,
      { twin with nesting := count } = { run with nesting := count } ∧
        Run.Avoids dead origin { run with nesting := count } := by
  obtain ⟨rfl, avoided⟩ := related
  exact ⟨rfl, fun _ => ⟨rfl, { avoided with }⟩⟩

end Run.Avoids

theorem Machine.Avoids.upkeep {dead : ScopeId → Prop} (program : Program) :
    Upkeep program True (Val.Avoids dead) (fun _ env => Env.Avoids dead env) (Machine.Avoids dead)
      (Machine.Avoids dead) where
  empty := ⟨by simp [empty], by simp [empty]⟩
  deliver avoided kept := avoided.deliver kept
  push avoided alive :=
    ⟨forall_mem_cons.mpr ⟨⟨alive, by simp [Frame.fresh]⟩, avoided.frames⟩, avoided.result⟩
  top avoided shape := by
    have here := avoided.frames _ (shape ▸ mem_cons_self)
    exact ⟨.inl trivial, fun _ => here.env, here.values⟩
  pop avoided shape := by
    have frames := avoided.frames
    rw [shape] at frames
    exact ⟨by simpa [Machine.pop, shape] using (forall_mem_cons.mp frames).2, avoided.result⟩
  replace avoided shape _ same keeps := by
    have frames := avoided.frames
    rw [shape] at frames
    obtain ⟨here, others⟩ := forall_mem_cons.mp frames
    exact ⟨forall_mem_cons.mpr ⟨⟨same ▸ here.env, keeps.holds⟩, others⟩, avoided.result⟩
  result avoided _ := ⟨.inl trivial, avoided.result⟩

/-! ### Machines -/

namespace Machine

variable {dead : ScopeId → Prop} {origin : Scopes} (old : ∀ id, dead id → id < origin.size)
  {evaluate : Evaluation}
  (evaluated : ∀ body env, Env.Avoids dead env →
    Upholds (Run.Avoids dead origin) (evaluate body env) (Val.Avoids dead))
  (setup : Setup) {machine : Machine} (avoided : machine.Avoids dead)
include old evaluated avoided

theorem avoids_step :
    Upholds (Run.Avoids dead origin) (machine.step setup evaluate) (Machine.Avoids dead) :=
  (tallies_step (Run.Avoids.conduct old) (Avoids.upkeep _) Run.Avoids.reacts Run.Avoids.reports
    (fun body env alive => (evaluated body env alive).tallies) avoided).upholds

end Machine

/-! ### Evaluation and updates -/

namespace Action

variable {dead : ScopeId → Prop} {origin : Scopes} (old : ∀ id, dead id → id < origin.size)
include old

theorem avoids_evaluate (setup : Setup) (node : NodeId) {env : Env} (alive : Env.Avoids dead env) :
    Upholds (Run.Avoids dead origin) (evaluate setup node env) (Val.Avoids dead) :=
  (tallies_evaluate (Run.Avoids.conduct old) (Machine.Avoids.upkeep _) Run.Avoids.reacts
    Run.Avoids.reports Run.Avoids.nest alive).upholds

/-- A pass never picks up a scope that is dead. -/
theorem avoids_pass (setup : Setup) :
    Upholds (Run.Avoids dead origin) (pass setup) (Machine.Avoids dead) := by
  have passes : Upholds (Run.Avoids dead origin) (pass setup) fun final =>
      final.Avoids dead ∧ final.frames = [] :=
    (tallies_pass (Run.Avoids.conduct old) (Machine.Avoids.upkeep _) Run.Avoids.reacts
      Run.Avoids.reports Run.Avoids.nest (.inl trivial)).upholds
  exact fun run avoided => (passes run avoided).map (fun _ _ ended => ⟨ended.1, ended.2.1⟩)

theorem avoids_nextValue (setup : Setup) (condition next : NodeId)
    {prior : Val} (avoided : prior.Avoids dead) {env : Env} (alive : Env.Avoids dead env) :
    Upholds (Run.Avoids dead origin) (nextValue setup condition next prior env) (Val.Avoids dead) :=
  (tallies_nextValue (Run.Avoids.conduct old) (Machine.Avoids.upkeep _) Run.Avoids.reacts
    Run.Avoids.reports Run.Avoids.nest alive alive avoided).upholds

theorem avoids_beginUpdate {reaction : Reaction} (avoided : reaction.value.Avoids dead)
    (alive : Env.Avoids dead reaction.env) :
    Upholds (Run.Avoids dead origin) (beginUpdate reaction) (Env.Avoids dead) := by
  have opened : Upholds (Run.Avoids dead origin) (openChild reaction.env) (Env.Avoids dead) :=
    upholds_modifyGet fun _ avoidedRun =>
      ⟨avoidedRun.child _, forall_mem_cons.mpr ⟨avoidedRun.new old, alive⟩⟩
  refine opened.bind fun env aliveInside => ?_
  refine upholds_get.bind fun run avoidedRun => ?_
  have names : ∀ entry ∈ updateNames reaction run.streams, entry.2.Avoids dead := by
    simp only [updateNames, cons_append, forall_mem_cons, forall_mem_append,
      forall_mem_map, mem_filterMap]
    refine ⟨avoided, fun _ _ => avoided, ?_⟩
    rintro entry ⟨name, -, read⟩
    obtain ⟨value, found, rfl⟩ := Option.map_eq_some_iff.mp read
    exact avoidedRun.streams.latest? found
  refine Upholds.bind (upholds_modify fun _ kept => kept.defineAll env names) fun _ _ => ?_
  exact Upholds.bind (upholds_modify fun _ kept => { kept with }) fun _ _ => upholds_pure aliveInside

theorem avoids_update (setup : Setup) (id : NodeId) :
    Upholds (Run.Avoids dead origin) (update setup id) fun _ => True := by
  unfold update
  split
  · next initial condition next binding present =>
    refine upholds_get.bind fun run avoided => ?_
    split
    · exact upholds_throw _ _
    · next reaction found =>
      have kept := avoided.reactions.get? found
      have alive := avoided.envs reaction (Reactions.mem_table_of_get? found)
      refine (avoids_beginUpdate old kept alive).bind fun env aliveInside => ?_
      have computed := avoids_nextValue old setup condition next kept aliveInside
      refine Upholds.bind (upholds_cleaningUp computed ?_) fun value keptValue => ?_
      · exact fun _ avoidedRun => { avoidedRun with }
      · refine upholds_get.bind fun _ _ => ?_
        split
        · exact upholds_throw _ _
        · exact upholds_modify fun _ avoidedRun => avoidedRun.settle id keptValue
  · exact upholds_throw _ _

theorem avoids_updateAll (setup : Setup) (ids : List NodeId) :
    Upholds (Run.Avoids dead origin) (updateAll setup ids) fun _ => True := by
  induction ids with
  | nil => exact upholds_pure trivial
  | cons id rest ih => exact (avoids_update old setup id).bind fun _ _ => ih

end Action

end Reactor

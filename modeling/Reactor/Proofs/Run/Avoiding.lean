import Reactor.Proofs.Ensures
import Reactor.Proofs.Run.Holding
import Reactor.Proofs.Scope.Reach

/-!
# Scopes that a run cannot reach any more

Fix some scopes that nothing in a run leads to.  A value avoids them if it holds on to none of them,
and a run avoids them if all its values do, and all that is bound in other scopes.  This module says
what keeps a run away from given scopes: storing values that avoid them, reading values, and opening
scopes, since a new scope is none of the old ones.  The start of a pass clears scopes; what stays of
the run avoids them.
-/

namespace Reactor

open List

/-! ### Values -/

/-- Scopes none of which is one of certain others. -/
def Env.Avoids (dead : ScopeId → Prop) (env : Env) : Prop :=
  ∀ id ∈ env, ¬ dead id

/-- A value that holds on to none of certain scopes. -/
def Val.Avoids (dead : ScopeId → Prop) (value : Val) : Prop :=
  Env.Avoids dead value.captures

namespace Val

variable {dead : ScopeId → Prop}

variable {items : List Val} {function : Closure} {receiver : Val} {definition : Definition}

theorem mem_capturesOfItems {id : ScopeId} :
    id ∈ capturesOfItems items ↔ ∃ item ∈ items, id ∈ item.captures := by
  induction items with
  | nil => simp [capturesOfItems]
  | cons item rest ih => simp [capturesOfItems, ih]

theorem mem_capturesOfEntries {id : ScopeId} {entries : List (Val × Val)} :
    id ∈ capturesOfEntries entries ↔
      ∃ entry ∈ entries, id ∈ entry.1.captures ∨ id ∈ entry.2.captures := by
  induction entries with
  | nil => simp [capturesOfEntries]
  | cons entry rest ih => simp [capturesOfEntries, ih, or_assoc]

theorem avoids_items :
    Env.Avoids dead (capturesOfItems items) ↔ ∀ item ∈ items, item.Avoids dead := by
  simp only [Env.Avoids, Val.Avoids, mem_capturesOfItems]
  constructor
  · exact fun avoided item mem id held => avoided id ⟨item, mem, held⟩
  · rintro avoided id ⟨item, mem, held⟩
    exact avoided item mem id held

@[simp]
theorem avoids_list :
    (list items).Avoids dead ↔ ∀ item ∈ items, item.Avoids dead := by
  rw [Val.Avoids, captures, avoids_items]

@[simp]
theorem avoids_set {members : List Val} :
    (set members).Avoids dead ↔ ∀ item ∈ members, item.Avoids dead := by
  rw [Val.Avoids, captures, avoids_items]

@[simp]
theorem avoids_map {entries : List (Val × Val)} :
    (map entries).Avoids dead ↔ ∀ entry ∈ entries, entry.1.Avoids dead ∧ entry.2.Avoids dead := by
  simp only [Val.Avoids, captures, Env.Avoids, mem_capturesOfEntries]
  constructor
  · exact fun avoided entry mem =>
      ⟨fun id held => avoided id ⟨entry, mem, Or.inl held⟩,
        fun id held => avoided id ⟨entry, mem, Or.inr held⟩⟩
  · rintro avoided id ⟨entry, mem, held | held⟩
    · exact (avoided entry mem).1 id held
    · exact (avoided entry mem).2 id held

theorem avoids_append {first second : Env} :
    Env.Avoids dead (first ++ second) ↔ Env.Avoids dead first ∧ Env.Avoids dead second :=
  forall_mem_append

@[simp]
theorem avoids_closure :
    (closure function).Avoids dead ↔ Env.Avoids dead function.env := by
  rw [Val.Avoids, captures]

@[simp]
theorem avoids_method :
    (method receiver function).Avoids dead ↔
      Env.Avoids dead function.env ∧ receiver.Avoids dead := by
  rw [Val.Avoids, captures, avoids_append, Val.Avoids]

@[simp]
theorem avoids_native {name : String} :
    (native receiver name).Avoids dead ↔ receiver.Avoids dead := by
  rw [Val.Avoids, captures, Val.Avoids]

@[simp]
theorem avoids_constructor :
    (constructor definition).Avoids dead ↔ Env.Avoids dead definition.captures := by
  rw [Val.Avoids, captures]

@[simp]
theorem avoids_record {fields : List Val} :
    (record definition fields).Avoids dead ↔
      Env.Avoids dead definition.captures ∧ ∀ field ∈ fields, field.Avoids dead := by
  rw [Val.Avoids, captures, avoids_append, avoids_items]

theorem avoids_failure (cause : Cause) (node : NodeId) : (failure cause node).Avoids dead := by
  simp [Val.Avoids, failure, captures, Env.Avoids]

theorem avoids_fabric (dead : ScopeId → Prop) (size : Nat) : Fabric size (Val.Avoids dead) :=
  Fabric.ofParts
    (fun _ => by simp [Val.Avoids, captures, Env.Avoids])
    (fun _ => by simp [Val.Avoids, captures, Env.Avoids])
    (fun _ => by simp [Val.Avoids, captures, Env.Avoids])
    (fun _ => by simp [Val.Avoids, captures, Env.Avoids])
    (fun cause node _ _ => avoids_failure cause node)
    (fun _ => avoids_list) (fun _ => avoids_set) (fun _ => avoids_map)

theorem avoids_of_function? {name : String} (avoided : Env.Avoids dead definition.captures)
    (found : definition.function? name = some function) :
    Env.Avoids dead function.env := by
  intro id mem
  refine avoided id (mem_append_right _ (mem_flatMap.mpr ⟨function, ?_, mem⟩))
  exact mem_of_find?_eq_some found

theorem Avoids.visibleFields (avoided : receiver.Avoids dead) :
    ∀ entry ∈ receiver.visibleFields, entry.2.Avoids dead := by
  cases receiver with
  | record definition fields =>
    intro entry mem
    exact (avoids_record.mp avoided).2 entry.2 (of_mem_zip mem).2
  | _ => simp [Val.visibleFields]

theorem Avoids.access
    {subject : Val} (avoided : subject.Avoids dead) (name : String) (node : NodeId) :
    (subject.access name node).Avoids dead := by
  have native : Val.Avoids dead
      (if Native.has subject.kind name then .native subject name
        else .failure (.unknownField subject.ownerName name) node) := by
    split
    · exact avoids_native.mpr avoided
    · exact avoids_failure _ node
  cases subject with
  | record definition fields =>
    obtain ⟨avoidedDefinition, avoidedFields⟩ := avoids_record.mp avoided
    simp only [Val.access]
    split
    · next value found =>
      obtain ⟨place, -, present⟩ := Option.bind_eq_some_iff.mp found
      exact avoidedFields value (mem_of_getElem? present)
    · next function _ found =>
      exact avoids_method.mpr ⟨avoids_of_function? avoidedDefinition found, avoided⟩
    · exact native
  | _ => exact native

end Val

/-! ### Runs -/

/--
A run in which certain scopes cannot be reached: no value of the run holds on to them, and no value
that is bound in any other scope does.  The scopes of `origin` are all there.
-/
structure Run.Avoids (dead : ScopeId → Prop) (origin : Scopes) (run : Run) : Prop where
  grown : origin.Extends run.scopes
  scopes : ∀ id, ¬ dead id → (run.scopes.bindings id).Holds (Val.Avoids dead)
  streams : run.streams.Holds (Val.Avoids dead)
  reactions : run.reactions.Holds (Val.Avoids dead)
  envs : ∀ reaction ∈ run.reactions.table, Env.Avoids dead reaction.env
  nodes : ∀ (node : NodeId) (value : Val), run.nodeValues[node]? = some value → value.Avoids dead
  borrowed : run.borrowed.Holds (Val.Avoids dead)
  results : run.sourceResults.Holds (Val.Avoids dead)

namespace Run.Avoids

variable {dead : ScopeId → Prop} {origin : Scopes} {run : Run}

section

variable (avoided : run.Avoids dead origin)
include avoided

theorem new (old : ∀ id, dead id → id < origin.size) : ¬ dead run.scopes.size :=
  fun isDead => Nat.not_lt.mpr avoided.grown.size_le (old _ isDead)

theorem root : Avoids dead origin { run with scopes := run.scopes.root.2 } :=
  { avoided with
    grown := avoided.grown.trans (Scopes.extends_push _ _)
    scopes := fun id alive => by rw [Scopes.bindings_root]; exact avoided.scopes id alive }

theorem child (env : Env) : Avoids dead origin { run with scopes := (run.scopes.child env).2 } :=
  { avoided with
    grown := avoided.grown.trans (Scopes.extends_push _ _)
    scopes := fun id alive => by rw [Scopes.bindings_child]; exact avoided.scopes id alive }

end

variable {value : Val}

section

variable (avoided : run.Avoids dead origin)
include avoided

theorem define (env : Env) (name : String) (avoidedValue : value.Avoids dead) :
    Avoids dead origin { run with scopes := run.scopes.define env name value } :=
  { avoided with
    grown := avoided.grown.trans (Scopes.extends_define _ _ _ _)
    scopes := fun id alive =>
      Scopes.holds_bindings_define (avoided.scopes id alive) env name avoidedValue }

theorem defineAll (env : Env) {entries : List (String × Val)}
    (avoidedValues : ∀ entry ∈ entries, entry.2.Avoids dead) :
    Avoids dead origin { run with scopes := run.scopes.defineAll env entries } :=
  { avoided with
    grown := avoided.grown.trans (Scopes.extends_defineAll _ _ _)
    scopes := fun id alive =>
      Scopes.holds_bindings_defineAll (avoided.scopes id alive) env avoidedValues }

theorem lookup? {env : Env} (alive : Env.Avoids dead env) {name : String}
    (found : run.scopes.lookup? env name = some value) :
    value.Avoids dead := by
  induction env with
  | nil => cases found
  | cons id outer ih =>
    obtain ⟨here, others⟩ := forall_mem_cons.mp alive
    simp only [Scopes.lookup?] at found
    split at found
    · next bound =>
      cases found
      exact (avoided.scopes id here).get? bound
    · exact ih others found

theorem record (node : NodeId) {value : Val} (avoidedValue : value.Avoids dead) :
    Avoids dead origin { run with nodeValues := run.nodeValues.insert node value } :=
  { avoided with
    nodes := by
      intro other stored found
      simp only [Std.HashMap.getElem?_insert] at found
      split at found
      · cases found
        exact avoidedValue
      · exact avoided.nodes other stored found }

theorem addReaction {reaction : Reaction} (avoidedValue : reaction.value.Avoids dead)
    (avoidedEnv : Env.Avoids dead reaction.env) :
    (run.addReaction reaction).Avoids dead origin :=
  { avoided with
    streams := avoided.streams.subscribeAll _ _
    reactions := avoided.reactions.insert avoidedValue
    envs := by
      intro other mem
      rcases Reactions.mem_of_mem_insertInto mem with rfl | old
      · exact avoidedEnv
      · exact avoided.envs other old }

theorem settle (id : NodeId) (avoidedValue : value.Avoids dead) :
    Avoids dead origin
      { run with reactions := run.reactions.change id (·.settle value) } :=
  { avoided with
    reactions := avoided.reactions.change id fun _ _ => avoidedValue
    envs := by
      intro other mem
      obtain ⟨reaction, listed, rfl⟩ := mem_map.mp mem
      split
      · exact avoided.envs reaction listed
      · exact avoided.envs reaction listed }

end

theorem of_none (none : ∀ id, ¬ dead id) (run : Run) : run.Avoids dead run.scopes where
  grown := .refl _
  scopes _ _ _ _ id _ := none id
  streams _ _ _ _ id _ := none id
  reactions _ _ id _ := none id
  envs _ _ id _ := none id
  nodes _ _ _ id _ := none id
  borrowed _ _ id _ := none id
  results _ _ id _ := none id

theorem here (avoided : run.Avoids dead origin) : run.Avoids dead run.scopes :=
  { avoided with grown := .refl _ }

/-- No dead scope is reached from one that is alive. -/
theorem of_reach
    (avoided : run.Avoids dead origin) {start : List ScopeId} (alive : Env.Avoids dead start)
    {id : ScopeId} (reached : run.scopes.Reach start id) : ¬ dead id := by
  refine reached.induct alive fun id here other held => ?_
  obtain ⟨entry, bound, captured⟩ := mem_flatMap.mp held
  exact avoided.scopes id here entry bound other captured

theorem spare (avoided : run.Avoids dead run.scopes) {spared : ScopeId → Prop}
    (closed : ∀ id, spared id → ∀ other ∈ run.scopes.held id, spared other) :
    run.Avoids (fun id => dead id ∧ ¬ spared id) run.scopes := by
  have weaker : ∀ value : Val, value.Avoids dead →
      value.Avoids fun id => dead id ∧ ¬ spared id :=
    fun value kept id held isDead => kept id held isDead.1
  refine
    { grown := avoided.grown
      scopes := fun id alive entry bound => ?_
      streams := fun stream mem value listed =>
        weaker value (avoided.streams stream mem value listed)
      reactions := fun reaction mem => weaker _ (avoided.reactions reaction mem)
      envs := fun reaction mem id held isDead => avoided.envs reaction mem id held isDead.1
      nodes := fun node value found => weaker value (avoided.nodes node value found)
      borrowed := fun entry mem => weaker _ (avoided.borrowed entry mem)
      results := fun entry mem => weaker _ (avoided.results entry mem) }
  by_cases isDead : dead id
  · have isSpared : spared id :=
      Classical.byContradiction fun notSpared => alive ⟨isDead, notSpared⟩
    intro other captured stillDead
    exact stillDead.2 (closed id isSpared other (mem_flatMap.mpr ⟨entry, bound, captured⟩))
  · exact weaker entry.2 (avoided.scopes id isDead entry bound)

theorem release (avoided : run.Avoids dead origin) :
    run.release.Avoids dead run.release.scopes where
  grown := .refl _
  scopes id alive := by
    simp only [Run.release, Scopes.bindings_retire]
    split
    · simp [Bindings.Holds]
    · exact avoided.scopes id alive
  streams := avoided.streams.unsubscribeAll
  reactions := by simp [Run.release, Reactions.Holds, Reactions.empty]
  envs := by simp [Run.release, Reactions.empty]
  nodes := by simp [Run.release]
  borrowed := by simp [Run.release, Bindings.Holds]
  results := avoided.results

end Run.Avoids

/-! ### Passes -/

namespace Run

variable {run : Run}

/-- The scopes that a run holds on to when it begins a pass. -/
def keptScopes (run : Run) : List ScopeId :=
  run.keptEnvs.flatten ++ Val.capturesOfItems run.keptValues

/-- The scopes that a run clears when it begins a pass. -/
def retired (run : Run) : List ScopeId :=
  run.scopes.lost run.keptValues run.keptEnvs

theorem mem_nodeValues_iff {value : Val} :
    value ∈ run.nodeValues.values ↔ ∃ node : NodeId, run.nodeValues[node]? = some value := by
  have listed : ∀ node : NodeId, run.nodeValues[node]? = some value ↔ (node, value) ∈ _ :=
    fun _ => Std.HashMap.mem_toList_iff_getElem?_eq_some.symm
  simp only [listed, Std.HashMap.toList, Std.DHashMap.Const.toList, Std.DHashMap.Raw.Const.toList,
    Std.DHashMap.Internal.Raw.foldRev_cons_mk, Std.HashMap.values, Std.DHashMap.values,
    Std.DHashMap.Raw.values, Std.DHashMap.Internal.Raw.foldRev_cons_value,
    Std.Internal.List.values_eq_map, append_nil, mem_map]
  constructor
  · rintro ⟨entry, mem, rfl⟩
    exact ⟨entry.1, entry, mem, rfl⟩
  · rintro ⟨node, entry, mem, same⟩
    cases same
    exact ⟨entry, mem, rfl⟩

variable {id : ScopeId}

theorem reach_of_kept {value : Val} (kept : value ∈ run.keptValues) (held : id ∈ value.captures) :
    run.scopes.Reach run.keptScopes id :=
  .here (mem_append_right _ (Val.mem_capturesOfItems.mpr ⟨value, kept, held⟩))

/-- The scopes of the store that nothing kept leads to. -/
def Forgotten (run : Run) (id : ScopeId) : Prop :=
  id < run.scopes.size ∧ ¬ run.scopes.Reach run.keptScopes id

theorem forgotten_of_mem_retired (isRetired : id ∈ run.retired) :
    run.Forgotten id := by
  obtain ⟨scope, present, -⟩ := Scopes.owner_of_mem_lost isRetired
  exact ⟨(Array.getElem?_eq_some_iff.mp present).1,
    fun reached => Scopes.not_mem_lost reached isRetired⟩

theorem Avoids.forgotten
    {dead : ScopeId → Prop} {origin : Scopes} (avoided : run.Avoids dead origin)
    (old : ∀ id, dead id → id < run.scopes.size) (isDead : dead id) :
    run.Forgotten id := by
  refine ⟨old id isDead, fun reached => avoided.of_reach ?_ reached isDead⟩
  refine forall_mem_append.mpr ⟨fun id mem => ?_, fun id mem => ?_⟩
  · obtain ⟨env, listed, within⟩ := mem_flatten.mp mem
    obtain ⟨reaction, present, rfl⟩ := mem_map.mp listed
    exact avoided.envs reaction present id within
  · obtain ⟨value, kept, held⟩ := Val.mem_capturesOfItems.mp mem
    simp only [keptValues, mem_append, mem_map] at kept
    rcases kept with ((⟨reaction, present, rfl⟩ | inStreams) | inNodes) | ⟨entry, present, rfl⟩
    · exact avoided.reactions reaction present id held
    · obtain ⟨stream, present, listed⟩ := mem_flatMap.mp inStreams
      exact avoided.streams stream present value listed id held
    · obtain ⟨node, found⟩ := mem_nodeValues_iff.mp inNodes
      exact avoided.nodes node value found id held
    · exact avoided.results entry present id held

theorem avoids_beginPass (setup : Setup) (run : Run) :
    (run.beginPass setup).Avoids run.Forgotten (run.beginPass setup).scopes := by
  have alive : ∀ value ∈ run.keptValues, value.Avoids run.Forgotten :=
    fun value kept id held isForgotten => isForgotten.2 (reach_of_kept kept held)
  refine
    { grown := .refl _
      scopes := fun id notForgotten entry bound => ?_
      streams := fun stream mem value listed => alive value ?_
      reactions := fun reaction mem => alive _ ?_
      envs := fun reaction mem id held isForgotten => isForgotten.2 (.here ?_)
      nodes := fun node value found => alive value ?_
      borrowed := by simp [beginPass, Bindings.Holds]
      results := fun entry mem => alive _ ?_ }
  · simp only [beginPass, Scopes.bindings_retire] at bound
    split at bound
    · cases bound
    · have inside : id < run.scopes.size := by
        refine Nat.lt_of_not_le fun outside => ?_
        have absent : run.scopes.cells[id]? = none := Array.getElem?_eq_none outside
        simp [Scopes.bindings, absent] at bound
      have reached : run.scopes.Reach run.keptScopes id :=
        Classical.byContradiction fun unreached => notForgotten ⟨inside, unreached⟩
      intro other held isForgotten
      exact isForgotten.2 (reached.beyond (mem_flatMap.mpr ⟨entry, bound, held⟩))
  · simp only [keptValues, mem_append]
    exact Or.inl (Or.inl (Or.inr (mem_flatMap.mpr ⟨stream, mem, listed⟩)))
  · simp only [keptValues, mem_append]
    exact Or.inl (Or.inl (Or.inl (mem_map_of_mem mem)))
  · exact mem_append_left _ (mem_flatten.mpr ⟨reaction.env, mem_map_of_mem mem, held⟩)
  · simp only [keptValues, mem_append]
    exact Or.inl (Or.inr (mem_nodeValues_iff.mpr ⟨node, found⟩))
  · simp only [keptValues, mem_append]
    exact Or.inr (mem_map_of_mem mem)

end Run

end Reactor

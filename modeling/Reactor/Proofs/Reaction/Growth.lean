import Reactor.Proofs.Engine.Refinement
import Reactor.Proofs.Run.Likeness

/-!
# The table of reactions under evaluation

No reaction comes into being while another is evaluated, so the evaluation of a reaction leaves the
table as it is.  This decides two things.  A reaction that is reached for the first time is still
missing when it settles, so evaluation only ever adds reactions to the table: `Reactions.Grown`.  And
the update of a reaction changes this one reaction and no other, so updating some reactions gives each
of them a new value once.

Both follow by recursion over the nodes of the program, in the form of `Action.valueAt`.
-/

namespace Reactor

/-- A property of runs that nothing can break but reactions that come into being. -/
structure Run.Unmoved (P : Run → Prop) : Prop where
  /-- It concerns streams, reactions and the number of reactions under evaluation only. -/
  beside : ∀ {run after : Run}, P run →
    after.streams = run.streams → after.reactions = run.reactions →
      after.reacting = run.reacting → P after
  provide : ∀ {run : Run} {name : String} {streams : Streams}, P run →
    run.streams.ensure? name = some streams → P { run with streams }

theorem Run.Unmoved.likeness {P : Run → Prop} (unmoved : Run.Unmoved P) :
    Run.Likeness fun run twin => twin = run ∧ P run where
  same := by
    rintro run twin ⟨rfl, -⟩
    rfl
  beside := by
    rintro run twin after ⟨rfl, holds⟩ streams reactions reacting -
    refine ⟨?_, unmoved.beside holds streams reactions reacting⟩
    rw [← streams, ← reactions]
  provide := by
    rintro run twin name ⟨rfl, holds⟩
    cases ensured : twin.streams.ensure? name with
    | none => exact Or.inl ⟨rfl, rfl⟩
    | some streams =>
      exact Or.inr ⟨streams, streams, rfl, rfl, rfl, rfl, unmoved.provide holds ensured⟩
  changed := by
    rintro run twin ⟨rfl, -⟩
    rfl

namespace Action

variable {setup : Setup} {P : Run → Prop} {callback inside : Evaluation}

theorem preserves_operandValues {inside : NodeId → Action Val}
    (valued : ∀ child, Preserves P (inside child))
    (inspects : Bool) (found : List Val) (children : List NodeId) :
    Preserves P (operandValues inside inspects found children) := by
  induction children generalizing found with
  | nil => exact preserves_pure _
  | cons child rest ih =>
    refine (valued child).bind fun value => ?_
    split
    · exact preserves_pure _
    · exact ih _

theorem preserves_combinedValue (unmoved : Run.Unmoved P)
    (called : ∀ node env, Preserves P (callback node env))
    (valued : ∀ node env, Preserves P (inside node env)) (id : NodeId) (node : Node) (env : Env) :
    Preserves P (combinedValue setup callback inside id node env) := by
  have combined : ∀ values, Preserves P (combine setup callback id node values env) :=
    fun values => (mirrors_combine unmoved.likeness
      (fun body scope => (called body scope).mirrors) id node values env).preserves
  refine (preserves_operandValues (valued · env) _ _ _).bind fun operands => ?_
  split
  · exact preserves_pure _
  · refine (combined _).bind fun outcome => ?_
    split
    · exact preserves_pure _
    · exact valued _ _

theorem preserves_borrowedValue (unmoved : Run.Unmoved P)
    (valued : ∀ node env, Preserves P (inside node env))
    (id : NodeId) (env : Env) (source name : String) :
    Preserves P (borrowedValue setup inside id env source name) := by
  have defined : ∀ value, Preserves P (define env name value) :=
    fun value => preserves_modify fun run holds => unmoved.beside holds rfl rfl rfl
  unfold borrowedValue
  split
  · exact preserves_pure _
  · intro run holds
    rw [ensures_bind, ensures_get]
    split
    · exact (defined _).bind (fun _ => preserves_pure _) run holds
    · split
      · exact holds
      · rw [ensures_bind, ensures_set]
        refine Preserves.bind (mirrors_openRoot unmoved.likeness).preserves (fun scope => ?_) _
          (unmoved.beside holds rfl rfl rfl)
        refine (valued _ scope).bind fun value => ?_
        refine Preserves.bind
          (preserves_modify fun run holds => unmoved.beside holds rfl rfl rfl) fun _ => ?_
        refine Preserves.bind
          (preserves_modify fun run holds => unmoved.beside holds rfl rfl rfl) fun _ => ?_
        exact (defined value).bind fun _ => preserves_pure _

/-- A guard that may object to what an action did, but does nothing to the run by itself. -/
def Harmless (guard : Action Val → Action Val) : Prop :=
  ∀ (P : Run → Prop) (action : Action Val), Preserves P action → Preserves P (guard action)

theorem harmless_id : Harmless id :=
  fun _ _ preserved => preserved

variable {guard : Action Val → Action Val}

/--
What outlives all that is not a reaction outlives the evaluation of a node, if reactions on the way do
not break it.  Nodes lie deeper than what they are evaluated for, up to the limit of frames.
-/
theorem preserves_guardedAt (harmless : Harmless guard) (unmoved : Run.Unmoved P)
    (called : ∀ node env, Preserves P (callback node env))
    (reached : ∀ depth id env initial condition binding,
      (∀ node env, Preserves P (guardedAt setup guard callback depth node env)) →
        Preserves P (reactionValue setup (guardedAt setup guard callback depth)
          id env initial condition binding))
    (depth : Nat) (id : NodeId) (env : Env) :
    Preserves P (guardedAt setup guard callback depth id env) := by
  rw [guardedAt]
  split
  · have deeper : ∀ node env, Preserves P (guardedAt setup guard callback (depth + 1) node env) :=
      preserves_guardedAt harmless unmoved called reached (depth + 1)
    refine Preserves.bind (Frame.mirrors_openScope unmoved.likeness id env).preserves
      fun scope => ?_
    refine Preserves.bind ?_ fun value => ?_
    · unfold guardedNode nodeValue
      cases present : setup.program.node? id with
      | none => exact preserves_throw _
      | some node =>
        cases node with
        | reaction initial condition next binding =>
          exact harmless P _ (reached (depth + 1) id scope _ _ _ deeper)
        | borrow source name => exact preserves_borrowedValue unmoved deeper id scope _ _
        | _ => exact preserves_combinedValue unmoved called deeper id _ scope
    · exact Preserves.bind (mirrors_record unmoved.likeness id value).preserves
        fun _ => preserves_pure _
  · exact preserves_pure _
termination_by setup.limits.frames - depth

theorem preserves_guardedWithin (harmless : Harmless guard) (unmoved : Run.Unmoved P)
    (reached : ∀ levels depth id env initial condition binding, (∀ node env,
        Preserves P (guardedAt setup guard (guardedWithin setup guard levels) depth node env)) →
        Preserves P (reactionValue setup
          (guardedAt setup guard (guardedWithin setup guard levels) depth)
          id env initial condition binding))
    (levels : Nat) (id : NodeId) (env : Env) :
    Preserves P (guardedWithin setup guard levels id env) := by
  induction levels generalizing id env with
  | zero => exact preserves_pure _
  | succ levels ih =>
    refine Preserves.bind
      (preserves_modify fun run holds => unmoved.beside holds rfl rfl rfl) fun _ => ?_
    exact preserves_cleaningUp
      (preserves_guardedAt harmless unmoved ih (reached levels) 0 id env)
      fun run holds => unmoved.beside holds rfl rfl rfl

end Action

/-! ### While a reaction is evaluated -/

/-- The run has a given table and evaluates a given number of reactions. -/
def Run.Frozen (reactions : Reactions) (count : Nat) (run : Run) : Prop :=
  run.reactions = reactions ∧ run.reacting = count

theorem Run.unmoved_frozen (reactions : Reactions) (count : Nat) :
    Run.Unmoved (Run.Frozen reactions count) where
  beside holds _ reactions reacting := ⟨reactions.trans holds.1, reacting.trans holds.2⟩
  provide holds _ := holds

theorem Run.Frozen.active
    {reactions : Reactions} {count : Nat} {run : Run} (frozen : run.Frozen reactions count)
    (active : 0 < count) : 0 < run.reacting :=
  frozen.2 ▸ active

namespace Action

variable {setup : Setup} {guard : Action Val → Action Val}
variable {callback inside : Evaluation}
variable {reactions : Reactions} {count : Nat}

section Active

variable {P : Run → Prop} (active : ∀ {run}, P run → 0 < run.reacting)
include active

theorem preserves_reactionValue_active
    (id : NodeId) (env : Env) (initial condition : NodeId) (binding : Option String) :
    Preserves P (reactionValue setup inside id env initial condition binding) := by
  intro run holds
  unfold reactionValue
  rw [ensures_bind, ensures_get, if_pos (active holds)]
  exact holds

variable (harmless : Harmless guard) (unmoved : Run.Unmoved P)
include harmless unmoved

theorem preserves_guardedWithin_active (levels : Nat) (id : NodeId) (env : Env) :
    Preserves P (guardedWithin setup guard levels id env) :=
  preserves_guardedWithin harmless unmoved
    (fun _ _ id env initial condition binding _ =>
      preserves_reactionValue_active active id env initial condition binding)
    levels id env

theorem preserves_guarded_active (id : NodeId) (env : Env) :
    Preserves P (guarded setup guard id env) :=
  preserves_get.bind fun _ => preserves_guardedWithin_active active harmless unmoved _ id env

end Active

/-- While a reaction is evaluated, nothing breaks what only reactions that come into being can
break. -/
theorem preserves_evaluate_active
    {P : Run → Prop} (active : ∀ {run}, P run → 0 < run.reacting) (unmoved : Run.Unmoved P)
    (id : NodeId) (env : Env) : Preserves P (evaluate setup id env) := by
  rw [evaluate_eq_value, ← guarded_id]
  exact preserves_guarded_active active harmless_id unmoved id env

section

variable (harmless : Harmless guard) (active : 0 < count)
include harmless active

theorem preserves_guardedAt_frozen
    (called : ∀ node env, Preserves (Run.Frozen reactions count) (callback node env)) (depth : Nat)
    (id : NodeId) (env : Env) :
    Preserves (Run.Frozen reactions count) (guardedAt setup guard callback depth id env) :=
  preserves_guardedAt harmless (Run.unmoved_frozen reactions count) called
    (fun _ id env initial condition binding _ =>
      preserves_reactionValue_active (·.active active) id env initial condition binding)
    depth id env

theorem preserves_guardedWithin_frozen (levels : Nat) (id : NodeId) (env : Env) :
    Preserves (Run.Frozen reactions count) (guardedWithin setup guard levels id env) :=
  preserves_guardedWithin_active (·.active active) harmless (Run.unmoved_frozen reactions count)
    levels id env

theorem preserves_guarded_frozen (id : NodeId) (env : Env) :
    Preserves (Run.Frozen reactions count) (guarded setup guard id env) :=
  preserves_guarded_active (·.active active) harmless (Run.unmoved_frozen reactions count) id env

end

theorem preserves_evaluate_frozen (active : 0 < count) (id : NodeId) (env : Env) :
    Preserves (Run.Frozen reactions count) (evaluate setup id env) :=
  preserves_evaluate_active (·.active active) (Run.unmoved_frozen reactions count) id env

end Action

/-! ### Reactions that come into being -/

/-- A table that grew out of another: what was there is as it was, and what is new is settled and was
never updated. -/
structure Reactions.Grown (reactions after : Reactions) : Prop where
  kept : ∀ {node : NodeId} {reaction : Reaction},
    reactions.get? node = some reaction → after.get? node = some reaction
  fresh : ∀ {node : NodeId} {reaction : Reaction},
    reactions.get? node = none → after.get? node = some reaction →
      reaction.state = .settled ∧ reaction.updates = 0

theorem Reactions.Grown.refl (reactions : Reactions) : Reactions.Grown reactions reactions where
  kept found := found
  fresh absent found := by
    rw [absent] at found
    cases found

theorem Reactions.Grown.insert {reactions after : Reactions} {reaction : Reaction}
    (grown : Reactions.Grown reactions after) (new : after.get? reaction.node = none)
    (settled : reaction.state = .settled) (unused : reaction.updates = 0) :
    Reactions.Grown reactions (after.insert reaction) where
  kept {node old} found := by
    have there := grown.kept found
    have differs : node ≠ reaction.node := by
      rintro rfl
      rw [new] at there
      cases there
    rw [Reactions.get?_insert, if_neg differs]
    exact there
  fresh {node entry} absent found := by
    rw [Reactions.get?_insert] at found
    split at found
    · cases found
      exact ⟨settled, unused⟩
    · exact grown.fresh absent found

theorem Run.unmoved_grown (reactions : Reactions) :
    Run.Unmoved fun run => reactions.Grown run.reactions where
  beside grown _ same _ := by rwa [same]
  provide grown _ := grown

namespace Frame

theorem preserves_missingStream?_reactions (reactions : Reactions) (names : List String) :
    Preserves (fun run : Run => run.reactions = reactions) (missingStream? names) := by
  have unmoved : Run.Unmoved fun run : Run => run.reactions = reactions :=
    ⟨fun holds _ same _ => same.trans holds, fun holds _ => holds⟩
  exact (mirrors_missingStream? unmoved.likeness names).preserves

theorem ensures_settle_grown {reactions : Reactions} {run : Run} {id : NodeId}
    (grown : reactions.Grown run.reactions) (new : run.reactions.get? id = none)
    (value : Val) (names : List String) (env : Env) (binding : Option String) :
    Ensures (settle id value names env binding) run
      (fun _ after => reactions.Grown after.reactions)
      (fun _ after => reactions.Grown after.reactions) := by
  have same : ∀ after : Run, after.reactions = run.reactions →
      reactions.Grown after.reactions :=
    fun after equal => by rwa [equal]
  unfold settle
  split
  · exact grown
  · rw [ensures_bind]
    refine (preserves_missingStream?_reactions run.reactions names run rfl).imp ?_
      (fun _ after equal => same after equal)
    intro missing after equal
    split
    · exact same after equal
    · exact (same after equal).insert (by rw [equal]; exact new) rfl rfl

end Frame

namespace Action

variable {setup : Setup} {guard : Action Val → Action Val}
variable {callback inside : Evaluation} {reactions : Reactions}

/-- A reaction that is missing when it is reached is missing when it settles: what is evaluated in
between is evaluated for a reaction. -/
theorem preserves_reactionValue_grown (frozen : ∀ (table : Reactions) (count : Nat), 0 < count →
      ∀ node env, Preserves (Run.Frozen table count) (inside node env))
    (id : NodeId) (env : Env) (initial condition : NodeId) (binding : Option String) :
    Preserves (fun run : Run => reactions.Grown run.reactions)
      (reactionValue setup inside id env initial condition binding) := by
  intro run grown
  have valued := frozen run.reactions (run.reacting + 1) (Nat.succ_pos _)
  have same : ∀ after : Run, Run.Frozen run.reactions (run.reacting + 1) after →
      reactions.Grown after.reactions :=
    fun after still => by rw [still.1]; exact grown
  unfold reactionValue
  rw [ensures_bind, ensures_get]
  split
  · exact grown
  · split
    · exact grown
    · next new =>
      rw [ensures_bind, ensures_set, ensures_bind]
      refine (valued initial env { run with reacting := run.reacting + 1 } ⟨rfl, rfl⟩).imp ?_
        (fun _ => same)
      intro value first firstFrozen
      rw [ensures_bind]
      refine (valued condition env first firstFrozen).imp ?_ (fun _ => same)
      intro _ second secondFrozen
      rw [ensures_bind, ensures_modify]
      exact @Frame.ensures_settle_grown reactions { second with reacting := second.reacting - 1 }
        id (same second secondFrozen) (by rw [secondFrozen.1]; exact new) value _ env binding

theorem preserves_guardedWithin_grown
    (harmless : Harmless guard) (levels : Nat) (id : NodeId) (env : Env) :
    Preserves (fun run : Run => reactions.Grown run.reactions)
      (guardedWithin setup guard levels id env) :=
  preserves_guardedWithin harmless (Run.unmoved_grown reactions)
    (fun levels depth id env initial condition binding _ =>
      preserves_reactionValue_grown
        (fun _ _ active => preserves_guardedAt_frozen harmless active
          (preserves_guardedWithin_frozen harmless active levels) depth)
        id env initial condition binding)
    levels id env

theorem preserves_guarded_grown (harmless : Harmless guard) (id : NodeId) (env : Env) :
    Preserves (fun run : Run => reactions.Grown run.reactions) (guarded setup guard id env) :=
  preserves_get.bind fun _ => preserves_guardedWithin_grown harmless _ id env

theorem preserves_guardedMain_grown (harmless : Harmless guard) :
    Preserves (fun run : Run => reactions.Grown run.reactions) (guardedMain setup guard) := by
  have unmoved := Run.unmoved_grown reactions
  unfold guardedMain
  cases setup.program.main? with
  | none => exact preserves_throw _
  | some main =>
    refine Preserves.bind (mirrors_openRoot unmoved.likeness).preserves fun env => ?_
    refine preserves_guardedAt harmless unmoved (preserves_guarded_grown harmless) ?_ 0 main.root env
    intro depth id env initial condition binding _
    exact preserves_reactionValue_grown
      (fun _ _ active => preserves_guardedAt_frozen harmless active
        (preserves_guarded_frozen harmless active) depth)
      id env initial condition binding

theorem preserves_pass_grown :
    Preserves (fun run : Run => reactions.Grown run.reactions) (pass setup) := by
  rw [pass_eq]
  exact (preserves_guardedMain_grown harmless_id).bind fun _ => preserves_pure _

/-! ### Updates -/

/-- The run in which a reaction is updated. -/
def updating (run : Run) (reaction : Reaction) : Run :=
  { run with
    scopes := (run.scopes.child reaction.env).2.defineAll (run.scopes.child reaction.env).1
      (updateNames reaction run.streams)
    reacting := run.reacting + 1 }

theorem ensures_update_of {P : Run → Prop} {id : NodeId} {run : Run}
    (begun : ∀ reaction, run.reactions.get? id = some reaction → P (updating run reaction))
    (evaluated : ∀ outer node, Preserves P (evaluate setup node (run.scopes.child outer).1)) :
    Ensures (update setup id) run
      (fun _ after => ∃ last value, P last ∧
        after = { last with
          reacting := last.reacting - 1
          reactions := last.reactions.change id (·.settle value) })
      (fun _ _ => True) := by
  unfold update
  split
  · next initial condition next binding present =>
    rw [ensures_bind, ensures_get]
    split
    · exact trivial
    · next reaction found =>
      simp only [beginUpdate, openChild, defineAll, ensures_bind, ensures_modifyGet, ensures_get,
        ensures_modify, ensures_pure, ensures_cleaningUp]
      refine (preserves_nextValue_of (evaluated reaction.env) condition next reaction.value _
        (begun reaction found)).imp ?_ fun _ _ _ => trivial
      intro value last holds
      split
      · exact trivial
      · exact ⟨last, value, holds, rfl⟩
  · exact trivial

theorem ensures_update_reactions (id : NodeId) (run : Run) :
    Ensures (update setup id) run
      (fun _ after => ∃ value, after.reactions = run.reactions.change id (·.settle value))
      (fun _ _ => True) := by
  refine (@ensures_update_of setup (Run.Frozen run.reactions (run.reacting + 1)) id run
    (fun _ _ => ⟨rfl, rfl⟩)
    fun _ node => preserves_evaluate_frozen (Nat.succ_pos _) node _).map ?_
  rintro _ _ ⟨last, value, frozen, rfl⟩
  exact ⟨value, by rw [← frozen.1]⟩

theorem ensures_updateAll_reactions (ids : List NodeId) (once : ids.Nodup) (run : Run) :
    Ensures (updateAll setup ids) run
      (fun _ after => ∃ values : NodeId → Val, ∀ node,
        after.reactions.get? node =
          if node ∈ ids then (run.reactions.get? node).map (·.settle (values node))
          else run.reactions.get? node)
      (fun _ _ => True) := by
  induction ids generalizing run with
  | nil => exact ⟨fun _ => default, fun _ => by simp⟩
  | cons id rest ih =>
    obtain ⟨absent, onceInRest⟩ := List.nodup_cons.mp once
    simp only [updateAll]
    rw [ensures_bind]
    refine (ensures_update_reactions id run).map ?_
    rintro _ between ⟨value, changed⟩
    refine (ih onceInRest between).map ?_
    rintro _ after ⟨values, updated⟩
    refine ⟨fun node => if node = id then value else values node, fun node => ?_⟩
    have step := Reactions.get?_change run.reactions id node
      (show ∀ reaction : Reaction, (reaction.settle value).node = reaction.node from fun _ => rfl)
    rw [updated node, changed, step]
    by_cases here : node = id
    · subst here
      simp [absent]
    · simp [here]

end Action

end Reactor

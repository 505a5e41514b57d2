import Reactor.Proofs.Engine.PassTracking

/-!
# Reactions that are discreet

A literal, a name, a stream and the question whether a stream has changed only look at the run.  Where
the initial values and the conditions of all reactions are of this kind, no reaction leaves anything
behind but itself when it comes into being: `Run.passesDiscreetly_of_leaves`.
-/

namespace Reactor

/-- No reaction that comes into being in a pass leaves anything else behind. -/
def Run.PassesDiscreetly (setup : Setup) (begun : Run) : Prop :=
  Action.guardedMain setup Action.discreetly begun = Action.guardedMain setup id begun

/-- A node that only looks at the run. -/
def Node.isLeaf : Node → Bool
  | bool _ | num .. | text _ | name _ | stream _ | changed _ => true
  | _ => false

/-- The initial values and the conditions of all reactions only look at the run. -/
def Program.ReactsToLeaves (program : Program) : Prop :=
  ∀ id initial condition next binding,
    program.node? id = some (.reaction initial condition next binding) →
      (∃ node, program.node? initial = some node ∧ node.isLeaf) ∧
        ∃ node, program.node? condition = some node ∧ node.isLeaf

namespace Action

variable {setup : Setup}

/-- The value of a node that only looks at the run. -/
def leafValue? (setup : Setup) (id : NodeId) (env : Env) : Node → Option (Action Val)
  | .bool truth => some (return .bool truth)
  | .num value units => some (return .num ⟨value, Units.ofOption units⟩)
  | .text characters => some (return .text characters)
  | .name word => some (resolve word id env)
  | .stream word => some (readStream word id)
  | .changed stream => some (streamChanged setup stream id)
  | _ => none

theorem nodeValue_of_leaf {id : NodeId} {node : Node} (present : setup.program.node? id = some node)
    {env : Env} {action : Action Val} (leaf : leafValue? setup id env node = some action)
    (callback inside : Evaluation) :
    nodeValue setup callback inside id env = action := by
  cases node with
  | bool _ | num _ _ | text _ | name _ | stream _ | changed _ =>
    cases leaf
    simp [nodeValue, present, combinedValue, operandValues, Node.operands, combine]
  | _ => cases leaf

/-- Scopes and what is known of sources stay as they are. -/
def Unaltered (run after : Run) : Prop :=
  after.scopes = run.scopes ∧ after.borrowed = run.borrowed

theorem Unaltered.discreet {run after : Run} (unaltered : Unaltered run after) :
    run.Discreet after :=
  ⟨fun _ _ => by rw [unaltered.1], unaltered.2⟩

theorem unaltered_ensureStream (run : Run) (name : String) :
    Preserves (Unaltered run) (ensureStream name) := by
  intro middle unaltered
  rw [Ensures, ensureStream_eq]
  cases middle.streams.reading name with
  | none => exact unaltered
  | some latest => exact unaltered

theorem unaltered_leaf (run : Run) {id : NodeId} {env : Env} {node : Node} {action : Action Val}
    (leaf : leafValue? setup id env node = some action) : Preserves (Unaltered run) action := by
  cases node with
  | bool _ | num _ _ | text _ =>
    cases leaf
    exact preserves_pure _
  | name word =>
    cases leaf
    refine (preserves_get.bind fun _ => preserves_pure _).bind fun found => ?_
    split
    · exact preserves_pure _
    · split
      · exact preserves_pure _
      · exact preserves_pure _
  | stream word =>
    cases leaf
    refine (unaltered_ensureStream run word).bind fun there => ?_
    split
    · refine preserves_get.bind fun _ => ?_
      split
      · exact preserves_pure _
      · exact preserves_pure _
    · exact preserves_pure _
  | changed stream =>
    cases leaf
    unfold streamChanged
    split
    · next name _ =>
      refine (unaltered_ensureStream run name).bind fun there => ?_
      split
      · exact preserves_get.bind fun _ => preserves_pure _
      · exact preserves_pure _
    · exact preserves_pure _
  | _ => cases leaf

theorem exists_leafValue? {node : Node} (leaf : node.isLeaf) (id : NodeId) (env : Env) :
    ∃ action, leafValue? setup id env node = some action := by
  cases node with
  | bool _ | num _ _ | text _ | name _ | stream _ | changed _ => exact ⟨_, rfl⟩
  | _ => cases leaf

section

variable {id : NodeId} {node : Node} (present : setup.program.node? id = some node)
  (leaf : node.isLeaf) (guard : Action Val → Action Val)
include present leaf guard

theorem guardedNode_of_leaf (callback inside : Evaluation) (env : Env) :
    guardedNode setup guard callback inside id env = nodeValue setup callback inside id env := by
  unfold guardedNode
  split
  · next same =>
    rw [present] at same
    cases same
    cases leaf
  · rfl

theorem unaltered_guardedAt (callback : Evaluation) (depth : Nat) (env : Env) (run : Run) :
    Preserves (Unaltered run) (guardedAt setup guard callback depth id env) := by
  rw [guardedAt]
  split
  · refine Preserves.bind ?_ fun scope => ?_
    · unfold Frame.openScope
      split
      · next same =>
        rw [present] at same
        cases same
        cases leaf
      · exact preserves_pure _
    · obtain ⟨action, isAction⟩ := @exists_leafValue? setup node leaf id scope
      rw [guardedNode_of_leaf present leaf, nodeValue_of_leaf present isAction]
      exact (unaltered_leaf run isAction).bind fun _ =>
        Preserves.bind (preserves_modify fun _ unaltered => unaltered) fun _ => preserves_pure _
  · exact preserves_pure _

end

theorem unaltered_missingStream? (run : Run) (names : List String) :
    Preserves (Unaltered run) (Frame.missingStream? names) := by
  induction names with
  | nil => exact preserves_pure _
  | cons name rest ih =>
    refine (unaltered_ensureStream run name).bind fun there => ?_
    split
    · exact ih
    · exact preserves_pure _

theorem unaltered_settle (run : Run) (id : NodeId) (value : Val) (names : List String) (env : Env)
    (binding : Option String) :
    Preserves (Unaltered run) (Frame.settle id value names env binding) := by
  unfold Frame.settle
  split
  · exact preserves_pure _
  · refine (unaltered_missingStream? run names).bind fun missing => ?_
    split
    · exact preserves_pure _
    · exact Preserves.bind (preserves_modify fun _ unaltered => unaltered) fun _ => preserves_pure _

theorem unaltered_reactionValue
    {inside : Evaluation} (run : Run) {initial condition : NodeId} {env : Env}
    (first : Preserves (Unaltered run) (inside initial env))
    (second : Preserves (Unaltered run) (inside condition env))
    (id : NodeId) (binding : Option String) :
    Preserves (Unaltered run) (reactionValue setup inside id env initial condition binding) := by
  intro middle unaltered
  by_cases reacting : 0 < middle.reacting
  · rw [Ensures, reactionValue_of_reacting reacting]
    exact unaltered
  cases found : middle.reactions.get? id with
  | some reaction =>
    rw [Ensures, reactionValue_of_found reacting found]
    exact unaltered
  | none =>
    rw [ensures_congr (reactionValue_of_new reacting found env initial condition binding)]
    have evaluated : Preserves (Unaltered run) (initialValue inside env initial condition) :=
      first.bind fun _ => second.bind fun _ => preserves_pure _
    have established : ∀ value, Preserves (Unaltered run)
        (establish id (setup.program.denotedStreams condition) env binding value) := fun value =>
      Preserves.bind (preserves_modify fun _ kept => kept) fun _ =>
        unaltered_settle run id value _ env binding
    exact (evaluated.bind established) { middle with reacting := middle.reacting + 1 } unaltered

theorem discreetly_eq {action : Action Val} {run : Run} (kept : Preserves (Unaltered run) action) :
    discreetly action run = action run := by
  have unaltered := kept run ⟨rfl, rfl⟩
  simp only [Ensures, discreetly] at unaltered ⊢
  split
  · next value after ended =>
    rw [ended] at unaltered
    rw [if_pos (Or.inr unaltered.discreet), ended]
  · next ended => rw [ended]

section Passes

variable (leaves : setup.program.ReactsToLeaves)

include leaves in
theorem guardedNode_discreetly {callback : Evaluation} {depth : Nat} (node : NodeId) (env : Env) :
    guardedNode setup discreetly callback (guardedAt setup id callback depth) node env =
      guardedNode setup id callback (guardedAt setup id callback depth) node env := by
  unfold guardedNode
  split
  · next initial condition next binding present =>
    obtain ⟨⟨first, isFirst, firstLeaf⟩, second, isSecond, secondLeaf⟩ :=
      leaves node initial condition next binding present
    have same : nodeValue setup callback (guardedAt setup id callback depth) node env =
        reactionValue setup (guardedAt setup id callback depth) node env initial condition
          binding := by
      simp only [nodeValue, present]
    funext run
    rw [same]
    exact discreetly_eq (unaltered_reactionValue run
      (unaltered_guardedAt isFirst firstLeaf id callback depth env run)
      (unaltered_guardedAt isSecond secondLeaf id callback depth env run) node binding)
  · rfl

include leaves in
theorem guardedAt_discreetly (callback : Evaluation) (depth : Nat) :
    guardedAt setup discreetly callback depth = guardedAt setup id callback depth := by
  funext node env
  rw [guardedAt, guardedAt]
  split
  · refine bind_congr fun scope => ?_
    rw [guardedAt_discreetly callback (depth + 1), guardedNode_discreetly leaves]
  · rfl
termination_by setup.limits.frames - depth

include leaves in
theorem guardedWithin_discreetly (levels : Nat) :
    guardedWithin setup discreetly levels = guardedWithin setup id levels := by
  induction levels with
  | zero => rfl
  | succ levels ih =>
    funext node env
    rw [guardedWithin, guardedWithin, guardedAt_discreetly leaves, ih]

include leaves in
theorem guarded_discreetly : guarded setup discreetly = guarded setup id := by
  funext node env
  unfold guarded
  rw [funext fun levels => guardedWithin_discreetly leaves levels]

end Passes

end Action

/-- Where reactions only look at the run as they come into being, passes are discreet. -/
theorem Run.passesDiscreetly_of_leaves
    {setup : Setup} (leaves : setup.program.ReactsToLeaves) (begun : Run) :
    begun.PassesDiscreetly setup := by
  unfold PassesDiscreetly Action.guardedMain
  rw [Action.guarded_discreetly leaves]
  simp only [Action.guardedAt_discreetly leaves]

end Reactor

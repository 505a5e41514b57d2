import Reactor.Proofs.Session.Likeness
import Reactor.Proofs.Stream.Akin

/-!
# Runs that agree on the newest values of streams

Runs are akin if they differ in older entries of histories only.  Nothing that a run goes through tells
akin runs apart: evaluation reads the newest values of streams, the update of a reaction binds the newest
values of its streams, and the search for scopes that can be forgotten finds the same scopes, because
akin histories hold on to the same ones.
-/

namespace Reactor

theorem Scopes.retire_congr
    {kept others : List Val} (same : Val.capturesOfItems others = Val.capturesOfItems kept)
    (scopes : Scopes) (roots : List Env) :
    scopes.retire others roots = scopes.retire kept roots := by
  simp only [retire, same]

namespace Run

/-- Two runs differ in older entries of histories only, and only under certain names. -/
structure Akin (touched : String → Prop) (run twin : Run) : Prop where
  rest : twin = { run with streams := twin.streams }
  streams : run.streams.Akin touched twin.streams

variable {touched : String → Prop} {run twin : Run}

theorem Akin.parts (akin : Akin touched run twin) :
    ∃ streams, twin = { run with streams } ∧ run.streams.Akin touched streams :=
  ⟨twin.streams, akin.rest, akin.streams⟩

theorem Akin.reactions (akin : Akin touched run twin) : twin.reactions = run.reactions := by
  rw [akin.rest]

theorem likeness_akin (touched : String → Prop) : Likeness (Akin touched) where
  same akin := by
    rcases akin.parts with ⟨streams, rfl, -⟩
    rfl
  beside akin streams reactions _ _ := by
    constructor
    · rw [akin.reactions, ← reactions]
    · rw [streams]
      exact akin.streams
  provide name akin := by
    rcases Streams.ensure?_of_kinds (akin.streams.kind? name) with
      absent | ⟨present, twinPresent, -⟩
    · exact Or.inl absent
    · have ensured := akin.streams.ensured name
      refine Or.inr ⟨_, _, present, twinPresent, ensured.latest? name, ?_, ensured⟩
      rcases akin.parts with ⟨streams, rfl, -⟩
      rfl
  changed akin := akin.streams.changed

/-- Evaluation cannot see older entries of histories. -/
theorem concord_akin (touched : String → Prop) : Concord (Akin touched) where
  toLikeness := likeness_akin touched
  value id akin := by rw [akin.reactions]
  react count akin := by
    rcases akin.parts with ⟨streams, rfl, kept⟩
    exact ⟨rfl, kept⟩
  settle reaction akin _ := by
    rcases akin.parts with ⟨streams, rfl, kept⟩
    exact ⟨rfl, kept.subscribeAll reaction.streams reaction.node⟩
  nest count akin := by
    rcases akin.parts with ⟨streams, rfl, kept⟩
    exact ⟨rfl, kept⟩
  release akin := by
    rcases akin.parts with ⟨streams, rfl, kept⟩
    exact ⟨rfl, kept.unsubscribeAll⟩

theorem Akin.beginPass (akin : Akin touched run twin) (setup : Setup) :
    Akin touched (run.beginPass setup) (twin.beginPass setup) := by
  rcases akin.parts with ⟨streams, rfl, kept⟩
  have same : Val.capturesOfItems ({ run with streams } : Run).keptValues =
      Val.capturesOfItems run.keptValues := by
    simp only [keptValues, Val.capturesOfItems_append, kept.captures]
  constructor
  · simp only [Run.beginPass, Scopes.retire_congr same]
    rfl
  · exact kept

theorem Akin.reset (akin : Akin touched run twin) (setup : Setup) :
    Akin touched (run.reset setup) (twin.reset setup) := by
  rcases akin.parts with ⟨streams, rfl, kept⟩
  have same : initialsCapture streams.reset = initialsCapture run.streams.reset := by
    simp only [initialsCapture, kept.reset.captures]
  constructor
  · simp only [Run.reset, same]
  · exact kept.reset

end Run

/-! ### Updates -/

namespace Action

open Run (Akin concord_akin likeness_akin)

variable {setup : Setup} {touched : String → Prop}

theorem mirrors_nextValue (condition next : NodeId) (prior : Val) (env : Env) :
    Mirrors (Akin touched) (nextValue setup condition next prior env)
      (nextValue setup condition next prior env) := by
  have concord := concord_akin touched
  refine (mirrors_evaluate concord.toCongruence concord.nest condition env).bind fun answer => ?_
  split
  · exact mirrors_evaluate concord.toCongruence concord.nest next env
  · exact mirrors_pure _
  · exact mirrors_pure _
  · exact mirrors_pure _

theorem mirrors_beginUpdate (reaction : Reaction) :
    Mirrors (Akin touched) (beginUpdate reaction) (beginUpdate reaction) := by
  have concord := concord_akin touched
  refine (mirrors_openChild concord.toLikeness reaction.env).bind fun env => ?_
  refine mirrors_of_get fun run twin akin => ?_
  have names : updateNames reaction twin.streams = updateNames reaction run.streams := by
    simp only [updateNames, akin.streams.latest?]
  rw [names]
  refine ((mirrors_defineAll concord.toLikeness env _).bind fun _ => ?_) run twin akin
  refine Mirrors.bind (mirrors_modify fun run twin akin => ?_) fun _ => mirrors_pure env
  have reacting : twin.reacting = run.reacting := by rw [akin.rest]
  rw [reacting]
  exact concord.react _ akin

theorem mirrors_update (id : NodeId) :
    Mirrors (Akin touched) (update setup id) (update setup id) := by
  have concord := concord_akin touched
  unfold update
  split
  · next condition next binding _ =>
    refine mirrors_of_get fun run twin akin => ?_
    rw [akin.reactions]
    cases run.reactions.get? id with
    | none => exact ⟨rfl, akin⟩
    | some reaction =>
      refine ((mirrors_beginUpdate reaction).bind fun env => ?_) run twin akin
      refine Mirrors.bind (fun _ _ akin => meets_cleaningUp
        (mirrors_nextValue condition next reaction.value env _ _ akin) fun run twin akin => ?_)
        fun value => ?_
      · have reacting : twin.reacting = run.reacting := by rw [akin.rest]
        rw [reacting]
        exact concord.react _ akin
      · refine mirrors_of_get fun run twin akin => ?_
        rw [akin.reactions]
        cases run.reactions.get? id with
        | none => exact ⟨rfl, akin⟩
        | some _ =>
          rcases akin.parts with ⟨streams, rfl, kept⟩
          exact ⟨rfl, rfl, kept⟩
  · exact mirrors_throw _

/-- Updates cannot tell runs that are akin apart. -/
theorem mirrors_updateAll (ids : List NodeId) :
    Mirrors (Akin touched) (updateAll setup ids) (updateAll setup ids) := by
  induction ids with
  | nil => exact mirrors_pure _
  | cons id rest ih => exact (mirrors_update id).bind fun _ => ih

theorem mirrors_markAllDirty (nodes : List NodeId) :
    Mirrors (Akin touched) (markAllDirty nodes) (markAllDirty nodes) := by
  induction nodes with
  | nil => exact mirrors_pure _
  | cons node rest ih =>
    refine mirrors_of_get fun run twin akin => ?_
    rw [akin.reactions]
    cases run.reactions.markDirty node with
    | error defect => exact ⟨rfl, akin⟩
    | ok reactions =>
      refine Mirrors.bind (mirrors_modify fun run twin akin => ?_) (fun _ => ih) run twin akin
      rcases akin.parts with ⟨streams, rfl, kept⟩
      exact ⟨rfl, kept⟩

end Action

end Reactor

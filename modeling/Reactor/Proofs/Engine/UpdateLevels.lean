import Reactor.Proofs.Engine.MachineLevels
import Reactor.Proofs.Engine.UpdateSafety
import Reactor.Proofs.Reaction.Growth

/-!
# Updates stay on the level of their reaction

A reaction is updated on behalf of the sources that first reached it, in a scope inside the one in which
they did.  As long as no source that was borrowed is under evaluation, the update shows no cycle among
sources, and the new value fits the level of the reaction.
-/

namespace Reactor.Action

open List

variable {setup : Setup} {ranking : Ranking setup.program} {stage : Stage ranking} {levels : Levels}

theorem stays_beginUpdate {reaction : Reaction} (fits : reaction.Fits ranking levels stage.level) :
    Stays stage levels (beginUpdate reaction) fun extended env =>
      Env.Opened extended stage.level env := by
  refine (stays_openChild fits.within).bind fun extended env grown opened => ?_
  have fitsValue := fits.value.later grown (Nat.le_refl _)
  refine stays_get.bind ?_
  rintro _ run - ⟨rfl, levelled, -⟩
  refine (stays_defineAll opened ?_).bind ?_
  · intro entry mem
    simp only [updateNames, cons_append, mem_cons, mem_append, mem_map,
      mem_filterMap, Option.map_eq_some_iff] at mem
    rcases mem with rfl | ⟨name, -, rfl⟩ | ⟨name, -, value, latest, rfl⟩
    · exact fitsValue
    · exact fitsValue
    · exact levelled.latest? latest _ _
  · rintro _ _ - rfl
    refine Stays.bind (stays_modify (fun _ levelled => { levelled with }) fun _ => rfl) ?_
    rintro _ _ - rfl
    exact stays_pure opened

section

variable {condition next : NodeId} (suitsCondition : ranking.Suits stage.level condition)
  (suitsNext : ranking.Suits stage.level next) {prior : Val}
  (fits : prior.Fits ranking levels stage.level) {env : Env}
  (opened : Env.Opened levels stage.level env)
include suitsCondition suitsNext fits opened

theorem proceeds_nextValue :
    Proceeds stage levels (nextValue setup condition next prior env)
      (nextValueLog setup condition next env) fun extended value =>
        value.Fits ranking extended stage.level := by
  refine (evaluates [] stage levels condition env suitsCondition opened).bind
    fun extended answer grown fitsAnswer => ?_
  cases answer with
  | bool truth =>
    cases truth with
    | true => exact evaluates [] stage extended next env suitsNext (opened.later grown)
    | false => exact (stays_pure (fits.later grown (Nat.le_refl _))).proceeds
  | exception cause node => exact (stays_pure fitsAnswer).proceeds
  | _ => exact (stays_pure (Val.fits_failure rfl condition)).proceeds

theorem clear_newValue {run : Run} (levelled : run.Levelled ranking levels)
    (same : run.borrowing = stage.borrowing) {reactions : Reactions} {count : Nat}
    (frozen : run.Frozen reactions (count + 1)) :
    Clear setup.program
      (cleaningUp (fun run => { run with reacting := run.reacting - 1 })
        (nextValue setup condition next prior env))
      (nextValueLog setup condition next env) run fun value after =>
        after.Reaches stage levels (fun extended => value.Fits ranking extended stage.level) ∧
          after.reactions = reactions := by
  have computes := (proceeds_nextValue suitsCondition suitsNext fits opened run levelled same).and
    (preserves_nextValue_of (fun node => preserves_evaluate_frozen (Nat.succ_pos count) node env)
      condition next prior run frozen)
  intro guarded
  obtain ⟨uncycled, ended⟩ := computes guarded
  refine ⟨uncycled, (ensures_cleaningUp _ _).mpr (ended.map ?_)⟩
  rintro value after ⟨⟨extended, grown, levelled, same, fits⟩, frozen⟩
  exact ⟨⟨extended, grown, { levelled with }, same, fits⟩, frozen.1⟩

end

variable {run : Run} (levelled : run.Levelled ranking levels)
  (same : run.borrowing = [ranking.main.name]) (inStep : run.InStep setup.program)
include levelled same inStep

/-- An update shows no cycle among sources and leaves every value on its level. -/
theorem clear_update {id : NodeId} (known : (run.reactions.get? id).isSome) :
    Clear setup.program (update setup id) (updateLog setup id) run
      fun _ after => after.Reaches (Stage.main ranking) levels fun _ => True := by
  obtain ⟨reaction, found⟩ := Option.isSome_iff_exists.mp known
  obtain ⟨initial, condition, next, binding, present⟩ := inStep.node?_of_get? found
  obtain ⟨level, fits⟩ := levelled.reactions reaction (Reactions.mem_table_of_get? found)
  let stage := Stage.updating ranking level fits.bounded
  have fitsHere : reaction.Fits ranking levels stage.level := fits
  have suits {child : NodeId} (mem : child ∈ [initial, condition, next]) :
      ranking.Suits stage.level child :=
    (Reactions.node_of_get? found ▸ fits.suits).child present mem
  have begins : Clear setup.program (beginUpdate reaction) Log.silent run fun env after =>
      after.Reaches stage levels (Env.Opened · stage.level env) ∧
        after.Frozen run.reactions (run.reacting + 1) := by
    have frozen : Ensures (beginUpdate reaction) run
        (fun _ after => after.Frozen run.reactions (run.reacting + 1)) (fun _ _ => False) := by
      simp only [beginUpdate, openChild, defineAll, ensures_bind, ensures_modifyGet, ensures_get,
        ensures_modify, ensures_pure]
      exact ⟨rfl, rfl⟩
    exact (clear_silent (stays_beginUpdate fitsHere run levelled same)).and frozen
  unfold Clear update updateLog
  simp only [present, found]
  rw [ensures_bind, ensures_get, found]
  show Clear setup.program (beginUpdate reaction >>= _) (fun run => Log.silent run ++
    (beginUpdate reaction).behind (nextValueLog setup condition next) run) run _
  refine begins.bind ?_
  rintro env begun ⟨⟨extended, grown, levelledBegun, sameBegun, opened⟩, frozen⟩
  refine (clear_newValue (suits (by simp)) (suits (by simp))
    (fits.value.later grown (Nat.le_refl _)) opened levelledBegun sameBegun frozen).followed ?_
  rintro value after ⟨⟨further, grownAgain, levelledAfter, sameAfter, fitsValue⟩, kept⟩
  have stillFound : after.reactions.get? id = some reaction := kept ▸ found
  rw [ensures_bind, ensures_get, stillFound]
  exact ⟨further, grown.trans grownAgain,
    levelledAfter.settle (kept ▸ inStep.once) stillFound
      (fits.later (grown.trans grownAgain)) fitsValue,
    sameAfter, trivial⟩

theorem clear_updateAll {ids : List NodeId} (known : ∀ id ∈ ids, (run.reactions.get? id).isSome) :
    Clear setup.program (updateAll setup ids) (updateAllLog setup ids) run
      fun _ after => after.Reaches (Stage.main ranking) levels fun _ => True := by
  induction ids generalizing run levels with
  | nil => exact clear_silent ⟨levels, prefix_refl _, levelled, same, trivial⟩
  | cons id rest ih =>
    obtain ⟨knownHere, knownOthers⟩ := forall_mem_cons.mp known
    have kept := preserves_update_others id rest run ⟨inStep, knownOthers⟩
    refine ((clear_update levelled same inStep knownHere).and kept).bind ?_
    rintro _ after ⟨⟨extended, grown, levelled, same, -⟩, inStep, known⟩
    exact (ih levelled same inStep known).imp fun _ _ reaches => reaches.from grown

end Reactor.Action

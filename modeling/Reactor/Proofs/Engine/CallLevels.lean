import Reactor.Proofs.Engine.Conduct
import Reactor.Proofs.Run.Levels

/-!
# Calls stay on their stage

An action stays on a stage if it leaves a run in which all values are on their levels, with the same
sources under evaluation, and if it gives what it promises.  Scopes that it opens are opened on the level
of the stage.  An action that can lead to machines proceeds with its log: as long as shared reactions
hold no functions at the moments of the log, nothing tells of a cycle at any of them.

The main result of this module is that calling functions and combining operands proceed, provided that
evaluating a node does: `Action.proceeds_combine`.
-/

namespace Reactor

open List

/-- A reaction that may be reached on behalf of several sources. -/
def Program.Shared (program : Program) (id : NodeId) : Prop :=
  (program.node? id).any Node.isReaction ∧ ∀ name, ¬ program.Owns name id

/-- Reactions that may be reached on behalf of several sources hold no functions. -/
def Run.Guarded (program : Program) (run : Run) : Prop :=
  ∀ reaction ∈ run.reactions.table, program.Shared reaction.node → reaction.value.Functionless

theorem Run.guarded_of_owned
    {program : Program} (owned : ∀ id ∈ program.reactions, ∃ name, program.Owns name id)
    (run : Run) : run.Guarded program := by
  rintro reaction - ⟨isReaction, unowned⟩
  have inside : reaction.node < program.nodes.size := by
    cases present : program.node? reaction.node with
    | none => simp [present] at isReaction
    | some node => exact Program.lt_size_of_node? present
  obtain ⟨name, owns⟩ :=
    owned reaction.node (mem_filter.mpr ⟨mem_range.mpr inside, isReaction⟩)
  exact absurd owns (unowned name)

/-- Neither the value of a node nor that of a reaction tells of a cycle among sources. -/
structure Run.Uncycled (run : Run) : Prop where
  nodes : ∀ (node : NodeId) (value : Val),
    run.nodeValues[node]? = some value → value.tellsCycle = false
  reactions : ∀ reaction ∈ run.reactions.table, reaction.value.tellsCycle = false

/-- The value that was handed over last: to the active frame, or as the result. -/
def Machine.delivered? (machine : Machine) : Option Val :=
  match machine.frames with
  | [] => machine.result
  | top :: _ => top.values.getLast?

/-- The node that completes at a moment, with its value: the active frame is gone, and the value is with
the machine below. -/
def Moment.completed? (moment : Moment) : Option (NodeId × Val) :=
  match moment.before.frames with
  | [] => none
  | top :: rest =>
    if moment.after.frames.length = rest.length then
      moment.after.delivered?.map (top.node, ·)
    else none

/-- No node completes at a moment with a value that tells of a cycle among sources, and nothing in the
run tells of one. -/
structure Moment.Uncycled (moment : Moment) : Prop where
  completes : ∀ node value, moment.completed? = some (node, value) → value.tellsCycle = false
  run : moment.runAfter.Uncycled

/-- At the moment of an event, shared reactions hold no functions. -/
def Event.Guarded (program : Program) : Event → Prop
  | moved moment => moment.run.Guarded program
  | called .. => True

/-- Nothing in an event tells of a cycle among sources. -/
def Event.Uncycled : Event → Prop
  | moved moment => moment.Uncycled
  | called .. => True

section Reaching

variable {program : Program} {ranking : Ranking program}

theorem Run.Levelled.uncycled
    {levels : Levels} {run : Run} (levelled : run.Levelled ranking levels) : run.Uncycled where
  nodes := levelled.nodes
  reactions reaction mem := by
    obtain ⟨_, fits⟩ := levelled.reactions reaction mem
    exact fits.value.noCycle

/-- All values of a run are on their levels, the sources under evaluation are those of a stage, and
something holds of the levels. -/
def Run.Reaches
    (stage : Stage ranking) (levels : Levels) (promise : Levels → Prop) (run : Run) : Prop :=
  ∃ extended, levels <+: extended ∧ run.Levelled ranking extended ∧
    run.borrowing = stage.borrowing ∧ promise extended

theorem Run.Reaches.from
    {stage : Stage ranking} {levels between : Levels} {promise : Levels → Prop} {run : Run}
    (reaches : run.Reaches stage between promise) (grown : levels <+: between) :
    run.Reaches stage levels promise := by
  obtain ⟨extended, grownAgain, rest⟩ := reaches
  exact ⟨extended, grown.trans grownAgain, rest⟩

end Reaching

/-- What an outcome promises on a stage: a value that fits, or a body with scopes to evaluate it in. -/
def Outcome.Fits
    {program : Program} {ranking : Ranking program} (stage : Stage ranking) (levels : Levels) :
    Outcome → Prop
  | complete value => value.Fits ranking levels stage.level
  | enter body env => ranking.Suits stage.level body ∧ Env.Opened levels stage.level env

namespace Action

variable {α β : Type} {program : Program} {ranking : Ranking program} {stage : Stage ranking}
  {levels : Levels}

/-- An action without a log that stays on a stage. -/
def Stays
    (stage : Stage ranking) (levels : Levels) (action : Action α) (promise : Levels → α → Prop) :
    Prop :=
  ∀ run : Run, run.Levelled ranking levels → run.borrowing = stage.borrowing →
    Ensures action run (fun value after => after.Reaches stage levels (promise · value))
      (fun _ _ => False)

/-- As long as shared reactions hold no functions at the moments of its log, an action shows no cycle and
comes to what it promises. -/
def Clear
    (program : Program) (action : Action α) (log : Log) (run : Run) (good : α → Run → Prop) : Prop :=
  (∀ event ∈ log run, event.Guarded program) →
    (∀ event ∈ log run, event.Uncycled) ∧ Ensures action run good fun _ _ => False

/-- An action that stays on a stage together with all that its log shows. -/
def Proceeds (stage : Stage ranking) (levels : Levels) (action : Action α) (log : Log)
    (promise : Levels → α → Prop) : Prop :=
  ∀ run : Run, run.Levelled ranking levels → run.borrowing = stage.borrowing →
    Clear program action log run fun value after => after.Reaches stage levels (promise · value)

section Rules

variable {action : Action α} {next : α → Action β} {log : Log} {logged : α → Log}
  {promise : Levels → α → Prop} {promise' : Levels → β → Prop}

variable {run : Run} {good : α → Run → Prop}

theorem Clear.imp {good' : α → Run → Prop} (clear : Clear program action log run good)
    (implies : ∀ value after, good value after → good' value after) :
    Clear program action log run good' :=
  fun guarded => (clear guarded).imp id fun ended => ended.imp implies fun _ _ impossible => impossible

theorem Clear.and {good' : α → Run → Prop} {bad : Defect → Run → Prop}
    (clear : Clear program action log run good) (also : Ensures action run good' bad) :
    Clear program action log run fun value after => good value after ∧ good' value after :=
  fun guarded => (clear guarded).imp id fun ended =>
    (ended.and also).imp (fun _ _ both => both) fun _ _ impossible => impossible.1

section

variable {final : β → Run → Prop} (first : Clear program action log run good)
include first

theorem Clear.bind (rest : ∀ value after, good value after →
      Clear program (next value) (logged value) after final) :
    Clear program (action >>= next) (fun run => log run ++ action.behind logged run) run final := by
  intro guarded
  obtain ⟨guardedFirst, guardedRest⟩ := forall_mem_append.mp guarded
  obtain ⟨uncycled, ended⟩ := first guardedFirst
  simp only [ensures_bind, forall_mem_append]
  simp only [Ensures, behind] at ended guardedRest ⊢
  cases result : action run with
  | error defect after => rw [result] at ended; exact ended.elim
  | ok value between =>
    rw [result] at ended guardedRest
    obtain ⟨uncycledRest, endedRest⟩ := rest value between ended guardedRest
    exact ⟨⟨uncycled, uncycledRest⟩, endedRest⟩

theorem Clear.followed
    (rest : ∀ value after, good value after → Ensures (next value) after final fun _ _ => False) :
    Clear program (action >>= next) log run final := by
  intro guarded
  obtain ⟨uncycled, ended⟩ := first guarded
  refine ⟨uncycled, ?_⟩
  rw [ensures_bind]
  exact ended.imp rest fun _ _ impossible => impossible

end

theorem clear_silent (ended : Ensures action run good fun _ _ => False) :
    Clear program action Log.silent run good :=
  fun _ => ⟨fun _ mem => by simp [Log.silent] at mem, ended⟩

theorem stays_pure {value : α} (kept : promise levels value) :
    Stays stage levels (pure value) promise :=
  fun _ levelled same => ⟨levels, prefix_refl _, levelled, same, kept⟩

theorem stays_get :
    Stays stage levels (get : Action Run) fun extended run =>
      extended = levels ∧ run.Levelled ranking levels ∧ run.borrowing = stage.borrowing :=
  fun _ levelled same => ⟨levels, prefix_refl _, levelled, same, rfl, levelled, same⟩

theorem stays_modify {change : Run → Run}
    (kept : ∀ run : Run, run.Levelled ranking levels → (change run).Levelled ranking levels)
    (beside : ∀ run : Run, (change run).borrowing = run.borrowing) :
    Stays stage levels (modify change : Action PUnit) fun extended _ => extended = levels :=
  fun run levelled same =>
    ⟨levels, prefix_refl _, kept run levelled, (beside run).trans same, rfl⟩

theorem Stays.bind (first : Stays stage levels action promise)
    (rest : ∀ extended value, levels <+: extended → promise extended value →
      Stays stage extended (next value) promise') :
    Stays stage levels (action >>= next) promise' := by
  intro run levelled same
  rw [ensures_bind]
  refine (first run levelled same).map ?_
  rintro value between ⟨extended, grown, levelled, same, promised⟩
  exact (rest extended value grown promised between levelled same).map
    (fun _ _ reaches => reaches.from grown)

theorem Stays.proceeds (stays : Stays stage levels action promise) :
    Proceeds stage levels action Log.silent promise :=
  fun run levelled same => clear_silent (stays run levelled same)

variable (first : Proceeds stage levels action log promise)
include first

theorem Proceeds.bind (rest : ∀ extended value, levels <+: extended → promise extended value →
      Proceeds stage extended (next value) (logged value) promise') :
    Proceeds stage levels (action >>= next) (fun run => log run ++ action.behind logged run)
      promise' := by
  intro run levelled same
  refine (first run levelled same).bind ?_
  rintro value between ⟨extended, grown, levelled, same, promised⟩
  exact (rest extended value grown promised between levelled same).imp
    fun _ _ reaches => reaches.from grown

theorem Proceeds.followed (rest : ∀ extended value, levels <+: extended → promise extended value →
      Stays stage extended (next value) promise') :
    Proceeds stage levels (action >>= next) log promise' := by
  intro run levelled same
  refine (first run levelled same).followed ?_
  rintro value between ⟨extended, grown, levelled, same, promised⟩
  exact (rest extended value grown promised between levelled same).map
    (fun _ _ reaches => reaches.from grown)

end Rules

/-! ### Scopes, names and streams -/

variable {env : Env}

theorem stays_openChild (within : Env.Within levels stage.level env) :
    Stays stage levels (openChild env) fun extended inner =>
      Env.Opened extended stage.level inner := by
  intro run levelled same
  refine ⟨_, prefix_append _ _, levelled.child stage.level env, same, ?_⟩
  show Env.Opened _ _ (run.scopes.size :: env)
  rw [← levelled.size]
  exact Env.opened_cons within

theorem stays_defineAll (opened : Env.Opened levels stage.level env) {entries : List (String × Val)}
    (fits : ∀ entry ∈ entries, entry.2.Fits ranking levels stage.level) :
    Stays stage levels (defineAll env entries) fun extended _ => extended = levels :=
  stays_modify (fun _ levelled => levelled.defineAll opened fits) fun _ => rfl

theorem stays_takeDefect :
    Stays stage levels takeDefect fun extended waiting => extended = levels ∧ waiting = none :=
  fun _ levelled same =>
    ⟨levels, prefix_refl _, { levelled with calm := rfl }, same, rfl, levelled.calm⟩

theorem stays_ensureStream (name : String) :
    Stays stage levels (ensureStream name) fun extended _ => extended = levels := by
  intro run levelled same
  simp only [ensureStream, ensures_modifyGet]
  split
  · next streams ensured =>
    exact ⟨levels, prefix_refl _, levelled.ensure? ensured, same, rfl⟩
  · exact ⟨levels, prefix_refl _, levelled, same, rfl⟩

/-! ### Calls -/

theorem stays_enter {function : Closure} (fits : function.Fits ranking levels stage.level)
    {receiver : Option Val}
    (fitsReceiver : ∀ value, receiver = some value → value.Fits ranking levels stage.level)
    {args : List Val} (fitsArgs : ∀ arg ∈ args, arg.Fits ranking levels stage.level)
    (node : NodeId) :
    Stays stage levels (enter function receiver args node) (Outcome.Fits stage) := by
  simp only [enter]
  split
  · refine (stays_openChild fits.within).bind fun extended env grown opened => ?_
    refine (stays_defineAll opened ?_).bind ?_
    · refine forall_mem_append.mpr ⟨?_, fun entry mem => ?_⟩
      · cases receiver with
        | none => simp
        | some value =>
          exact fun entry mem => ((fitsReceiver value rfl).visibleFields entry mem).later
            grown (Nat.le_refl _)
      · exact (fitsArgs entry.2 (of_mem_zip mem).2).later grown (Nat.le_refl _)
    · rintro _ _ - rfl
      exact stays_pure ⟨fits.travels _ (Nat.le_refl _) stage.bounded, opened⟩
  · exact stays_pure (Val.fits_failure rfl node)

/-- Calls proceed if the evaluation of bodies does. -/
def levelCalling
    {evaluate : NodeId → Env → Action Val} {evaluated : NodeId → Env → Log}
    (proceeds : ∀ levels body env, ranking.Suits stage.level body →
      Env.Opened levels stage.level env →
        Proceeds stage levels (evaluate body env) (evaluated body env) fun extended value =>
          value.Fits ranking extended stage.level)
    (waiting : List Machine) (node : NodeId) :
    Calling evaluate evaluate evaluated waiting node where
  World := Levels
  Later levels extended := levels <+: extended
  Good levels value := value.Fits ranking levels stage.level
  Gives levels action _ log := Proceeds stage levels action log (Outcome.Fits stage)
  Answers levels action _ log :=
    Proceeds stage levels action log fun extended value => value.Fits ranking extended stage.level
  now := prefix_refl
  after := List.IsPrefix.trans
  stays grown fits := fits.later grown (Nat.le_refl _)
  size := node + 1
  inside := Nat.lt_succ_self node
  fabric levels := Val.fits_fabric ranking levels stage.level _
  owner := Val.fits_native_iff.mp
  method fits found := Val.fits_method_iff.mpr ⟨fits.function? found, fits⟩
  construct fits _ fitsArgs := Val.fits_record_iff.mpr ⟨Val.fits_constructor_iff.mp fits, fitsArgs⟩
  enterClosure fits fitsArgs :=
    (stays_enter (Val.fits_closure_iff.mp fits) (by simp) fitsArgs node).proceeds
  enterMethod fits fitsArgs := by
    obtain ⟨fitsFunction, fitsReceiver⟩ := Val.fits_method_iff.mp fits
    refine (stays_enter fitsFunction ?_ fitsArgs node).proceeds
    rintro value ⟨⟩
    exact fitsReceiver
  complete fits := (stays_pure fits).proceeds
  done fits := (stays_pure fits).proceeds
  chain first _ rest := first.bind fun extended value grown fits => rest extended value grown fits
  report answers := by
    refine answers.followed fun extended value grown fits => stays_takeDefect.bind ?_
    rintro _ _ - ⟨rfl, rfl⟩
    exact stays_pure fits
  answer := by
    intro levels function args log _ _ gives run levelled same guarded
    have called : Proceeds stage levels
        (do
          match ← invoke evaluate node function args with
          | .complete value => pure value
          | .enter body env => evaluate body env)
        (fun run => log run ++ (invoke evaluate node function args).behind (outcomeLog evaluated) run)
        fun extended value => value.Fits ranking extended stage.level := by
      refine Proceeds.bind gives fun extended outcome grown fitsOutcome => ?_
      cases outcome with
      | complete value => exact (stays_pure fitsOutcome).proceeds
      | enter body env => exact proceeds extended body env fitsOutcome.1 fitsOutcome.2
    obtain ⟨uncycled, ended⟩ := called run levelled same (forall_mem_cons.mp guarded).2
    refine ⟨forall_mem_cons.mpr ⟨trivial, uncycled⟩, ?_⟩
    rw [apply, ensures_bind, ensures_attempt]
    exact ended.imp (fun _ _ reaches => reaches) fun _ _ impossible => impossible.elim

/-! ### Combining operands -/

theorem manner_levels (stage : Stage ranking) (levels : Levels) :
    Manner (fun run twin => twin = run ∧ run.Levelled ranking levels ∧
        run.borrowing = stage.borrowing)
      (fun value => value.Fits ranking levels stage.level)
      fun id env => ranking.Suits stage.level id ∧ Env.Opened levels stage.level env where
  fabric _ := Val.fits_fabric ranking levels stage.level _
  defines _ _ fits := Val.fits_constructor_iff.mpr fun function mem =>
    Val.fits_closure_iff.mp (fits function mem)
  access name _ fits := fits.access name _
  same := by
    rintro _ run ⟨rfl, -⟩
    rfl
  lookup entered related found := related.2.1.lookup? entered.2.within found
  define := by
    rintro _ run _ _ _ name ⟨-, opened⟩ fits ⟨rfl, levelled, same⟩
    exact ⟨rfl, levelled.define opened name fits, same⟩
  identity := by
    rintro _ run ⟨rfl, levelled, same⟩
    exact ⟨rfl, { levelled with }, same⟩
  provide := by
    rintro _ run name ⟨rfl, levelled, same⟩
    cases ensured : run.streams.ensure? name with
    | none => exact .inl ⟨rfl, rfl⟩
    | some streams =>
      exact .inr ⟨streams, streams, rfl, rfl, rfl, rfl, levelled.ensure? ensured, same⟩
  latest related found := related.2.1.latest? found _ _
  changed := by
    rintro _ run ⟨rfl, -⟩
    rfl

theorem proceeds_combine {setup : Setup} {ranking : Ranking setup.program} {stage : Stage ranking}
    {evaluate : Evaluation} {evaluated : NodeId → Env → Log}
    (proceeds : ∀ levels body env, ranking.Suits stage.level body →
      Env.Opened levels stage.level env →
        Proceeds stage levels (evaluate body env) (evaluated body env) fun extended value =>
          value.Fits ranking extended stage.level)
    (waiting : List Machine) {id : NodeId} (suits : ranking.Suits stage.level id)
    {node : Node} (present : setup.program.node? id = some node) (plain : node.ownsFrame = false)
    {values : List Val} (counted : values.length = node.operands.length)
    (fits : ∀ value ∈ values, value.Fits ranking levels stage.level)
    (opened : Env.Opened levels stage.level env) :
    Proceeds stage levels (combine setup evaluate id node values env)
      (combineLog evaluate evaluated waiting id node values) (Outcome.Fits stage) := by
  refine (levelCalling proceeds waiting id).gives_combine levels fits env (fun simple => ?_)
    fun miscounted => absurd counted miscounted
  have kept := tallies_self_iff.mp (@tallies_combine_of_not_calls False _ _ _
    (manner_levels stage levels) id env ⟨suits, opened⟩ setup evaluate evaluate node simple
    ⟨fun child mem => ⟨suits.child present mem, opened⟩, fun body mem _ _ _ =>
      Val.fits_closure_iff.mpr ⟨opened.within, suits.travels present mem⟩⟩
    values (.inr ⟨plain, counted⟩) fits)
  refine Stays.proceeds fun run levelled same => (kept run ⟨levelled, same⟩).imp ?_
    fun _ _ impossible => impossible.2
  rintro outcome after ⟨⟨levelledAfter, sameAfter⟩, fares⟩
  exact ⟨levels, prefix_refl _, levelledAfter, sameAfter, by cases outcome <;> exact fares⟩

end Action

end Reactor

import Reactor.Proofs.Run.Likeness

/-!
# What evaluation can do to streams and reactions

Evaluation changes streams and reactions in two ways only: a stream that is provided comes into
being, and a reaction that was reached for the first time is subscribed to its streams and entered.
`Run.Change` lists these changes with the conditions under which they happen.  Everything else that
evaluation does to a run leaves streams and reactions alone.

A property of runs that no such change can break is stable.  The main result is that stable
properties outlive every evaluation, whether it ends with a value or with a defect, and so they
outlive everything that natives, nested machines and borrowed sources do on the way.
-/

namespace Reactor

/-- One change that evaluation makes to a run. -/
inductive Run.Change (program : Program) (run : Run) : Run → Prop where
  /-- Anything may happen away from streams and reactions. -/
  | elsewhere {after : Run}
      (streams : after.streams = run.streams)
      (reactions : after.reactions = run.reactions) :
      Change program run after
  /-- A stream that is provided comes into being. -/
  | provide {name : String} {streams : Streams}
      (ensured : run.streams.ensure? name = some streams) :
      Change program run { run with streams }
  /-- A new reaction settles.  All streams that its condition names are there. -/
  | settle {initial condition next : NodeId} {binding : Option String}
      (reaction : Reaction)
      (present : program.node? reaction.node = some (.reaction initial condition next binding))
      (denoted : reaction.streams = program.denotedStreams condition)
      (named : reaction.streams ≠ [])
      (registered : ∀ name ∈ reaction.streams, (run.streams.get? name).isSome)
      (settled : reaction.state = .settled)
      (unused : reaction.updates = 0) :
      Change program run (run.addReaction reaction)

/-- A property of runs that no change made by evaluation can break. -/
def Run.Stable (program : Program) (P : Run → Prop) : Prop :=
  ∀ run after, Run.Change program run after → P run → P after

/-- A property of runs that no change can break as long as no defect is kept or taken and no source
gets a value.  Where no function is called and no source ends, this is all that is asked of a
property. -/
def Run.Steady (program : Program) (P : Run → Prop) : Prop :=
  ∀ run after, Run.Change program run after →
    after.defect = run.defect → after.borrowed = run.borrowed → P run → P after

theorem Run.Stable.steady {program : Program} {P : Run → Prop} (stable : Run.Stable program P) :
    Run.Steady program P :=
  fun run after change _ _ holds => stable run after change holds

theorem Run.Change.extends
    {program : Program} {run after : Run} (change : Run.Change program run after) :
    run.streams.Extends after.streams := by
  cases change with
  | elsewhere streams reactions =>
    rw [streams]
    exact .refl _
  | provide ensured => exact Streams.extends_ensure? ensured
  | settle reaction _ _ _ _ _ _ => exact Streams.extends_subscribeAll _ _ _

theorem Run.stable_extends (program : Program) (streams : Streams) :
    Run.Stable program fun run => streams.Extends run.streams :=
  fun _ _ change extended => extended.trans change.extends

/-! ### Properties as relations -/

namespace Run

variable {program : Program} {P : Run → Prop}

theorem Steady.conduct (steady : Steady program P) :
    Conduct program (fun run twin => twin = run ∧ P run) (fun _ => True) (fun _ _ => True) := by
  refine .ofBeside ?_ ?_ ?_ ?_
  · rintro _ run ⟨rfl, -⟩
    exact ⟨_, _, _, rfl⟩
  · rintro run after streams reactions nesting ⟨same, holds⟩ sameStreams sameReactions - sameNesting
      defect borrowed
    refine ⟨?_, steady run after (.elsewhere sameStreams sameReactions) defect borrowed holds⟩
    rw [← show after.streams = streams from sameStreams.trans (congrArg Run.streams same).symm,
      ← show after.reactions = reactions from sameReactions.trans (congrArg Run.reactions same).symm,
      ← show after.nesting = nesting from sameNesting.trans (congrArg Run.nesting same).symm]
  · rintro _ run name ⟨rfl, holds⟩
    cases ensured : run.streams.ensure? name with
    | none => exact .inl ⟨rfl, rfl⟩
    | some streams =>
      exact .inr ⟨streams, streams, rfl, rfl, rfl, rfl, steady run _ (.provide ensured) rfl rfl holds⟩
  · rintro _ run ⟨rfl, -⟩
    rfl

theorem Steady.reacts (steady : Steady program P) :
    Reacts program (fun run twin => twin = run ∧ P run) (fun _ => True) (fun _ _ => True) where
  value := by
    rintro _ run id ⟨rfl, -⟩
    rfl
  good _ _ := trivial
  react := by
    rintro _ run count ⟨rfl, holds⟩
    exact ⟨rfl, steady run _ (.elsewhere rfl rfl) rfl rfl holds⟩
  settle := by
    rintro _ run initial condition next id value env name binding ⟨rfl, holds⟩ present named there - -
    exact ⟨rfl, steady run _ (.settle ⟨id, .settled, value, program.denotedStreams condition, env,
      binding, 0⟩ present rfl named there rfl rfl) rfl rfl holds⟩

theorem Stable.reports (stable : Stable program P) :
    Reports True (fun run twin => twin = run ∧ P run) fun _ => True where
  take := by
    rintro _ run ⟨rfl, holds⟩
    exact ⟨⟨rfl, stable run _ (.elsewhere rfl rfl) holds⟩, .inl trivial⟩
  keep := by
    rintro _ run defect - ⟨rfl, holds⟩
    exact ⟨rfl, stable run _ (.elsewhere rfl rfl) holds⟩
  lend := by
    rintro _ run value source - ⟨rfl, holds⟩
    exact ⟨rfl, stable run _ (.elsewhere rfl rfl) holds⟩

theorem Stable.nest (stable : Stable program P) {run twin : Run} (related : twin = run ∧ P run) :
    twin.nesting = run.nesting ∧ ∀ count,
      { twin with nesting := count } = { run with nesting := count } ∧
        P { run with nesting := count } := by
  obtain ⟨rfl, holds⟩ := related
  exact ⟨rfl, fun _ => ⟨rfl, stable twin _ (.elsewhere rfl rfl) holds⟩⟩

end Run

/-! ### Calls and operands -/

namespace Action

variable {program : Program} {P : Run → Prop}

section

variable (steady : Run.Steady program P)
include steady

theorem preserves_define (env : Env) (name : String) (value : Val) :
    Preserves P (define env name value) :=
  fun run holds => steady run _ (.elsewhere rfl rfl) rfl rfl holds

theorem preserves_enter (function : Closure) (receiver : Option Val) (args : List Val)
    (node : NodeId) :
    Preserves P (enter function receiver args node) :=
  (@tallies_enter True _ _ _ _ steady.conduct node [] trivial function trivial receiver
    (fun _ _ => trivial) args fun _ _ => trivial).mirrors.preserves

end

theorem preserves_combine_of_not_calls {setup : Setup} {evaluate : Evaluation}
    (steady : Run.Steady program P) (id : NodeId) (node : Node) (values : List Val) (env : Env)
    (simple : node.calls = false) :
    Preserves P (combine setup evaluate id node values env) :=
  (tallies_combine_of_not_calls steady.conduct.toManner trivial evaluate evaluate simple
    ⟨fun _ _ => trivial, fun _ _ _ _ _ => trivial⟩ (.inl trivial)
    fun _ _ => trivial).mirrors.preserves

end Action

/-! ### Frames and machines -/

namespace Frame

variable {setup : Setup} {P : Run → Prop}

theorem preserves_advance_of_ne (steady : Run.Steady setup.program P) (evaluate : Evaluation)
    {frame : Frame} (plain : frame.kind ≠ .operands) (other : frame.kind ≠ .borrow .source) :
    Preserves P (frame.advance setup evaluate) :=
  (tallies_advance_of_ne steady.conduct steady.reacts evaluate evaluate (.inl trivial)
    ⟨fun _ => trivial, fun _ _ => trivial⟩ plain other).mirrors.preserves

end Frame

namespace Machine

variable {setup : Setup} {P : Run → Prop}

theorem preserves_start (steady : Run.Steady setup.program P) (node : NodeId) (env : Env) :
    Preserves P (start setup node env) :=
  (tallies_start steady.conduct (.ofTrue _) trivial).mirrors.preserves

section Stable

variable {evaluate : Evaluation} (stable : Run.Stable setup.program P)
  (evaluated : ∀ node env, Preserves P (evaluate node env)) (machine : Machine)
include stable evaluated

theorem preserves_step : Preserves P (machine.step setup evaluate) :=
  (tallies_step stable.steady.conduct (.ofTrue _) stable.steady.reacts stable.reports
    (fun body env _ => (evaluated body env).mirrors.tallies) trivial).mirrors.preserves

theorem preserves_finish : Preserves P (machine.finish setup evaluate) :=
  (tallies_finish stable.steady.conduct (.ofTrue _) stable.steady.reacts stable.reports
    (fun body env _ => (evaluated body env).mirrors.tallies) trivial).mirrors.preserves

end Stable

end Machine

/-! ### Evaluation -/

namespace Action

variable {setup : Setup} {P : Run → Prop}

theorem preserves_mainMachine (steady : Run.Steady setup.program P) :
    Preserves P (mainMachine setup) :=
  (tallies_mainMachine steady.conduct (.ofTrue _) (.inl trivial)).mirrors.preserves

section Stable

variable (stable : Run.Stable setup.program P)
include stable

theorem preserves_evaluate (node : NodeId) (env : Env) : Preserves P (evaluate setup node env) :=
  (tallies_evaluate stable.steady.conduct (.ofTrue _) stable.steady.reacts stable.reports
    stable.nest trivial).mirrors.preserves

theorem preserves_pass : Preserves P (pass setup) :=
  (tallies_pass stable.steady.conduct (.ofTrue _) stable.steady.reacts stable.reports stable.nest
    (.inl trivial)).mirrors.preserves

theorem preserves_nextValue (condition next : NodeId) (prior : Val) (env : Env) :
    Preserves P (nextValue setup condition next prior env) :=
  (tallies_nextValue stable.steady.conduct (.ofTrue _) stable.steady.reacts stable.reports
    stable.nest trivial trivial trivial).mirrors.preserves

end Stable

/-! ### Updates -/

theorem preserves_beginUpdate {program : Program}
    (steady : Run.Steady program P) (reaction : Reaction) :
    Preserves P (beginUpdate reaction) :=
  fun run holds => steady run _ (.elsewhere rfl rfl) rfl rfl holds

variable (stable : Run.Stable setup.program P)
  (settled : ∀ run id value, P run → P { run with reactions := run.reactions.change id (·.settle value) })
include stable settled

theorem preserves_update (id : NodeId) : Preserves P (update setup id) :=
  preserves_update_of (fun {run} _ _ holds => stable run _ (.elsewhere rfl rfl) holds)
    (preserves_evaluate stable) settled id

/-- What evaluation and settling preserve survives a list of updates. -/
theorem preserves_updateAll (ids : List NodeId) : Preserves P (updateAll setup ids) :=
  preserves_updateAll_of (preserves_update stable settled) ids

end Action

end Reactor

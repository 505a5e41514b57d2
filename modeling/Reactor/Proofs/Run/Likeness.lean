import Reactor.Proofs.Engine.Upkeep

/-!
# Runs that evaluation cannot tell apart

Evaluation looks at streams and reactions in few ways only: it makes sure that a stream is there and
reads its newest value, it asks whether a stream has advanced, and it asks for the value of a
reaction.  A relation between runs that agrees on these, and that nothing which evaluation does can
break, is a congruence.  The main result is that evaluation mirrors itself under every congruence: from
related runs it gives the same value or meets the same defect, and the runs stay related.

Calls of functions never reach a reaction by themselves, so for them less is asked of the relation;
this is a likeness.  The functions that evaluate bodies may differ on the two sides, as long as they
mirror one another.
-/

namespace Reactor

/-- A relation between runs that calls of functions cannot tell apart or break. -/
structure Run.Likeness (R : Run → Run → Prop) : Prop where
  /-- Related runs differ in streams and reactions only. -/
  same : ∀ {run twin : Run}, R run twin →
    twin = { run with streams := twin.streams, reactions := twin.reactions }
  /-- Whatever happens away from streams, reactions and the counts may happen to both. -/
  beside : ∀ {run twin after : Run}, R run twin →
    after.streams = run.streams → after.reactions = run.reactions →
    after.reacting = run.reacting → after.nesting = run.nesting →
      R after { after with streams := twin.streams, reactions := twin.reactions }
  /-- A stream is missing in both runs, or it comes into being in both with the same newest value. -/
  provide : ∀ {run twin : Run} (name : String), R run twin →
    run.streams.ensure? name = none ∧ twin.streams.ensure? name = none ∨
      ∃ streams others,
        run.streams.ensure? name = some streams ∧ twin.streams.ensure? name = some others ∧
          others.latest? name = streams.latest? name ∧
          R { run with streams } { twin with streams := others }
  changed : ∀ {run twin : Run}, R run twin → twin.streams.changed = run.streams.changed

/-- A relation between runs that evaluation cannot tell apart or break. -/
structure Run.Congruence (R : Run → Run → Prop) : Prop extends Run.Likeness R where
  value : ∀ {run twin : Run} (id : NodeId), R run twin →
    (twin.reactions.get? id).map (·.value) = (run.reactions.get? id).map (·.value)
  react : ∀ {run twin : Run} (count : Nat), R run twin →
    R { run with reacting := count } { twin with reacting := count }
  /-- A reaction whose streams are there may be entered. -/
  settle : ∀ {run twin : Run} (reaction : Reaction), R run twin →
    (∀ name ∈ reaction.streams, (run.streams.get? name).isSome) →
      R (run.addReaction reaction) (twin.addReaction reaction)

theorem Run.Likeness.parts
    {R : Run → Run → Prop} (like : Run.Likeness R) {run twin : Run} (related : R run twin) :
    ∃ streams reactions, twin = { run with streams, reactions } :=
  ⟨twin.streams, twin.reactions, like.same related⟩

/-- Nothing is asked of values and scopes if whatever happens away from streams, reactions, defects and
the values of sources may happen to both of two related runs. -/
theorem Conduct.ofBeside {program : Program} {R : Run → Run → Prop}
    (parts : ∀ {run twin : Run}, R run twin →
      ∃ streams reactions nesting, twin = { run with streams, reactions, nesting })
    (beside : ∀ {run after : Run} {streams reactions nesting},
      R run { run with streams, reactions, nesting } →
      after.streams = run.streams → after.reactions = run.reactions →
      after.reacting = run.reacting → after.nesting = run.nesting →
      after.defect = run.defect → after.borrowed = run.borrowed →
        R after { after with streams, reactions, nesting })
    (provide : ∀ {run twin : Run} (name : String), R run twin →
      run.streams.ensure? name = none ∧ twin.streams.ensure? name = none ∨
        ∃ streams others,
          run.streams.ensure? name = some streams ∧ twin.streams.ensure? name = some others ∧
            others.latest? name = streams.latest? name ∧
            R { run with streams } { twin with streams := others })
    (changed : ∀ {run twin : Run}, R run twin → twin.streams.changed = run.streams.changed) :
    Conduct program R (fun _ => True) (fun _ _ => True) where
  fabric _ := .ofTrue _
  defines _ _ _ := trivial
  access _ _ _ := trivial
  same related := by
    obtain ⟨_, _, _, rfl⟩ := parts related
    rfl
  lookup _ _ _ := trivial
  define _ _ _ related := by
    obtain ⟨_, _, _, rfl⟩ := parts related
    exact beside related rfl rfl rfl rfl rfl rfl
  identity related := by
    obtain ⟨_, _, _, rfl⟩ := parts related
    exact beside related rfl rfl rfl rfl rfl rfl
  provide := provide
  latest _ _ := trivial
  changed := changed
  node _ _ := ⟨fun _ _ => trivial, fun _ _ _ _ _ => trivial⟩
  openBody _ related := by
    obtain ⟨_, _, _, rfl⟩ := parts related
    exact ⟨beside related rfl rfl rfl rfl rfl rfl, trivial⟩
  owner _ := trivial
  bound _ := ⟨trivial, trivial⟩
  method _ _ := trivial
  construct _ _ _ := trivial
  fields _ _ _ := trivial
  cycle _ _ := trivial
  openRoot related := by
    obtain ⟨_, _, _, rfl⟩ := parts related
    exact ⟨beside related rfl rfl rfl rfl rfl rfl, fun _ _ => trivial⟩
  openChild _ related := by
    obtain ⟨_, _, _, rfl⟩ := parts related
    exact ⟨beside related rfl rfl rfl rfl rfl rfl, trivial⟩
  record _ _ related := by
    obtain ⟨_, _, _, rfl⟩ := parts related
    exact beside related rfl rfl rfl rfl rfl rfl
  borrowed _ _ := trivial
  borrow _ related := by
    obtain ⟨_, _, _, rfl⟩ := parts related
    exact beside related rfl rfl rfl rfl rfl rfl

theorem Machine.Upkeep.ofTrue (program : Program) :
    Upkeep program True (fun _ => True) (fun _ _ => True) (fun _ => True) (fun _ => True) where
  empty := trivial
  deliver _ _ := trivial
  push _ _ := trivial
  top _ _ := ⟨.inl trivial, fun _ => trivial, fun _ _ => trivial⟩
  pop _ _ := trivial
  replace _ _ _ _ _ := trivial
  result _ _ := ⟨.inl trivial, fun _ _ => trivial⟩

namespace Run

variable {R : Run → Run → Prop} {program : Program}

theorem Likeness.conduct (like : Likeness R) (program : Program) :
    Conduct program R (fun _ => True) (fun _ _ => True) :=
  .ofBeside
    (fun related => by
      obtain ⟨streams, reactions, rfl⟩ := like.parts related
      exact ⟨streams, reactions, _, rfl⟩)
    (by
      intro run after _ _ count related streams reactions reacting nesting _ _
      have alike : count = run.nesting := congrArg Run.nesting (like.same related)
      rw [alike, ← nesting]
      exact like.beside related streams reactions reacting nesting)
    like.provide like.changed

theorem Likeness.reports (like : Likeness R) : Reports True R fun _ => True where
  take related := by
    obtain ⟨_, _, rfl⟩ := like.parts related
    exact ⟨like.beside related rfl rfl rfl rfl, .inl trivial⟩
  keep _ _ related := by
    obtain ⟨_, _, rfl⟩ := like.parts related
    exact like.beside related rfl rfl rfl rfl
  lend _ _ related := by
    obtain ⟨_, _, rfl⟩ := like.parts related
    exact like.beside related rfl rfl rfl rfl

theorem Congruence.reacts (congruence : Congruence R) :
    Reacts program R (fun _ => True) (fun _ _ => True) where
  value := congruence.value
  good _ _ := trivial
  react := congruence.react
  settle related _ _ there _ _ := congruence.settle _ related there

end Run

namespace Action

variable {R : Run → Run → Prop} {evaluate evaluate' : Evaluation}

section

variable (like : Run.Likeness R)
include like

theorem mirrors_openRoot : Mirrors R openRoot openRoot :=
  (tallies_openRoot (like.conduct default)).mirrors

theorem mirrors_openChild (env : Env) : Mirrors R (openChild env) (openChild env) :=
  (@tallies_openChild True _ _ _ _ (like.conduct default) 0 env trivial).mirrors

theorem mirrors_defineAll (env : Env) (entries : List (String × Val)) :
    Mirrors R (defineAll env entries) (defineAll env entries) :=
  (@tallies_defineAll True _ _ _ _ (like.conduct default) 0 env trivial entries
    fun _ _ => trivial).mirrors

theorem mirrors_record (node : NodeId) (value : Val) :
    Mirrors R (record node value) (record node value) :=
  (tallies_record (like.conduct default) trivial node).mirrors

theorem mirrors_apply (evaluated : ∀ node env, Mirrors R (evaluate node env) (evaluate' node env))
    (node : NodeId) (function : Val) (args : List Val) :
    Mirrors R (apply evaluate node function args) (apply evaluate' node function args) :=
  (@tallies_apply True _ _ _ _ (like.conduct default) like.reports _ _
    (fun body env _ => (evaluated body env).tallies) node [] trivial function trivial args
    fun _ _ => trivial).mirrors

end

theorem mirrors_combine {setup : Setup} (like : Run.Likeness R)
    (evaluated : ∀ node env, Mirrors R (evaluate node env) (evaluate' node env))
    (id : NodeId) (node : Node) (values : List Val) (env : Env) :
    Mirrors R (combine setup evaluate id node values env)
      (combine setup evaluate' id node values env) :=
  (tallies_combine (like.conduct default) like.reports
    (fun body env _ => (evaluated body env).tallies) trivial
    ⟨fun _ _ => trivial, fun _ _ _ _ _ => trivial⟩ (.inl trivial) fun _ _ => trivial).mirrors

end Action

namespace Frame

variable {R : Run → Run → Prop}

theorem mirrors_missingStream? (like : Run.Likeness R) (names : List String) :
    Mirrors R (missingStream? names) (missingStream? names) :=
  (tallies_missingStream? (like.conduct default).toManner names).mirrors

theorem mirrors_openScope {program : Program} (like : Run.Likeness R) (id : NodeId) (env : Env) :
    Mirrors R (openScope program id env) (openScope program id env) :=
  (@tallies_openScope ⟨program, default⟩ _ _ _ _ (like.conduct _) id env trivial).mirrors

end Frame

namespace Machine

variable {setup : Setup} {R : Run → Run → Prop} {evaluate evaluate' : Evaluation}

theorem mirrors_start (like : Run.Likeness R) (node : NodeId) (env : Env) :
    Mirrors R (start setup node env) (start setup node env) :=
  (tallies_start (like.conduct _) (.ofTrue _) trivial).mirrors

section Evaluating

variable (congruence : Run.Congruence R)
  (evaluated : ∀ node env, Mirrors R (evaluate node env) (evaluate' node env))
include congruence evaluated

theorem mirrors_advance (machine : Machine) (top : Frame) (rest : List Frame)
    (shape : machine.frames = top :: rest) :
    Mirrors R (machine.advance setup evaluate top rest shape)
      (machine.advance setup evaluate' top rest shape) :=
  (tallies_advance (congruence.conduct _) (.ofTrue _) congruence.reacts congruence.reports
    (fun body env _ => (evaluated body env).tallies) trivial shape).mirrors

theorem mirrors_step (machine : Machine) :
    Mirrors R (machine.step setup evaluate) (machine.step setup evaluate') :=
  (tallies_step (congruence.conduct _) (.ofTrue _) congruence.reacts congruence.reports
    (fun body env _ => (evaluated body env).tallies) trivial).mirrors

theorem mirrors_finish (machine : Machine) :
    Mirrors R (machine.finish setup evaluate) (machine.finish setup evaluate') :=
  (tallies_finish (congruence.conduct _) (.ofTrue _) congruence.reacts congruence.reports
    (fun body env _ => (evaluated body env).tallies) trivial).mirrors

end Evaluating

end Machine

namespace Action

variable {setup : Setup} {R : Run → Run → Prop}

theorem mirrors_mainMachine (like : Run.Likeness R) :
    Mirrors R (mainMachine setup) (mainMachine setup) :=
  (tallies_mainMachine (like.conduct _) (.ofTrue _) (.inl trivial)).mirrors

/-! ### Evaluation

Evaluation counts the machines inside one another, so the relation has to allow for that. -/

section Nesting

variable (congruence : Run.Congruence R) (nest : ∀ {run twin : Run} (count : Nat), R run twin →
    R { run with nesting := count } { twin with nesting := count })
include congruence nest

/-- Evaluation in like runs ends with the same value. -/
theorem mirrors_evaluate (node : NodeId) (env : Env) :
    Mirrors R (evaluate setup node env) (evaluate setup node env) :=
  (tallies_evaluate (congruence.conduct _) (.ofTrue _) congruence.reacts congruence.reports
    (fun related => ⟨by rw [congruence.same related], (nest · related)⟩) trivial).mirrors

theorem mirrors_pass : Mirrors R (pass setup) (pass setup) :=
  (tallies_pass (congruence.conduct _) (.ofTrue _) congruence.reacts congruence.reports
    (fun related => ⟨by rw [congruence.same related], (nest · related)⟩) (.inl trivial)).mirrors

end Nesting

end Action

end Reactor

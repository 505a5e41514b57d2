import Reactor.Proofs.Run.Likeness

/-!
# Evaluation spares the scopes that are there

An expression binds names in the scope in which it is evaluated.  Whatever else it sets going, be it a
call, a native that calls back, a reaction that is reached for the first time or a borrowed source,
binds names in scopes that are opened for it.  So of all scopes that were there before, only the
innermost scope of the expression may change; and a block opens a scope for itself.

A chain is allowed if its innermost scope is new or is the one that may change.  The frames of a machine
stand in allowed chains; the chain that a function closes over need not be allowed, since the body of the
function is evaluated in a scope opened inside it.
-/

namespace Reactor

open List

/-! ### Scopes -/

namespace Scopes

/-- The scopes that were there are as they were, apart from the innermost scope of a chain. -/
structure Spares (origin : Scopes) (env : Env) (scopes : Scopes) : Prop where
  size : origin.size ≤ scopes.size
  kept : ∀ id < origin.size, env.head? ≠ some id → scopes.cells[id]? = origin.cells[id]?

/-- The innermost scope of a chain is new, or it is that of another chain. -/
def Allows (origin : Scopes) (env inner : Env) : Prop :=
  ∀ id < origin.size, inner.head? = some id → env.head? = some id

variable {origin scopes : Scopes} {env : Env}

theorem Spares.refl (origin : Scopes) (env : Env) : origin.Spares env origin :=
  ⟨Nat.le_refl _, fun _ _ _ => rfl⟩

theorem allows_nil : origin.Allows env [] :=
  fun _ _ impossible => by cases impossible

variable (spares : origin.Spares env scopes)
include spares

theorem Spares.allows_new (outer : Env) : origin.Allows env (scopes.size :: outer) := by
  intro id old same
  cases same
  exact absurd old (Nat.not_lt.mpr spares.size)

theorem Spares.push (scope : Scope) :
    origin.Spares env ⟨scopes.cells.push scope⟩ where
  size := Nat.le_trans spares.size (by simp [Scopes.size])
  kept id old other := by
    have inside : id < scopes.cells.size := Nat.lt_of_lt_of_le old spares.size
    rw [Array.getElem?_push, if_neg (Nat.ne_of_lt inside)]
    exact spares.kept id old other

theorem Spares.define {inner : Env} (allowed : origin.Allows env inner) (name : String)
    (value : Val) :
    origin.Spares env (scopes.define inner name value) where
  size := by
    rw [size_define]
    exact spares.size
  kept id old other := by
    rw [← spares.kept id old other]
    cases inner with
    | nil => rfl
    | cons inner outer =>
      have differs : inner ≠ id := by
        rintro rfl
        exact other (allowed inner old rfl)
      rw [Scopes.define, Array.getElem?_modify, if_neg differs]

theorem Spares.defineAll {inner : Env} (allowed : origin.Allows env inner)
    (entries : List (String × Val)) :
    origin.Spares env (scopes.defineAll inner entries) := by
  induction entries generalizing scopes with
  | nil => exact spares
  | cons entry rest ih => exact ih (spares.define allowed entry.1 entry.2)

end Scopes

/-! ### What evaluation asks for -/

namespace Scopes.Spares

variable {origin : Scopes} {env : Env} {program : Program}

theorem conduct (origin : Scopes) (env : Env) (program : Program) :
    Conduct program (fun run twin => twin = run ∧ origin.Spares env run.scopes) (fun _ => True)
      fun _ inner => origin.Allows env inner where
  fabric _ := .ofTrue _
  defines _ _ _ := trivial
  access _ _ _ := trivial
  same := by
    rintro _ run ⟨rfl, -⟩
    rfl
  lookup _ _ _ := trivial
  define := by
    rintro _ run _ inner value name allowed - ⟨rfl, spares⟩
    exact ⟨rfl, spares.define allowed name value⟩
  identity := by
    rintro _ run ⟨rfl, spares⟩
    exact ⟨rfl, spares⟩
  provide := by
    rintro _ run name ⟨rfl, spares⟩
    cases run.streams.ensure? name with
    | none => exact .inl ⟨rfl, rfl⟩
    | some streams => exact .inr ⟨streams, streams, rfl, rfl, rfl, rfl, spares⟩
  latest _ _ := trivial
  changed := by
    rintro _ run ⟨rfl, -⟩
    rfl
  node allowed _ := ⟨fun _ _ => allowed, fun _ _ _ _ _ => trivial⟩
  openBody := by
    rintro _ run function - ⟨rfl, spares⟩
    exact ⟨⟨rfl, spares.push _⟩, spares.allows_new function.env⟩
  owner _ := trivial
  bound _ := ⟨trivial, trivial⟩
  method _ _ := trivial
  construct _ _ _ := trivial
  fields _ _ _ := trivial
  cycle _ _ := trivial
  openRoot := by
    rintro _ run ⟨rfl, spares⟩
    exact ⟨⟨rfl, spares.push _⟩, fun _ _ => spares.allows_new []⟩
  openChild := by
    rintro _ run _ inner - ⟨rfl, spares⟩
    exact ⟨⟨rfl, spares.push _⟩, spares.allows_new inner⟩
  record := by
    rintro _ run _ _ - ⟨rfl, spares⟩
    exact ⟨rfl, spares⟩
  borrowed _ _ := trivial
  borrow := by
    rintro _ run _ ⟨rfl, spares⟩
    exact ⟨rfl, spares⟩

theorem reacts :
    Run.Reacts program (fun run twin => twin = run ∧ origin.Spares env run.scopes) (fun _ => True)
      fun _ inner => origin.Allows env inner where
  value := by
    rintro _ run _ ⟨rfl, -⟩
    rfl
  good _ _ := trivial
  react := by
    rintro _ run _ ⟨rfl, spares⟩
    exact ⟨rfl, spares⟩
  settle := by
    rintro _ run _ _ _ _ _ _ _ _ ⟨rfl, spares⟩ - - - - -
    exact ⟨rfl, spares⟩

theorem reports :
    Run.Reports True (fun run twin => twin = run ∧ origin.Spares env run.scopes) fun _ => True where
  take := by
    rintro _ run ⟨rfl, spares⟩
    exact ⟨⟨rfl, spares⟩, .inl trivial⟩
  keep := by
    rintro _ run _ - ⟨rfl, spares⟩
    exact ⟨rfl, spares⟩
  lend := by
    rintro _ run _ _ - ⟨rfl, spares⟩
    exact ⟨rfl, spares⟩

theorem nest {run twin : Run} (related : twin = run ∧ origin.Spares env run.scopes) :
    twin.nesting = run.nesting ∧ ∀ count,
      { twin with nesting := count } = { run with nesting := count } ∧
        origin.Spares env run.scopes := by
  obtain ⟨rfl, spares⟩ := related
  exact ⟨rfl, fun _ => ⟨rfl, spares⟩⟩

end Scopes.Spares

theorem Machine.Upkeep.ofEnvs (program : Program) (P : Env → Prop) :
    Upkeep program True (fun _ => True) (fun _ env => P env)
      (fun machine => ∀ frame ∈ machine.frames, P frame.env)
      (fun machine => ∀ frame ∈ machine.frames, P frame.env) where
  empty := forall_mem_nil _
  deliver := by
    rintro ⟨_ | ⟨top, rest⟩, depth, depth_eq, result⟩ value fits -
    · exact fits
    · exact forall_mem_cons.mpr (forall_mem_cons.mp fits)
  push fits inside := forall_mem_cons.mpr ⟨inside, fits⟩
  top fits shape :=
    ⟨.inl trivial, fun _ => fits _ (shape ▸ mem_cons_self), fun _ _ => trivial⟩
  pop fits shape := by
    rw [shape] at fits
    simpa [Machine.pop, shape] using (forall_mem_cons.mp fits).2
  replace fits shape _ same _ := by
    rw [shape] at fits
    obtain ⟨here, others⟩ := forall_mem_cons.mp fits
    exact forall_mem_cons.mpr ⟨same ▸ here, others⟩
  result _ _ := ⟨.inl trivial, fun _ _ => trivial⟩

/-! ### Evaluation -/

/-- Come to a value: a body is evaluated. -/
def Outcome.settle (evaluate : NodeId → Env → Action Val) : Outcome → Action Val
  | complete value => pure value
  | enter body env => evaluate body env

namespace Action

open Scopes.Spares

variable (setup : Setup) {origin : Scopes} {env : Env}

theorem spares_evaluate (node : NodeId) {inner : Env} (allowed : origin.Allows env inner) :
    Preserves (fun run => origin.Spares env run.scopes) (evaluate setup node inner) :=
  (tallies_evaluate (conduct origin env _) (.ofEnvs _ _) reacts reports nest
    allowed).mirrors.preserves

/-- A block is evaluated in a scope of its own, wherever it stands. -/
theorem spares_evaluate_block {node : NodeId} {statements : List NodeId}
    (present : setup.program.node? node = some (.block statements)) (inner : Env) :
    Preserves (fun run => origin.Spares env run.scopes) (evaluate setup node inner) := by
  have conducted := conduct origin env setup.program
  have kept := Machine.Upkeep.ofEnvs setup.program (origin.Allows env)
  have opens : Tallies True (fun run twin => twin = run ∧ origin.Spares env run.scopes)
      (Frame.openScope setup.program node inner) (Frame.openScope setup.program node inner)
      (origin.Allows env) := by
    simp only [Frame.openScope, present]
    refine tallies_modifyGet ?_
    rintro run _ ⟨rfl, spares⟩
    exact ⟨rfl, ⟨rfl, spares.push _⟩, spares.allows_new inner⟩
  have starts : Tallies True (fun run twin => twin = run ∧ origin.Spares env run.scopes)
      (Machine.start setup node inner) (Machine.start setup node inner)
      fun machine => ∀ frame ∈ machine.frames, origin.Allows env frame.env :=
    (Machine.tallies_enterWith_of_opens kept kept.empty _ _ opens trivial).bind fun _ fits =>
      tallies_pure fits
  refine preserves_get.bind fun run => ?_
  cases setup.limits.nesting - run.nesting with
  | zero => exact preserves_pure _
  | succ levels =>
    exact (tallies_evaluateWithin_succ conducted kept reacts reports nest
      (tallies_evaluateWithin conducted kept reacts reports nest levels) starts).mirrors.preserves

theorem spares_invoke (node : NodeId) (function : Val) (args : List Val) :
    Preserves (fun run => origin.Spares [] run.scopes)
      (invoke (evaluate setup) node function args >>= Outcome.settle (evaluate setup)) := by
  have conducted := conduct origin [] setup.program
  have tallies : ∀ body inner, origin.Allows [] inner →
      Tallies True (fun run twin => twin = run ∧ origin.Spares [] run.scopes)
        (evaluate setup body inner) (evaluate setup body inner) fun _ => True :=
    fun body inner => tallies_evaluate conducted (.ofEnvs _ _) reacts reports nest
  have invoked : Tallies True (fun run twin => twin = run ∧ origin.Spares [] run.scopes)
      (invoke (evaluate setup) node function args) (invoke (evaluate setup) node function args)
      (Outcome.Fares (fun _ => True) fun _ inner => origin.Allows [] inner) :=
    (@calling True _ _ _ _ conducted reports _ _ tallies (fun _ _ => .silent) [] node []
      Scopes.allows_nil).gives_invoke () trivial fun _ _ => trivial
  have settled : ∀ outcome : Outcome,
      outcome.Fares (fun _ => True) (fun _ inner => origin.Allows [] inner) →
      Tallies True (fun run twin => twin = run ∧ origin.Spares [] run.scopes)
        (outcome.settle (evaluate setup)) (outcome.settle (evaluate setup)) fun _ => True := by
    intro outcome fares
    cases outcome with
    | complete value => exact tallies_pure trivial
    | enter body inner => exact tallies body inner fares
  exact (invoked.bind settled).mirrors.preserves

theorem spares_apply (node : NodeId) (function : Val) (args : List Val) :
    Preserves (fun run => origin.Spares [] run.scopes)
      (apply (evaluate setup) node function args) :=
  (@tallies_apply True _ _ _ _ (conduct origin [] setup.program) reports _ _
    (fun _ _ => tallies_evaluate (conduct origin [] setup.program) (.ofEnvs _ _) reacts reports nest)
    node [] Scopes.allows_nil function trivial args fun _ _ => trivial).mirrors.preserves

/-- Evaluating a node to its value, or to a defect, changes no scope that was there but the innermost
scope of its own chain.  A block does not change that one either, and calling a function, from a frame
or from a native, changes none at all: neither the scope of the caller, nor the one in which the
function was defined, nor one that an input closes over. -/
theorem evaluate_spares_all_scopes_but_its_own (setup : Setup) (run : Run) :
    (∀ node env,
      Ensures (evaluate setup node env) run
        (fun _ after => run.scopes.Spares env after.scopes)
        (fun _ after => run.scopes.Spares env after.scopes)) ∧
      (∀ node statements env, setup.program.node? node = some (.block statements) →
        Ensures (evaluate setup node env) run
          (fun _ after => run.scopes.Spares [] after.scopes)
          (fun _ after => run.scopes.Spares [] after.scopes)) ∧
      (∀ node function args,
        Ensures (invoke (evaluate setup) node function args >>= Outcome.settle (evaluate setup)) run
          (fun _ after => run.scopes.Spares [] after.scopes)
          (fun _ after => run.scopes.Spares [] after.scopes)) ∧
      (∀ node function args,
        Ensures (apply (evaluate setup) node function args) run
          (fun _ after => run.scopes.Spares [] after.scopes)
          (fun _ after => run.scopes.Spares [] after.scopes)) := by
  refine ⟨fun node env => ?_, fun node statements env present => ?_, fun node function args => ?_,
    fun node function args => ?_⟩
  · exact spares_evaluate setup node (fun _ _ same => same) run (.refl _ _)
  · exact spares_evaluate_block setup present env run (.refl _ _)
  · exact spares_invoke setup node function args run (.refl _ _)
  · exact spares_apply setup node function args run (.refl _ _)

/-- A block that binds a name which the scope around it binds too leaves that scope alone. -/
theorem evaluate_spares_all_scopes_but_its_own_for_block :
    let setup : Setup := ⟨.ofExpr (.block [.bind "x" (.bool true)]), ⟨8, 1⟩⟩
    let run : Run := { Run.initial with scopes := ⟨#[⟨.run, [("x", .bool false)]⟩]⟩ }
    ∃ value after, evaluate setup 2 [0] run = .ok value after ∧
      after.scopes.cells[0]? = some ⟨.run, [("x", .bool false)]⟩ := by
  intro setup run
  have succeeds : (match evaluate setup 2 [0] run with
      | .ok .. => true
      | .error .. => false) = true := by
    decide +kernel
  have spared := (evaluate_spares_all_scopes_but_its_own setup run).2.1 2 [1] [0] rfl
  rw [Ensures] at spared
  cases result : evaluate setup 2 [0] run with
  | error defect after => simp [result] at succeeds
  | ok value after =>
    rw [result] at spared
    exact ⟨value, after, rfl, spared.kept 0 Nat.one_pos (by simp)⟩

end Action

end Reactor

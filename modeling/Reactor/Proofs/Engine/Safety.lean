import Reactor.Proofs.Engine.Upkeep
import Reactor.Proofs.Run.Holding

/-!
# Evaluation is safe

A run is sound if its values have a lawful property and no defect waits to be reported.  An action is
safe if it meets no defect in a sound run, leaves a sound run behind and gives what it promises.

A machine is sound if its active frame is ready and all others wait, and a machine without frames is
sound if it has a result.  The main result of this module is that every evaluation of a node is safe,
since one step of a sound machine is and gives a sound machine.
-/

namespace Reactor

/-- A run whose values have a property and in which no defect waits. -/
structure Run.Sound (Good : Val → Prop) (run : Run) : Prop where
  holds : run.Holds Good
  calm : run.defect = none

namespace Action

variable {α β : Type} {Good : Val → Prop}

/-- An action that comes to a result without a defect from every sound run. -/
def Safe (Good : Val → Prop) (action : Action α) (promise : α → Prop) : Prop :=
  ∀ run : Run, run.Sound Good →
    Ensures action run (fun value after => after.Sound Good ∧ promise value) (fun _ _ => False)

theorem tallies_iff_safe {action : Action α} {promise : α → Prop} :
    Tallies False (fun run twin => twin = run ∧ run.Sound Good) action action promise ↔
      Safe Good action promise := by
  simp only [tallies_self_iff, and_false, Safe]

theorem safe_pure {value : α} {promise : α → Prop} (kept : promise value) :
    Safe Good (pure value) promise :=
  fun _ sound => ⟨sound, kept⟩

theorem Safe.bind {action : Action α} {next : α → Action β}
    {promise : α → Prop} {promise' : β → Prop} (first : Safe Good action promise)
    (rest : ∀ value, promise value → Safe Good (next value) promise') :
    Safe Good (action >>= next) promise' := by
  intro run sound
  rw [ensures_bind]
  exact (first run sound).map (fun value after ended => rest value ended.2 after ended.1)

theorem safe_get : Safe Good (get : Action Run) (Run.Sound Good) :=
  fun _ sound => ⟨sound, sound⟩

theorem safe_modify {change : Run → Run}
    (kept : ∀ run : Run, run.Sound Good → (change run).Sound Good) :
    Safe Good (modify change : Action PUnit) fun _ => True :=
  fun run sound => ⟨kept run sound, trivial⟩

end Action

/-! ### Runs -/

namespace Val.Law

variable {program : Program} {Good : Val → Prop}

theorem conduct (law : Val.Law program.nodes.size Good) :
    Conduct program (fun run twin => twin = run ∧ run.Sound Good) Good
      fun id _ => id < program.nodes.size where
  fabric inside := law.toFabric.smaller inside
  defines _ _ good :=
    (law.constructor_iff _).mpr fun function mem => (law.closure_iff _).mp (good function mem)
  access name inside good := law.access good name inside
  same := by
    rintro _ run ⟨rfl, -⟩
    rfl
  lookup _ related found := related.2.holds.scopes.lookup? found
  define := by
    rintro _ run _ env _ name - good ⟨rfl, sound⟩
    exact ⟨rfl, { sound.holds with scopes := sound.holds.scopes.define env name good }, sound.calm⟩
  identity := by
    rintro _ run ⟨rfl, sound⟩
    exact ⟨rfl, { sound.holds with }, sound.calm⟩
  provide := by
    rintro _ run name ⟨rfl, sound⟩
    cases ensured : run.streams.ensure? name with
    | none => exact .inl ⟨rfl, rfl⟩
    | some streams =>
      refine .inr ⟨streams, streams, rfl, rfl, rfl, rfl, { sound.holds with streams := ?_ },
        sound.calm⟩
      exact Streams.Holds.ensure? law.toFabric sound.holds.streams ensured
  latest related found := related.2.holds.streams.latest? found
  changed := by
    rintro _ run ⟨rfl, -⟩
    rfl
  node _ present :=
    ⟨fun _ => Program.child_lt_size present, fun _ mem _ _ _ => (law.closure_iff _).mpr
      (Program.child_lt_size present (Node.mem_children_of_mem_bodies mem))⟩
  openBody := by
    rintro _ run function good ⟨rfl, sound⟩
    exact ⟨⟨rfl, { sound.holds with scopes := sound.holds.scopes.child function.env }, sound.calm⟩,
      (law.closure_iff _).mp good⟩
  owner good := (law.native_iff _ _).mp good
  bound good := ((law.method_iff _ _).mp good).imp_right (law.closure_iff _).mpr
  method good found := (law.method_iff _ _).mpr ⟨good, law.body_lt_of_function? good found⟩
  construct := law.construct
  fields := law.visibleFields
  cycle source := law.cycle source _
  openRoot := by
    rintro _ run ⟨rfl, sound⟩
    exact ⟨⟨rfl, { sound.holds with scopes := sound.holds.scopes.root }, sound.calm⟩,
      fun _ inside => inside⟩
  openChild := by
    rintro _ run _ env inside ⟨rfl, sound⟩
    exact ⟨⟨rfl, { sound.holds with scopes := sound.holds.scopes.child env }, sound.calm⟩, inside⟩
  record := by
    rintro _ run _ node good ⟨rfl, sound⟩
    exact ⟨rfl, sound.holds.record node good, sound.calm⟩
  borrowed related known := related.2.holds.borrowed.get? known
  borrow := by
    rintro _ run _ ⟨rfl, sound⟩
    exact ⟨rfl, { sound.holds with }, sound.calm⟩

theorem reacts (program : Program) (Good : Val → Prop) :
    Run.Reacts program (fun run twin => twin = run ∧ run.Sound Good) Good
      fun id _ => id < program.nodes.size where
  value := by
    rintro _ run _ ⟨rfl, -⟩
    rfl
  good related found := related.2.holds.reactions.get? found
  react := by
    rintro _ run _ ⟨rfl, sound⟩
    exact ⟨rfl, { sound.holds with }, sound.calm⟩
  settle := by
    rintro _ run _ _ _ _ _ _ _ _ ⟨rfl, sound⟩ - - - good -
    exact ⟨rfl, sound.holds.addReaction good, sound.calm⟩

theorem reports (Good : Val → Prop) :
    Run.Reports False (fun run twin => twin = run ∧ run.Sound Good) Good where
  take := by
    rintro _ run ⟨rfl, sound⟩
    exact ⟨⟨rfl, { sound.holds with }, rfl⟩, .inr sound.calm⟩
  keep _ impossible := impossible.elim
  lend := by
    rintro _ run _ source good ⟨rfl, sound⟩
    exact ⟨rfl, { sound.holds with
      borrowed := sound.holds.borrowed.define source good
      results := sound.holds.results.define source good }, sound.calm⟩

theorem nest {run twin : Run} (related : twin = run ∧ run.Sound Good) :
    twin.nesting = run.nesting ∧ ∀ count,
      { twin with nesting := count } = { run with nesting := count } ∧
        Run.Sound Good { run with nesting := count } := by
  obtain ⟨rfl, sound⟩ := related
  exact ⟨rfl, fun _ => ⟨rfl, { sound.holds with }, sound.calm⟩⟩

end Val.Law

namespace Action

variable {setup : Setup} {Good : Val → Prop} {evaluate : Evaluation}

theorem safe_openChild (env : Env) : Safe Good (openChild env) fun _ => True :=
  fun _ sound => ⟨⟨{ sound.holds with scopes := sound.holds.scopes.child env }, sound.calm⟩, trivial⟩

theorem safe_defineAll
    (env : Env) {entries : List (String × Val)} (good : ∀ entry ∈ entries, Good entry.2) :
    Safe Good (defineAll env entries) fun _ => True :=
  safe_modify fun _ sound =>
    ⟨{ sound.holds with scopes := sound.holds.scopes.defineAll env good }, sound.calm⟩

end Action

/-! ### Machines -/

theorem Frame.Ready.inside
    {program : Program} {frame : Frame} (ready : frame.Ready program) (other : frame.kind ≠ .body) :
    frame.node < program.nodes.size := by
  unfold Ready at ready
  split at ready
  · obtain ⟨_, present, -⟩ := ready
    exact Program.lt_size_of_node? present
  · next kind => exact absurd kind other
  · obtain ⟨⟨_, _, _, _, present⟩, -⟩ := ready
    exact Program.lt_size_of_node? present
  · obtain ⟨⟨_, _, present⟩, -⟩ := ready
    exact Program.lt_size_of_node? present

namespace Machine

open Reactor.Action

/-- Frames that all wait for a value. -/
def Waiting (program : Program) (Good : Val → Prop) (frames : List Frame) : Prop :=
  ∀ frame ∈ frames, frame.Waits program ∧ frame.Holds Good

/-- A machine that can go on, or that is done and has a result. -/
def Sound (program : Program) (Good : Val → Prop) (machine : Machine) : Prop :=
  match machine.frames with
  | [] => ∃ value, machine.result = some value ∧ Good value
  | top :: rest => (top.Ready program ∧ top.Holds Good) ∧ Waiting program Good rest

theorem sound_deliver {program : Program} {Good : Val → Prop} {machine : Machine}
    (waiting : Waiting program Good machine.frames) {value : Val} (good : Good value) :
    (machine.deliver value).Sound program Good := by
  rcases machine with ⟨_ | ⟨top, rest⟩, depth, depth_eq, result⟩
  · exact ⟨value, rfl, good⟩
  · obtain ⟨⟨waits, holds⟩, others⟩ := List.forall_mem_cons.mp waiting
    exact ⟨⟨waits value, holds.receive good⟩, others⟩

theorem upkeep (program : Program) (Good : Val → Prop) :
    Upkeep program False Good (fun id _ => id < program.nodes.size) (Sound program Good)
      fun machine => Waiting program Good machine.frames where
  empty := List.forall_mem_nil _
  deliver waiting good := sound_deliver waiting good
  push waiting inside :=
    ⟨⟨Frame.ready_fresh inside _, Frame.holds_fresh program _ _⟩, waiting⟩
  top sound shape := by
    simp only [Sound, shape] at sound
    exact ⟨.inr sound.1.1, sound.1.1.inside, sound.1.2⟩
  pop sound shape := by
    simp only [Sound, shape] at sound
    simpa [pop, shape] using sound.2
  replace sound shape waits _ keeps := by
    simp only [Sound, shape] at sound
    exact List.forall_mem_cons.mpr ⟨⟨waits.resolve_left id, keeps.holds⟩, sound.2⟩
  result sound shape := by
    simp only [Sound, shape] at sound
    obtain ⟨value, found, good⟩ := sound
    rw [found]
    exact ⟨.inr (Option.some_ne_none value), fun _ same => Option.some.inj same ▸ good⟩

variable {setup : Setup} {Good : Val → Prop} {evaluate : Evaluation}
  (law : Val.Law setup.program.nodes.size Good)
include law

theorem safe_start {node : NodeId} (inside : node < setup.program.nodes.size) (env : Env) :
    Safe Good (start setup node env) (Sound setup.program Good) :=
  tallies_iff_safe.mp (tallies_start law.conduct (upkeep _ _) inside)

variable (evaluated : ∀ body env, body < setup.program.nodes.size → Safe Good (evaluate body env) Good)
  {machine : Machine} (sound : machine.Sound setup.program Good)
include evaluated sound

theorem safe_step : Safe Good (machine.step setup evaluate) (Sound setup.program Good) :=
  tallies_iff_safe.mp (tallies_step law.conduct (upkeep _ _) (Val.Law.reacts _ _)
    (Val.Law.reports _) (fun body env inside => tallies_iff_safe.mpr (evaluated body env inside))
    sound)

theorem safe_finish :
    Safe Good (machine.finish setup evaluate) fun final =>
      ∃ value, final.result = some value ∧ Good value := by
  have finished := tallies_iff_safe.mp (tallies_finish law.conduct (upkeep _ _) (Val.Law.reacts _ _)
    (Val.Law.reports _) (fun body env inside => tallies_iff_safe.mpr (evaluated body env inside))
    sound)
  refine fun run soundRun => (finished run soundRun).map ?_
  rintro final after ⟨soundAfter, soundFinal, shape⟩
  simp only [Sound, shape] at soundFinal
  exact ⟨soundAfter, soundFinal⟩

end Machine

/-! ### Evaluation -/

namespace Action

variable {setup : Setup} {Good : Val → Prop} (law : Val.Law setup.program.nodes.size Good)
include law

theorem safe_evaluateWithin
    (levels : Nat) {node : NodeId} (inside : node < setup.program.nodes.size) (env : Env) :
    Safe Good (evaluateWithin setup levels node env) Good :=
  tallies_iff_safe.mp (tallies_evaluateWithin law.conduct (Machine.upkeep _ _) (Val.Law.reacts _ _)
    (Val.Law.reports _) Val.Law.nest levels inside)

/-- Every node of the program evaluates to a good value, without a defect. -/
theorem safe_evaluate {node : NodeId} (inside : node < setup.program.nodes.size) (env : Env) :
    Safe Good (evaluate setup node env) Good :=
  safe_get.bind fun _ _ => safe_evaluateWithin law _ inside env

theorem safe_mainMachine (hasMain : setup.program.main?.isSome) :
    Safe Good (mainMachine setup) (Machine.Sound setup.program Good) :=
  tallies_iff_safe.mp (tallies_mainMachine law.conduct (Machine.upkeep _ _) (.inr hasMain))

theorem safe_pass (hasMain : setup.program.main?.isSome) :
    Safe Good (pass setup) fun final => ∃ value, final.result = some value ∧ Good value :=
  (safe_mainMachine law hasMain).bind fun _ sound =>
    Machine.safe_finish law (fun _ env inside => safe_evaluate law inside env) sound

theorem safe_nextValue {condition next : NodeId}
    (insideCondition : condition < setup.program.nodes.size)
    (insideNext : next < setup.program.nodes.size) {prior : Val} (good : Good prior) (env : Env) :
    Safe Good (nextValue setup condition next prior env) Good :=
  tallies_iff_safe.mp (tallies_nextValue law.conduct (Machine.upkeep _ _) (Val.Law.reacts _ _)
    (Val.Law.reports _) Val.Law.nest insideCondition insideNext good)

end Action

end Reactor

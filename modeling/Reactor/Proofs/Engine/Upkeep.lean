import Reactor.Proofs.Engine.Conduct
import Reactor.Proofs.Reaction.Lookup
import Reactor.Proofs.Stream.Waiting

/-!
# The course of machines

A frame is ready if it can go on: it stands over a node of the right form and has received the values
that its kind and phase need.  A frame below another one waits: it is ready once it receives a value.

What holds of evaluation is proved here for frames, for the steps of machines, by induction over the
steps, and by induction over the levels of machines inside machines.  `Machine.Upkeep` lists what is
asked of a property of machines, and `Action.tallies_evaluate` and `Action.tallies_pass` are the whole
course.
-/

namespace Reactor

open List

/-- The number of values that the frame of a reaction has received when a phase goes on. -/
def ReactionPhase.received : ReactionPhase → Nat
  | enter => 0
  | initial => 1
  | condition => 2

/-- The number of values that the frame of a borrowed source has received when a phase goes on. -/
def BorrowPhase.received : BorrowPhase → Nat
  | enter => 0
  | source => 1

namespace Frame

/-- A frame that has what it needs to go on. -/
def Ready (program : Program) (frame : Frame) : Prop :=
  match frame.kind with
  | .operands =>
    ∃ node, program.node? frame.node = some node ∧ node.ownsFrame = false ∧
      frame.values.length ≤ node.operands.length
  | .body => frame.values.length = 1
  | .reaction phase =>
    (∃ initial condition next binding,
      program.node? frame.node = some (.reaction initial condition next binding)) ∧
      frame.values.length = phase.received
  | .borrow phase =>
    (∃ source name, program.node? frame.node = some (.borrow source name)) ∧
      frame.values.length = phase.received

/-- A frame that has what it needs to go on once it receives a value. -/
def Waits (program : Program) (frame : Frame) : Prop :=
  ∀ value, (frame.receive value).Ready program

/-- A frame whose values have a property. -/
def Holds (Good : Val → Prop) (frame : Frame) : Prop :=
  ∀ value ∈ frame.values, Good value

/-- A frame whose values have a property and whose node may be evaluated in its scopes. -/
structure Keeps (Good : Val → Prop) (Enters : NodeId → Env → Prop) (frame : Frame) : Prop where
  entered : frame.kind ≠ .body → Enters frame.node frame.env
  holds : frame.Holds Good

theorem Holds.receive {Good : Val → Prop} {frame : Frame} (holds : frame.Holds Good)
    {value : Val} (good : Good value) :
    (frame.receive value).Holds Good :=
  forall_mem_append.mpr ⟨holds, by simpa using good⟩

theorem holds_fresh {Good : Val → Prop} (program : Program) (id : NodeId) (env : Env) :
    (fresh program id env).Holds Good := by
  simp [fresh, Holds]

theorem ready_fresh
    {program : Program} {id : NodeId} (inside : id < program.nodes.size) (env : Env) :
    (fresh program id env).Ready program := by
  obtain ⟨node, present⟩ := Program.exists_node?_of_lt_size inside
  cases node with
  | reaction initial condition next binding =>
    simp [Ready, fresh, initialKind, present, ReactionPhase.received]
  | borrow source name =>
    simp [Ready, fresh, initialKind, present, BorrowPhase.received]
  | _ => simp [Ready, fresh, initialKind, present, Node.ownsFrame]

end Frame

/-- What a step of a frame promises: a value with a property, or a frame in the same scopes that waits for
the value of another node, which may be evaluated. -/
def Advance.Fares
    {program : Program} {frame : Frame} (fails : Prop) (Good : Val → Prop)
    (Enters : NodeId → Env → Prop) : Advance program frame → Prop
  | complete value => Good value
  | descend next child env _ =>
    (fails ∨ next.Waits program) ∧ next.env = frame.env ∧ next.Keeps Good Enters ∧ Enters child env

/-- What is asked for reactions. -/
structure Run.Reacts
    (program : Program) (R : Run → Run → Prop) (Good : Val → Prop)
    (Enters : NodeId → Env → Prop) : Prop where
  value : ∀ {run twin : Run} (id : NodeId), R run twin →
    (twin.reactions.get? id).map (·.value) = (run.reactions.get? id).map (·.value)
  good : ∀ {run twin : Run} {id reaction}, R run twin →
    run.reactions.get? id = some reaction → Good reaction.value
  react : ∀ {run twin : Run} (count : Nat), R run twin →
    R { run with reacting := count } { twin with reacting := count }
  /-- A reaction of the program whose streams are there may be entered. -/
  settle : ∀ {run twin : Run} {initial condition next id value env} {name binding : Option String},
    R run twin → program.node? id = some (.reaction initial condition next name) →
      program.denotedStreams condition ≠ [] →
      (∀ name ∈ program.denotedStreams condition, (run.streams.get? name).isSome) →
      Good value → Enters id env →
        R (run.addReaction ⟨id, .settled, value, program.denotedStreams condition, env, binding, 0⟩)
          (twin.addReaction ⟨id, .settled, value, program.denotedStreams condition, env, binding, 0⟩)

/-! ### Frames -/

namespace Frame

open Reactor.Action

theorem ensures_missingStream? (names : List String) (run : Run) :
    Ensures (missingStream? names) run
      (fun missing after =>
        (∀ name, (run.streams.get? name).isSome → (after.streams.get? name).isSome) ∧
          (missing = none → ∀ name ∈ names, (after.streams.get? name).isSome))
      (fun _ _ => True) := by
  induction names generalizing run with
  | nil => exact ⟨fun _ present => present, fun _ _ mem => by cases mem⟩
  | cons name rest ih =>
    simp only [missingStream?, ensures_bind]
    simp only [Action.ensureStream, ensures_modifyGet]
    split
    · next streams ensured =>
      have grown := (Streams.grows_ensure? ensured).keepsSubscribers
      refine (ih { run with streams }).map ?_
      rintro missing after ⟨later, there⟩
      refine ⟨fun other present => later other (grown.registered other present), ?_⟩
      intro nothing other mem
      rcases mem_cons.mp mem with rfl | mem
      · exact later other (Streams.isSome_get?_of_ensure? ensured)
      · exact there nothing other mem
    · exact ⟨fun _ present => present, fun impossible => by cases impossible⟩

variable {setup : Setup} {fails : Prop} {R : Run → Run → Prop} {Good : Val → Prop}
  {Enters : NodeId → Env → Prop} {frame : Frame}

theorem tallies_advanceBody
    {program : Program} (doubt : fails ∨ frame.Ready program) (kind : frame.kind = .body)
    (keeps : frame.Keeps Good Enters) :
    Tallies fails R (frame.advanceBody setup) (frame.advanceBody setup)
      (Advance.Fares fails Good Enters) := by
  unfold advanceBody
  split
  · next value last => exact tallies_pure (keeps.holds value (mem_of_getLast? last))
  · next none =>
    refine tallies_throw (doubt.resolve_right fun ready => ?_) _
    simp only [Ready, kind] at ready
    rw [getLast?_eq_none_iff.mp none] at ready
    cases ready

theorem tallies_reactionParts {phase : ReactionPhase} (doubt : fails ∨ frame.Ready setup.program)
    (kind : frame.kind = .reaction phase) :
    Tallies fails R (frame.reactionParts setup) (frame.reactionParts setup) fun parts =>
      ∃ next, setup.program.node? frame.node =
        some (.reaction parts.1 parts.2.1 next parts.2.2) := by
  unfold reactionParts
  split
  · next present => exact tallies_pure ⟨_, present⟩
  · next other =>
    refine tallies_throw (doubt.resolve_right fun ready => ?_) _
    simp only [Ready, kind] at ready
    obtain ⟨⟨initial, condition, next, binding, present⟩, -⟩ := ready
    exact other _ _ _ _ present

theorem waits_reaction
    {program : Program} {phase later : ReactionPhase} (doubt : fails ∨ frame.Ready program)
    (kind : frame.kind = .reaction phase) (next : later.received = phase.received + 1) :
    fails ∨ Waits program { frame with kind := .reaction later } := by
  refine doubt.imp_right fun ready value => ?_
  simp only [Ready, kind] at ready
  simp only [Ready, receive, length_append, length_singleton, next]
  exact ⟨ready.1, congrArg (· + 1) ready.2⟩

theorem tallies_enterReaction (conduct : Conduct setup.program R Good Enters)
    (reacts : Run.Reacts setup.program R Good Enters)
    (doubt : fails ∨ frame.Ready setup.program) (kind : frame.kind = .reaction .enter)
    (keeps : frame.Keeps Good Enters) :
    Tallies fails R (frame.enterReaction setup kind) (frame.enterReaction setup kind)
      (Advance.Fares fails Good Enters) := by
  have entered := keeps.entered (by simp [kind])
  unfold enterReaction
  refine (tallies_reactionParts doubt kind).bind fun parts present => ?_
  obtain ⟨next, present⟩ := present
  refine tallies_of_get fun run twin related => ?_
  have reacting : twin.reacting = run.reacting := by rw [conduct.same related]
  have value := reacts.value frame.node related
  rw [reacting]
  split
  · exact ⟨rfl, related, conduct.failure entered rfl⟩
  · cases found : run.reactions.get? frame.node with
    | some reaction =>
      rw [found] at value
      obtain ⟨other, twinFound, sameValue⟩ := Option.map_eq_some_iff.mp value
      simp only [twinFound, sameValue]
      exact ⟨rfl, related, reacts.good related found⟩
    | none =>
      rw [found, Option.map_none, Option.map_eq_none_iff] at value
      simp only [value]
      exact ⟨rfl, reacts.react (run.reacting + 1) related, waits_reaction doubt kind rfl,
        rfl, ⟨fun _ => entered, keeps.holds⟩,
        (conduct.node entered present).child _ (by simp [Node.children])⟩

theorem tallies_testReaction (conduct : Conduct setup.program R Good Enters)
    (doubt : fails ∨ frame.Ready setup.program) (kind : frame.kind = .reaction .initial)
    (keeps : frame.Keeps Good Enters) :
    Tallies fails R (frame.testReaction setup kind) (frame.testReaction setup kind)
      (Advance.Fares fails Good Enters) := by
  have entered := keeps.entered (by simp [kind])
  refine (tallies_reactionParts doubt kind).bind fun parts present => ?_
  obtain ⟨next, present⟩ := present
  exact tallies_pure ⟨waits_reaction doubt kind rfl, rfl, ⟨fun _ => entered, keeps.holds⟩,
    (conduct.node entered present).child _ (by simp [Node.children])⟩

theorem tallies_missingStream? (manner : Manner R Good Enters) (names : List String) :
    Tallies fails R (missingStream? names) (missingStream? names) fun _ => True := by
  induction names with
  | nil => exact tallies_pure trivial
  | cons name rest ih =>
    refine (tallies_ensureStream manner name).bind fun there _ => ?_
    split
    · exact ih
    · exact tallies_pure trivial

section

variable (manner : Manner R Good Enters) (reacts : Run.Reacts setup.program R Good Enters)
include manner reacts

theorem tallies_settle {id initial condition next : NodeId} {name : Option String}
    (present : setup.program.node? id = some (.reaction initial condition next name)) {env : Env}
    (entered : Enters id env) {value : Val} (good : Good value) (binding : Option String) :
    Tallies fails R (settle id value (setup.program.denotedStreams condition) env binding)
      (settle id value (setup.program.denotedStreams condition) env binding) Good := by
  unfold settle
  split
  · exact tallies_pure (manner.failure entered rfl)
  · next named =>
    intro run twin related
    refine Tally.bind_of_ensures (tallies_missingStream? manner _ _ _ related)
      (ensures_missingStream? _ run) ?_
    rintro missing after twinAfter ⟨-, there⟩ still
    cases missing with
    | some name => exact ⟨rfl, still, manner.failure entered rfl⟩
    | none =>
      exact ⟨rfl, reacts.settle still present (by simpa using named) (there rfl) good entered, good⟩

theorem tallies_settleReaction (doubt : fails ∨ frame.Ready setup.program)
    (kind : frame.kind = .reaction .condition) (keeps : frame.Keeps Good Enters) :
    Tallies fails R (frame.settleReaction setup) (frame.settleReaction setup)
      (Advance.Fares fails Good Enters) := by
  have entered := keeps.entered (by simp [kind])
  refine (tallies_reactionParts doubt kind).bind fun parts present => ?_
  obtain ⟨next, present⟩ := present
  refine Tallies.bind (tallies_modify fun run twin related => ?_) fun _ _ => ?_
  · have reacting : twin.reacting = run.reacting := by rw [manner.same related]
    rw [reacting]
    exact reacts.react (run.reacting - 1) related
  · split
    · next none =>
      refine tallies_throw (doubt.resolve_right fun ready => ?_) _
      simp only [Ready, kind] at ready
      rw [head?_eq_none_iff.mp none] at ready
      cases ready.2
    · next value first =>
      exact (tallies_settle manner reacts present entered
        (keeps.holds value (mem_of_head? first)) _).bind fun _ good => tallies_pure good

end

theorem tallies_borrowParts {phase : BorrowPhase} (doubt : fails ∨ frame.Ready setup.program)
    (kind : frame.kind = .borrow phase) :
    Tallies fails R (frame.borrowParts setup) (frame.borrowParts setup) fun _ => True := by
  unfold borrowParts
  split
  · exact tallies_pure trivial
  · next other =>
    refine tallies_throw (doubt.resolve_right fun ready => ?_) _
    simp only [Ready, kind] at ready
    obtain ⟨⟨source, name, present⟩, -⟩ := ready
    exact other _ _ present

section

variable (conduct : Conduct setup.program R Good Enters)
include conduct

theorem tallies_enterBorrow (doubt : fails ∨ frame.Ready setup.program)
    (kind : frame.kind = .borrow .enter) (keeps : frame.Keeps Good Enters) :
    Tallies fails R (frame.enterBorrow setup kind) (frame.enterBorrow setup kind)
      (Advance.Fares fails Good Enters) := by
  have entered := keeps.entered (by simp [kind])
  have waits : fails ∨ Waits setup.program { frame with kind := .borrow .source } := by
    refine doubt.imp_right fun ready value => ?_
    simp only [Ready, kind] at ready
    simp only [Ready, receive, length_append, length_singleton]
    exact ⟨ready.1, congrArg (· + 1) ready.2⟩
  refine (tallies_borrowParts doubt kind).bind ?_
  rintro ⟨source, name⟩ -
  dsimp only
  split
  · exact tallies_pure (conduct.failure entered rfl)
  · next found isSource =>
    refine tallies_of_get fun run twin related => ?_
    obtain ⟨streams, reactions, nesting, rfl⟩ := conduct.parts related
    cases known : run.borrowed.get? source with
    | some value =>
      have good := conduct.borrowed related known
      refine Tally.bind (tallies_define conduct.toManner entered good name _ _ related)
        fun _ _ => ?_
      exact tallies_pure good
    | none =>
      dsimp only
      split
      · exact ⟨rfl, related, conduct.cycle source entered⟩
      · refine tally_set (Tally.bind (tallies_openRoot conduct _ _
          (conduct.borrow _ related)) fun env opened => ?_)
        exact tallies_pure ⟨waits, rfl, ⟨fun _ => entered, keeps.holds⟩,
          opened _ (Program.root_lt_size_of_source? isSource)⟩

theorem tallies_finishBorrow (reports : Run.Reports fails R Good)
    (doubt : fails ∨ frame.Ready setup.program) (kind : frame.kind = .borrow .source)
    (keeps : frame.Keeps Good Enters) :
    Tallies fails R (frame.finishBorrow setup) (frame.finishBorrow setup)
      (Advance.Fares fails Good Enters) := by
  have entered := keeps.entered (by simp [kind])
  refine (tallies_borrowParts doubt kind).bind ?_
  rintro ⟨source, name⟩ -
  refine Tallies.bind (tallies_modify fun run twin related => ?_) fun _ _ => ?_
  · have borrowing : twin.borrowing = run.borrowing := by rw [conduct.same related]
    rw [borrowing]
    exact conduct.borrow _ related
  · split
    · next none =>
      refine tallies_throw (doubt.resolve_right fun ready => ?_) _
      simp only [Ready, kind] at ready
      rw [getLast?_eq_none_iff.mp none] at ready
      cases ready.2
    · next value last =>
      have good := keeps.holds value (mem_of_getLast? last)
      exact Tallies.bind (tallies_modify fun _ _ related => reports.lend source good related)
        fun _ _ => (tallies_define conduct.toManner entered good name).bind fun _ _ =>
          tallies_pure good

theorem tallies_openScope {id : NodeId} {env : Env} (entered : Enters id env) :
    Tallies fails R (openScope setup.program id env) (openScope setup.program id env)
      (Enters id) := by
  unfold openScope
  split
  · exact tallies_openChild conduct entered
  · exact tallies_pure entered

theorem tallies_advance_of_ne (reacts : Run.Reacts setup.program R Good Enters)
    (evaluate twin : Evaluation) (doubt : fails ∨ frame.Ready setup.program)
    (keeps : frame.Keeps Good Enters) (plain : frame.kind ≠ .operands)
    (other : frame.kind ≠ .borrow .source) :
    Tallies fails R (frame.advance setup evaluate) (frame.advance setup twin)
      (Advance.Fares fails Good Enters) := by
  unfold advance
  split
  · next kind => exact absurd kind plain
  · next kind => exact tallies_advanceBody doubt kind keeps
  · exact tallies_enterReaction conduct reacts doubt _ keeps
  · exact tallies_testReaction conduct doubt _ keeps
  · next kind => exact tallies_settleReaction conduct.toManner reacts doubt kind keeps
  · exact tallies_enterBorrow conduct doubt _ keeps
  · next kind => exact absurd kind other

end

section Evaluating

variable {evaluate twin : Evaluation}
  (conduct : Conduct setup.program R Good Enters) (reports : Run.Reports fails R Good)
  (tallies : ∀ body env, Enters body env → Tallies fails R (evaluate body env) (twin body env) Good)
  (doubt : fails ∨ frame.Ready setup.program) (keeps : frame.Keeps Good Enters)
include conduct reports tallies doubt keeps

theorem tallies_advanceOperands (kind : frame.kind = .operands) :
    Tallies fails R (frame.advanceOperands setup evaluate kind)
      (frame.advanceOperands setup twin kind) (Advance.Fares fails Good Enters) := by
  have entered := keeps.entered (by simp [kind])
  simp only [Ready, kind] at doubt
  unfold advanceOperands
  split
  · next missing =>
    refine tallies_throw (doubt.resolve_right ?_) _
    rintro ⟨node, present, -⟩
    rw [missing] at present
    cases present
  · next node present =>
    simp only [present, Option.some.injEq, exists_eq_left'] at doubt
    split
    · next exception raised =>
      obtain ⟨last, -⟩ := Option.filter_eq_some_iff.mp raised
      exact tallies_pure (keeps.holds exception (mem_of_getLast? last))
    · split
      · next child operand =>
        refine tallies_pure ⟨doubt.imp_right fun plain value => ?_, rfl, keeps, ?_⟩
        · have inside := (List.getElem?_eq_some_iff.mp operand).1
          simp only [Ready, receive, kind, length_append, length_singleton]
          exact ⟨node, present, plain.1, inside⟩
        · exact (conduct.node entered present).child child
            (Node.mem_children_of_mem_operands (mem_of_getElem? operand))
      · next complete =>
        refine (tallies_combine conduct reports tallies entered (conduct.node entered present)
          (doubt.imp_right fun plain => ⟨plain.1, Nat.le_antisymm plain.2
            (List.getElem?_eq_none_iff.mp complete)⟩) keeps.holds).bind fun outcome fares => ?_
        cases outcome with
        | complete value => exact tallies_pure fares
        | enter body env =>
          exact tallies_pure ⟨.inr fun value => rfl, rfl,
            ⟨fun other => absurd rfl other, forall_mem_nil _⟩, fares⟩

theorem tallies_advance (reacts : Run.Reacts setup.program R Good Enters) :
    Tallies fails R (frame.advance setup evaluate) (frame.advance setup twin)
      (Advance.Fares fails Good Enters) := by
  by_cases operands : frame.kind = .operands
  · rcases frame with ⟨id, kind, env, values⟩
    cases operands
    exact tallies_advanceOperands conduct reports tallies doubt keeps rfl
  · by_cases source : frame.kind = .borrow .source
    · rcases frame with ⟨id, kind, env, values⟩
      cases source
      exact tallies_finishBorrow conduct reports doubt rfl keeps
    · exact tallies_advance_of_ne conduct reacts evaluate twin doubt keeps operands source

end Evaluating

end Frame

/-! ### Machines -/

/-- What is asked of a property of machines, and of one of machines that wait for a value. -/
structure Machine.Upkeep
    (program : Program) (fails : Prop) (Good : Val → Prop) (Enters : NodeId → Env → Prop)
    (Fits Waits : Machine → Prop) : Prop where
  empty : Waits .empty
  deliver : ∀ {machine value}, Waits machine → Good value → Fits (machine.deliver value)
  push : ∀ {machine node env}, Waits machine → Enters node env →
    Fits (machine.push (.fresh program node env))
  top : ∀ {machine top rest}, Fits machine → machine.frames = top :: rest →
    (fails ∨ top.Ready program) ∧ top.Keeps Good Enters
  pop : ∀ {machine top rest}, Fits machine → machine.frames = top :: rest → Waits machine.pop
  replace : ∀ {machine top rest next}, Fits machine → (shape : machine.frames = top :: rest) →
    (fails ∨ next.Waits program) → next.env = top.env → next.Keeps Good Enters →
      Waits (machine.replaceTop next top rest shape)
  result : ∀ {machine}, Fits machine → machine.frames = [] →
    (fails ∨ machine.result ≠ none) ∧ ∀ value, machine.result = some value → Good value

namespace Machine

open Reactor.Action

variable {setup : Setup} {fails : Prop} {R : Run → Run → Prop} {Good : Val → Prop}
  {Enters : NodeId → Env → Prop} {Fits Waits : Machine → Prop}
  (conduct : Conduct setup.program R Good Enters)
  (upkeep : Upkeep setup.program fails Good Enters Fits Waits)
include conduct upkeep

section

variable {machine : Machine} (waits : Waits machine) {node : NodeId} {env : Env}
  {Smaller : Machine → Prop} (entered : machine.depth < setup.limits.frames →
    ∀ env, Smaller (machine.push (.fresh setup.program node env)))
  (refused : Smaller (machine.deliver (.failure (.depthLimit setup.limits.frames) node)))
include waits

omit conduct in
theorem tallies_enterWith_of_opens (opens : Tallies fails R (Frame.openScope setup.program node env)
      (Frame.openScope setup.program node env) (Enters node))
    (good : Good (.failure (.depthLimit setup.limits.frames) node)) :
    Tallies fails R (machine.enterWith setup node env Smaller entered refused)
      (machine.enterWith setup node env Smaller entered refused) fun next => Fits next.1 := by
  unfold enterWith
  split
  · exact opens.bind fun _ inside => tallies_pure (upkeep.push waits inside)
  · exact tallies_pure (upkeep.deliver waits good)

theorem tallies_enterWith (enters : Enters node env) :
    Tallies fails R (machine.enterWith setup node env Smaller entered refused)
      (machine.enterWith setup node env Smaller entered refused) fun next => Fits next.1 :=
  tallies_enterWith_of_opens upkeep waits entered refused (Frame.tallies_openScope conduct enters)
    (conduct.failure enters rfl)

end

theorem tallies_start {node : NodeId} {env : Env} (enters : Enters node env) :
    Tallies fails R (start setup node env) (start setup node env) Fits :=
  (tallies_enterWith conduct upkeep upkeep.empty _ _ enters).bind fun _ fits => tallies_pure fits

variable (reacts : Run.Reacts setup.program R Good Enters) (reports : Run.Reports fails R Good)
  {evaluate twin : Evaluation}
  (tallies : ∀ body env, Enters body env → Tallies fails R (evaluate body env) (twin body env) Good)
include reacts reports tallies

theorem tallies_advance {machine : Machine} (fits : Fits machine)
    {top : Frame} {rest : List Frame} (shape : machine.frames = top :: rest) :
    Tallies fails R (machine.advance setup evaluate top rest shape)
      (machine.advance setup twin top rest shape) fun next => Fits next.1 := by
  obtain ⟨doubt, keeps⟩ := upkeep.top fits shape
  refine (Frame.tallies_advance conduct reports tallies doubt keeps reacts).bind
    fun advance fares => ?_
  cases advance with
  | complete value =>
    exact (tallies_record conduct fares top.node).bind fun _ _ =>
      tallies_pure (upkeep.deliver (upkeep.pop fits shape) fares)
  | descend next child env lower =>
    obtain ⟨waits, same, keepsNext, enters⟩ := fares
    exact tallies_enterWith conduct upkeep (upkeep.replace fits shape waits same keepsNext) _ _ enters

theorem tallies_step {machine : Machine} (fits : Fits machine) :
    Tallies fails R (machine.step setup evaluate) (machine.step setup twin) Fits := by
  unfold step
  split
  · exact tallies_pure fits
  · next shape =>
    exact (tallies_advance conduct upkeep reacts reports tallies fits shape).bind fun _ fitsNext =>
      tallies_pure fitsNext

theorem tallies_finish {machine : Machine} (fits : Fits machine) :
    Tallies fails R (machine.finish setup evaluate) (machine.finish setup twin) fun final =>
      Fits final ∧ final.frames = [] := by
  rw [finish, finish]
  split
  · next shape => exact tallies_pure ⟨fits, shape⟩
  · next shape =>
    exact (tallies_advance conduct upkeep reacts reports tallies fits shape).bind
      fun next fitsNext => tallies_finish fitsNext
termination_by machine.size setup
decreasing_by exact next.2

end Machine

/-! ### Evaluation -/

namespace Action

variable {setup : Setup} {fails : Prop} {R : Run → Run → Prop} {Good : Val → Prop}
  {Enters : NodeId → Env → Prop} {Fits Waits : Machine → Prop}
  (conduct : Conduct setup.program R Good Enters)
  (upkeep : Machine.Upkeep setup.program fails Good Enters Fits Waits)
include conduct upkeep

theorem tallies_mainMachine (doubt : fails ∨ setup.program.main?.isSome) :
    Tallies fails R (mainMachine setup) (mainMachine setup) Fits := by
  unfold mainMachine
  split
  · next main isMain =>
    exact (tallies_openRoot conduct).bind fun _ opened =>
      Machine.tallies_start conduct upkeep (opened _ (Program.root_lt_size_of_main? isMain))
  · next missing =>
    refine tallies_throw (doubt.resolve_right fun present => ?_) _
    rw [missing] at present
    cases present

variable (reacts : Run.Reacts setup.program R Good Enters) (reports : Run.Reports fails R Good)
  (nest : ∀ {run twin : Run}, R run twin → twin.nesting = run.nesting ∧
    ∀ count, R { run with nesting := count } { twin with nesting := count })
include reacts reports nest

theorem tallies_evaluateWithin_succ {levels : Nat} (inner : ∀ {body env}, Enters body env →
      Tallies fails R (evaluateWithin setup levels body env) (evaluateWithin setup levels body env)
        Good)
    {node : NodeId} {env : Env}
    (starts : Tallies fails R (Machine.start setup node env) (Machine.start setup node env) Fits) :
    Tallies fails R (evaluateWithin setup (levels + 1) node env)
      (evaluateWithin setup (levels + 1) node env) Good := by
  have finishes := starts.bind fun machine fits =>
    Machine.tallies_finish conduct upkeep reacts reports (fun _ _ inside => inner inside) fits
  refine Tallies.bind (tallies_modify fun run twin related => ?_) fun _ _ => ?_
  · rw [(nest related).1]
    exact (nest related).2 (run.nesting + 1)
  · refine (tallies_cleaningUp finishes fun run twin related => ?_).bind fun machine done => ?_
    · rw [(nest related).1]
      exact (nest related).2 (run.nesting - 1)
    · obtain ⟨doubt, good⟩ := upkeep.result done.1 done.2
      split
      · next value found => exact tallies_pure (good value found)
      · next none => exact tallies_throw (doubt.resolve_right fun some => some none) _

theorem tallies_evaluateWithin
    (levels : Nat) {node : NodeId} {env : Env} (enters : Enters node env) :
    Tallies fails R (evaluateWithin setup levels node env) (evaluateWithin setup levels node env)
      Good := by
  induction levels generalizing node env with
  | zero => exact tallies_pure (conduct.failure enters rfl)
  | succ levels ih =>
    exact tallies_evaluateWithin_succ conduct upkeep reacts reports nest ih
      (Machine.tallies_start conduct upkeep enters)

theorem tallies_evaluate {node : NodeId} {env : Env} (enters : Enters node env) :
    Tallies fails R (evaluate setup node env) (evaluate setup node env) Good := by
  refine tallies_of_get fun run twin related => ?_
  rw [(nest related).1]
  exact tallies_evaluateWithin conduct upkeep reacts reports nest _ enters run twin related

theorem tallies_pass (doubt : fails ∨ setup.program.main?.isSome) :
    Tallies fails R (pass setup) (pass setup) fun final => Fits final ∧ final.frames = [] :=
  (tallies_mainMachine conduct upkeep doubt).bind fun _ fits =>
    Machine.tallies_finish conduct upkeep reacts reports
      (fun _ _ enters => tallies_evaluate conduct upkeep reacts reports nest enters) fits

theorem tallies_nextValue
    {condition next : NodeId} {prior : Val} {env : Env} (entersCondition : Enters condition env)
    (entersNext : Enters next env) (good : Good prior) :
    Tallies fails R (nextValue setup condition next prior env)
      (nextValue setup condition next prior env) Good := by
  refine (tallies_evaluate conduct upkeep reacts reports nest entersCondition).bind
    fun answer goodAnswer => ?_
  split
  · exact tallies_evaluate conduct upkeep reacts reports nest entersNext
  · exact tallies_pure good
  · exact tallies_pure goodAnswer
  · exact tallies_pure (conduct.failure entersCondition rfl)

end Action

/-! ### Updates -/

namespace Action

variable {setup : Setup} {P : Run → Prop}

theorem preserves_nextValue_of
    {env : Env} (evaluated : ∀ node, Preserves P (evaluate setup node env))
    (condition next : NodeId) (prior : Val) :
    Preserves P (nextValue setup condition next prior env) := by
  refine (evaluated condition).bind fun answer => ?_
  split
  · exact evaluated next
  · exact preserves_pure _
  · exact preserves_pure _
  · exact preserves_pure _

/-- What outlives evaluation and new values of reactions outlives updates, if it is not about scopes or
the number of reactions under evaluation. -/
theorem preserves_update_of
    (elsewhere : ∀ {run : Run} scopes reacting, P run → P { run with scopes, reacting })
    (evaluated : ∀ node env, Preserves P (evaluate setup node env))
    (settled : ∀ run id value, P run →
      P { run with reactions := run.reactions.change id (·.settle value) })
    (id : NodeId) :
    Preserves P (update setup id) := by
  have begins : ∀ reaction, Preserves P (beginUpdate reaction) := by
    intro reaction run holds
    simp only [beginUpdate, openChild, defineAll, ensures_bind, ensures_modifyGet, ensures_get,
      ensures_modify, ensures_pure]
    exact elsewhere _ _ holds
  unfold update
  split
  · refine preserves_get.bind fun run => ?_
    split
    · exact preserves_throw _
    · refine (begins _).bind fun env => ?_
      refine (preserves_cleaningUp (preserves_nextValue_of (evaluated · env) _ _ _) ?_).bind
        fun value => ?_
      · exact fun run holds => elsewhere run.scopes _ holds
      · refine preserves_get.bind fun _ => ?_
        split
        · exact preserves_throw _
        · exact preserves_modify fun run => settled run id value
  · exact preserves_throw _

theorem preserves_updateAll_of (updated : ∀ id, Preserves P (update setup id)) (ids : List NodeId) :
    Preserves P (updateAll setup ids) := by
  induction ids with
  | nil => exact preserves_pure _
  | cons id rest ih => exact (updated id).bind fun _ => ih

end Action

end Reactor

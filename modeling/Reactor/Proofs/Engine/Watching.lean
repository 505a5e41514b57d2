import Reactor.Proofs.Engine.Exceptions
import Reactor.Proofs.Engine.Refinement
import Reactor.Proofs.Engine.Upkeep

/-!
# Watching evaluations

Some facts are about all that has happened so far: what was evaluated, how often, and what came of it.
A watch is such a fact, told by the machines that are under way, by the history and by the run.  It
must stand what a single step does to reactions and sources; whatever else happens in an evaluation
leaves these aside.

The main result is that a watch is kept in the whole course of evaluations, with natives that start
machines inside of steps.  At a defect less is asked, since nothing follows it: a native that learns of
a defect calls nothing any more, and the defect is reported when the native is done.
-/

namespace Reactor

/-- What has happened so far.  It is told of each event whether it belongs to the update of a
reaction. -/
abbrev History := List (Bool × Event)

/-- Events that follow a history. -/
def History.add (history : History) (updating : Bool) (events : List Event) : History :=
  history ++ events.map (updating, ·)

section

variable (history : History) (updating : Bool)
include history

@[simp]
theorem History.add_nil : history.add updating [] = history :=
  List.append_nil history

@[simp]
theorem History.add_silent (run : Run) : history.add updating (Log.silent run) = history :=
  history.add_nil updating

theorem History.add_append (events others : List Event) :
    history.add updating (events ++ others) = (history.add updating events).add updating others := by
  simp [add]

@[simp]
theorem History.map_snd_add (events : List Event) :
    (history.add updating events).map Prod.snd = history.map Prod.snd ++ events := by
  simp [add, Function.comp_def]

end

/-! ### What leaves reactions and sources aside -/

/-- Nothing changes that tells of reactions and sources, and streams at most come into being. -/
structure Run.Aside (run after : Run) : Prop where
  reactions : after.reactions = run.reactions
  reacting : after.reacting = run.reacting
  borrowed : after.borrowed = run.borrowed
  borrowing : after.borrowing = run.borrowing
  streams : run.streams.Extends after.streams

theorem Run.Aside.refl (run : Run) : run.Aside run :=
  ⟨rfl, rfl, rfl, rfl, .refl _⟩

theorem Run.Aside.manner (origin : Run) :
    Manner (fun run twin => twin = run ∧ origin.Aside run) (fun _ => True) (fun _ _ => True) where
  fabric _ := .ofTrue _
  defines _ _ _ := trivial
  access _ _ _ := trivial
  same := by
    rintro _ run ⟨rfl, -⟩
    rfl
  lookup _ _ _ := trivial
  define := by
    rintro _ run _ _ _ _ - - ⟨rfl, aside⟩
    exact ⟨rfl, { aside with }⟩
  identity := by
    rintro _ run ⟨rfl, aside⟩
    exact ⟨rfl, { aside with }⟩
  provide := by
    rintro _ run name ⟨rfl, aside⟩
    cases ensured : run.streams.ensure? name with
    | none => exact .inl ⟨rfl, rfl⟩
    | some streams =>
      refine .inr ⟨streams, streams, rfl, rfl, rfl, rfl, { aside with streams := ?_ }⟩
      exact aside.streams.trans (Streams.extends_ensure? ensured)
  latest _ _ := trivial
  changed := by
    rintro _ run ⟨rfl, -⟩
    rfl

/-- An action that leaves reactions and sources aside. -/
def Action.StaysAside {α : Type} (action : Action α) : Prop :=
  ∀ run : Run, Ensures action run (fun _ => run.Aside) (fun _ => run.Aside)

namespace Action

variable {α : Type}

theorem staysAside_pure (value : α) : StaysAside (pure value) :=
  fun run => .refl run

theorem staysAside_throw (defect : Defect) : StaysAside (throw defect : Action α) :=
  fun run => .refl run

theorem staysAside_enter
    (function : Closure) (receiver : Option Val) (args : List Val) (node : NodeId) :
    StaysAside (enter function receiver args node) := by
  intro run
  unfold enter
  split
  · exact { Run.Aside.refl run with }
  · exact .refl run

theorem staysAside_combine {setup : Setup} {evaluate : Evaluation} (id : NodeId) {node : Node}
    (simple : node.calls = false) (values : List Val) (env : Env) :
    StaysAside (combine setup evaluate id node values env) :=
  fun run => (tallies_combine_of_not_calls (Run.Aside.manner run) trivial evaluate evaluate simple
    ⟨fun _ _ => trivial, fun _ _ _ _ _ => trivial⟩ (.inl trivial)
    fun _ _ => trivial).mirrors.preserves run (.refl run)

end Action

/-! ### What steps lead to -/

/-- A machine that was just started. -/
def Machine.Fresh (program : Program) (machine : Machine) : Prop :=
  machine.frames = [] ∨ ∃ node env, machine = empty.push (.fresh program node env)

namespace Advance

variable {program : Program} {frame : Frame}

/-- What lies on a stack after a step of its active frame, before the step has its effect above. -/
def onto (lower : Machine) : Advance program frame → Machine
  | complete _ => lower
  | descend next _ _ _ => lower.push next

/-- The machine that a step of the active frame leads to: the value is handed down, or another node is
entered or refused. -/
def LeadsTo (lower : Machine) (advance : Advance program frame) (next : Machine) : Prop :=
  (∃ value, next = (advance.onto lower).deliver value) ∨
    ∃ node env, next = (advance.onto lower).push (.fresh program node env)

/-- The frame goes on with operands or a body. -/
def Idle : Advance program frame → Prop
  | complete _ => True
  | descend next _ _ _ => next.kind = .operands ∨ next.kind = .body

end Advance

namespace Machine

variable {setup : Setup} {evaluate : Evaluation}

theorem aside_start (node : NodeId) (env : Env) (run : Run) :
    Ensures (start setup node env) run
      (fun machine after => run.Aside after ∧ machine.Fresh setup.program) (fun _ _ => False) := by
  refine (ensures_enter empty node env run).map ?_
  rintro next _ ⟨⟨scopes, rfl⟩, ⟨value, rfl⟩ | entered⟩
  · exact ⟨{ Run.Aside.refl run with }, .inl rfl⟩
  · exact ⟨{ Run.Aside.refl run with }, .inr entered⟩

/-- A step of a machine is a step of its active frame, and what follows leaves reactions and sources
aside.  It fails only if the frame does. -/
theorem ensures_step (lower : Machine) (frame : Frame) (run : Run) :
    Ensures ((lower.push frame).step setup evaluate) run
      (fun next after => ∃ advance between, frame.advance setup evaluate run = .ok advance between ∧
        between.Aside after ∧ advance.LeadsTo lower next)
      (fun defect after => frame.advance setup evaluate run = .error defect after) := by
  rw [step_push_eq, ensures_bind]
  refine (ensures_end (frame.advance setup evaluate) run).map ?_
  intro advance between advanced
  cases advance with
  | complete value => exact ⟨_, between, advanced, { Run.Aside.refl between with }, .inl ⟨value, rfl⟩⟩
  | descend next child env smaller =>
    refine (ensures_enter (lower.push next) child env between).imp ?_
      fun _ _ impossible => impossible.elim
    rintro entered _ ⟨⟨scopes, rfl⟩, enters⟩
    exact ⟨_, between, advanced, { Run.Aside.refl between with }, enters⟩

theorem eq_of_complete {machine : Machine} {node : NodeId} {value other : Val} {run : Run}
    (same : machine.complete node value run = machine.complete node other run) :
    value = other := by
  have delivered : machine.deliver value = machine.deliver other := by
    have results := same
    simp only [complete, Action.record, bind, EStateM.bind, modify_apply, pure, EStateM.pure,
      EStateM.Result.ok.injEq] at results
    exact results.1
  rcases machine with ⟨_ | ⟨top, rest⟩, depth, depth_eq, result⟩
  · simpa [deliver] using delivered
  · simpa [deliver, Frame.receive] using delivered

theorem complete_ne_enter {machine : Machine} {frame : Frame} {node child : NodeId} {value : Val}
    {env : Env} {run start : Run} :
    machine.complete node value run ≠ (machine.push frame).enter setup child env start := by
  intro same
  have entered := @ensures_enter setup (machine.push frame) child env start
  rw [Ensures, ← same] at entered
  have level : (machine.deliver value).depth = machine.depth := depth_deliver _ _
  rcases entered.2 with ⟨other, delivered⟩ | ⟨_, _, pushed⟩
  · simp [delivered] at level
  · rw [pushed, depth_push, depth_push] at level
    omega

end Machine

/-! ### Watches -/

/-- A fact about the machines that are under way, the innermost first, the history and the run.  What
is asked of it is about the single steps of an evaluation.  `Knows` is what is asked of the functions
that evaluate bodies, and `Past` what is left of the fact after a defect. -/
structure Watch (setup : Setup) (updating : Bool) where
  Knows : (NodeId → Env → Action Val) → Prop
  Holds : List Machine → History → Run → Prop
  Past : History → Run → Prop
  knows : Knows (Action.evaluate setup)
  knowsWithin : ∀ levels, Knows (Action.evaluateWithin setup levels)
  past : ∀ {machines history run}, Holds machines history run → Past history run
  aside : ∀ {machines history} {run after : Run}, Holds machines history run → run.Aside after →
    Holds machines history after
  pastAside : ∀ {history} {run after : Run}, Past history run → run.Aside after → Past history after
  called : ∀ {machines history run} function args, Holds machines history run →
    Holds machines (history.add updating [.called machines function args]) run
  started : ∀ {waiting history} {run after : Run} {machine : Machine},
    Holds waiting history run → run.Aside after → machine.Fresh setup.program →
      Holds (machine :: waiting)
        (history.add updating [.moved ⟨waiting, .empty, run, machine, after⟩]) after
  ended : ∀ {machine : Machine} {waiting history run}, Holds (machine :: waiting) history run →
    machine.frames = [] → Holds waiting history run
  /-- A frame takes a step at which no operands are combined. -/
  stepped : ∀ {lower next : Machine} {frame : Frame} {waiting history} {run between after : Run}
      {evaluate} {advance : Advance setup.program frame},
    frame.kind ≠ .operands → Holds (lower.push frame :: waiting) history run →
      frame.advance setup evaluate run = .ok advance between → between.Aside after →
      advance.LeadsTo lower next → (lower.push frame).step setup evaluate run = .ok next after →
        Holds (next :: waiting)
          (history.add updating [.moved ⟨waiting, lower.push frame, run, next, after⟩]) after
  failed : ∀ {lower : Machine} {frame : Frame} {waiting history} {run after : Run} {evaluate defect},
    frame.kind ≠ .operands → Holds (lower.push frame :: waiting) history run →
      frame.advance setup evaluate run = .error defect after → Past history after
  /-- A frame combines operands, and some events happen on the way. -/
  combined : ∀ {lower next : Machine} {frame : Frame} {waiting history events}
      {run between after : Run} {evaluate} {advance : Advance setup.program frame},
    frame.kind = .operands → Holds (lower.push frame :: waiting) history run → Knows evaluate →
      frame.advance setup evaluate run = .ok advance between →
      Holds (lower.push frame :: waiting) (history.add updating events) between → advance.Idle →
      between.Aside after → advance.LeadsTo lower next →
      (lower.push frame).step setup evaluate run = .ok next after →
        Holds (next :: waiting)
          ((history.add updating events).add updating
            [.moved ⟨waiting, lower.push frame, run, next, after⟩]) after

namespace Watch

open Reactor.Action

variable {setup : Setup} {updating : Bool} (watch : Watch setup updating) {α β : Type}

/-- An action keeps the watch, and its log joins the history. -/
def Keeps (waiting : List Machine) (action : Action α) (log : Log) : Prop :=
  ∀ history run, watch.Holds waiting history run →
    Ensures action run
      (fun _ after => watch.Holds waiting (history.add updating (log run)) after)
      (fun _ after => watch.Past (history.add updating (log run)) after)

/-- A call that a native makes.  It never fails: where a defect is kept, the value is an exception. -/
def Answers (waiting : List Machine) (action : Action Val) (log : Log) : Prop :=
  ∀ history run, watch.Holds waiting history run →
    Ensures action run
      (fun value after =>
        watch.Holds waiting (history.add updating (log run)) after ∨
          value.isException = true ∧ after.defect.isSome = true ∧
            watch.Past (history.add updating (log run)) after)
      (fun _ _ => False)

variable {watch} {waiting : List Machine} {action : Action α} {log : Log}

theorem keeps_of_staysAside (stays : StaysAside action) : watch.Keeps waiting action .silent := by
  intro history run holds
  simp only [History.add_silent]
  exact (stays run).imp (fun _ _ => watch.aside holds)
    fun _ _ aside => watch.pastAside (watch.past holds) aside

theorem Keeps.bind {next : α → Action β} {logged : α → Log} (first : watch.Keeps waiting action log)
    (rest : ∀ value, watch.Keeps waiting (next value) (logged value)) :
    watch.Keeps waiting (action >>= next) fun run => log run ++ action.behind logged run := by
  intro history run holds
  refine ensures_bind_behind
    (fun events _ => watch.Holds waiting (history.add updating (log run ++ events)))
    (fun events _ => watch.Past (history.add updating (log run ++ events))) ?_
  simp only [History.add_append, History.add_nil]
  exact (first history run holds).map (fun value between => rest value _ between)

theorem Answers.bind {action : Action Val} {next : Val → Action Val} {logged : Val → Log}
    (first : watch.Answers waiting action log)
    (passes : ∀ value : Val, value.isException = true →
      next value = pure value ∧ logged value = .silent)
    (rest : ∀ value, watch.Answers waiting (next value) (logged value)) :
    watch.Answers waiting (action >>= next) fun run => log run ++ action.behind logged run := by
  intro history run holds
  refine ensures_bind_behind
    (fun events (value : Val) after =>
      watch.Holds waiting (history.add updating (log run ++ events)) after ∨
        value.isException = true ∧ after.defect.isSome = true ∧
          watch.Past (history.add updating (log run ++ events)) after)
    (fun _ _ _ => False) ?_
  refine (first history run holds).map ?_
  rintro value between answered
  cases raised : value.isException with
  | true =>
    -- nothing follows, whether a defect is kept or not
    obtain ⟨same, silent⟩ := passes value raised
    rw [same, silent, Log.silent, List.append_nil]
    exact answered.imp_right fun kept => ⟨raised, kept.2⟩
  | false =>
    simp only [raised, Bool.false_eq_true, false_and, or_false] at answered
    rw [History.add_append]
    exact rest value _ between answered

theorem Answers.reported {action : Action Val} (answers : watch.Answers waiting action log) :
    watch.Keeps waiting (action >>= Action.reported) log := by
  intro history run holds
  rw [ensures_bind]
  refine (answers history run holds).imp ?_ fun _ _ impossible => impossible.elim
  intro value after answered
  simp only [Action.reported, takeDefect, ensures_bind, ensures_modifyGet]
  cases waits : after.defect with
  | some defect =>
    exact watch.pastAside (answered.elim watch.past fun kept => kept.2.2)
      { Run.Aside.refl after with }
  | none =>
    have still := answered.resolve_right fun kept => by simp [waits] at kept
    exact watch.aside still { Run.Aside.refl after with }

/-- Calls are watched if the evaluation of bodies is. -/
def calling
    {evaluate : NodeId → Env → Action Val} {evaluated : NodeId → Env → Log}
    (keeps : ∀ body env, watch.Keeps waiting (evaluate body env) (evaluated body env))
    (node : NodeId) : Calling.Plain evaluate evaluated waiting node where
  Gives := watch.Keeps waiting
  Answers := watch.Answers waiting
  enter function receiver args := keeps_of_staysAside (staysAside_enter function receiver args node)
  complete _ := keeps_of_staysAside (staysAside_pure _)
  done _ history run holds := .inl (by rwa [History.add_silent])
  chain := Answers.bind
  report := Answers.reported
  answer := by
    intro function args log gives history run holds
    have inside := Keeps.bind gives fun outcome =>
      show watch.Keeps waiting
          (match outcome with
            | .complete value => pure value
            | .enter body env => evaluate body env)
          (outcomeLog evaluated outcome) by
        cases outcome with
        | complete value => exact keeps_of_staysAside (staysAside_pure value)
        | enter body env => exact keeps body env
    have ended := inside _ run (watch.called function args holds)
    rw [← History.add_append] at ended
    rw [apply, ensures_bind, ensures_attempt]
    refine ended.imp (fun _ _ => .inl) ?_
    intro defect after past
    refine .inr ⟨rfl, ?_, watch.pastAside past { Run.Aside.refl after with }⟩
    show (after.defect <|> some defect).isSome = true
    cases after.defect with
    | none => rfl
    | some _ => rfl

/-! ### Machines -/

section Machines

variable {evaluate : Evaluation} {evaluated : List Machine → NodeId → Env → Log}
  (knows : watch.Knows evaluate)
  (keeps : ∀ waiting body env, watch.Keeps waiting (evaluate body env) (evaluated waiting body env))

include keeps in
theorem keeps_operands (waiting : List Machine) (id : NodeId) (env : Env) (values : List Val) :
    ∀ history run, watch.Holds waiting history run →
      Ensures (Frame.advance setup evaluate ⟨id, .operands, env, values⟩) run
        (fun advance after => watch.Holds waiting (history.add updating
          (Frame.log setup evaluate (evaluated waiting) waiting ⟨id, .operands, env, values⟩ run))
            after ∧ advance.Idle)
        (fun _ after => watch.Past (history.add updating
          (Frame.log setup evaluate (evaluated waiting) waiting ⟨id, .operands, env, values⟩ run))
            after) := by
  intro history run holds
  cases present : setup.program.node? id with
  | none =>
    rw [Frame.advance_missing present]
    simp only [Frame.log, Frame.combines?, present, History.add_silent]
    exact watch.past holds
  | some node =>
    cases passed : Frame.passedOn? node values with
    | some exception =>
      rw [Frame.advance_passes present passed]
      simp only [Frame.log, Frame.combines?, present, passed, History.add_silent]
      exact ⟨holds, trivial⟩
    | none =>
      cases next : node.operands[values.length]? with
      | some child =>
        obtain ⟨smaller, advanced⟩ := Frame.advance_operand present passed next env
        rw [advanced]
        simp only [Frame.log, Frame.combines?, present, passed, next, History.add_silent]
        exact ⟨holds, .inl rfl⟩
      | none =>
        obtain ⟨smaller, advanced⟩ := Frame.advance_combine present passed next env
        rw [advanced, ensures_bind]
        simp only [Frame.log, Frame.combines?, present, passed, next]
        have combines : watch.Keeps waiting (combine setup evaluate id node values env)
            (combineLog evaluate (evaluated waiting) waiting id node values) :=
          (calling (keeps waiting) id).gives_combine node values env
            (fun simple => keeps_of_staysAside (staysAside_combine id simple values env))
            (keeps_of_staysAside (staysAside_throw _))
        refine (combines history run holds).map ?_
        intro outcome after kept
        cases outcome with
        | complete value => exact ⟨kept, trivial⟩
        | enter body inner => exact ⟨kept, .inr rfl⟩

include knows keeps

theorem keeps_step (waiting : List Machine) (machine : Machine) :
    ∀ history run, watch.Holds (machine :: waiting) history run →
      Ensures (machine.step setup evaluate) run
        (fun next after => watch.Holds (next :: waiting) (history.add updating
          (machine.stepLog setup evaluate evaluated waiting run)) after)
        (fun _ after => watch.Past (history.add updating
          (machine.stepLog setup evaluate evaluated waiting run)) after) := by
  intro history run holds
  rcases Machine.eq_nil_or_push machine with empty | ⟨lower, frame, rfl⟩
  · rw [Machine.step_of_nil empty, Machine.stepLog_of_nil waiting empty]
    rwa [ensures_pure, History.add_silent]
  simp only [Machine.stepLog_push, History.add_append]
  refine ensures_behind
    (fun events next => watch.Holds (next :: waiting) (History.add _ updating events))
    (fun events _ => watch.Past (History.add _ updating events)) ?_
  simp only [History.add_nil]
  refine ((Machine.ensures_step lower frame run).and (ensures_end _ run)).imp ?_ ?_
  · rintro next after ⟨⟨advance, between, advanced, aside, leads⟩, stepped⟩
    by_cases operands : frame.kind = .operands
    · rcases frame with ⟨id, kind, env, values⟩
      cases operands
      have combines := keeps_operands keeps _ id env values history run holds
      rw [Ensures, advanced] at combines
      exact watch.combined rfl holds knows advanced combines.1 combines.2 aside leads stepped
    · rw [Frame.log_of_kind_ne _ operands, History.add_silent]
      exact watch.stepped operands holds advanced aside leads stepped
  · rintro defect after ⟨advanced, -⟩
    by_cases operands : frame.kind = .operands
    · rcases frame with ⟨id, kind, env, values⟩
      cases operands
      have combines := keeps_operands keeps _ id env values history run holds
      rwa [Ensures, advanced] at combines
    · rw [Frame.log_of_kind_ne _ operands, History.add_silent]
      exact watch.failed operands holds advanced

theorem keeps_finish (waiting : List Machine) (machine : Machine) :
    ∀ history run, watch.Holds (machine :: waiting) history run →
      Ensures (machine.finish setup evaluate) run
        (fun final after => final.frames = [] ∧ watch.Holds (final :: waiting) (history.add updating
          (machine.finishLog setup evaluate evaluated waiting run)) after)
        (fun _ after => watch.Past (history.add updating
          (machine.finishLog setup evaluate evaluated waiting run)) after) := by
  intro history run holds
  rcases Machine.eq_nil_or_push machine with empty | ⟨lower, frame, shape⟩
  · rw [Machine.finish_of_nil empty, Machine.finishLog_of_nil waiting empty]
    exact ⟨empty, by rwa [History.add_silent]⟩
  · have stepped := keeps_step knows keeps waiting machine history run holds
    simp only [Ensures] at stepped
    cases moved : machine.step setup evaluate run with
    | error defect after =>
      rw [moved] at stepped
      rw [Ensures, Machine.finish_of_error moved, Machine.finishLog_of_error waiting moved]
      exact stepped
    | ok next after =>
      rw [moved] at stepped
      rw [ensures_congr (Machine.finish_of_ok moved), Machine.finishLog_of_ok waiting moved,
        History.add_append]
      have smaller := Machine.size_of_push_step (shape ▸ moved)
      exact keeps_finish waiting next _ after stepped
termination_by machine.size setup
decreasing_by exact shape ▸ smaller

end Machines

/-! ### Evaluation -/

variable {history : History} {run : Run}

section

variable {start : Action Machine} (starts : ∀ run, Ensures start run
    (fun machine after => run.Aside after ∧ machine.Fresh setup.program) (fun _ => run.Aside))
include starts

theorem keeps_started (holds : watch.Holds waiting history run) :
    Ensures start run
      (fun machine after => watch.Holds (machine :: waiting)
        (history.add updating (Machine.startLog waiting start run)) after)
      (fun _ after => watch.Past (history.add updating (Machine.startLog waiting start run))
        after) := by
  refine ensures_behind
    (fun events machine => watch.Holds (machine :: waiting) (history.add updating events))
    (fun events _ => watch.Past (history.add updating events)) ((starts run).imp ?_ ?_)
  · exact fun machine after ⟨aside, fresh⟩ => watch.started holds aside fresh
  · intro defect after aside
    rw [History.add_nil]
    exact watch.pastAside (watch.past holds) aside

theorem keeps_started_finish {evaluate : Evaluation} {evaluated : List Machine → NodeId → Env → Log}
    (knows : watch.Knows evaluate)
    (keeps : ∀ waiting body env,
      watch.Keeps waiting (evaluate body env) (evaluated waiting body env))
    (holds : watch.Holds waiting history run) :
    let log := Machine.startLog waiting start run ++
      start.behind (Machine.finishLog setup evaluate evaluated waiting) run
    Ensures (start >>= fun machine => machine.finish setup evaluate) run
      (fun final after => final.frames = [] ∧
        watch.Holds (final :: waiting) (history.add updating log) after)
      (fun _ after => watch.Past (history.add updating log) after) := by
  simp only [History.add_append]
  refine ensures_bind_behind
    (fun events final after => final.frames = [] ∧
      watch.Holds (final :: waiting) (History.add _ updating events) after)
    (fun events _ => watch.Past (History.add _ updating events)) ?_
  simp only [History.add_nil]
  exact (keeps_started starts holds).map
    (fun machine between => keeps_finish knows keeps waiting machine _ between)

end

variable (watch)

/-- The induction is on the levels of nesting. -/
theorem keeps_evaluateWithin (levels : Nat) (waiting : List Machine) (node : NodeId) (env : Env) :
    watch.Keeps waiting (evaluateWithin setup levels node env)
      (evaluateWithinLog setup levels waiting node env) := by
  induction levels generalizing waiting node env with
  | zero => exact keeps_of_staysAside (staysAside_pure _)
  | succ levels ih =>
    intro history outer holds
    have starts : ∀ run, Ensures (Machine.start setup node env) run
        (fun machine after => run.Aside after ∧ machine.Fresh setup.program) (fun _ => run.Aside) :=
      fun run => (Machine.aside_start node env run).imp (fun _ _ begun => begun)
        fun _ _ impossible => impossible.elim
    have nests : ∀ (run : Run) count, run.Aside { run with nesting := count } :=
      fun run _ => { Run.Aside.refl run with }
    have finishes := keeps_started_finish starts (watch.knowsWithin levels) ih
      (watch.aside holds (nests outer (outer.nesting + 1)))
    rw [evaluateWithin, ensures_bind, ensures_modify, ensures_bind, ensures_cleaningUp]
    refine finishes.imp ?_ fun _ after past => watch.pastAside past (nests after _)
    rintro final last ⟨done, kept⟩
    have still := watch.aside (watch.ended kept done) (nests last (last.nesting - 1))
    cases final.result with
    | some value => exact still
    | none => exact watch.past still

theorem keeps_evaluate (waiting : List Machine) (node : NodeId) (env : Env) :
    watch.Keeps waiting (evaluate setup node env) (evaluateLog setup waiting node env) :=
  fun history run holds => watch.keeps_evaluateWithin _ waiting node env history run holds

theorem aside_mainMachine (setup : Setup) (run : Run) :
    Ensures (mainMachine setup) run
      (fun machine after => run.Aside after ∧ machine.Fresh setup.program) (fun _ => run.Aside) := by
  unfold mainMachine
  split
  · rw [ensures_bind, openRoot, ensures_modifyGet]
    refine (Machine.aside_start _ _ _).imp ?_ fun _ _ impossible => impossible.elim
    exact fun machine after ⟨aside, fresh⟩ => ⟨{ aside with }, fresh⟩
  · exact .refl run

theorem keeps_pass (holds : watch.Holds [] history run) :
    Ensures (pass setup) run
      (fun final after => final.frames = [] ∧
        watch.Holds [final] (history.add updating (passLog setup run)) after)
      (fun _ after => watch.Past (history.add updating (passLog setup run)) after) :=
  keeps_started_finish (aside_mainMachine setup) watch.knows watch.keeps_evaluate holds

theorem keeps_nextValue (condition next : NodeId) (prior : Val) (env : Env) :
    watch.Keeps [] (nextValue setup condition next prior env)
      (nextValueLog setup condition next env) := by
  refine (watch.keeps_evaluate [] condition env).bind fun answer => ?_
  cases answer with
  | bool truth =>
    cases truth with
    | true => exact watch.keeps_evaluate [] next env
    | false => exact keeps_of_staysAside (staysAside_pure _)
  | _ => exact keeps_of_staysAside (staysAside_pure _)

/-! ### Updates -/

section Updates

variable {watch} (elsewhere : ∀ {history run after}, watch.Holds [] history run →
    after.borrowed = run.borrowed → after.borrowing = run.borrowing → after.streams = run.streams →
      watch.Holds [] history after)
  (pastElsewhere : ∀ {history run after}, watch.Past history run →
    after.borrowed = run.borrowed → after.borrowing = run.borrowing → after.streams = run.streams →
      watch.Past history after)
include elsewhere pastElsewhere

/-- An update is watched if reactions do not matter. -/
theorem keeps_update (id : NodeId) :
    watch.Keeps [] (update setup id) (updateLog setup id) := by
  intro history run holds
  unfold update updateLog
  split
  · next initial condition next binding present =>
    rw [ensures_bind, ensures_get]
    cases found : run.reactions.get? id with
    | none =>
      simp only [present, History.add_nil]
      exact watch.past holds
    | some reaction =>
      simp only [present, beginUpdate, openChild, defineAll, ensures_bind, ensures_modifyGet,
        ensures_get, ensures_modify, ensures_pure, ensures_cleaningUp]
      refine Ensures.imp (watch.keeps_nextValue condition next reaction.value _ history _ ?_) ?_
        fun _ _ past => pastElsewhere past rfl rfl rfl
      · exact elsewhere holds rfl rfl rfl
      intro value after kept
      split
      · exact pastElsewhere (watch.past kept) rfl rfl rfl
      · exact elsewhere kept rfl rfl rfl
  · next unknown =>
    split
    · next present _ => exact absurd present (unknown _ _ _ _)
    · rw [History.add_nil]
      exact watch.past holds

theorem keeps_updateAll (ids : List NodeId) :
    watch.Keeps [] (updateAll setup ids) (updateAllLog setup ids) := by
  induction ids with
  | nil => exact keeps_of_staysAside (staysAside_pure _)
  | cons id rest ih =>
    exact (keeps_update elsewhere pastElsewhere id).bind fun _ => ih

end Updates

end Watch

end Reactor

import Reactor.Proofs.Engine.Counting

/-!
# Reactions inside one another

Every step of every machine keeps the count of the reactions under evaluation.  Between the step that
begins a reaction and the one that settles it exceptions come up, nodes are refused at the limit of
frames, sources are borrowed, and natives start machines inside of steps; none of this touches the
count, since a reaction that is reached on the way is not entered.

So `Event.Nests` holds of all that happens in an evaluation.  While a reaction is updated, one is
counted that lies on no machine, and therefore none is entered.
-/

namespace Reactor

open List

/-! ### Frames -/

/-- The frame goes on without evaluating a reaction. -/
def Advance.Quiet {program : Program} {frame : Frame} : Advance program frame → Prop
  | complete _ => True
  | descend next _ _ _ => next.reacts = false ∧ next.Based program

theorem Advance.quiet_of_idle
    {program : Program} {frame : Frame} {advance : Advance program frame} (idle : advance.Idle) :
    advance.Quiet := by
  cases advance with
  | complete value => exact trivial
  | descend next child env lower =>
    rcases idle with kind | kind
    · exact ⟨by simp [Frame.reacts, kind], Frame.based_of_kind (by simp [kind])⟩
    · exact ⟨by simp [Frame.reacts, kind], Frame.based_of_kind (by simp [kind])⟩

namespace Frame

open Reactor.Action

variable {setup : Setup} {evaluate : Evaluation} {base : Nat} {lower : Machine}
  {waiting : List Machine} {run after : Run} {frame : Frame}

theorem shifts_of_frozen (counts : run.Counts setup.program base (lower.push frame :: waiting))
    (idle : frame.reacts = false) {advance : Advance setup.program frame}
    (frozen : after.Frozen run.reactions run.reacting) (quiet : advance.Quiet) :
    run.Shifts setup.program base (lower :: waiting) (advance.onto lower :: waiting) after := by
  have below := (Machine.counts_lower counts idle).beside frozen.1 frozen.2
  refine ⟨?_, frozen.1 ▸ .refl _, fun _ => frozen.1⟩
  cases advance with
  | complete value => exact below
  | descend next child env lower => exact Machine.counts_push below quiet.1 quiet.2

theorem frozen_advanceBody (frame : Frame) (run : Run) :
    Ensures (frame.advanceBody setup) run
      (fun advance after => after.Frozen run.reactions run.reacting ∧ advance.Quiet)
      (fun _ _ => True) := by
  unfold advanceBody
  split
  · exact ⟨⟨rfl, rfl⟩, trivial⟩
  · exact trivial

theorem frozen_enterBorrow (frame : Frame) (kind : frame.kind = .borrow .enter) (run : Run) :
    Ensures (frame.enterBorrow setup kind) run
      (fun advance after => after.Frozen run.reactions run.reacting ∧ advance.Quiet)
      (fun _ _ => True) := by
  unfold enterBorrow borrowParts
  split
  · simp only [pure_bind]
    split
    · exact ⟨⟨rfl, rfl⟩, trivial⟩
    · simp only [ensures_bind, ensures_get]
      split
      · exact ⟨⟨rfl, rfl⟩, trivial⟩
      · split
        · exact ⟨⟨rfl, rfl⟩, trivial⟩
        · exact ⟨⟨rfl, rfl⟩, rfl, based_of_kind (by simp)⟩
  · exact trivial

theorem frozen_finishBorrow (frame : Frame) (run : Run) :
    Ensures (frame.finishBorrow setup) run
      (fun advance after => after.Frozen run.reactions run.reacting ∧ advance.Quiet)
      (fun _ _ => True) := by
  unfold finishBorrow borrowParts
  split
  · simp only [pure_bind, ensures_bind, ensures_modify]
    split
    · exact trivial
    · exact ⟨⟨rfl, rfl⟩, trivial⟩
  · exact trivial

theorem shifts_enterReaction (kind : frame.kind = .reaction .enter)
    (counts : run.Counts setup.program base (lower.push frame :: waiting)) :
    Ensures (frame.enterReaction setup kind) run
      (fun advance after =>
        run.Shifts setup.program base (lower :: waiting) (advance.onto lower :: waiting) after)
      (fun _ _ => True) := by
  have idle : frame.reacts = false := by simp [reacts, kind]
  have below := Machine.counts_lower counts idle
  have settled : ∀ value, run.Shifts setup.program base (lower :: waiting)
      ((Advance.complete value : Advance setup.program frame).onto lower :: waiting) run :=
    fun _ => shifts_of_frozen counts idle ⟨rfl, rfl⟩ trivial
  obtain ⟨initial, condition, next, binding, present⟩ :=
    counts.based _ mem_cons_self frame mem_cons_self _ kind
  unfold enterReaction
  rw [reactionParts_eq present]
  simp only [pure_bind, ensures_bind, ensures_get]
  split
  · exact settled _
  · next free =>
    split
    · exact settled _
    · next absent =>
      have nothing : base = 0 ∧ Machine.reactingNodes (lower :: waiting) = [] := by
        have counted := below.counted
        refine ⟨by omega, length_eq_zero_iff.mp (by omega)⟩
      have nodes : Machine.reactingNodes
          (lower.push { frame with kind := .reaction .initial } :: waiting) = [frame.node] := by
        rw [Machine.reactingNodes_push, nothing.2]
        rfl
      refine ⟨⟨?_, ?_, ?_, ?_, ?_⟩, .refl _, fun _ => rfl⟩
      · have counted := below.counted
        simp only [Advance.onto, nodes, nothing.2, length_nil, length_singleton] at counted ⊢
        omega
      · simp [Advance.onto, nodes]
      · intro active
        omega
      · simpa [Advance.onto, nodes] using absent
      · exact Machine.based_push below.based fun _ _ =>
          ⟨initial, condition, next, binding, present⟩

theorem shifts_testReaction (kind : frame.kind = .reaction .initial)
    (counts : run.Counts setup.program base (lower.push frame :: waiting)) :
    Ensures (frame.testReaction setup kind) run
      (fun advance after =>
        run.Shifts setup.program base (lower :: waiting) (advance.onto lower :: waiting) after)
      (fun _ _ => True) := by
  obtain ⟨initial, condition, next, binding, present⟩ :=
    counts.based _ mem_cons_self frame mem_cons_self _ kind
  unfold testReaction
  rw [reactionParts_eq present, pure_bind]
  refine ⟨counts.onto ?_ ?_, .refl _, fun _ => rfl⟩
  · simp only [Advance.onto, Machine.reactingNodes_push, reacts, kind]
    rfl
  · exact Machine.based_push (Machine.based_lower counts.based) fun _ _ =>
      ⟨initial, condition, next, binding, present⟩

theorem preserves_settle_reacting
    (count : Nat) (id : NodeId) (value : Val) (names : List String) (env : Env)
    (binding : Option String) :
    Preserves (fun run : Run => run.reacting = count) (settle id value names env binding) := by
  have unmoved : Run.Unmoved fun run : Run => run.reacting = count :=
    ⟨fun holds _ _ same => same.trans holds, fun holds _ => holds⟩
  unfold settle
  split
  · exact preserves_pure _
  · refine (mirrors_missingStream? unmoved.likeness names).preserves.bind fun missing => ?_
    split
    · exact preserves_pure _
    · exact Preserves.bind (preserves_modify fun _ holds => holds) fun _ => preserves_pure _

theorem shifts_settleReaction (kind : frame.kind = .reaction .condition)
    (counts : run.Counts setup.program base (lower.push frame :: waiting)) :
    Ensures (frame.settleReaction setup) run
      (fun advance after =>
        run.Shifts setup.program base (lower :: waiting) (advance.onto lower :: waiting) after)
      (fun _ _ => True) := by
  obtain ⟨initial, condition, next, binding, present⟩ :=
    counts.based _ mem_cons_self frame mem_cons_self _ kind
  have nodes : Machine.reactingNodes (lower.push frame :: waiting) =
      frame.node :: Machine.reactingNodes (lower :: waiting) := by
    simp [Machine.reactingNodes_push, reacts, kind]
  have none : Machine.reactingNodes (lower :: waiting) = [] := by
    have single := counts.single
    rw [nodes, length_cons] at single
    exact length_eq_zero_iff.mp (by omega)
  have outside : base = 0 := by
    refine Nat.eq_zero_of_not_pos fun active => ?_
    have apart := counts.apart active
    rw [nodes] at apart
    cases apart
  have counted : run.reacting - 1 = 0 := by
    rw [counts.counted, nodes, none, outside]
    rfl
  have absent : run.reactions.get? frame.node = Option.none :=
    counts.absent _ (by rw [nodes]; exact mem_cons_self)
  have based := Machine.based_lower counts.based
  unfold settleReaction
  rw [reactionParts_eq present]
  simp only [pure_bind, ensures_bind, ensures_modify]
  split
  · exact trivial
  · next value _ =>
    rw [ensures_bind]
    refine ((@ensures_settle_grown run.reactions { run with reacting := run.reacting - 1 } _
      (.refl _) absent value _ frame.env binding).and
        (preserves_settle_reacting 0 frame.node value _ frame.env binding
          { run with reacting := run.reacting - 1 } counted)).imp ?_ fun _ _ _ => trivial
    rintro settled after ⟨grown, free⟩
    refine ⟨⟨?_, ?_, ?_, ?_, based⟩, grown, ?_⟩
    · simp [Advance.onto, none, outside, free]
    · simp [Advance.onto, none]
    · exact fun _ => none
    · simp [Advance.onto, none]
    · simp [none, outside]

theorem shifts_advance (evaluate : Evaluation) (plain : frame.kind ≠ .operands)
    (counts : run.Counts setup.program base (lower.push frame :: waiting)) :
    Ensures (frame.advance setup evaluate) run
      (fun advance after =>
        run.Shifts setup.program base (lower :: waiting) (advance.onto lower :: waiting) after)
      (fun _ _ => True) := by
  have idles : ∀ {action : Action (Advance setup.program frame)}, frame.reacts = false →
      Ensures action run
        (fun advance after => after.Frozen run.reactions run.reacting ∧ advance.Quiet)
        (fun _ _ => True) →
      Ensures action run
        (fun advance after =>
          run.Shifts setup.program base (lower :: waiting) (advance.onto lower :: waiting) after)
        (fun _ _ => True) :=
    fun idle ended => ended.map (fun _ _ kept => shifts_of_frozen counts idle kept.1 kept.2)
  rcases frame with ⟨id, kind, env, values⟩
  cases kind with
  | operands => exact absurd rfl plain
  | body => exact idles rfl (frozen_advanceBody _ run)
  | reaction phase =>
    cases phase with
    | enter => exact shifts_enterReaction rfl counts
    | initial => exact shifts_testReaction rfl counts
    | condition => exact shifts_settleReaction rfl counts
  | borrow phase =>
    cases phase with
    | enter => exact idles rfl (frozen_enterBorrow _ rfl run)
    | source => exact idles rfl (frozen_finishBorrow _ run)

end Frame

/-! ### Evaluation -/

/-- What holds of all that happens in an evaluation beside which `base` reactions are evaluated: the
reactions under evaluation are counted before and after, and a machine that has frames takes a step. -/
def Event.Nests (setup : Setup) (base : Nat) : Event → Prop
  | moved moment =>
    moment.run.Counts setup.program base (moment.before :: moment.waiting) ∧
      moment.run.Shifts setup.program base (moment.before.pop :: moment.waiting)
        (moment.after :: moment.waiting) moment.runAfter ∧
      (moment.before.frames ≠ [] → ∃ evaluate,
        moment.before.step setup evaluate moment.run = .ok moment.after moment.runAfter)
  | called .. => True

/-- What happens nests beside the reactions that are updated, of which there are some if and only if it
belongs to an update. -/
def Event.NestsIn (setup : Setup) (part : Bool × Event) : Prop :=
  ∃ base, (part.1 = true ↔ 0 < base) ∧ part.2.Nests setup base

/-- An evaluation of bodies only adds reactions to the table, and none while one is evaluated. -/
structure Action.OnlyAdds (evaluate : NodeId → Env → Action Val) : Prop where
  grown : ∀ (reactions : Reactions) body env,
    Preserves (fun run : Run => reactions.Grown run.reactions) (evaluate body env)
  frozen : ∀ (reactions : Reactions) count, 0 < count → ∀ body env,
    Preserves (Run.Frozen reactions count) (evaluate body env)

namespace Action

variable {setup : Setup}

theorem onlyAdds_evaluateWithin (setup : Setup) (levels : Nat) :
    OnlyAdds (evaluateWithin setup levels) := by
  rw [evaluateWithin_eq_valueWithin, ← guardedWithin_id]
  exact ⟨fun _ body env => preserves_guardedWithin_grown harmless_id levels body env,
    fun _ _ active body env => preserves_guardedWithin_frozen harmless_id active levels body env⟩

theorem onlyAdds_evaluate (setup : Setup) : OnlyAdds (evaluate setup) where
  grown _ body env := preserves_get.bind fun _ => (onlyAdds_evaluateWithin setup _).grown _ body env
  frozen _ _ active body env := preserves_evaluate_frozen active body env

theorem preserves_operands {P : Run → Prop} (unmoved : Run.Unmoved P) {evaluate : Evaluation}
    (evaluated : ∀ body env, Preserves P (evaluate body env)) {frame : Frame}
    (operands : frame.kind = .operands) :
    Preserves P (frame.advance setup evaluate) := by
  rcases frame with ⟨id, kind, env, values⟩
  cases operands
  exact (Frame.tallies_advanceOperands (unmoved.likeness.conduct _) unmoved.likeness.reports
    (fun body env _ => (evaluated body env).mirrors.tallies) (.inl trivial)
    ⟨fun _ => trivial, fun _ _ => trivial⟩ rfl).mirrors.preserves

/-- The count is watched, beside some reactions that are evaluated on no machine. -/
def nesting (setup : Setup) (updating : Bool) (base : Nat) (agrees : updating = true ↔ 0 < base) :
    Watch setup updating where
  Knows := OnlyAdds
  Holds machines history run :=
    run.Counts setup.program base machines ∧ ∀ part ∈ history, Event.NestsIn setup part
  Past history _ := ∀ part ∈ history, Event.NestsIn setup part
  knows := onlyAdds_evaluate setup
  knowsWithin := onlyAdds_evaluateWithin setup
  past holds := holds.2
  aside holds aside := ⟨holds.1.beside aside.reactions aside.reacting, holds.2⟩
  pastAside past _ := past
  called _ _ holds :=
    ⟨holds.1, forall_mem_append.mpr ⟨holds.2, by simpa using ⟨base, agrees, trivial⟩⟩⟩
  started := by
    rintro waiting history run after machine ⟨counts, nests⟩ aside fresh
    have idle : run.Counts setup.program base (.empty :: waiting) :=
      counts.onto (Machine.reactingNodes_of_nil rfl waiting)
        (forall_mem_cons.mpr ⟨nofun, counts.based⟩)
    have countsAfter : after.Counts setup.program base (machine :: waiting) := by
      have beside := idle.beside aside.reactions aside.reacting
      rcases fresh with empty | ⟨node, env, rfl⟩
      · exact beside.onto
          ((Machine.reactingNodes_of_nil empty _).trans (Machine.reactingNodes_of_nil rfl _).symm)
          (forall_mem_cons.mpr ⟨by simp [empty], counts.based⟩)
      · exact Machine.counts_push beside (Frame.reacts_fresh _ _ _) (Frame.based_fresh _ _ _)
    refine ⟨countsAfter, forall_mem_append.mpr ⟨nests, forall_mem_singleton.mpr
      ⟨base, agrees, idle, ⟨countsAfter, ?_, fun _ => aside.reactions⟩,
        fun active => absurd rfl active⟩⟩⟩
    rw [aside.reactions]
    exact .refl _
  ended holds empty := by
    refine ⟨holds.1.onto (Machine.reactingNodes_of_nil empty _).symm ?_, holds.2⟩
    exact (forall_mem_cons.mp holds.1.based).2
  stepped := by
    rintro lower next frame waiting history run between after evaluate advance plain
      ⟨counts, nests⟩ advanced aside leads stepped
    have shifted := @Frame.shifts_advance setup base lower waiting run frame evaluate plain counts
    rw [Ensures, advanced] at shifted
    have shifts := Machine.shifts_of_leads shifted aside leads
    exact ⟨shifts.counts, forall_mem_append.mpr ⟨nests, forall_mem_singleton.mpr
      ⟨base, agrees, counts, shifts, fun _ => ⟨evaluate, stepped⟩⟩⟩⟩
  failed _ holds _ := holds.2
  combined := by
    rintro lower next frame waiting history events run between after evaluate advance operands
      ⟨counts, -⟩ grows advanced ⟨countsBetween, nests⟩ idle aside leads stepped
    have noReaction : frame.reacts = false := by simp [Frame.reacts, operands]
    have shifted :
        run.Shifts setup.program base (lower :: waiting) (advance.onto lower :: waiting) between := by
      refine ⟨(Frame.shifts_of_frozen countsBetween noReaction ⟨rfl, rfl⟩
        (Advance.quiet_of_idle idle)).counts, ?_, fun active => ?_⟩
      · exact (preserves_operands (Run.unmoved_grown run.reactions) (grows.grown _)
          operands).of_ok (.refl _) advanced
      · have reacting : 0 < run.reacting :=
          Nat.lt_of_lt_of_le active (Machine.le_reacting_of_counts counts)
        have frozen := (preserves_operands (Run.unmoved_frozen run.reactions run.reacting)
          (grows.frozen _ _ reacting) operands).of_ok ⟨rfl, rfl⟩ advanced
        exact frozen.1
    have shifts := Machine.shifts_of_leads shifted aside leads
    exact ⟨shifts.counts, forall_mem_append.mpr ⟨nests, forall_mem_singleton.mpr
      ⟨base, agrees, counts, shifts, fun _ => ⟨evaluate, stepped⟩⟩⟩⟩

/-! ### Updates -/

/-- While a reaction is updated, one is counted that lies on no machine. -/
theorem nests_updateLog {history : History} (nests : ∀ part ∈ history, Event.NestsIn setup part)
    (id : NodeId) (run : Run) :
    ∀ part ∈ history.add true (updateLog setup id run), Event.NestsIn setup part := by
  unfold updateLog
  split
  · next initial condition next binding reaction present found =>
    let watch := nesting setup true (run.reacting + 1) (by simp)
    let begun : Run :=
      { run with
        scopes := (run.scopes.child reaction.env).2.defineAll (run.scopes.child reaction.env).1
          (updateNames reaction run.streams)
        reacting := run.reacting + 1 }
    have kept := watch.keeps_nextValue condition next reaction.value
      (run.scopes.child reaction.env).1 history begun ⟨Run.counts_nil rfl, nests⟩
    simp only [Ensures] at kept
    split at kept
    · exact kept.2
    · exact kept
  · simpa using nests

theorem nests_updateAllLog
    (ids : List NodeId) {history : History} (nests : ∀ part ∈ history, Event.NestsIn setup part)
    (run : Run) :
    ∀ part ∈ history.add true (updateAllLog setup ids run), Event.NestsIn setup part := by
  induction ids generalizing history run with
  | nil => simpa [updateAllLog] using nests
  | cons id rest ih =>
    have here := nests_updateLog nests id run
    simp only [updateAllLog, History.add_append, behind]
    cases update setup id run with
    | ok value after => exact ih here after
    | error defect after => simpa using here

end Action

/-! ### Reaching a reaction -/

namespace Machine

/-- The step in which a reaction is reached.  If one is under evaluation, the node completes with an
exception; otherwise it completes with what the table has, or the reaction is begun. -/
theorem step_reached {setup : Setup} {id initial condition next : NodeId} {binding : Option String}
    (present : setup.program.node? id = some (.reaction initial condition next binding))
    (evaluate : Evaluation) (machine : Machine) (env : Env) (values : List Val) (run : Run) :
    (machine.push ⟨id, .reaction .enter, env, values⟩).step setup evaluate run =
      if 0 < run.reacting then machine.complete id (.failure .nestedReaction id) run
      else
        match run.reactions.get? id with
        | some reaction => machine.complete id reaction.value run
        | none =>
          (machine.push ⟨id, .reaction .initial, env, values⟩).enter setup initial env
            { run with reacting := run.reacting + 1 } := by
  rw [step_push_eq]
  show (Frame.enterReaction setup ⟨id, .reaction .enter, env, values⟩ rfl >>= _) run = _
  unfold Frame.enterReaction
  rw [Frame.reactionParts_eq present]
  simp only [pure_bind]
  simp only [bind, EStateM.bind, get_apply]
  by_cases active : 0 < run.reacting
  · simp only [if_pos active]
    rfl
  · simp only [if_neg active]
    cases run.reactions.get? id with
    | some reaction => rfl
    | none => rfl

end Machine

namespace Moment

/-- The frames around the active one: those below it, and those of the machines that wait. -/
def enclosing (moment : Moment) : List Frame :=
  moment.before.frames.tail ++ moment.waiting.flatMap (·.frames)

/-- The active frame is over a node and completes with a value. -/
def Completes (moment : Moment) (node : NodeId) (value : Val) : Prop :=
  moment.before.pop.complete node value moment.run = .ok moment.after moment.runAfter

/-- The active frame begins its reaction: it counts, and its initial value is entered. -/
def Begins (setup : Setup) (moment : Moment) (top : Frame) : Prop :=
  ∃ initial condition next binding,
    setup.program.node? top.node = some (.reaction initial condition next binding) ∧
      (moment.before.pop.push { top with kind := .reaction .initial }).enter setup initial top.env
        { moment.run with reacting := moment.run.reacting + 1 } = .ok moment.after moment.runAfter

end Moment

theorem Moment.reacts_enclosing_iff (moment : Moment) :
    0 < (Machine.reactingNodes (moment.before.pop :: moment.waiting)).length ↔
      ∃ frame ∈ moment.enclosing, frame.reacts = true := by
  rw [length_pos_iff, Machine.reactingNodes_ne_nil, flatMap_cons]
  rfl

namespace Event.Nests

variable {setup : Setup} {base : Nat} {moment : Moment} {top : Frame} {rest : List Frame}

variable (nests : Nests setup base (.moved moment))
include nests

/-- Around a frame that does not evaluate a reaction itself, one is under evaluation if and only if one
is counted that is not on a machine, or one of the frames around evaluates a reaction. -/
theorem active_iff (shape : moment.before.frames = top :: rest) (quiet : top.reacts = false) :
    0 < moment.run.reacting ↔ 0 < base ∨ ∃ frame ∈ moment.enclosing, frame.reacts = true := by
  have same : Machine.reactingNodes (moment.before :: moment.waiting) =
      Machine.reactingNodes (moment.before.pop :: moment.waiting) := by
    conv => lhs; rw [moment.before.eq_push_pop shape]
    rw [Machine.reactingNodes_push, quiet]
    rfl
  rw [nests.1.counted, same, Nat.add_pos_iff_pos_or_pos, moment.reacts_enclosing_iff]

theorem reactions_eq (nested : 0 < base ∨ ∃ frame ∈ moment.enclosing, frame.reacts = true) :
    moment.runAfter.reactions = moment.run.reactions := by
  rw [← moment.reacts_enclosing_iff, ← Nat.add_pos_iff_pos_or_pos] at nested
  exact nests.2.1.frozen nested

section

variable (shape : moment.before.frames = top :: rest) (kind : top.kind = .reaction .enter)
include shape kind

theorem reached :
    if 0 < base ∨ ∃ frame ∈ moment.enclosing, frame.reacts = true then
      moment.Completes top.node (.failure .nestedReaction top.node)
    else
      match moment.run.reactions.get? top.node with
      | some reaction => moment.Completes top.node reaction.value
      | none => moment.Begins setup top := by
  have quiet : top.reacts = false := by simp [Frame.reacts, kind]
  have active := nests.active_iff shape quiet
  obtain ⟨counts, -, steps⟩ := nests
  obtain ⟨evaluate, stepped⟩ := steps (by simp [shape])
  obtain ⟨initial, condition, next, binding, present⟩ :=
    counts.based _ mem_cons_self top (by simp [shape]) _ kind
  rcases top with ⟨id, _, env, values⟩
  cases kind
  rw [moment.before.eq_push_pop shape, Machine.step_reached present] at stepped
  simp only [active] at stepped
  split
  · next nested =>
    rw [if_pos nested] at stepped
    exact stepped
  · next unnested =>
    rw [if_neg unnested] at stepped
    cases found : moment.run.reactions.get? id with
    | some reaction =>
      rw [found] at stepped
      exact stepped
    | none =>
      rw [found] at stepped
      exact ⟨initial, condition, next, binding, present, stepped⟩

/-- A frame that reaches a reaction completes with the exception if a reaction is under evaluation, and
otherwise only if this is what the table has. -/
theorem completes_nested_iff :
    moment.Completes top.node (.failure .nestedReaction top.node) ↔
      (0 < base ∨ ∃ frame ∈ moment.enclosing, frame.reacts = true) ∨
        ∃ reaction, moment.run.reactions.get? top.node = some reaction ∧
          reaction.value = .failure .nestedReaction top.node := by
  have reached := nests.reached shape kind
  split at reached
  · next nested => exact ⟨fun _ => Or.inl nested, fun _ => reached⟩
  · next unnested =>
    cases found : moment.run.reactions.get? top.node with
    | some reaction =>
      rw [found] at reached
      constructor
      · intro completes
        exact Or.inr ⟨reaction, rfl, Machine.eq_of_complete (reached.trans completes.symm)⟩
      · rintro (nested | ⟨_, ⟨⟩, same⟩)
        · exact absurd nested unnested
        · rw [← same]
          exact reached
    | none =>
      rw [found] at reached
      obtain ⟨initial, condition, next, binding, -, begun⟩ := reached
      constructor
      · exact fun completes => (Machine.complete_ne_enter (completes.trans begun.symm)).elim
      · rintro (nested | ⟨_, ⟨⟩, _⟩)
        exact absurd nested unnested

end

theorem exists_step_of_reached (shape : moment.after.frames = top :: rest)
    (kind : top.kind = .reaction .enter) (evaluate : Evaluation) (run : Run) :
    ∃ next last, moment.after.step setup evaluate run = .ok next last := by
  obtain ⟨initial, condition, next, binding, present⟩ :=
    nests.2.1.counts.based _ mem_cons_self top (by simp [shape]) _ kind
  rcases top with ⟨id, _, env, values⟩
  cases kind
  rw [moment.after.eq_push_pop shape, Machine.step_reached present]
  split
  · exact ⟨_, _, rfl⟩
  · split
    · exact ⟨_, _, rfl⟩
    · exact Machine.exists_enter_eq _ _ _ _

end Event.Nests

end Reactor

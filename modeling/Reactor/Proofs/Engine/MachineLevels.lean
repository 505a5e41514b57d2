import Reactor.Proofs.Engine.CallLevels
import Reactor.Proofs.Engine.Safety
import Reactor.Proofs.Engine.Stepping
import Reactor.Proofs.Engine.Watching

/-!
# Machines climb from stage to stage

The frames of a machine lie on stages.  A frame that borrows a source bears the frames above it on the
stage of that source; all others bear them on their own.  A step of a machine never reports a cycle among
sources: a source that a frame may borrow ranks below its stage, and all sources under evaluation do not.
By induction over the steps, and over the levels of machines inside machines, evaluation on a stage comes
to a value that fits, back on the same stage.
-/

namespace Reactor

open List

variable {setup : Setup} {ranking : Ranking setup.program}

/-! ### Frames on stages -/

/-- The stage on which a frame bears what lies above it. -/
inductive Frame.Bears (stage : Stage ranking) (frame : Frame) : Stage ranking → Prop where
  | own (kind : frame.kind ≠ .borrow .source) : Bears stage frame stage
  | source {source : String} {name : Option String} (kind : frame.kind = .borrow .source)
      (present : setup.program.node? frame.node = some (.borrow source name))
      (lower : ranking.rank source < stage.level) : Bears stage frame (stage.enter source lower)

/-- A frame on a stage.  The values that it received come from above. -/
structure Frame.Placed
    (stage above : Stage ranking) (levels : Levels) (frame : Frame) : Prop where
  suits : ranking.Suits stage.level frame.node
  opened : Env.Opened levels stage.level frame.env
  bears : frame.Bears stage above
  values : frame.Holds (Val.Fits ranking levels above.level)

namespace Frame

variable {stage above : Stage ranking} {levels : Levels} {frame : Frame}

theorem Bears.borrowing_grows (bears : frame.Bears stage above) :
    stage.borrowing <+: above.borrowing := by
  cases bears with
  | own => exact prefix_refl _
  | source => exact prefix_append _ _

variable (placed : frame.Placed stage above levels)
include placed

theorem Placed.receive {value : Val} (fits : value.Fits ranking levels above.level) :
    (frame.receive value).Placed stage above levels where
  suits := placed.suits
  opened := placed.opened
  bears := by
    cases placed.bears with
    | own kind => exact .own kind
    | source kind present lower =>
      exact .source (show (frame.receive value).kind = _ from kind) present lower
  values := placed.values.receive fits

theorem Placed.later {extended : Levels} (grown : levels <+: extended) :
    frame.Placed stage above extended where
  suits := placed.suits
  opened := placed.opened.later grown
  bears := placed.bears
  values value mem := (placed.values value mem).later grown (Nat.le_refl _)

theorem Placed.own (kind : frame.kind ≠ .borrow .source) : above = stage := by
  cases placed.bears with
  | own => rfl
  | source isSource => exact absurd isSource kind

end Frame

/-- Frames that wait for one another, from a stage at the bottom to one on top. -/
inductive Machine.Stacked (levels : Levels) (base : Stage ranking) : List Frame → Stage ranking → Prop
  | empty : Stacked levels base [] base
  | frame {frame : Frame} {rest : List Frame} {stage above : Stage ranking}
      (waits : frame.Waits setup.program) (placed : frame.Placed stage above levels)
      (others : Stacked levels base rest stage) : Stacked levels base (frame :: rest) above

/-- A machine that climbs from a stage, or that is back there with a result. -/
def Machine.Climbs
    (base : Stage ranking) (levels : Levels) (run : Run) (machine : Machine) : Prop :=
  match machine.frames with
  | [] => run.borrowing = base.borrowing ∧
      ∃ value, machine.result = some value ∧ value.Fits ranking levels base.level
  | top :: rest => ∃ stage above : Stage ranking, top.Ready setup.program ∧
      top.Placed stage above levels ∧ run.borrowing = above.borrowing ∧
      Stacked levels base rest stage

/-- What a step of a frame leads to: a value on the stage of the frame, or a node on the stage on which
the frame then bears it. -/
def Advance.Climbs
    {frame : Frame} (stage : Stage ranking) (levels : Levels) (run : Run) :
    Advance setup.program frame → Prop
  | complete value => run.borrowing = stage.borrowing ∧ value.Fits ranking levels stage.level
  | descend next child env _ => ∃ above : Stage ranking, next.Waits setup.program ∧
      next.Placed stage above levels ∧ run.borrowing = above.borrowing ∧
      ranking.Suits above.level child ∧ Env.Opened levels above.level env

/-- A step of a frame leads on, possibly with more scopes. -/
def Advance.Leads
    {frame : Frame} (stage : Stage ranking) (levels : Levels) (run : Run)
    (advance : Advance setup.program frame) : Prop :=
  ∃ extended, levels <+: extended ∧ run.Levelled ranking extended ∧ advance.Climbs stage extended run

/-- A machine is led on, possibly with more scopes. -/
def Machine.Leads (base : Stage ranking) (levels : Levels) (run : Run) (machine : Machine) : Prop :=
  ∃ extended, levels <+: extended ∧ run.Levelled ranking extended ∧ machine.Climbs base extended run

namespace Frame

open Reactor.Action

variable {stage above : Stage ranking} {levels : Levels} {frame : Frame}

/-- A step that stays on the stage of its frame. -/
def Goes (stage : Stage ranking) (levels : Levels) : Advance setup.program frame → Prop
  | .complete value => value.Fits ranking levels stage.level
  | .descend next child env _ => next.Waits setup.program ∧ next.Placed stage stage levels ∧
      ranking.Suits stage.level child ∧ Env.Opened levels stage.level env

variable {run : Run} {evaluate : Evaluation} {env : Env}

theorem leads_of_goes {advance : Advance setup.program frame}
    (reaches : run.Reaches stage levels (Goes stage · advance)) : advance.Leads stage levels run := by
  obtain ⟨extended, grown, levelled, same, goes⟩ := reaches
  refine ⟨extended, grown, levelled, ?_⟩
  cases advance with
  | complete value => exact ⟨same, goes⟩
  | descend next child env lower => exact ⟨stage, goes.1, goes.2.1, same, goes.2.2⟩

theorem proceeds_advanceOperands {evaluated : NodeId → Env → Log}
    (proceeds : ∀ levels body env, ranking.Suits stage.level body →
      Env.Opened levels stage.level env →
        Proceeds stage levels (evaluate body env) (evaluated body env) fun extended value =>
          value.Fits ranking extended stage.level)
    (waiting : List Machine) (kind : frame.kind = .operands) (ready : frame.Ready setup.program)
    (placed : frame.Placed stage stage levels) :
    Proceeds stage levels (frame.advanceOperands setup evaluate kind)
      (frame.log setup evaluate evaluated waiting) fun extended => Goes stage extended := by
  simp only [Ready, kind] at ready
  obtain ⟨node, present, plain, received⟩ := ready
  unfold advanceOperands
  split
  · next missing =>
    rw [present] at missing
    cases missing
  · next found foundPresent =>
    rw [present] at foundPresent
    cases foundPresent
    split
    · next exception raised =>
      have silent : frame.log setup evaluate evaluated waiting = Log.silent := by
        simp only [log, combines?, kind, present, raised]
      rw [silent]
      obtain ⟨last, -⟩ := Option.filter_eq_some_iff.mp raised
      exact (stays_pure (placed.values exception (mem_of_getLast? last))).proceeds
    · next calm =>
      split
      · next child operand =>
        have silent : frame.log setup evaluate evaluated waiting = Log.silent := by
          simp only [log, combines?, kind, present, calm, operand]
        rw [silent]
        refine (stays_pure ⟨fun value => ?_, placed, ?_, placed.opened⟩).proceeds
        · have inside := (List.getElem?_eq_some_iff.mp operand).1
          simp only [Ready, receive, kind, length_append, length_singleton]
          exact ⟨node, present, plain, inside⟩
        · exact placed.suits.child present
            (Node.mem_children_of_mem_operands (mem_of_getElem? operand))
      · next complete =>
        have logged : frame.log setup evaluate evaluated waiting =
            combineLog evaluate evaluated waiting frame.node node frame.values := by
          simp only [log, combines?, kind, present, calm, complete]
        rw [logged]
        have counted : frame.values.length = node.operands.length :=
          Nat.le_antisymm received (List.getElem?_eq_none_iff.mp complete)
        refine (proceeds_combine proceeds waiting placed.suits present plain counted placed.values
          placed.opened).followed fun extended outcome grown fits => ?_
        cases outcome with
        | complete value => exact stays_pure fits
        | enter body env =>
          refine stays_pure
            ⟨fun value => rfl, ⟨placed.suits, placed.opened.later grown, ?_, ?_⟩, fits.1, fits.2⟩
          · exact .own (by simp)
          · simp [Holds]

theorem stays_advanceBody (kind : frame.kind = .body) (ready : frame.Ready setup.program)
    (placed : frame.Placed stage stage levels) :
    Stays stage levels (frame.advanceBody setup) fun extended => Goes stage extended := by
  simp only [Ready, kind] at ready
  unfold advanceBody
  split
  · next value last => exact stays_pure (placed.values value (mem_of_getLast? last))
  · next none =>
    rw [getLast?_eq_none_iff.mp none] at ready
    cases ready

theorem stays_reactionParts {initial condition next : NodeId} {binding : Option String}
    (present : setup.program.node? frame.node = some (.reaction initial condition next binding)) :
    Stays stage levels (frame.reactionParts setup) fun extended parts =>
      extended = levels ∧ parts = (initial, condition, binding) := by
  unfold reactionParts
  rw [present]
  exact stays_pure ⟨rfl, rfl⟩

/-- The value of a reaction fits the stage on which it is reached: it was first reached on a stage of the
same level, or it holds no functions. -/
theorem fits_of_known (levelled : run.Levelled ranking levels) (guarded : run.Guarded setup.program)
    (suits : ranking.Suits stage.level frame.node)
    (isReaction : (setup.program.node? frame.node).any Node.isReaction)
    {reaction : Reaction} (known : run.reactions.get? frame.node = some reaction) :
    reaction.value.Fits ranking levels stage.level := by
  have listed := Reactions.mem_table_of_get? known
  obtain ⟨level, fits⟩ := levelled.reactions reaction listed
  have node := Reactions.node_of_get? known
  have isReactionThere := node ▸ isReaction
  by_cases shared : ∃ name, setup.program.Owns name reaction.node
  · obtain ⟨name, owned⟩ := shared
    have first := fits.suits.reacts _ name .self isReactionThere owned
    have again := suits.reacts _ name .self isReaction (node ▸ owned)
    rw [← again, first]
    exact fits.value
  · exact fits.value.of_functionless
      (guarded reaction listed ⟨isReactionThere, not_exists.mp shared⟩) _ _

theorem leads_enterReaction
    (kind : frame.kind = .reaction .enter) (ready : frame.Ready setup.program)
    (placed : frame.Placed stage stage levels)
    (levelled : run.Levelled ranking levels) (same : run.borrowing = stage.borrowing) :
    Ensures (frame.enterReaction setup kind) run
      (fun advance after => run.Guarded setup.program →
        after.Reaches stage levels (Goes stage · advance))
      (fun _ _ => False) := by
  simp only [Ready, kind] at ready
  obtain ⟨⟨initial, condition, next, binding, present⟩, received⟩ := ready
  simp only [enterReaction, reactionParts, present, ensures_bind, ensures_pure, ensures_get]
  split
  · exact fun _ => ⟨levels, prefix_refl _, levelled, same, Val.fits_failure rfl _⟩
  · split
    · next reaction known =>
      exact fun guarded => ⟨levels, prefix_refl _, levelled, same,
        fits_of_known levelled guarded placed.suits (by simp [present, Node.isReaction]) known⟩
    · refine fun _ => ⟨levels, prefix_refl _, { levelled with }, same, fun value => ?_,
        ⟨placed.suits, placed.opened, .own (by simp), placed.values⟩, ?_, placed.opened⟩
      · simp only [Ready, receive]
        exact ⟨⟨initial, condition, next, binding, present⟩,
          by simpa [ReactionPhase.received] using received⟩
      · exact placed.suits.child present (by simp [Node.children])

theorem stays_testReaction
    (kind : frame.kind = .reaction .initial) (ready : frame.Ready setup.program)
    (placed : frame.Placed stage stage levels) :
    Stays stage levels (frame.testReaction setup kind) fun extended => Goes stage extended := by
  simp only [Ready, kind] at ready
  obtain ⟨⟨initial, condition, next, binding, present⟩, received⟩ := ready
  unfold testReaction
  refine (stays_reactionParts present).bind ?_
  rintro _ _ - ⟨rfl, rfl⟩
  refine stays_pure ⟨fun value => ?_, ⟨placed.suits, placed.opened, .own (by simp), placed.values⟩,
    placed.suits.child present (by simp [Node.children]), placed.opened⟩
  simp only [Ready, receive]
  exact ⟨⟨initial, condition, next, binding, present⟩,
    by simpa [ReactionPhase.received] using received⟩

theorem stays_missingStream? (names : List String) :
    Stays stage levels (missingStream? names) fun extended _ => extended = levels := by
  induction names with
  | nil => exact stays_pure rfl
  | cons name rest ih =>
    refine (stays_ensureStream name).bind ?_
    rintro _ there - rfl
    split
    · exact ih
    · exact stays_pure rfl

theorem stays_settle {id : NodeId} (suits : ranking.Suits stage.level id)
    {value : Val} (fits : value.Fits ranking levels stage.level)
    (within : Env.Within levels stage.level env) (streams : List String) (binding : Option String) :
    Stays stage levels (settle id value streams env binding) fun extended value =>
      value.Fits ranking extended stage.level := by
  unfold settle
  split
  · exact stays_pure (Val.fits_failure rfl id)
  · refine (stays_missingStream? streams).bind ?_
    rintro _ missing - rfl
    split
    · exact stays_pure (Val.fits_failure rfl id)
    · refine Stays.bind (stays_modify (fun run levelled => levelled.addReaction
        ⟨stage.bounded, suits, within, fits⟩) fun _ => rfl) ?_
      rintro _ _ - rfl
      exact stays_pure fits

theorem stays_settleReaction
    (kind : frame.kind = .reaction .condition) (ready : frame.Ready setup.program)
    (placed : frame.Placed stage stage levels) :
    Stays stage levels (frame.settleReaction setup) fun extended => Goes stage extended := by
  simp only [Ready, kind] at ready
  obtain ⟨⟨initial, condition, next, binding, present⟩, received⟩ := ready
  unfold settleReaction
  refine (stays_reactionParts present).bind ?_
  rintro _ _ - ⟨rfl, rfl⟩
  refine Stays.bind (stays_modify (fun run levelled => { levelled with }) fun _ => rfl) ?_
  rintro _ _ - rfl
  split
  · next none =>
    rw [head?_eq_none_iff.mp none] at received
    cases received
  · next value first =>
    exact (stays_settle placed.suits (placed.values value (mem_of_head? first))
      placed.opened.within _ _).bind fun _ _ _ fits => stays_pure fits

theorem leads_enterBorrow (kind : frame.kind = .borrow .enter) (ready : frame.Ready setup.program)
    (placed : frame.Placed stage stage levels)
    (levelled : run.Levelled ranking levels) (same : run.borrowing = stage.borrowing) :
    Ensures (frame.enterBorrow setup kind) run
      (fun advance after => advance.Leads stage levels after)
      (fun _ _ => False) := by
  simp only [Ready, kind] at ready
  obtain ⟨⟨source, name, present⟩, received⟩ := ready
  have lower : ranking.rank source < stage.level :=
    placed.suits.borrows _ source .self (by simp [present, Node.borrowed?])
  simp only [enterBorrow, borrowParts, present, ensures_bind, ensures_pure]
  split
  · exact ⟨levels, prefix_refl _, levelled, same, Val.fits_failure rfl _⟩
  · next found isSource =>
    simp only [ensures_bind, ensures_get]
    split
    · next value known =>
      have fits := (levelled.borrowed source value known).later (prefix_refl _) (Nat.le_of_lt lower)
      exact ⟨levels, prefix_refl _, levelled.define placed.opened _ fits, same, fits⟩
    · rw [if_neg (same ▸ stage.not_mem_borrowing lower)]
      have opened : Env.Opened (levels ++ [ranking.rank source]) (ranking.rank source)
          [run.scopes.size] := by
        rw [← levelled.size]
        exact Env.opened_cons (by simp [Env.Within])
      refine ⟨_, prefix_append levels [ranking.rank source],
        { levelled.root (ranking.rank source) with }, stage.enter source lower, fun value => ?_,
        ⟨placed.suits, placed.opened.later (prefix_append _ _), ?_, ?_⟩, ?_,
        ranking.suits_root isSource, opened⟩
      · simp only [Ready, receive]
        exact ⟨⟨source, name, present⟩, by simpa [BorrowPhase.received] using received⟩
      · exact @Bears.source _ _ stage { frame with kind := .borrow .source } _ _ rfl present lower
      · have none : frame.values = [] := eq_nil_of_length_eq_zero received
        simp [Holds, none]
      · exact congrArg (· ++ [source]) same

theorem leads_finishBorrow (kind : frame.kind = .borrow .source) (ready : frame.Ready setup.program)
    (placed : frame.Placed stage above levels)
    (levelled : run.Levelled ranking levels) (same : run.borrowing = above.borrowing) :
    Ensures (frame.finishBorrow setup) run
      (fun advance after => advance.Leads stage levels after)
      (fun _ _ => False) := by
  simp only [Ready, kind] at ready
  obtain ⟨-, received⟩ := ready
  obtain ⟨suits, opened, bears, values⟩ := placed
  cases bears with
  | own other => exact absurd kind other
  | @source source name _ present lower =>
    simp only [finishBorrow, borrowParts, present, ensures_bind, ensures_pure, ensures_modify]
    split
    · next none =>
      rw [getLast?_eq_none_iff.mp none] at received
      cases received
    · next value last =>
      have fits := values value (mem_of_getLast? last)
      have raised := fits.later (prefix_refl _) (Nat.le_of_lt lower)
      have lent := levelled.lend source fits (run.sourceResults.define source value)
      refine ⟨levels, prefix_refl _, { lent.define opened _ raised with }, ?_, raised⟩
      exact (congrArg (List.filter _) same).trans (stage.filter_borrowing_enter lower)

theorem leads_advance_of_ne (other : frame.kind ≠ .operands)
    (ready : frame.Ready setup.program) (placed : frame.Placed stage above levels)
    (levelled : run.Levelled ranking levels) (same : run.borrowing = above.borrowing) :
    Ensures (frame.advance setup evaluate) run
      (fun advance after => run.Guarded setup.program → advance.Leads stage levels after)
      (fun _ _ => False) := by
  have goes {action : Action (Advance setup.program frame)}
      (stays : Stays stage levels action fun extended => Goes stage extended)
      (own : run.borrowing = stage.borrowing) :
      Ensures action run
        (fun advance after => run.Guarded setup.program → advance.Leads stage levels after)
        (fun _ _ => False) :=
    (stays run levelled own).map (fun _ _ reaches _ => leads_of_goes reaches)
  unfold advance
  split
  · next kind => exact absurd kind other
  · next kind =>
    obtain rfl := placed.own (by simp [kind])
    exact goes (stays_advanceBody kind ready placed) same
  · next kind =>
    obtain rfl := placed.own (by simp [kind])
    exact (leads_enterReaction kind ready placed levelled same).map
      (fun _ _ reaches guarded => leads_of_goes (reaches guarded))
  · next kind =>
    obtain rfl := placed.own (by simp [kind])
    exact goes (stays_testReaction kind ready placed) same
  · next kind =>
    obtain rfl := placed.own (by simp [kind])
    exact goes (stays_settleReaction kind ready placed) same
  · next kind =>
    obtain rfl := placed.own (by simp [kind])
    exact (leads_enterBorrow kind ready placed levelled same).map (fun _ _ leads _ => leads)
  · next kind =>
    exact (leads_finishBorrow kind ready placed levelled same).map (fun _ _ leads _ => leads)

/-- Evaluation of nodes on any stage. -/
abbrev Evaluates (ranking : Ranking setup.program) (evaluate : NodeId → Env → Action Val)
    (evaluated : NodeId → Env → Log) : Prop :=
  ∀ (stage : Stage ranking) levels body env, ranking.Suits stage.level body →
    Env.Opened levels stage.level env →
      Proceeds stage levels (evaluate body env) (evaluated body env) fun extended value =>
        value.Fits ranking extended stage.level

theorem clear_advance {evaluated : NodeId → Env → Log}
    (evaluates : Evaluates ranking evaluate evaluated) (waiting : List Machine)
    (ready : frame.Ready setup.program) (placed : frame.Placed stage above levels)
    (levelled : run.Levelled ranking levels) (same : run.borrowing = above.borrowing) :
    Clear setup.program (frame.advance setup evaluate)
      (frame.log setup evaluate evaluated waiting) run
      fun advance after => run.Guarded setup.program → advance.Leads stage levels after := by
  by_cases kind : frame.kind = .operands
  · obtain rfl := placed.own (by simp [kind])
    have proceeds := proceeds_advanceOperands (evaluates above) waiting kind ready placed
    have shape : frame.advance setup evaluate = frame.advanceOperands setup evaluate kind := by
      rcases frame with ⟨id, _, env, values⟩
      cases kind
      rfl
    rw [shape]
    exact (proceeds run levelled same).imp fun _ _ reaches _ => leads_of_goes reaches
  · rw [log_of_kind_ne waiting kind]
    exact clear_silent (leads_advance_of_ne kind ready placed levelled same)

theorem stays_openScope (opened : Env.Opened levels stage.level env) (id : NodeId) :
    Stays stage levels (openScope setup.program id env) fun extended inner =>
      Env.Opened extended stage.level inner := by
  unfold openScope
  split
  · exact stays_openChild opened.within
  · exact stays_pure opened

theorem placed_fresh {id : NodeId} (suits : ranking.Suits stage.level id)
    (opened : Env.Opened levels stage.level env) :
    (fresh setup.program id env).Placed stage stage levels where
  suits := suits
  opened := opened
  bears := .own (by
    simp only [fresh, initialKind]
    split <;> simp)
  values := holds_fresh _ _ _

end Frame

/-! ### Machines -/

namespace Machine

open Reactor.Action

variable {base stage : Stage ranking} {levels : Levels} {machine : Machine} {run : Run}

theorem Stacked.later
    {frames : List Frame} (stacked : Stacked levels base frames stage) {extended : Levels}
    (grown : levels <+: extended) : Stacked extended base frames stage := by
  induction stacked with
  | empty => exact .empty
  | frame waits placed _ ih => exact .frame waits (placed.later grown) ih

theorem Stacked.deliver
    (stacked : Stacked levels base machine.frames stage) (same : run.borrowing = stage.borrowing)
    {value : Val} (fits : value.Fits ranking levels stage.level) :
    (machine.deliver value).Climbs base levels run := by
  rcases machine with ⟨_ | ⟨top, rest⟩, depth, depth_eq, result⟩
  · cases stacked
    exact ⟨same, value, rfl, fits⟩
  · cases stacked with
    | frame waits placed others =>
      exact ⟨_, stage, waits value, placed.receive fits, same, others⟩

theorem Climbs.noCycle (climbs : machine.Climbs base levels run) {value : Val}
    (handed : machine.delivered? = some value) : value.tellsCycle = false := by
  unfold Climbs at climbs
  unfold delivered? at handed
  split at climbs
  · next empty =>
    obtain ⟨-, result, isResult, fits⟩ := climbs
    rw [empty] at handed
    cases isResult.symm.trans handed
    exact fits.noCycle
  · next shape =>
    obtain ⟨_, _, -, placed, -⟩ := climbs
    rw [shape] at handed
    exact (placed.values value (mem_of_getLast? handed)).noCycle

theorem Leads.uncycled
    {moment : Moment} (leads : moment.after.Leads base levels moment.runAfter) : moment.Uncycled := by
  obtain ⟨extended, -, levelled, climbs⟩ := leads
  refine ⟨fun node value completed => ?_, levelled.uncycled⟩
  unfold Moment.completed? at completed
  split at completed
  · cases completed
  · split at completed
    · obtain ⟨_, handed, same⟩ := Option.map_eq_some_iff.mp completed
      cases same
      exact climbs.noCycle handed
    · cases completed

section

variable {node : NodeId} (suits : ranking.Suits stage.level node) {env : Env}
  (opened : Env.Opened levels stage.level env)
include suits opened

theorem leads_enter (stacked : Stacked levels base machine.frames stage)
    (levelled : run.Levelled ranking levels) (same : run.borrowing = stage.borrowing) :
    Ensures (machine.enter setup node env) run (fun next after => next.Leads base levels after)
      (fun _ _ => False) := by
  rcases Nat.lt_or_ge machine.depth setup.limits.frames with room | full
  · rw [enter_of_lt room, ensures_bind]
    refine (Frame.stays_openScope opened node run levelled same).map ?_
    rintro inner after ⟨extended, grown, levelled, same, openedInner⟩
    exact ⟨extended, grown, levelled, stage, stage, Frame.ready_fresh suits.inside inner,
      Frame.placed_fresh suits openedInner, same, stacked.later grown⟩
  · rw [enter_of_le full]
    exact ⟨levels, prefix_refl _, levelled, stacked.deliver same (Val.fits_failure rfl _)⟩

theorem leads_start (levelled : run.Levelled ranking levels)
    (same : run.borrowing = stage.borrowing) :
    Ensures (start setup node env) run (fun machine after => machine.Leads stage levels after)
      (fun _ _ => False) :=
  leads_enter suits opened .empty levelled same

end

variable {evaluate : Evaluation} {evaluated : List Machine → NodeId → Env → Log}

section

variable (evaluates : ∀ waiting, Frame.Evaluates ranking evaluate (evaluated waiting))
  (waiting : List Machine)
include evaluates

theorem clear_step (levelled : run.Levelled ranking levels)
    (climbs : machine.Climbs base levels run) :
    Clear setup.program (machine.step setup evaluate)
      (machine.stepLog setup evaluate evaluated waiting) run
      fun next after => next.Leads base levels after := by
  rcases eq_nil_or_push machine with empty | ⟨lower, frame, rfl⟩
  · rw [step_of_nil empty, stepLog_of_nil waiting empty]
    exact clear_silent ⟨levels, prefix_refl _, levelled, climbs⟩
  obtain ⟨stage, above, ready, placed, same, stacked⟩ := climbs
  rw [stepLog_push]
  intro guarded
  obtain ⟨guardedInside, guardedStep⟩ := forall_mem_append.mp guarded
  obtain ⟨uncycled, ended⟩ := Frame.clear_advance (evaluates (lower.push frame :: waiting)) _ ready
    placed levelled same guardedInside
  have stepped : Ensures ((lower.push frame).step setup evaluate) run
      (fun next after => run.Guarded setup.program → next.Leads base levels after)
      (fun _ _ => False) := by
    rw [step_push_eq, ensures_bind]
    refine ended.map (fun advance between leads => ?_)
    cases advance with
    | complete value =>
      intro guardedHere
      obtain ⟨extended, grown, levelled, same, fits⟩ := leads guardedHere
      exact ⟨extended, grown, levelled.record frame.node fits.noCycle,
        (stacked.later grown).deliver same fits⟩
    | descend next child env _ =>
      by_cases guardedHere : run.Guarded setup.program
      · obtain ⟨extended, grown, levelled, above, waits, placed, same, suits, opened⟩ :=
          leads guardedHere
        have allWait : Stacked extended base (next :: lower.frames) above :=
          .frame waits placed (stacked.later grown)
        refine (leads_enter suits opened allWait levelled same).map ?_
        rintro entered last ⟨further, grownAgain, rest⟩ -
        exact ⟨further, grown.trans grownAgain, rest⟩
      · exact (ensures_enter _ _ _ between).map (fun _ _ _ given => absurd given guardedHere)
  simp only [forall_mem_append]
  simp only [behind] at guardedStep ⊢
  simp only [Ensures] at stepped ⊢
  split at stepped
  · next result =>
    rw [result] at guardedStep ⊢
    have leads := stepped (guardedStep _ (mem_singleton_self _))
    refine ⟨⟨uncycled, ?_⟩, leads⟩
    rintro _ (_ | ⟨_, ⟨⟩⟩)
    exact leads.uncycled
  · exact stepped.elim

end

theorem clear_finish {evaluate : Evaluation} {evaluated : List Machine → NodeId → Env → Log}
    (evaluates : ∀ waiting, Frame.Evaluates ranking evaluate (evaluated waiting))
    (waiting : List Machine) {machine : Machine} {levels : Levels} {run : Run}
    (levelled : run.Levelled ranking levels) (climbs : machine.Climbs base levels run) :
    Clear setup.program (machine.finish setup evaluate)
      (machine.finishLog setup evaluate evaluated waiting) run
      fun final after => after.Reaches base levels fun extended =>
        ∃ value, final.result = some value ∧ value.Fits ranking extended base.level := by
  rcases eq_nil_or_push machine with empty | ⟨lower, frame, shape⟩
  · rw [finish_of_nil empty, finishLog_of_nil waiting empty]
    simp only [Climbs, empty] at climbs
    exact clear_silent ⟨levels, prefix_refl _, levelled, climbs⟩
  · have stepped := clear_step evaluates waiting levelled climbs
    rw [shape] at stepped
    rw [shape, finish_push, finishLog_push]
    refine Clear.bind (fun guarded => (stepped guarded).imp_right (ensures_bind _ _).mp) ?_
    rintro next after ⟨extended, grown, levelled, climbs⟩
    exact (clear_finish evaluates waiting levelled climbs).imp fun _ _ reaches => reaches.from grown
termination_by machine.size setup
decreasing_by exact shape ▸ next.2

variable {start : Action Machine} (waiting : List Machine)
  (started : Ensures start run (fun machine after => machine.Leads base levels after) fun _ _ => False)
include started

theorem clear_startLog :
    Clear setup.program start (startLog waiting start) run
      fun machine after => machine.Leads base levels after := by
  intro _
  refine ⟨?_, started⟩
  simp only [startLog, behind]
  simp only [Ensures] at started
  split
  · next result =>
    rw [result] at started
    rintro _ (_ | ⟨_, ⟨⟩⟩)
    exact Leads.uncycled started
  · simp

theorem clear_startLog_finish
    (evaluates : ∀ waiting, Frame.Evaluates ranking evaluate (evaluated waiting)) :
    Clear setup.program (start >>= fun machine => machine.finish setup evaluate)
      (fun run => startLog waiting start run ++
        start.behind (finishLog setup evaluate evaluated waiting) run) run
      fun final after => after.Reaches base levels fun extended =>
        ∃ value, final.result = some value ∧ value.Fits ranking extended base.level := by
  refine (clear_startLog waiting started).bind ?_
  rintro machine after ⟨extended, grown, levelled, climbs⟩
  exact (clear_finish evaluates waiting levelled climbs).imp fun _ _ reaches => reaches.from grown

end Machine

/-! ### Evaluation -/

namespace Action

variable {stage : Stage ranking} {levels : Levels}

/-- Evaluation stays on its stage.  The induction is on the levels of nesting. -/
theorem evaluates_within (nesting : Nat) (waiting : List Machine) :
    Frame.Evaluates ranking (evaluateWithin setup nesting)
      (evaluateWithinLog setup nesting waiting) := by
  induction nesting generalizing waiting with
  | zero => exact fun _ _ node _ _ _ => (stays_pure (Val.fits_failure rfl node)).proceeds
  | succ nesting ih =>
    intro stage levels node env suits opened run levelled same
    have inside : Run.Levelled ranking levels { run with nesting := run.nesting + 1 } :=
      { levelled with }
    have finishes := Machine.clear_startLog_finish waiting
      (Machine.leads_start suits opened inside same) ih
    intro guarded
    obtain ⟨uncycled, ended⟩ := finishes guarded
    refine ⟨uncycled, ?_⟩
    rw [evaluateWithin, ensures_bind, ensures_modify, ensures_bind, ensures_cleaningUp]
    refine ended.map ?_
    rintro machine after ⟨extended, grown, levelled, same, value, found, fits⟩
    rw [found]
    exact ⟨extended, grown, { levelled with }, same, fits⟩

theorem evaluates (waiting : List Machine) :
    Frame.Evaluates ranking (evaluate setup) (evaluateLog setup waiting) :=
  fun stage levels node env suits opened run levelled same =>
    evaluates_within _ waiting stage levels node env suits opened run levelled same

variable {run : Run} (levelled : run.Levelled ranking levels)
  (same : run.borrowing = [ranking.main.name])
include levelled same

theorem leads_mainMachine :
    Ensures (mainMachine setup) run
      (fun machine after => machine.Leads (Stage.main ranking) levels after) (fun _ _ => False) := by
  have opened :
      Env.Opened (levels ++ [ranking.top]) (Stage.main ranking).level [run.scopes.size] := by
    rw [← levelled.size]
    exact Env.opened_cons (by simp [Env.Within])
  have suits : ranking.Suits (Stage.main ranking).level ranking.main.root :=
    ranking.suits_root (Program.source?_main ranking.isMain)
  simp only [mainMachine, ranking.isMain, ensures_bind]
  refine (Machine.leads_start suits opened (levelled.root ranking.top) same).map ?_
  rintro machine after ⟨extended, grown, rest⟩
  exact ⟨extended, (prefix_append _ _).trans grown, rest⟩

theorem clear_pass :
    Clear setup.program (pass setup) (passLog setup) run
      fun final after => after.Reaches (Stage.main ranking) levels fun extended =>
        ∃ value, final.result = some value ∧ value.Fits ranking extended ranking.top :=
  Machine.clear_startLog_finish [] (leads_mainMachine levelled same) evaluates

end Action

end Reactor

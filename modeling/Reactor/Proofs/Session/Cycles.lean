import Reactor.Proofs.Session.Levels

/-!
# Where sources borrow in no cycle, none is reported

A borrow reports a cycle if its source is under evaluation.  In a program in which no source borrows
itself, directly or through others, this does not happen, whatever calls a host makes and in whatever
order.  The reason is `Run.Levelled`, which every call keeps: whatever is evaluated on behalf of a source
borrows only sources that rank lower than all those under evaluation.

Two things have to be kept apart from this.  A reaction has one value, which all sources see that reach
it.  A function in that value may take a source to borrows that are not in its tree, and the cycle that
is reported then is one.  And a flush may update a reaction while a machine is in the middle of a source
that was borrowed.
-/

namespace Reactor

variable {setup : Setup} {ranking : Ranking setup.program}

/-! ### Courses -/

namespace Session

/-- No flush of a course updates a reaction while a source that was borrowed is under evaluation. -/
def FlushesApart (session : Session) : List HostCall → Prop
  | [] => True
  | call :: rest =>
    (call.isFlush → session.UpdatesApart) ∧ (call.outcome session).2.FlushesApart rest

instance decidableFlushesApart (session : Session) :
    (calls : List HostCall) → Decidable (session.FlushesApart calls)
  | [] => isTrue trivial
  | call :: rest =>
    have := decidableFlushesApart (call.outcome session).2 rest
    inferInstanceAs (Decidable ((call.isFlush → session.UpdatesApart) ∧ _))

theorem clear_course
    {session : Session} (inStep : session.InStep setup) (orderly : session.Orderly setup)
    (onLevels : session.Levelled ranking) {calls : List HostCall}
    (plain : ∀ call ∈ calls, ∀ value ∈ call.values, ∃ datum : Datum, value = datum.toVal)
    (apart : session.FlushesApart calls) :
    (session.course calls).2.Clear ranking (session.courseRecord calls) := by
  induction calls generalizing session with
  | nil => exact onLevels.clear
  | cons call rest ih =>
    obtain ⟨plainHere, plainRest⟩ := List.forall_mem_cons.mp plain
    exact (HostCall.clear_outcome inStep orderly onLevels plainHere apart.1).append fun levelled =>
      ih (inStep.outcome call) (orderly.outcome ranking.isMain inStep call) levelled plainRest
        apart.2

/--
In a program in which no source borrows itself, directly or through others, no cycle among sources is
ever reported: no node completes with a value that tells of one and no reaction gets one, whatever the
limits are and whatever calls a host makes, as long as the values that it hands in are plain data.

This needs that no flush updates a reaction while a source that was borrowed is under evaluation, and
that a reaction that may be reached on behalf of several sources never holds a function.
-/
theorem acyclic_sources_report_no_cycle
    (program : Program) (limits : Limits) (calls : List HostCall) (acyclic : program.Acyclic)
    (plain : ∀ call ∈ calls, ∀ value ∈ call.values, ∃ datum : Datum, value = datum.toVal)
    (apart : (create program limits).FlushesApart calls)
    (guarded : ∀ moment, .moved moment ∈ (create program limits).courseLog calls →
      moment.run.Guarded program) :
    (∀ moment, .moved moment ∈ (create program limits).courseLog calls → moment.Uncycled) ∧
      ((create program limits).course calls).2.run.Uncycled := by
  have inStep := inStep_create program limits
  cases named : program.main? with
  | none =>
    obtain ⟨asleep, quiet⟩ := asleep_course named limits calls
    exact ⟨by simp [quiet], by simp [asleep.nodeValues], by simp [asleep.reactions, Reactions.empty]⟩
  | some main =>
    obtain ⟨ranking⟩ := acyclic.exists_ranking named
    have levelled : @Levelled ⟨program, limits⟩ ranking (create program limits) :=
      ⟨[], .initial ranking, by simp [create], by simp [create]⟩
    have guardedEvents : ∀ event ∈ (create program limits).courseLog calls,
        event.Guarded program := by
      rintro (moment | _) member
      · exact guarded moment member
      · trivial
    have clear := clear_course inStep (orderly_create program limits) levelled plain apart
    rw [Clear, filterMap_courseRecord] at clear
    obtain ⟨uncycled, levels, last⟩ := clear guardedEvents
    exact ⟨fun moment member => uncycled (.moved moment) member, last.run.uncycled⟩

/-- A source is borrowed by the main source and by a reaction in it.  One flush comes while the source
is under evaluation, and another one updates the reaction. -/
theorem acyclic_sources_report_no_cycle_in_flushes :
    let program := (Program.ofExpr (.block
      [.borrow "a" none,
        .reaction (.bool false) (.changed (.stream "s")) (.borrow "a" none)])).addSource
          "a" (.block [.bool true, .bool true])
    let calls : List HostCall :=
      [.register "s", .start, .step, .step, .step, .step, .flush, .run, .push "s" (.bool true), .flush]
    (program.Acyclic ∧ (create program ⟨8, 1⟩).FlushesApart calls ∧
        ∀ run : Run, run.Guarded program) ∧
      (∀ moment, .moved moment ∈ (create program ⟨8, 1⟩).courseLog calls → moment.Uncycled) ∧
        ((create program ⟨8, 1⟩).course calls).2.run.Uncycled := by
  intro program calls
  let home (id : NodeId) : String := if id ≤ 6 then "main" else "a"
  have inherited : ∀ id < program.nodes.size, ∀ child ∈ (program.node? id).elim [] Node.children,
      home child = home id := by
    decide +kernel
  have rooted : ∀ source ∈ program.sources, home source.root = source.name := by
    decide +kernel
  have acyclic : program.Acyclic :=
    Program.acyclic_of_homes inherited rooted (fun name => if name = "main" then 1 else 0)
      (by decide +kernel)
  have plain : ∀ call ∈ calls, ∀ value ∈ call.values, ∃ datum : Datum, value = datum.toVal := by
    simp only [calls, HostCall.values, List.forall_mem_cons, List.not_mem_nil, false_implies,
      implies_true, and_true, true_and]
    exact ⟨.bool true, rfl⟩
  have apart : (create program ⟨8, 1⟩).FlushesApart calls := by
    decide +kernel
  have below : program.Below 5 6 :=
    .inside (show program.node? 6 = some (.block [0, 5]) from rfl) (by simp [Node.children]) .self
  have owned := @Program.owns_of_only program home inherited rooted ⟨"main", 6⟩ rfl _ (by decide +kernel) below
  have guarded : ∀ run : Run, run.Guarded program := Run.guarded_of_owned owned
  exact ⟨⟨acyclic, apart, guarded⟩,
    acyclic_sources_report_no_cycle program ⟨8, 1⟩ calls acyclic plain apart
      fun moment _ => guarded moment.run⟩

end Session

/-- A node completes with the report of a cycle. -/
def Event.tellsCycle : Event → Bool
  | moved moment => moment.completed?.any (·.2.tellsCycle)
  | called .. => false

theorem exists_of_tellsCycle {log : List Event} (told : log.any Event.tellsCycle = true) :
    ∃ moment node value, .moved moment ∈ log ∧ moment.completed? = some (node, value) ∧
      value.tellsCycle := by
  obtain ⟨event, happens, tells⟩ := List.any_eq_true.mp told
  cases event with
  | called _ _ _ => cases tells
  | moved moment =>
    cases completed : moment.completed? with
    | none => simp [Event.tellsCycle, completed] at tells
    | some entry =>
      exact ⟨moment, entry.1, entry.2, happens, completed,
        by simpa [Event.tellsCycle, completed] using tells⟩

namespace Session

/--
A source makes a function that keeps what it is first called with in a reaction.  The main source calls
it with a function that borrows another source, and this other source, in turn, calls what it gets from
there.  It is under evaluation then, although no source borrows itself by what stands in its tree.
-/
theorem function_in_shared_reaction_closes_cycle :
    let program := ((Program.ofExpr (.block
      [.borrow "y" none, .call (.name "y") [.function none [] (.borrow "c" none)],
        .borrow "c" none])).addSource
          "y" (.function none ["h"] (.reaction (.name "h") (.stream "s") .previous))).addSource
          "c" (.block [.borrow "y" none, .call (.call (.name "y") [.bool true]) []])
    let calls : List HostCall := [.register "s", .run]
    program.Acyclic ∧
      (∀ call ∈ calls, call.isFlush = false ∧ call.values = []) ∧
      ∃ moment node value, .moved moment ∈ (create program ⟨8, 1⟩).courseLog calls ∧
        moment.completed? = some (node, value) ∧ value.tellsCycle := by
  intro program calls
  have acyclic : program.Acyclic := by
    let home (id : NodeId) : String := if id ≤ 6 then "main" else if id ≤ 11 then "y" else "c"
    let rank (name : String) : Nat := if name = "main" then 2 else if name = "c" then 1 else 0
    refine @Program.acyclic_of_homes program home ?_ ?_ rank ?_
    · decide +kernel
    · decide +kernel
    · decide +kernel
  have reported : ((create program ⟨8, 1⟩).courseLog calls).any Event.tellsCycle = true := by
    decide +kernel
  exact ⟨acyclic, by simp [calls, HostCall.isFlush, HostCall.values], exists_of_tellsCycle reported⟩

/--
A reaction becomes dirty while the machine is in the middle of a source, and the flush updates it there
and then.  The update borrows the source, which is still under evaluation, and is told of a cycle where
there is none.  This is a defect, which `FlushesApart` leaves out.
-/
theorem flush_amid_source_reports_cycle :
    let program := (Program.ofExpr (.block
      [.reaction (.bool false) (.changed (.stream "s")) (.borrow "a" none),
        .borrow "a" none])).addSource "a" (.block [.bool true, .bool true])
    let calls : List HostCall := .register "s" :: .start :: List.replicate 8 .step ++
      [.push "s" (.bool true), .flush]
    (program.Acyclic ∧ ∀ run : Run, run.Guarded program) ∧
      ¬ (create program ⟨8, 1⟩).FlushesApart calls ∧
      ∃ moment node value, .moved moment ∈ (create program ⟨8, 1⟩).courseLog calls ∧
        moment.completed? = some (node, value) ∧ value.tellsCycle := by
  intro program calls
  let home (id : NodeId) : String := if id ≤ 6 then "main" else "a"
  have inherited : ∀ id < program.nodes.size, ∀ child ∈ (program.node? id).elim [] Node.children,
      home child = home id := by
    decide +kernel
  have rooted : ∀ source ∈ program.sources, home source.root = source.name := by
    decide +kernel
  have acyclic : program.Acyclic :=
    Program.acyclic_of_homes inherited rooted (fun name => if name = "main" then 1 else 0)
      (by decide +kernel)
  have below : program.Below 4 6 :=
    .inside (show program.node? 6 = some (.block [4, 5]) from rfl) (by simp [Node.children]) .self
  have owned := @Program.owns_of_only program home inherited rooted ⟨"main", 6⟩ rfl _ (by decide +kernel) below
  exact ⟨⟨acyclic, Run.guarded_of_owned owned⟩, by decide +kernel,
    exists_of_tellsCycle (by decide +kernel)⟩

end Session

end Reactor

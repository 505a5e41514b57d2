import Reactor.Proofs.Engine.Discretion
import Reactor.Proofs.Session.Lifecycle
import Reactor.Proofs.Session.Passes

/-!
# Passes that make no difference

In the first pass reactions come into being: their initial values and conditions are evaluated.  Later
passes take the values that the reactions have.  A pass that begins when nothing has happened that the
program could tell comes to the same result, and leaves all reactions as they are, if the earlier one was
discreet, that is, if no reaction left anything else behind when it came into being.
-/

namespace Reactor

/-! ### Streams that a program does not name -/

theorem Run.InStep.subscribers_of_unnamed
    {program : Program} {run : Run} (inStep : run.InStep program)
    {name : String} (unnamed : ¬ program.NamesStream name) :
    run.streams.subscribers name = [] := by
  refine List.eq_nil_iff_forall_not_mem.mpr fun node subscriber => unnamed ?_
  obtain ⟨reaction, found, streams⟩ := (inStep.subscribed name node).mp subscriber
  obtain ⟨_, _, _, _, -, denoted, -⟩ := inStep.faithful reaction (Reactions.mem_table_of_get? found)
  rw [denoted] at streams
  exact Program.namesStream_of_denoted streams

theorem Streams.waiting_drain_hand_of_ne
    {streams : Streams} {message : String × Val} {name : String} (elsewhere : message.1 ≠ name) :
    (streams.hand message).drain.1.waiting name = streams.drain.1.waiting name := by
  have nothing : streams.admitted [message] name = [] := by simp [admitted, elsewhere]
  have letters : (streams.hand message).letters = streams.letters := by
    rw [letters, inbox_hand, letters]
  rw [waiting_drain, waiting_drain, waiting_hand, nothing, List.append_nil, letters,
    admitted_congr (kind?_hand streams message)]

theorem Run.stable_reading (program : Program) (reading : String → Option (Option Val)) :
    Run.Stable program fun run => ∀ name, run.streams.reading name = reading name := by
  intro run after change same name
  cases change with
  | elsewhere streams _ => rw [streams, same]
  | provide ensured =>
    rw [Streams.ensure?_eq] at ensured
    obtain ⟨_, _, rfl⟩ := Option.map_eq_some_iff.mp ensured
    exact (Streams.reading_ensured _ _ name).trans (same name)
  | settle reaction _ _ _ _ _ _ => exact (Streams.reading_subscribeAll _ _ _ name).trans (same name)

/-! ### Beginnings -/

/-- A run from which a pass begins. -/
structure Run.Outset (setup : Setup) (run : Run) : Prop where
  borrowed : run.borrowed = []
  borrowing : run.borrowing = Run.mainNames setup
  reacting : run.reacting = 0
  nesting : run.nesting = 0
  defect : run.defect = none

theorem Run.outset_reset (setup : Setup) (run : Run) : (run.reset setup).Outset setup :=
  ⟨rfl, rfl, rfl, rfl, rfl⟩

theorem Run.outset_beginPass (setup : Setup) {run : Run} (calm : run.Calm) :
    (run.beginPass setup).Outset setup :=
  ⟨rfl, rfl, rfl, rfl, calm.reported⟩

theorem HostCall.outset_of_begins
    {setup : Setup} {session : Session} (inStep : session.InStep setup)
    (orderly : session.Orderly setup) {call : HostCall} {begun : Run}
    (begins : call.begins session = some begun) : begun.Outset setup := by
  have restarted : ∀ {main : Option Source},
      (main.map fun _ => session.run.reset session.setup) = some begun → begun.Outset setup := by
    intro main started
    obtain ⟨_, -, rfl⟩ := Option.map_eq_some_iff.mp started
    exact inStep.1 ▸ Run.outset_reset session.setup session.run
  cases call with
  | start => exact restarted begins
  | run =>
    cases state : session.state with
    | idle | stopped =>
      simp only [HostCall.begins, state] at begins
      exact restarted begins
    | running | done | halted _ => simp [HostCall.begins, state] at begins
  | flush =>
    obtain ⟨run, rerun, rfl⟩ := Option.map_eq_some_iff.mp begins
    have alive : session.Alive := by
      intro defect halted
      simp [Call.rerunFrom?, halted] at rerun
    have taken : session.run.takenIn.Calm := ⟨orderly.calm.outermost, orderly.calm.reported⟩
    have updated := Action.preserves_updateAll_of
      (@Action.preserves_calm_update session.setup) session.run.takenIn.reactions.dirty
      session.run.takenIn taken
    cases ended : Action.updateAll session.setup session.run.takenIn.reactions.dirty
        session.run.takenIn with
    | error defect last => simp [Call.rerunFrom?, Call.takeIn_eq inStep, ended] at rerun
    | ok _ last =>
      rw [Ensures, ended] at updated
      rw [Call.rerunFrom?_eq inStep alive ended] at rerun
      obtain ⟨-, same⟩ := Option.ite_none_right_eq_some.mp rerun
      cases same
      exact inStep.1 ▸ Run.outset_beginPass session.setup updated
  | _ => cases begins

/-! ### Sessions at rest -/

/-- A session that is done, and in which nothing has happened or waits to happen that a program could
tell: no reaction is dirty, and no stream that a node names has just advanced or would advance. -/
structure Session.AtRest (program : Program) (session : Session) : Prop where
  done : session.state = .done
  settled : session.run.reactions.dirty = []
  still : ∀ name, program.NamesStream name → name ∉ session.run.streams.changed
  quiet : ∀ name, program.NamesStream name → name ∉ session.run.advancedStreams.changed

namespace Session

variable {setup : Setup} {session : Session}

section

variable (atRest : session.AtRest setup.program) (inStep : session.InStep setup)
include atRest inStep

theorem AtRest.reactions_takenIn : session.run.takenIn.reactions = session.run.reactions := by
  have nobody : session.run.advancedStreams.changed.flatMap
      session.run.advancedStreams.subscribers = [] := by
    refine List.flatMap_eq_nil_iff.mpr fun name advanced => ?_
    refine inStep.2.advancedStreams.subscribers_of_unnamed fun named => ?_
    exact atRest.quiet name named advanced
  rw [Run.takenIn, nobody, Reactions.soilAll_nil]

theorem AtRest.push (ordered : session.run.streams.Ordered) {name : String}
    (unnamed : ¬ setup.program.NamesStream name) (value : Val) :
    ((HostCall.push name value).outcome session).2 =
        { session with run.streams := session.run.streams.hand (name, value) } ∧
      { session with run.streams := session.run.streams.hand (name, value) }.AtRest
        setup.program := by
  have alive : session.Alive := by simp [atRest.done]
  have handed : session.run.handed (name, value) =
      { session.run with streams := session.run.streams.hand (name, value) } := by
    have nobody := inStep.2.subscribers_of_unnamed unnamed
    simp only [Run.handed, nobody, Reactions.soilAll_nil]
    split <;> rfl
  constructor
  · simp only [HostCall.outcome, HostCall.perform, bind, EStateM.bind,
      Call.push_of_alive inStep alive, handed]
    cases session.run.streams.refusal? name value <;> rfl
  · refine ⟨atRest.done, atRest.settled, fun other named => ?_, fun other named => ?_⟩
    · rw [show (session.run.streams.hand (name, value)).changed = session.run.streams.changed from
        Streams.changed_handAll session.run.streams [(name, value)]]
      exact atRest.still other named
    · have elsewhere : name ≠ other := fun same => unnamed (same ▸ named)
      have quiet := atRest.quiet other named
      rw [Run.advancedStreams,
        Streams.mem_changed_commit (Streams.nodup_names_drain ordered.nodup)] at quiet
      rw [Run.advancedStreams, Streams.mem_changed_commit (Streams.nodup_names_drain
        (Streams.nodup_names_hand ordered.nodup _)), Streams.waiting_drain_hand_of_ne elsewhere]
      exact quiet

end

theorem AtRest.pushes
    {pushes : List (String × Val)} (unnamed : ∀ push ∈ pushes, ¬ setup.program.NamesStream push.1)
    {session : Session} (atRest : session.AtRest setup.program) (inStep : session.InStep setup)
    (ordered : session.run.streams.Ordered) :
    let calls := pushes.map fun push => HostCall.push push.1 push.2
    session.Undisturbed calls ∧ (session.course calls).2.AtRest setup.program ∧
      ∃ streams, (session.course calls).2 = { session with run.streams := streams } ∧
        ∀ name, streams.reading name = session.run.streams.reading name := by
  induction pushes generalizing session with
  | nil => exact ⟨trivial, atRest, session.run.streams, rfl, fun _ => rfl⟩
  | cons push rest ih =>
    obtain ⟨here, others⟩ := List.forall_mem_cons.mp unnamed
    obtain ⟨same, next⟩ := atRest.push inStep ordered here push.2
    obtain ⟨undisturbed, rested, streams, last, reading⟩ :=
      ih others (same ▸ next) (inStep.outcome _)
        (((HostCall.push push.1 push.2).path inStep).keeps ordered_move ordered)
    refine ⟨⟨rfl, rfl, undisturbed⟩, rested, streams, ?_, fun name => ?_⟩
    · exact last.trans (by rw [same])
    · rw [reading, same]
      exact Streams.reading_hand _ _ name

/-! ### The same pass again -/

/-- The reactions and streams of a session, if nothing belongs to one pass alone. -/
def scene (inStep : session.InStep setup)
    (independent : ∀ reaction ∈ session.run.reactions.table, reaction.value.Independent)
    (readable : ∀ name value, setup.program.NamesStream name →
      session.run.streams.reading name = some (some value) → value.Independent) :
    Scene setup.program where
  reactions := session.run.reactions
  reading := session.run.streams.reading
  value_independent found := independent _ (Reactions.mem_table_of_get? found)
  reading_independent named reads := readable _ _ named reads
  readable {id initial condition next binding} present known := by
    obtain ⟨reaction, found⟩ := Option.isSome_iff_exists.mp known
    have listed := Reactions.mem_table_of_get? found
    obtain ⟨_, _, _, _, here, denoted, nonempty⟩ := inStep.2.faithful reaction listed
    rw [Reactions.node_of_get? found, present] at here
    cases here
    rw [← denoted]
    exact ⟨nonempty, fun name member =>
      Streams.isSome_reading_of_get? (inStep.2.registered reaction listed name member)⟩

theorem Follows.pass_ended
    {begun : Run} (follows : session.Follows begun) (done : session.state = .done) :
    ∃ value ended, Action.guardedMain session.setup id begun = .ok value ended ∧
      session.latest = some value ∧
      session.run.reactions.unmarked = ended.reactions.unmarked ∧
      session.run.streams.changed = begun.streams.changed ∧
      ∀ name, session.run.streams.reading name = begun.streams.reading name := by
  obtain ⟨original, onPass, like⟩ := follows
  have originalDone : original.state = .done := like.state.symm.trans done
  obtain ⟨machine, run, results, passed, latest, same⟩ := onPass.ended originalDone
  have sameSetup : original.setup = session.setup := like.setup.symm
  have reading := Action.preserves_pass
    (Run.stable_reading original.setup.program begun.streams.reading) begun fun _ => rfl
  rw [Ensures, passed] at reading
  rw [Action.pass_eq] at passed
  cases ended : Action.guardedMain original.setup id begun with
  | error defect last =>
    simp only [bind, EStateM.bind, ended] at passed
    cases passed
  | ok value last =>
    rw [bind_of_ok ended] at passed
    cases passed
    refine ⟨value, run, sameSetup ▸ ended, ?_, ?_, ?_, fun name => ?_⟩
    · rw [like.1]
      exact latest
    · rw [like.2.reactions, same]
    · rw [like.2.changed, onPass.changed (by rw [originalDone]; rfl)]
    · rw [like.2.reading, same]
      exact reading name

section

variable {begun : Run} (atRest : session.AtRest setup.program) (inStep : session.InStep setup)
  (ordered : session.run.streams.Ordered) (orderly : session.Orderly setup)
include atRest inStep ordered orderly

theorem AtRest.parallel (outset : begun.Outset setup)
    (changed : session.run.streams.changed = begun.streams.changed)
    (reading : ∀ name, session.run.streams.reading name = begun.streams.reading name)
    (independent : ∀ reaction ∈ session.run.reactions.table, reaction.value.Independent)
    (readable : ∀ name value, setup.program.NamesStream name →
      session.run.streams.reading name = some (some value) → value.Independent) :
    (scene inStep independent readable).Parallel .empty begun
      (session.run.takenIn.beginPass setup) where
  scopes_exact := Pairing.oneToOne_nil
  serials_exact := Pairing.oneToOne_nil
  scopes_lt := nofun
  serials_lt := nofun
  bindings := nofun
  borrowed := by
    rw [outset.borrowed]
    exact .nil
  borrowing := outset.borrowing.symm
  reacting := outset.reacting.symm
  nesting := outset.nesting.symm
  defect := orderly.calm.reported.trans outset.defect.symm
  shows name named := by
    refine ⟨(reading name).symm, ?_⟩
    rw [Streams.hasChanged, ← changed]
    exact decide_eq_false (atRest.still name named)
  shows_twin name named :=
    ⟨Streams.reading_drain_commit ordered.nodup (atRest.quiet name named),
      decide_eq_false (atRest.quiet name named)⟩
  reactions := atRest.reactions_takenIn inStep

/-- The next pass comes to the same result as the earlier one, and leaves the reactions alone. -/
theorem AtRest.pass_again (follows : session.Follows begun) (outset : begun.Outset setup)
    (discreet : begun.PassesDiscreetly setup)
    (independent : ∀ reaction ∈ session.run.reactions.table, reaction.value.Independent)
    (readable : ∀ name value, setup.program.NamesStream name →
      session.run.streams.reading name = some (some value) → value.Independent) :
    ∃ value last, Action.pass setup (session.run.takenIn.beginPass setup) =
        .ok (Machine.empty.deliver value) last ∧
      session.latest.map Val.render = some value.render ∧
      last.reactions = session.run.reactions := by
  obtain ⟨value, ended, passed, latest, reactions, changed, reading⟩ :=
    follows.pass_ended atRest.done
  rw [inStep.1] at passed
  have parallel := atRest.parallel inStep ordered orderly outset changed reading independent readable
  have tracked := Action.tracks_guardedMain .empty begun _ parallel
  rw [Ensures, discreet, passed] at tracked
  have covers : (scene inStep independent readable).Covers ended.reactions := by
    intro node reaction found
    exact (Reactions.value_congr reactions node).trans (congrArg (Option.map (·.value)) found)
  obtain ⟨-, pairing, -, again, last, finished, alike, still⟩ := tracked covers
  refine ⟨again, last, ?_, ?_, still.reactions⟩
  · rw [Action.pass_eq, bind_of_ok finished]
    rfl
  · rw [latest, Option.map_some, alike.render_eq]

end

/-- A flush of a session at rest updates nothing.  It evaluates the main source again if some stream has
advanced. -/
theorem AtRest.flush (atRest : session.AtRest setup.program) (inStep : session.InStep setup)
    {value : Val} {last : Run}
    (passed : Action.pass setup (session.run.takenIn.beginPass setup) =
      .ok (Machine.empty.deliver value) last) :
    Ensures Call.flush session
      (fun _ after => after.state = .done ∧
        (after.latest = some value ∧ after.run.reactions = last.reactions ∨
          session.run.advancedStreams.changed = [] ∧ after.latest = session.latest ∧
            after.run.reactions = session.run.reactions))
      (fun _ _ => False) := by
  have alive : session.Alive := by simp [atRest.done]
  have unmarked := atRest.reactions_takenIn inStep
  simp only [Ensures, Call.flush_of_alive inStep alive, unmarked, atRest.settled]
  show Ensures (Call.refresh _ []) _ _ _
  simp only [Call.refresh, ensures_bind, ensures_get, Call.ensures_perform, Action.updateAll,
    ensures_pure, ensures_modify]
  split
  · simp only [Call.rerun, Call.finishPass, Call.notify, ensures_bind, ensures_get,
      Call.ensures_perform, ensures_modify]
    simp only [inStep.1, Ensures, passed]
    refine ⟨trivial, Or.inl ⟨rfl, ?_⟩⟩
    split
    · rfl
    · rfl
  · next calm =>
    simp only [atRest.done, RunState.isLive, Bool.true_and, Bool.or_eq_true, Bool.not_eq_true',
      not_or, Bool.not_eq_false, List.isEmpty_iff] at calm
    exact ⟨atRest.done, Or.inr ⟨calm.1.1, rfl, unmarked⟩⟩

/--
Passes over unchanged streams are transparent.  Let a pass have come to its end, and let no stream have
been registered since it began.  Suppose that nothing has happened or waits to happen that the program
could tell, that in the pass no reaction left anything behind but itself, and that neither the values of
reactions nor those that the program can read are functions or structures of some run.  Then values for
streams that no node names change nothing: a flush leaves the text of the result and all reactions, with
their values and the numbers of their updates, as they are.
-/
theorem unrelated_flush_transparent
    (program : Program) (limits : Limits) (before : List HostCall) (opening : HostCall)
    (between : List HostCall) (pushes : List (String × Val)) {begun : Run} {session : Session}
    (begins : opening.begins ((create program limits).course before).2 = some begun)
    (undisturbed :
      (opening.outcome ((create program limits).course before).2).2.Undisturbed between)
    (reached : session = ((create program limits).course (before ++ opening :: between)).2)
    (atRest : session.AtRest program) (discreet : begun.PassesDiscreetly ⟨program, limits⟩)
    (independent : ∀ reaction ∈ session.run.reactions.table, reaction.value.Independent)
    (readable : ∀ name value, program.NamesStream name →
      session.run.streams.reading name = some (some value) → value.Independent)
    (unnamed : ∀ push ∈ pushes, ¬ program.NamesStream push.1) :
    let after := (session.course
      (pushes.map (fun push => HostCall.push push.1 push.2) ++ [.flush])).2
    after.state = .done ∧
      after.latest.map Val.render = session.latest.map Val.render ∧
      after.run.reactions = session.run.reactions := by
  have hasMain : program.main?.isSome := by
    by_contra missing
    obtain ⟨asleep, -⟩ := asleep_course (Option.not_isSome_iff_eq_none.mp missing) limits
      (before ++ opening :: between)
    have done := atRest.done
    rw [reached, asleep.state] at done
    cases done
  have inStep := inStep_course (inStep_create program limits)
  have ordered := fun calls => ordered_course program limits calls
  have orderly := fun calls => orderly_course hasMain limits calls
  have opened : (opening.outcome ((create program limits).course before).2).2 =
      ((create program limits).course (before ++ [opening])).2 := by
    rw [course_append]
    rfl
  have arrived : session =
      ((opening.outcome ((create program limits).course before).2).2.course between).2 := by
    rw [reached, course_append]
    rfl
  have pushed : (session.course (pushes.map fun push => HostCall.push push.1 push.2)).2 =
      ((create program limits).course (before ++ opening :: between ++
        pushes.map fun push => HostCall.push push.1 push.2)).2 := by
    rw [course_append, reached]
  have opening := HostCall.follows_of_begins (inStep before) hasMain begins
  have follows : session.Follows begun := by
    rw [arrived]
    exact follows_course hasMain (opened ▸ inStep _) (opened ▸ ordered _) opening undisturbed
  obtain ⟨calm, rested, streams, same, reading⟩ :=
    @AtRest.pushes ⟨program, limits⟩ pushes unnamed session atRest (reached ▸ inStep _)
      (reached ▸ ordered _)
  have followed := follows_course hasMain (reached ▸ inStep _) (reached ▸ ordered _) follows calm
  obtain ⟨value, last, passed, again, reactions⟩ :=
    rested.pass_again (pushed ▸ inStep _) (pushed ▸ ordered _) (pushed ▸ orderly _) followed
      (HostCall.outset_of_begins (inStep before) (orderly before) begins) discreet
      (by rw [same]; exact independent)
      (by rw [same]; exact fun name value named reads =>
        readable name value named ((reading name).symm.trans reads))
  have flushed := rested.flush (pushed ▸ inStep _) passed
  rw [same] at again reactions
  intro after
  have ended : after = (HostCall.flush.outcome
      (session.course (pushes.map fun push => HostCall.push push.1 push.2)).2).2 := by
    simp only [after, course_append]
    rfl
  rw [ended]
  refine HostCall.outcome_of_ensures (fun _ after => after.state = .done ∧
    after.latest.map Val.render = session.latest.map Val.render ∧
    after.run.reactions = session.run.reactions) ((ensures_bind _ _).mpr (flushed.imp ?_
      fun _ _ impossible => impossible.elim))
  rintro _ after ⟨done, ⟨latest, kept⟩ | ⟨-, latest, kept⟩⟩
  · exact ⟨done, by rw [latest, again]; rfl, kept.trans reactions⟩
  · rw [same] at latest kept
    exact ⟨done, by rw [latest], kept⟩

/-- A host pushes to a stream that nobody knows, once before and once after the program is done. -/
theorem unrelated_flush_transparent_beside_reaction :
    let program := Program.ofExpr
      (.list [.reaction (.bool false) (.changed (.stream "s")) (.stream "s"), .bool true])
    let calls : List HostCall := [.register "s", .register "t", .run, .push "t" (.bool false)]
    let session := ((create program ⟨8, 1⟩).course calls).2
    let after := (session.course [.push "t" (.bool true), .flush]).2
    (session.AtRest program ∧ ¬ program.NamesStream "t" ∧
      session.run.advancedStreams.changed = ["t"]) ∧
      after.state = .done ∧
      after.latest.map Val.render = session.latest.map Val.render ∧
      after.run.reactions = session.run.reactions := by
  intro program calls session after
  have nodes : program.nodes = #[.bool false, .stream "s", .changed 1, .stream "s",
      .reaction 0 2 3 none, .bool true, .list [4, 5]] := rfl
  have named : ∀ name, program.NamesStream name → name = "s" := by
    intro name isNamed
    simpa [nodes] using isNamed.listed
  have leaves : program.ReactsToLeaves := by
    intro id initial condition next binding present
    have listed := Array.mem_of_getElem? present
    rw [nodes] at listed
    simp only [List.mem_toArray, List.mem_cons, Node.reaction.injEq, reduceCtorEq, false_or,
      or_false, List.not_mem_nil] at listed
    obtain ⟨rfl, rfl, rfl, rfl⟩ := listed
    exact ⟨⟨_, rfl, rfl⟩, _, rfl, rfl⟩
  have facts : session.state = .done ∧ session.run.reactions.dirty = [] ∧
      session.run.streams.changed = [] ∧ session.run.advancedStreams.changed = ["t"] ∧
      session.run.reactions.table.all (fun reaction => reaction.value.agrees (.bool false)) = true ∧
      (session.run.streams.reading "s").map Option.isSome = some false := by
    decide +kernel
  obtain ⟨done, settled, changed, advanced, values, nothing⟩ := facts
  have atRest : session.AtRest program := by
    refine ⟨done, settled, ?_, ?_⟩
    · simp [changed]
    · intro name isNamed
      rw [named name isNamed, advanced]
      decide
  have unnamed : ¬ program.NamesStream "t" := fun isNamed => absurd (named "t" isNamed) (by decide)
  refine ⟨⟨atRest, unnamed, advanced⟩, ?_⟩
  refine unrelated_flush_transparent program ⟨8, 1⟩ [.register "s", .register "t"] .run
    [.push "t" (.bool false)] [("t", .bool true)] rfl ⟨rfl, rfl, trivial⟩ rfl atRest
    (Run.passesDiscreetly_of_leaves leaves _) ?_ ?_ (by simpa using unnamed)
  · intro reaction listed
    have isValue := List.all_eq_true.mp values reaction listed
    rw [Val.eq_of_agrees isValue]
    exact .bool false
  · intro name value isNamed reads
    rw [named name isNamed] at reads
    rw [show session.run.streams.reading "s" = some (some value) from reads] at nothing
    cases nothing

/-! ### Passes that are not transparent -/

/-- The initial value of a reaction binds a name; the next pass does not evaluate it and misses the
name. -/
theorem binding_of_initial_value_lost_in_next_pass :
    let program := Program.ofExpr
      (.block [.reaction (.bind "x" (.bool true)) (.changed (.stream "s")) .previous, .name "x"])
    let session := ((create program ⟨8, 1⟩).course [.register "s", .register "t", .run]).2
    let after := (session.course [.push "t" (.bool true), .flush]).2
    (session.AtRest program ∧ ¬ program.NamesStream "t") ∧
      session.latest = some (.bool true) ∧
      after.latest = some (.failure (.unboundName "x") 6) := by
  intro program session after
  have nodes : program.nodes = #[.bool true, .bind "x" 0, .stream "s", .changed 2, .previous,
      .reaction 1 3 4 none, .name "x", .block [5, 6]] := rfl
  have unnamed : ¬ program.NamesStream "t" := fun isNamed => by simpa [nodes] using isNamed.listed
  have facts : session.state = .done ∧ session.run.reactions.dirty = [] ∧
      session.run.streams.changed = [] ∧ session.run.advancedStreams.changed = [] ∧
      session.latest.any (Val.bool true).agrees = true ∧
      after.latest.any (Val.failure (.unboundName "x") 6).agrees = true := by
    decide +kernel
  obtain ⟨done, settled, still, quiet, latest, later⟩ := facts
  exact ⟨⟨⟨done, settled, by simp [still], by simp [quiet]⟩, unnamed⟩,
    Val.eq_some_of_agrees latest, Val.eq_some_of_agrees later⟩

/-- The value of a reaction is a function that the main source has made, and the next pass, which makes
it again, finds that it is another one.  Here the pass is discreet, but the value is not independent of
the run. -/
theorem identity_of_function_lost_in_next_pass :
    let program := Program.ofExpr (.block [.bind "f" (.function none [] (.bool true)),
      .binary (.reaction (.name "f") (.changed (.stream "s")) .previous) "=" (.name "f")])
    let session := ((create program ⟨8, 1⟩).course [.register "s", .register "t", .run]).2
    let after := (session.course [.push "t" (.bool true), .flush]).2
    (session.AtRest program ∧ ¬ program.NamesStream "t") ∧
      session.latest = some (.bool true) ∧ after.latest = some (.bool false) := by
  intro program session after
  have nodes : program.nodes = #[.bool true, .function none [] 0, .bind "f" 1, .name "f",
      .stream "s", .changed 4, .previous, .reaction 3 5 6 none, .name "f", .binary 7 "=" 8,
      .block [2, 9]] := rfl
  have unnamed : ¬ program.NamesStream "t" := fun isNamed => by simpa [nodes] using isNamed.listed
  have facts : session.state = .done ∧ session.run.reactions.dirty = [] ∧
      session.run.streams.changed = [] ∧ session.run.advancedStreams.changed = [] ∧
      session.latest.any (Val.bool true).agrees = true ∧
      after.latest.any (Val.bool false).agrees = true := by
    decide +kernel
  obtain ⟨done, settled, still, quiet, latest, later⟩ := facts
  exact ⟨⟨⟨done, settled, by simp [still], by simp [quiet]⟩, unnamed⟩,
    Val.eq_some_of_agrees latest, Val.eq_some_of_agrees later⟩

end Session

end Reactor

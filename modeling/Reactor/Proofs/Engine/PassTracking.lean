import Reactor.Proofs.Engine.CallTracking

/-!
# Passes in parallel

A pass that comes upon reactions for the first time evaluates their initial values and conditions; a
pass in which they are known does not.  This makes no difference to anything else if the evaluation was
discreet, that is, if it left nothing behind for others to come upon: `Run.Discreet`.  The theorem
`Action.tracks_guardedMain` compares such passes, by recursion over the nodes of the program.
-/

namespace Reactor

open List

/-- An evaluation has left nothing behind: scopes that were there bind what they bound, and nothing
became known of a source. -/
structure Run.Discreet (run after : Run) : Prop where
  bindings : ∀ id < run.scopes.size, after.scopes.bindings id = run.scopes.bindings id
  borrowed : after.borrowed = run.borrowed

theorem Run.Discreet.parallel
    {program : Program} {scene : Scene program} {pairing : Pairing} {run after twin : Run}
    (discreet : run.Discreet after)
    (parallel : scene.Parallel pairing run twin) (returned : run.Returned after)
    (shows : scene.Shows after.streams) : scene.Parallel pairing after twin where
  scopes_exact := parallel.scopes_exact
  serials_exact := parallel.serials_exact
  scopes_lt pair mem :=
    ⟨Nat.lt_of_lt_of_le (parallel.scopes_lt pair mem).1 returned.size,
      (parallel.scopes_lt pair mem).2⟩
  serials_lt pair mem :=
    ⟨Nat.lt_of_lt_of_le (parallel.serials_lt pair mem).1 returned.serial,
      (parallel.serials_lt pair mem).2⟩
  bindings pair mem := by
    rw [discreet.bindings pair.1 (parallel.scopes_lt pair mem).1]
    exact parallel.bindings pair mem
  borrowed := by
    rw [discreet.borrowed]
    exact parallel.borrowed
  borrowing := by rw [returned.borrowing, parallel.borrowing]
  reacting := by rw [returned.reacting, parallel.reacting]
  nesting := by rw [returned.nesting, parallel.nesting]
  defect := by rw [returned.defect, parallel.defect]
  shows := shows
  shows_twin := parallel.shows_twin
  reactions := parallel.reactions

namespace Action

open Classical in
/-- Do something that has to be discreet if a reaction comes into being. -/
noncomputable def discreetly (action : Action Val) : Action Val := fun run =>
  match action run with
  | .ok value after =>
    if after.reactions = run.reactions ∨ run.Discreet after then .ok value after
    else .error default after
  | .error defect after => .error defect after

theorem ensures_discreetly {action : Action Val} {run : Run} {good : Val → Run → Prop}
    (ensured : Ensures action run
      (fun value after => after.reactions = run.reactions ∨ run.Discreet after → good value after)
      fun _ _ => True) :
    Ensures (discreetly action) run good fun _ _ => True := by
  simp only [Ensures, discreetly] at ensured ⊢
  cases ended : action run with
  | error defect after => trivial
  | ok value after =>
    rw [ended] at ensured
    by_cases discreet : after.reactions = run.reactions ∨ run.Discreet after
    · simp only [if_pos discreet]
      exact ensured discreet
    · simp only [if_neg discreet]

theorem harmless_discreetly : Harmless discreetly := by
  intro P action preserved run holds
  have kept := preserved run holds
  simp only [Ensures, discreetly] at kept ⊢
  cases ended : action run with
  | error defect after => rw [ended] at kept; exact kept
  | ok value after =>
    rw [ended] at kept
    by_cases discreet : after.reactions = run.reactions ∨ run.Discreet after
    · simp only [if_pos discreet]
      exact kept
    · simp only [if_neg discreet]
      exact kept

/-! ### Operands -/

/-- Operands that stand for one another, or exceptions among them that do. -/
inductive OperandsAlike (pairing : Pairing) :
    Except Val (List Val) → Except Val (List Val) → Prop where
  | error {value other : Val} :
      value.Alike pairing other → OperandsAlike pairing (.error value) (.error other)
  | ok {values others : List Val} :
      List.Forall₂ (Val.Alike pairing) values others →
        OperandsAlike pairing (.ok values) (.ok others)

section Nodes

variable {setup : Setup} {scene : Scene setup.program} {pairing : Pairing}
  {callback callbackTwin inside insideTwin : Evaluation}
  (called : ∀ (pairing : Pairing) (node : NodeId) (env other : Env), Env.Alike pairing env other →
    scene.Tracks pairing Val.Alike (callback node env) (callbackTwin node other))
  (callbackGrows : ∀ node env, (callback node env).Grows)
  (valued : ∀ (pairing : Pairing) (node : NodeId) (env other : Env), Env.Alike pairing env other →
    scene.Tracks pairing Val.Alike (inside node env) (insideTwin node other))
  (grows : ∀ node env, (inside node env).Grows)

include valued grows in
theorem tracks_operandValues
    {env other : Env} (envs : Env.Alike pairing env other) (inspects : Bool)
    {found others : List Val} (sofar : List.Forall₂ (Val.Alike pairing) found others)
    (children : List NodeId) :
    scene.Tracks pairing OperandsAlike (operandValues (inside · env) inspects found children)
      (operandValues (insideTwin · other) inspects others children) := by
  induction children generalizing pairing found others with
  | nil => exact Scene.tracks_pure (.ok sofar)
  | cons child rest ih =>
    refine (valued pairing child env other envs).bind (fun value reactions => ?_) ?_
    · split
      · exact preserves_pure _
      · exact preserves_operandValues (fun node => grows node env reactions) _ _ _
    · intro larger grown value twin alike
      rw [alike.isException_eq]
      split
      · exact Scene.tracks_pure (.error alike)
      · exact ih (envs.mono grown) (rel_append (Val.Alike.mono_all sofar grown) (.cons alike .nil))

include called callbackGrows valued grows in
theorem tracks_combinedValue
    {id : NodeId} {node : Node} (present : setup.program.node? id = some node)
    {env other : Env} (envs : Env.Alike pairing env other) :
    scene.Tracks pairing Val.Alike (combinedValue setup callback inside id node env)
      (combinedValue setup callbackTwin insideTwin id node other) := by
  refine (tracks_operandValues valued grows envs _ .nil _).bind (fun operands reactions => ?_) ?_
  · cases operands with
    | error exception => exact preserves_pure _
    | ok values =>
      refine Preserves.bind ?_ fun outcome => ?_
      · exact (mirrors_combine (Run.unmoved_grown reactions).likeness
          (fun body scope => (callbackGrows body scope reactions).mirrors) id node values
          env).preserves
      · cases outcome with
        | complete value => exact preserves_pure _
        | enter body scope => exact grows body scope reactions
  · intro larger grown operands twins alike
    cases alike with
    | error exception => exact Scene.tracks_pure exception
    | ok values =>
      refine (tracks_combine called callbackGrows present values (envs.mono grown)).bind
        (fun outcome reactions => ?_) ?_
      · cases outcome with
        | complete value => exact preserves_pure _
        | enter body scope => exact grows body scope reactions
      · intro largest more outcome twin alike
        cases alike with
        | complete value => exact Scene.tracks_pure value
        | enter body scopes => exact valued largest body _ _ scopes

/-! ### Borrowed sources -/

/-- What is done once the value of a borrowed source is known. -/
def lend (env : Env) (source name : String) (value : Val) : Action Val := do
  modify fun run => { run with borrowing := run.borrowing.filter (· ≠ source) }
  modify fun run =>
    { run with
      borrowed := run.borrowed.define source value
      sourceResults := run.sourceResults.define source value }
  define env name value
  return value

section

variable {inside : Evaluation} {source : String} (there : (setup.program.source? source).isSome)
  {run : Run}
include there

theorem borrowedValue_of_known {value : Val} (known : run.borrowed.get? source = some value)
    (id : NodeId) (env : Env) (name : String) :
    borrowedValue setup inside id env source name run =
      (do define env name value; return value : Action Val) run := by
  obtain ⟨found, present⟩ := Option.isSome_iff_exists.mp there
  simp only [borrowedValue, present, bind, EStateM.bind, get_apply, known]

theorem borrowedValue_of_entered (new : run.borrowed.get? source = none)
    (entered : source ∈ run.borrowing) (id : NodeId) (env : Env) (name : String) :
    borrowedValue setup inside id env source name run =
      .ok (.failure (.cyclicBorrow source) id) run := by
  obtain ⟨found, present⟩ := Option.isSome_iff_exists.mp there
  simp only [borrowedValue, present, bind, EStateM.bind, get_apply, new, if_pos entered]
  rfl

end

theorem borrowedValue_of_new {inside : Evaluation} {source : String} {found : Source}
    (present : setup.program.source? source = some found) {run : Run}
    (new : run.borrowed.get? source = none) (outside : source ∉ run.borrowing)
    (id : NodeId) (env : Env) (name : String) :
    borrowedValue setup inside id env source name run =
      ((openRoot >>= inside found.root) >>= lend env source name)
        { run with borrowing := run.borrowing ++ [source] } := by
  simp only [borrowedValue, present, bind_assoc]
  simp only [bind, EStateM.bind, get_apply, new, if_neg outside]
  rfl

theorem lend_eq (env : Env) (source name : String) (value : Val) (run : Run) :
    lend env source name value run =
      .ok value { run with
        borrowing := run.borrowing.filter (· ≠ source)
        borrowed := run.borrowed.define source value
        sourceResults := run.sourceResults.define source value
        scopes := run.scopes.define env name value } :=
  rfl

theorem filter_entered {names : List String} {name : String} (outside : name ∉ names) :
    (names ++ [name]).filter (· ≠ name) = names := by
  have others : names.filter (· ≠ name) = names := by
    refine filter_eq_self.mpr fun other mem => ?_
    have differs : other ≠ name := fun equal => outside (equal ▸ mem)
    simpa using differs
  rw [filter_append, others]
  simp

include valued in
/-- Both runs find a source known, under evaluation or new. -/
theorem tracks_borrowedValue
    {env other : Env} (envs : Env.Alike pairing env other) (id : NodeId) (source name : String) :
    scene.Tracks pairing Val.Alike (borrowedValue setup inside id env source name)
      (borrowedValue setup insideTwin id other source name) := by
  cases present : setup.program.source? source with
  | none =>
    simp only [borrowedValue, present]
    exact Scene.tracks_pure (Val.alike_failure _ id)
  | some found =>
    have there : (setup.program.source? source).isSome := by rw [present]; rfl
    intro run twin parallel
    have borrowed := parallel.borrowed.get? source
    generalize answer : run.borrowed.get? source = known,
      answerTwin : twin.borrowed.get? source = knownTwin at borrowed
    cases borrowed with
    | some alike =>
      rw [ensures_congr (borrowedValue_of_known there answer id env name),
        borrowedValue_of_known there answerTwin id other name]
      exact ((lockstep_define envs name alike).bind_tracks
        fun _ grown _ _ _ => Scene.tracks_pure (alike.mono grown)) run twin parallel
    | none =>
      by_cases entered : source ∈ run.borrowing
      · have enteredTwin : source ∈ twin.borrowing := by rwa [parallel.borrowing]
        rw [Ensures, borrowedValue_of_entered there answer entered,
          borrowedValue_of_entered there answerTwin enteredTwin]
        exact fun _ => parallel.reaches (Val.alike_failure _ id)
      · have outside : source ∉ twin.borrowing := by rwa [parallel.borrowing]
        rw [ensures_congr (borrowedValue_of_new present answer entered id env name),
          borrowedValue_of_new present answerTwin outside, ensures_bind]
        have rooted : scene.Tracks pairing Val.Alike (openRoot >>= inside found.root)
            (openRoot >>= insideTwin found.root) :=
          lockstep_openRoot.bind_tracks fun larger _ env other envs =>
            valued larger found.root env other envs
        refine (rooted { run with borrowing := run.borrowing ++ [source] }
          { twin with borrowing := twin.borrowing ++ [source] }
          { parallel with borrowing := by rw [parallel.borrowing] }).map ?_
        intro value middle reaches
        rw [Ensures, lend_eq]
        intro covers
        obtain ⟨returned, larger, grown, valueTwin, twinMiddle, ended, alike, stillParallel⟩ :=
          reaches covers
        have bound := stillParallel.define (envs.mono grown) name alike
        have left : middle.borrowing.filter (· ≠ source) = run.borrowing := by
          rw [returned.borrowing]
          exact filter_entered entered
        refine ⟨⟨?_, returned.serial, left, returned.reacting, returned.nesting,
          returned.defect⟩, larger, grown, valueTwin, _, bind_of_ok ended _, alike,
          { bound with borrowing := ?_, borrowed := stillParallel.borrowed.define source alike }⟩
        · exact Nat.le_trans returned.size (Nat.le_of_eq (Scopes.size_define ..).symm)
        · simp only [stillParallel.borrowing]

/-! ### Reactions -/

/-- The initial value of a reaction, once its condition has been evaluated too. -/
def initialValue (inside : NodeId → Env → Action Val) (env : Env) (initial condition : NodeId) :
    Action Val := do
  let value ← inside initial env
  let _ ← inside condition env
  return value

/-- Leave a new reaction and enter it into the table. -/
def establish (id : NodeId) (streams : List String) (env : Env) (binding : Option String)
    (value : Val) : Action Val := do
  modify fun run => { run with reacting := run.reacting - 1 }
  Frame.settle id value streams env binding

section

variable {inside : Evaluation} {run : Run}

theorem reactionValue_of_reacting (reacting : 0 < run.reacting) (id : NodeId) (env : Env)
    (initial condition : NodeId) (binding : Option String) :
    reactionValue setup inside id env initial condition binding run =
      .ok (.failure .nestedReaction id) run := by
  simp only [reactionValue, bind, EStateM.bind, get_apply, if_pos reacting]
  rfl

theorem reactionValue_of_found (free : ¬0 < run.reacting) {id : NodeId} {reaction : Reaction}
    (found : run.reactions.get? id = some reaction) (env : Env) (initial condition : NodeId)
    (binding : Option String) :
    reactionValue setup inside id env initial condition binding run = .ok reaction.value run := by
  simp only [reactionValue, bind, EStateM.bind, get_apply, if_neg free, found]
  rfl

theorem reactionValue_of_new (free : ¬0 < run.reacting) {id : NodeId}
    (new : run.reactions.get? id = none) (env : Env) (initial condition : NodeId)
    (binding : Option String) :
    reactionValue setup inside id env initial condition binding run =
      (initialValue inside env initial condition >>=
        establish id (setup.program.denotedStreams condition) env binding)
          { run with reacting := run.reacting + 1 } := by
  simp only [reactionValue, initialValue, establish, bind_assoc, pure_bind]
  simp only [bind, EStateM.bind, get_apply, if_neg free, new]
  rfl

end

include valued grows in
theorem tracks_initialValue
    {env other : Env} (envs : Env.Alike pairing env other) (initial condition : NodeId) :
    scene.Tracks pairing Val.Alike (initialValue inside env initial condition)
      (initialValue insideTwin other initial condition) := by
  refine (valued pairing initial env other envs).bind (fun value reactions => ?_) ?_
  · exact (grows condition env reactions).bind fun _ => preserves_pure _
  · intro larger grown value twin alike
    refine (valued larger condition env other (envs.mono grown)).bind (fun _ _ => ?_) ?_
    · exact preserves_pure _
    · exact fun largest more _ _ _ => Scene.tracks_pure (alike.mono more)

theorem preserves_initialValue
    {P : Run → Prop} (preserved : ∀ node env, Preserves P (inside node env))
    (env : Env) (initial condition : NodeId) :
    Preserves P (initialValue inside env initial condition) :=
  (preserved initial env).bind fun _ => (preserved condition env).bind fun _ => preserves_pure _

end Nodes

end Action

namespace Frame

open Reactor.Action

variable {setup : Setup} {scene : Scene setup.program} {pairing : Pairing}

theorem lockstep_missingStream?
    {names : List String} (named : ∀ name ∈ names, setup.program.NamesStream name) :
    scene.Lockstep pairing (fun _ missing other => other = missing) (missingStream? names)
      (missingStream? names) := by
  induction names generalizing pairing with
  | nil => exact Scene.lockstep_pure rfl
  | cons name rest ih =>
    have ⟨first, others⟩ := forall_mem_cons.mp named
    refine (lockstep_ensureStream first).bind fun larger _ found twin same => ?_
    subst same
    split
    · exact ih others
    · exact Scene.lockstep_pure rfl

/-- A reaction that the scene lacks does not come into being in the first run, so it is refused in
both. -/
theorem tracks_settle {id : NodeId} (absent : scene.reactions.get? id = none)
    {names : List String} (named : ∀ name ∈ names, setup.program.NamesStream name)
    (value twin : Val) (env other : Env) (binding : Option String) :
    scene.Tracks pairing Val.Alike (settle id value names env binding)
      (settle id twin names other binding) := by
  unfold settle
  split
  · exact Scene.tracks_pure (Val.alike_failure _ id)
  · refine (lockstep_missingStream? named).bind_tracks fun larger _ missing missingTwin same => ?_
    subst same
    cases missingTwin with
    | some name => exact Scene.tracks_pure (Val.alike_failure _ id)
    | none =>
      intro run runTwin _
      rw [ensures_bind, ensures_modify, ensures_pure]
      intro covers
      have entered := covers id ⟨id, .settled, value, names, env, binding, 0⟩
        (by rw [Run.addReaction, Reactions.get?_insert, if_pos rfl])
      rw [absent] at entered
      cases entered

variable {names : List String} {run : Run}

theorem missingStream?_of_readable (readable : ∀ name ∈ names, (run.streams.reading name).isSome) :
    ∃ streams, missingStream? names run = .ok none { run with streams } ∧
      (∀ name, streams.reading name = run.streams.reading name) ∧
      streams.changed = run.streams.changed := by
  induction names generalizing run with
  | nil => exact ⟨run.streams, rfl, fun _ => rfl, rfl⟩
  | cons name rest ih =>
    have ⟨first, others⟩ := forall_mem_cons.mp readable
    obtain ⟨latest, reads⟩ := Option.isSome_iff_exists.mp first
    have ensured : ensureStream name run =
        .ok true { run with streams := run.streams.ensured name } := by
      rw [ensureStream_eq, reads]
    obtain ⟨streams, ended, same, changed⟩ :=
      @ih { run with streams := run.streams.ensured name }
        (by simpa only [Streams.reading_ensured] using others)
    refine ⟨streams, (bind_of_ok ensured _).trans ended, fun other => ?_, ?_⟩
    · rw [same, Streams.reading_ensured]
    · rw [changed, Streams.changed_ensured]

theorem settle_of_readable (some : names ≠ [])
    (readable : ∀ name ∈ names, (run.streams.reading name).isSome) (id : NodeId) (value : Val)
    (env : Env) (binding : Option String) :
    ∃ streams, settle id value names env binding run =
        .ok value { run with
          streams
          reactions := run.reactions.insert ⟨id, .settled, value, names, env, binding, 0⟩ } ∧
      (∀ name, streams.reading name = run.streams.reading name) ∧
      streams.changed = run.streams.changed := by
  obtain ⟨streams, ended, same, changed⟩ := missingStream?_of_readable readable
  refine ⟨streams.subscribeAll names id, ?_, fun name => ?_, ?_⟩
  · have nonempty : ¬names.isEmpty := by simpa using some
    rw [settle, if_neg nonempty, bind_of_ok ended]
    rfl
  · rw [Streams.reading_subscribeAll, same]
  · rw [Streams.changed_subscribeAll, changed]

end Frame

namespace Action

section Reactions

variable {setup : Setup} {scene : Scene setup.program} {pairing : Pairing}
  {inside insideTwin : Evaluation}

variable {id initial condition next : NodeId} {binding : Option String}

/-- A reaction of the scene that becomes known in the first run.  Its value is the one that it has in
the second run, where nothing happens. -/
theorem ensures_establish_known {run middle twin : Run} (parallel : scene.Parallel pairing run twin)
    (shows : scene.Shows middle.streams)
    (back : run.Returned { middle with reacting := middle.reacting - 1 })
    (present : setup.program.node? id = some (.reaction initial condition next binding))
    (new : run.reactions.get? id = none) {reaction : Reaction}
    (known : scene.reactions.get? id = some reaction) (env : Env) (value : Val) :
    Ensures (establish id (setup.program.denotedStreams condition) env binding value) middle
      (fun answer after => after.reactions = run.reactions ∨ run.Discreet after →
        scene.Covers after.reactions →
          scene.Reaches pairing Val.Alike run answer after (.ok reaction.value twin))
      (fun _ _ => True) := by
  obtain ⟨nonempty, readable⟩ := scene.readable present (by rw [known]; rfl)
  obtain ⟨streams, settled, same, changed⟩ :=
    @Frame.settle_of_readable _ { middle with reacting := middle.reacting - 1 } nonempty
      (fun name denoted => by
        rw [(shows name (Program.namesStream_of_denoted denoted)).1]
        exact readable name denoted) id value env binding
  rw [establish, ensures_bind, ensures_modify, Ensures, settled]
  intro seemly covers
  have here : (middle.reactions.insert ⟨id, .settled, value,
      setup.program.denotedStreams condition, env, binding, 0⟩).get? id =
        some ⟨id, .settled, value, setup.program.denotedStreams condition, env, binding, 0⟩ := by
    rw [Reactions.get?_insert, if_pos rfl]
  have discreet := seemly.resolve_left fun same =>
    absurd ((congrArg (·.get? id) same).symm.trans here) (by simp [new])
  have entered := covers id _ here
  rw [known] at entered
  cases entered
  have kept := back.withTables streams
    (middle.reactions.insert
      ⟨id, .settled, reaction.value, setup.program.denotedStreams condition, env, binding, 0⟩)
  have showsAfter : scene.Shows streams := fun name named => by
    rw [same, Streams.hasChanged, changed]
    exact shows name named
  exact ⟨kept, pairing, le_rfl, reaction.value, twin, rfl,
    (scene.value_independent known).alike pairing, discreet.parallel parallel kept showsAfter⟩

/-- A reaction has the same value in both runs: it is known in both, or it becomes known in the first
one while nothing else happens, or it does not come into being. -/
theorem tracks_reactionValue
    (valued : ∀ (pairing : Pairing) (node : NodeId) (env other : Env), Env.Alike pairing env other →
      scene.Tracks pairing Val.Alike (inside node env) (insideTwin node other))
    (grows : ∀ node env, (inside node env).Grows)
    (frozen : ∀ (table : Reactions) (count : Nat), 0 < count →
      ∀ node env, Preserves (Run.Frozen table count) (inside node env))
    (present : setup.program.node? id = some (.reaction initial condition next binding))
    {env other : Env} (envs : Env.Alike pairing env other) :
    scene.Tracks pairing Val.Alike
      (discreetly (reactionValue setup inside id env initial condition binding))
      (reactionValue setup insideTwin id other initial condition binding) := by
  intro run twin parallel
  apply ensures_discreetly
  by_cases reacting : 0 < run.reacting
  · have reactingTwin : 0 < twin.reacting := by rwa [parallel.reacting]
    rw [Ensures, reactionValue_of_reacting reacting, reactionValue_of_reacting reactingTwin]
    exact fun _ _ => parallel.reaches (Val.alike_failure _ id)
  have free : ¬0 < twin.reacting := by rwa [parallel.reacting]
  cases found : run.reactions.get? id with
  | some reaction =>
    rw [Ensures, reactionValue_of_found reacting found]
    intro _ covers
    obtain ⟨known, foundTwin, same⟩ := Option.map_eq_some_iff.mp (covers id reaction found)
    rw [reactionValue_of_found free (parallel.reactions ▸ foundTwin), ← same]
    exact parallel.reaches ((scene.value_independent foundTwin).alike pairing)
  | none =>
    -- The table only grows, so in the end it is no part of the scene unless it was at the start.
    by_cases covered : scene.Covers run.reactions
    case neg =>
      exact (preserves_reactionValue_grown frozen id env initial condition binding run
        (Reactions.Grown.refl run.reactions)).imp
        (fun _ _ grown _ covers => absurd (covers.of_grown grown) covered) fun _ _ _ => trivial
    rw [ensures_congr (reactionValue_of_new reacting found env initial condition binding),
      ensures_bind]
    have started : scene.Parallel pairing { run with reacting := run.reacting + 1 }
        { twin with reacting := twin.reacting + 1 } :=
      { parallel with reacting := by simp only [parallel.reacting] }
    have still := preserves_initialValue (frozen run.reactions (run.reacting + 1) (Nat.succ_pos _))
      env initial condition { run with reacting := run.reacting + 1 } ⟨rfl, rfl⟩
    refine ((tracks_initialValue valued grows envs initial condition _ _ started).and still).imp ?_
      fun _ _ _ => trivial
    rintro value middle ⟨reaches, unchanged, counted⟩
    obtain ⟨returned, larger, grown, valueTwin, twinMiddle, ended, -, middleParallel⟩ :=
      reaches (by rw [unchanged]; exact covered)
    have back : run.Returned { middle with reacting := middle.reacting - 1 } :=
      ⟨returned.size, returned.serial, returned.borrowing, by simp only [counted]; rfl,
        returned.nesting, returned.defect⟩
    cases known : scene.reactions.get? id with
    | some reaction =>
      rw [reactionValue_of_found free (parallel.reactions ▸ known)]
      exact ensures_establish_known parallel middleParallel.shows back present found known env value
    | none =>
      rw [reactionValue_of_new free (parallel.reactions ▸ known), establish, ensures_bind,
        ensures_modify]
      refine (Frame.tracks_settle known (fun _ => Program.namesStream_of_denoted) value valueTwin
        env other binding { middle with reacting := middle.reacting - 1 }
        { twinMiddle with reacting := twinMiddle.reacting - 1 }
        { middleParallel with reacting := by simp only [middleParallel.reacting] }).map ?_
      intro answer after leads _ covers
      obtain ⟨further, largest, more, last, twinAfter, lastEnded, related, lastParallel⟩ :=
        leads covers
      exact ⟨back.trans further, largest, grown.trans more, last, twinAfter,
        (bind_of_ok ended _).trans lastEnded, related, lastParallel⟩

end Reactions

/-! ### Nodes -/

theorem lockstep_openScope {setup : Setup} {scene : Scene setup.program} {pairing : Pairing}
    {env other : Env} (envs : Env.Alike pairing env other) (id : NodeId) :
    scene.Lockstep pairing Env.Alike (Frame.openScope setup.program id env)
      (Frame.openScope setup.program id other) := by
  unfold Frame.openScope
  split
  · exact lockstep_openChild envs
  · exact Scene.lockstep_pure envs

theorem cleaningUp_of_ok {α : Type} {action : Action α} {run after : Run} {value : α}
    (ended : action run = .ok value after) (clean : Run → Run) :
    cleaningUp clean action run = .ok value (clean after) := by
  simp only [cleaningUp, ended]

theorem grows_guardedAt
    {setup : Setup} {guard : Action Val → Action Val} (harmless : Harmless guard)
    {callback : Evaluation} (grows : ∀ node env, (callback node env).Grows)
    (frozen : ∀ (table : Reactions) (count : Nat), 0 < count →
      ∀ node env, Preserves (Run.Frozen table count) (callback node env))
    (depth : Nat) (id : NodeId) (env : Env) :
    (guardedAt setup guard callback depth id env).Grows :=
  fun reactions => preserves_guardedAt harmless (Run.unmoved_grown reactions)
    (fun node env => grows node env reactions)
    (fun depth id env initial condition binding _ => preserves_reactionValue_grown
      (fun table count active => preserves_guardedAt_frozen harmless active
        (frozen table count active) depth) id env initial condition binding) depth id env

section Passes

variable {setup : Setup} {scene : Scene setup.program}
  {callback callbackTwin : Evaluation}
  (called : ∀ (pairing : Pairing) (node : NodeId) (env other : Env), Env.Alike pairing env other →
    scene.Tracks pairing Val.Alike (callback node env) (callbackTwin node other))
  (grows : ∀ node env, (callback node env).Grows)
  (frozen : ∀ (table : Reactions) (count : Nat), 0 < count →
    ∀ node env, Preserves (Run.Frozen table count) (callback node env))

include called grows in
theorem tracks_guardedNode {pairing : Pairing} {inside insideTwin : Evaluation}
    (valued : ∀ (pairing : Pairing) (node : NodeId) (env other : Env), Env.Alike pairing env other →
      scene.Tracks pairing Val.Alike (inside node env) (insideTwin node other))
    (insideGrows : ∀ node env, (inside node env).Grows)
    (insideFrozen : ∀ (table : Reactions) (count : Nat), 0 < count →
      ∀ node env, Preserves (Run.Frozen table count) (inside node env))
    (node : NodeId) {env other : Env} (envs : Env.Alike pairing env other) :
    scene.Tracks pairing Val.Alike (guardedNode setup discreetly callback inside node env)
      (guardedNode setup id callbackTwin insideTwin node other) := by
  unfold guardedNode nodeValue
  cases present : setup.program.node? node with
  | none => exact Scene.tracks_throw _ _
  | some found =>
    cases found with
    | reaction initial condition next binding =>
      exact tracks_reactionValue valued insideGrows insideFrozen present envs
    | borrow source name => exact tracks_borrowedValue valued envs node source _
    | _ => exact tracks_combinedValue called grows valued insideGrows present envs

include called grows frozen in
/-- Nodes lie deeper than what they are evaluated for, up to the limit of frames; this is what the
induction is on. -/
theorem tracks_guardedAt (depth : Nat) (pairing : Pairing) (node : NodeId) (env other : Env)
    (envs : Env.Alike pairing env other) :
    scene.Tracks pairing Val.Alike (guardedAt setup discreetly callback depth node env)
      (guardedAt setup id callbackTwin depth node other) := by
  have recorded : ∀ value : Val, (do record node value; return value : Action Val).Grows :=
    fun value reactions => Preserves.bind (preserves_modify fun _ grown => grown)
      fun _ => preserves_pure _
  rw [guardedAt, guardedAt]
  split
  · refine (lockstep_openScope envs node).bind_tracks fun larger grown scope scopeTwin scopes => ?_
    have here : scene.Tracks larger Val.Alike
        (guardedNode setup discreetly callback (guardedAt setup discreetly callback (depth + 1))
          node scope)
        (guardedNode setup id callbackTwin (guardedAt setup id callbackTwin (depth + 1))
          node scopeTwin) :=
      tracks_guardedNode called grows (tracks_guardedAt (depth + 1))
        (grows_guardedAt harmless_discreetly grows frozen (depth + 1))
        (fun table count active => preserves_guardedAt_frozen harmless_discreetly active
          (frozen table count active) (depth + 1)) node scopes
    refine here.bind recorded fun largest more value twin alike => ?_
    refine (lockstep_record node value twin).bind_tracks fun _ further _ _ _ => ?_
    exact Scene.tracks_pure (alike.mono further)
  · exact Scene.tracks_pure (Val.alike_failure _ node)
termination_by setup.limits.frames - depth

end Passes

variable {setup : Setup} {scene : Scene setup.program}

theorem tracks_guardedWithin (levels : Nat) (pairing : Pairing) (node : NodeId) (env other : Env)
    (envs : Env.Alike pairing env other) :
    scene.Tracks pairing Val.Alike (guardedWithin setup discreetly levels node env)
      (guardedWithin setup id levels node other) := by
  induction levels generalizing pairing node env other with
  | zero => exact Scene.tracks_pure (Val.alike_failure _ node)
  | succ levels ih =>
    intro run twin parallel
    rw [guardedWithin, ensures_bind, ensures_modify, ensures_cleaningUp]
    refine (tracks_guardedAt ih
      (fun node env _ => preserves_guardedWithin_grown harmless_discreetly levels node env)
      (fun _ _ active => preserves_guardedWithin_frozen harmless_discreetly active levels)
      0 pairing node env other envs { run with nesting := run.nesting + 1 }
      { twin with nesting := twin.nesting + 1 }
      { parallel with nesting := by simp only [parallel.nesting] }).map ?_
    intro value after reaches covers
    obtain ⟨returned, larger, grown, valueTwin, twinAfter, ended, alike, stillParallel⟩ :=
      reaches covers
    refine ⟨⟨returned.size, returned.serial, returned.borrowing, returned.reacting, ?_,
      returned.defect⟩, larger, grown, valueTwin,
      { twinAfter with nesting := twinAfter.nesting - 1 }, ?_, alike,
      { stillParallel with nesting := by simp only [stillParallel.nesting] }⟩
    · simp only [returned.nesting]
      rfl
    · rw [guardedWithin]
      exact (bind_of_ok (modify_apply _ twin) _).trans (cleaningUp_of_ok ended _)

theorem tracks_guarded
    (pairing : Pairing) (node : NodeId) (env other : Env) (envs : Env.Alike pairing env other) :
    scene.Tracks pairing Val.Alike (guarded setup discreetly node env)
      (guarded setup id node other) := by
  intro run twin parallel
  have within := tracks_guardedWithin (setup.limits.nesting - run.nesting) pairing node env other
    envs run twin parallel
  have same : guarded setup id node other twin =
      guardedWithin setup id (setup.limits.nesting - run.nesting) node other twin := by
    rw [guarded, bind_of_ok (get_apply twin), parallel.nesting]
  rw [same, guarded, ensures_bind, ensures_get]
  exact within

/-- A pass in which reactions become known and a pass in which they are known come to values that stand
for one another, if every reaction that becomes known is one that is known and its evaluation is
discreet. -/
theorem tracks_guardedMain (pairing : Pairing) :
    scene.Tracks pairing Val.Alike (guardedMain setup discreetly) (guardedMain setup id) := by
  unfold guardedMain
  cases setup.program.main? with
  | none => exact Scene.tracks_throw _ _
  | some main =>
    refine lockstep_openRoot.bind_tracks fun larger _ env other envs => ?_
    exact tracks_guardedAt tracks_guarded
      (fun node env _ => preserves_guarded_grown harmless_discreetly node env)
      (fun _ _ active => preserves_guarded_frozen harmless_discreetly active) 0 larger main.root
      env other envs

end Action

end Reactor

import Reactor.Proofs.Reaction.Growth
import Reactor.Proofs.Stream.Reading
import Reactor.Proofs.Value.Alike

/-!
# Runs that go on in parallel

Two passes over the same program are compared: one that may come upon reactions for the first time, and
one that begins with all of them.  Their runs are parallel under a pairing of scopes and serials if all
that evaluation looks at is the same or stands for one another.  The reactions of the second run and all
that can be read in both runs stay as they are; this is the scene of the two passes.

An action tracks another if it leads on from parallel runs whenever the other one comes to a value.  The
reactions that the first run has found in the meantime have to be those of the scene.  Evaluation only
adds reactions, so it suffices to know this at the end.  Actions that have nothing to do with reactions
go on in lockstep, which is more.
-/

namespace Reactor

open List

/-- A name by which some node of a program refers to a stream. -/
def Program.NamesStream (program : Program) (name : String) : Prop :=
  ∃ id, program.node? id = some (.stream name)

theorem Program.NamesStream.listed {program : Program} {name : String}
    (named : program.NamesStream name) : .stream name ∈ program.nodes :=
  named.elim fun _ present => Array.mem_of_getElem? present

theorem Program.namesStream_of_streamsBelow
    (program : Program) {found : List String} (pending : List NodeId)
    (named : ∀ name ∈ found, program.NamesStream name) :
    ∀ name ∈ program.streamsBelow found pending, program.NamesStream name := by
  fun_induction program.streamsBelow found pending with
  | case1 found => exact named
  | case2 found id pending present ih => exact ih named
  | case3 found id pending node present noted ih =>
    apply ih
    cases node with
    | stream name =>
      simp only [noted]
      split
      · exact named
      · intro other mem
        rcases mem_append.mp mem with old | new
        · exact named other old
        · rw [mem_singleton.mp new]
          exact ⟨id, present⟩
    | _ => exact named

theorem Program.namesStream_of_denoted {program : Program} {id : NodeId} {name : String}
    (denoted : name ∈ program.denotedStreams id) : program.NamesStream name :=
  program.namesStream_of_streamsBelow [id] (by simp) name denoted

/-- What stays the same during two passes over a program. -/
structure Scene (program : Program) where
  /-- The reactions that there are in the end. -/
  reactions : Reactions
  /-- What can be read of each stream. -/
  reading : String → Option (Option Val)
  /-- The values of reactions mean the same in both passes. -/
  value_independent : ∀ {node : NodeId} {reaction : Reaction},
    reactions.get? node = some reaction → reaction.value.Independent
  /-- So do the values that can be read. -/
  reading_independent : ∀ {name : String} {value : Val},
    program.NamesStream name → reading name = some (some value) → value.Independent
  /-- A reaction has streams, and all of them can be read. -/
  readable : ∀ {id initial condition next : NodeId} {binding : Option String},
    program.node? id = some (.reaction initial condition next binding) →
    (reactions.get? id).isSome →
      program.denotedStreams condition ≠ [] ∧
        ∀ name ∈ program.denotedStreams condition, (reading name).isSome

namespace Scene

variable {program : Program} (scene : Scene program)

/-- Reactions that all belong to the scene, with the values that they have there. -/
def Covers (reactions : Reactions) : Prop :=
  ∀ (node : NodeId) (reaction : Reaction), reactions.get? node = some reaction →
    (scene.reactions.get? node).map (·.value) = some reaction.value

theorem Covers.of_grown {scene : Scene program} {reactions after : Reactions}
    (covers : scene.Covers after) (grown : reactions.Grown after) : scene.Covers reactions :=
  fun node reaction found => covers node reaction (grown.kept found)

/-- The streams of a run can be read as in the scene, and none of them has just advanced. -/
def Shows (streams : Streams) : Prop :=
  ∀ name, program.NamesStream name →
    streams.reading name = scene.reading name ∧ streams.hasChanged name = false

/-- Two runs that evaluation cannot tell apart. -/
structure Parallel (pairing : Pairing) (run twin : Run) : Prop where
  scopes_exact : Pairing.OneToOne pairing.scopes
  serials_exact : Pairing.OneToOne pairing.serials
  scopes_lt : ∀ pair ∈ pairing.scopes, pair.1 < run.scopes.size ∧ pair.2 < twin.scopes.size
  serials_lt : ∀ pair ∈ pairing.serials, pair.1 < run.serial ∧ pair.2 < twin.serial
  bindings : ∀ pair ∈ pairing.scopes,
    Bindings.Alike pairing (run.scopes.bindings pair.1) (twin.scopes.bindings pair.2)
  borrowed : Bindings.Alike pairing run.borrowed twin.borrowed
  borrowing : twin.borrowing = run.borrowing
  reacting : twin.reacting = run.reacting
  nesting : twin.nesting = run.nesting
  defect : twin.defect = run.defect
  shows : scene.Shows run.streams
  shows_twin : scene.Shows twin.streams
  reactions : twin.reactions = scene.reactions

end Scene

/-! ### Names and their values -/

namespace Bindings

variable {pairing large : Pairing} {bindings others : Bindings}

variable (alike : Alike pairing bindings others)
include alike

theorem Alike.mono (grown : pairing ≤ large) : Alike large bindings others :=
  List.Forall₂.imp (fun _ _ entry => ⟨entry.1, entry.2.mono grown⟩) alike

theorem Alike.get? (name : String) :
    Option.Rel (Val.Alike pairing) (bindings.get? name) (others.get? name) := by
  unfold Alike at alike
  induction alike with
  | nil => exact .none
  | @cons entry other _ _ first _ ih =>
    obtain ⟨word, value⟩ := entry
    obtain ⟨otherWord, otherValue⟩ := other
    obtain ⟨rfl, value⟩ := first
    simp only [Bindings.get?]
    split
    · exact .some value
    · exact ih

theorem Alike.define (name : String) {value twin : Val} (values : value.Alike pairing twin) :
    Alike pairing (bindings.define name value) (others.define name twin) := by
  unfold Alike at alike ⊢
  induction alike with
  | nil => exact .cons ⟨rfl, values⟩ .nil
  | @cons entry other _ _ first rest ih =>
    obtain ⟨word, old⟩ := entry
    obtain ⟨otherWord, otherOld⟩ := other
    obtain ⟨rfl, old⟩ := first
    simp only [Bindings.define]
    split
    · exact .cons ⟨rfl, values⟩ rest
    · exact .cons ⟨rfl, old⟩ ih

end Bindings

theorem Scopes.bindings_define_self
    {scopes : Scopes} {id : ScopeId} (inside : id < scopes.size) (outer : Env)
    (name : String) (value : Val) :
    (scopes.define (id :: outer) name value).bindings id =
      (scopes.bindings id).define name value := by
  obtain ⟨scope, found⟩ : ∃ scope, scopes.cells[id]? = some scope :=
    ⟨_, Array.getElem?_eq_getElem inside⟩
  simp [define, bindings, Array.getElem?_modify, found]

@[simp]
theorem Scopes.size_defineAll (scopes : Scopes) (env : Env) (entries : List (String × Val)) :
    (scopes.defineAll env entries).size = scopes.size := by
  induction entries generalizing scopes with
  | nil => rfl
  | cons entry rest ih => exact (ih _).trans (size_define ..)

/-! ### Parallel runs -/

namespace Scene.Parallel

variable {program : Program} {scene : Scene program} {pairing : Pairing} {run twin : Run}

theorem openScopes (parallel : scene.Parallel pairing run twin) {scopes others : Scopes}
    (size : scopes.size = run.scopes.size + 1)
    (kept : ∀ id, scopes.bindings id = run.scopes.bindings id)
    (sizeTwin : others.size = twin.scopes.size + 1)
    (keptTwin : ∀ id, others.bindings id = twin.scopes.bindings id) :
    scene.Parallel (pairing.addScopes run.scopes.size twin.scopes.size)
      { run with scopes } { twin with scopes := others } := by
  have grown := pairing.le_addScopes run.scopes.size twin.scopes.size
  refine { parallel with
    scopes_exact := parallel.scopes_exact.cons parallel.scopes_lt
    scopes_lt := ?_
    bindings := ?_
    borrowed := parallel.borrowed.mono grown }
  · intro pair mem
    simp only [size, sizeTwin]
    rcases mem_cons.mp mem with rfl | old
    · exact ⟨Nat.lt_succ_self _, Nat.lt_succ_self _⟩
    · have bounds := parallel.scopes_lt pair old
      exact ⟨Nat.lt_succ_of_lt bounds.1, Nat.lt_succ_of_lt bounds.2⟩
  · intro pair mem
    rw [kept, keptTwin]
    rcases mem_cons.mp mem with rfl | old
    · rw [Scopes.bindings_of_size_le (Nat.le_refl _), Scopes.bindings_of_size_le (Nat.le_refl _)]
      exact .nil
    · exact (parallel.bindings pair old).mono grown

variable {env other : Env}

section

variable (parallel : scene.Parallel pairing run twin) (envs : Env.Alike pairing env other)
include parallel envs

theorem define (name : String) {value valueTwin : Val} (values : value.Alike pairing valueTwin) :
    scene.Parallel pairing { run with scopes := run.scopes.define env name value }
      { twin with scopes := twin.scopes.define other name valueTwin } := by
  refine { parallel with scopes_lt := ?_, bindings := ?_ }
  · simpa only [Scopes.size_define] using parallel.scopes_lt
  · intro pair mem
    have alike := parallel.bindings pair mem
    cases envs with
    | nil => exact alike
    | @cons id otherId outer otherOuter head _ =>
      have bounds := parallel.scopes_lt _ head
      have same := parallel.scopes_exact _ head _ mem
      by_cases here : id = pair.1
      · rw [← here, ← same.mp here, Scopes.bindings_define_self bounds.1,
          Scopes.bindings_define_self bounds.2]
        refine Bindings.Alike.define ?_ name values
        rw [here, same.mp here]
        exact alike
      · have elsewhere : otherId ≠ pair.2 := fun equal => here (same.mpr equal)
        rw [Scopes.bindings_define_of_ne _ _ _ _ (by simpa using here),
          Scopes.bindings_define_of_ne _ _ _ _ (by simpa using elsewhere)]
        exact alike

theorem defineAll {entries others : List (String × Val)}
    (alike : Bindings.Alike pairing entries others) :
    scene.Parallel pairing { run with scopes := run.scopes.defineAll env entries }
      { twin with scopes := twin.scopes.defineAll other others } := by
  unfold Bindings.Alike at alike
  induction alike generalizing run twin with
  | nil => exact parallel
  | @cons entry otherEntry _ _ first _ ih =>
    obtain ⟨name, value⟩ := entry
    obtain ⟨otherName, otherValue⟩ := otherEntry
    obtain ⟨rfl, values⟩ := first
    exact ih (parallel.define envs _ values)

theorem lookup? (name : String) :
    Option.Rel (Val.Alike pairing) (run.scopes.lookup? env name)
      (twin.scopes.lookup? other name) := by
  unfold Env.Alike at envs
  induction envs with
  | nil => exact .none
  | @cons id otherId _ _ head _ ih =>
    have found := (parallel.bindings _ head).get? name
    simp only [Scopes.lookup?]
    generalize (run.scopes.bindings id).get? name = left,
      (twin.scopes.bindings otherId).get? name = right at found
    cases found with
    | some value => exact .some value
    | none => exact ih

end

theorem freshIdentity (parallel : scene.Parallel pairing run twin) :
    scene.Parallel (pairing.addSerials run.serial twin.serial)
      { run with serial := run.serial + 1 } { twin with serial := twin.serial + 1 } := by
  have grown := pairing.le_addSerials run.serial twin.serial
  refine { parallel with
    serials_exact := parallel.serials_exact.cons parallel.serials_lt
    serials_lt := ?_
    bindings := fun pair mem => (parallel.bindings pair mem).mono grown
    borrowed := parallel.borrowed.mono grown }
  intro pair mem
  rcases mem_cons.mp mem with rfl | old
  · exact ⟨Nat.lt_succ_self _, Nat.lt_succ_self _⟩
  · have bounds := parallel.serials_lt pair old
    exact ⟨Nat.lt_succ_of_lt bounds.1, Nat.lt_succ_of_lt bounds.2⟩

end Scene.Parallel

theorem Scene.Shows.ensured {program : Program} {scene : Scene program} {streams : Streams}
    (shows : scene.Shows streams) (name : String) : scene.Shows (streams.ensured name) := by
  intro other named
  rw [Streams.reading_ensured]
  refine ⟨(shows other named).1, ?_⟩
  simpa only [Streams.hasChanged, Streams.changed_ensured] using (shows other named).2

/-! ### Actions on parallel runs -/

/-- A run after an evaluation that came to its end: no source and no machine is entered any more that
was not before, no defect has come up, and scopes and serials have been added at most. -/
structure Run.Returned (run after : Run) : Prop where
  size : run.scopes.size ≤ after.scopes.size
  serial : run.serial ≤ after.serial
  borrowing : after.borrowing = run.borrowing
  reacting : after.reacting = run.reacting
  nesting : after.nesting = run.nesting
  defect : after.defect = run.defect

theorem Run.Returned.refl (run : Run) : run.Returned run :=
  ⟨Nat.le_refl _, Nat.le_refl _, rfl, rfl, rfl, rfl⟩

variable {run : Run}

theorem Run.Returned.trans
    {middle after : Run} (first : run.Returned middle) (second : middle.Returned after) :
    run.Returned after where
  size := Nat.le_trans first.size second.size
  serial := Nat.le_trans first.serial second.serial
  borrowing := second.borrowing.trans first.borrowing
  reacting := second.reacting.trans first.reacting
  nesting := second.nesting.trans first.nesting
  defect := second.defect.trans first.defect

theorem Run.returned_scopes {scopes : Scopes} (size : run.scopes.size ≤ scopes.size) :
    run.Returned { run with scopes } :=
  { Run.Returned.refl run with size }

theorem Run.Returned.withTables
    {after : Run} (returned : run.Returned after) (streams : Streams) (reactions : Reactions) :
    run.Returned { after with streams, reactions } :=
  { returned with }

namespace Scene

variable {program : Program} (scene : Scene program) {α β : Type}

/-- A computation has led on from parallel runs, to values that belong together and to runs that are
parallel under a larger pairing. -/
def Reaches (pairing : Pairing) (V : Pairing → α → β → Prop) (run : Run) (value : α) (after : Run)
    (ended : EStateM.Result Defect Run β) : Prop :=
  run.Returned after ∧ ∃ larger, pairing ≤ larger ∧ ∃ other twin, ended = .ok other twin ∧
    V larger value other ∧ scene.Parallel larger after twin

/-- From parallel runs the second action leads on whenever the first one comes to a value. -/
def Lockstep (pairing : Pairing) (V : Pairing → α → β → Prop)
    (left : Action α) (right : Action β) : Prop :=
  ∀ run twin, scene.Parallel pairing run twin →
    Ensures left run (fun value after => scene.Reaches pairing V run value after (right twin))
      (fun _ _ => True)

/-- From parallel runs the second action leads on whenever the first one comes to a value and has found
no reaction that is not of the scene. -/
def Tracks (pairing : Pairing) (V : Pairing → α → β → Prop)
    (left : Action α) (right : Action β) : Prop :=
  ∀ run twin, scene.Parallel pairing run twin →
    Ensures left run
      (fun value after => scene.Covers after.reactions →
        scene.Reaches pairing V run value after (right twin))
      (fun _ _ => True)

end Scene

/-- An action that only adds reactions to the table. -/
def Action.Grows {α : Type} (action : Action α) : Prop :=
  ∀ reactions : Reactions, Preserves (fun run : Run => reactions.Grown run.reactions) action

theorem Action.Grows.ensures {α : Type} {action : Action α} (grows : action.Grows) (run : Run) :
    Ensures action run (fun _ after => run.reactions.Grown after.reactions)
      (fun _ after => run.reactions.Grown after.reactions) :=
  grows run.reactions run (.refl _)

namespace Scene

section Rules

variable {program : Program} {scene : Scene program} {pairing : Pairing} {α β γ δ : Type}
  {V : Pairing → α → β → Prop} {W : Pairing → γ → δ → Prop}
  {left : Action α} {right : Action β} {next : α → Action γ} {proceed : β → Action δ}

variable {value : α} {other : β}

section

variable {run twin : Run} (parallel : scene.Parallel pairing run twin)
include parallel

theorem Parallel.reaches (related : V pairing value other) :
    scene.Reaches pairing V run value run (.ok other twin) :=
  ⟨.refl run, pairing, le_rfl, other, twin, rfl, related, parallel⟩

theorem Parallel.reaches_ensured (name : String) (related : V pairing value other) :
    scene.Reaches pairing V run value { run with streams := run.streams.ensured name }
      (.ok other { twin with streams := twin.streams.ensured name }) :=
  ⟨{ Run.Returned.refl run with }, pairing, le_rfl, other, _, rfl, related,
    { parallel with
      shows := parallel.shows.ensured name
      shows_twin := parallel.shows_twin.ensured name }⟩

end

theorem Reaches.after
    {larger : Pairing} (grown : pairing ≤ larger) {run middle : Run} (returned : run.Returned middle)
    {other : β} {twin twinMiddle : Run} (ended : right twin = .ok other twinMiddle)
    {value : γ} {after : Run}
    (reaches : scene.Reaches larger W middle value after (proceed other twinMiddle)) :
    scene.Reaches pairing W run value after ((right >>= proceed) twin) := by
  obtain ⟨still, largest, more, last, twinAfter, lastEnded, related, parallel⟩ := reaches
  exact ⟨returned.trans still, largest, grown.trans more, last, twinAfter,
    (bind_of_ok ended proceed).trans lastEnded, related, parallel⟩

theorem lockstep_pure (related : V pairing value other) :
    scene.Lockstep pairing V (pure value) (pure other) :=
  fun _ _ parallel => parallel.reaches related

theorem lockstep_throw (defect : Defect) (right : Action β) :
    scene.Lockstep pairing V (throw defect : Action α) right :=
  fun _ _ _ => trivial

theorem Lockstep.tracks (steps : scene.Lockstep pairing V left right) :
    scene.Tracks pairing V left right :=
  fun run twin parallel =>
    (steps run twin parallel).map (fun _ _ reaches _ => reaches)

theorem tracks_pure (related : V pairing value other) :
    scene.Tracks pairing V (pure value) (pure other) :=
  (lockstep_pure related).tracks

theorem tracks_throw (defect : Defect) (right : Action β) :
    scene.Tracks pairing V (throw defect : Action α) right :=
  (lockstep_throw defect right).tracks

theorem Tracks.of_exact
    (steps : Pairing.OneToOne pairing.serials → scene.Tracks pairing V left right) :
    scene.Tracks pairing V left right :=
  fun run twin parallel => steps parallel.serials_exact run twin parallel

theorem Lockstep.bind (first : scene.Lockstep pairing V left right)
    (rest : ∀ larger, pairing ≤ larger → ∀ value other, V larger value other →
      scene.Lockstep larger W (next value) (proceed other)) :
    scene.Lockstep pairing W (left >>= next) (right >>= proceed) := by
  intro run twin parallel
  rw [ensures_bind]
  refine (first run twin parallel).map ?_
  rintro value middle ⟨returned, larger, grown, other, twinMiddle, ended, related, stillParallel⟩
  exact (rest larger grown value other related middle twinMiddle stillParallel).map
    (fun _ _ reaches => reaches.after grown returned ended)

theorem Lockstep.bind_tracks (first : scene.Lockstep pairing V left right)
    (rest : ∀ larger, pairing ≤ larger → ∀ value other, V larger value other →
      scene.Tracks larger W (next value) (proceed other)) :
    scene.Tracks pairing W (left >>= next) (right >>= proceed) := by
  intro run twin parallel
  rw [ensures_bind]
  refine (first run twin parallel).map ?_
  rintro value middle ⟨returned, larger, grown, other, twinMiddle, ended, related, stillParallel⟩
  exact (rest larger grown value other related middle twinMiddle stillParallel).map
    (fun _ _ reaches covers => (reaches covers).after grown returned ended)

/-- What the rest adds to the table is no hindrance: the reactions found before are among those found
in the end. -/
theorem Tracks.bind (first : scene.Tracks pairing V left right)
    (grows : ∀ value, (next value).Grows)
    (rest : ∀ larger, pairing ≤ larger → ∀ value other, V larger value other →
      scene.Tracks larger W (next value) (proceed other)) :
    scene.Tracks pairing W (left >>= next) (right >>= proceed) := by
  intro run twin parallel
  rw [ensures_bind]
  refine (first run twin parallel).map ?_
  intro value middle reaches
  refine ((grows value).ensures middle |>.and (ensures_end (next value) middle)).imp ?_
    fun _ _ _ => trivial
  rintro final after ⟨more, lastEnded⟩ covers
  obtain ⟨returned, larger, grown, other, twinMiddle, ended, related, stillParallel⟩ :=
    reaches (covers.of_grown more)
  have last := rest larger grown value other related middle twinMiddle stillParallel
  rw [Ensures, lastEnded] at last
  exact (last covers).after grown returned ended

theorem lockstep_modify {change other : Run → Run}
    (returned : ∀ run : Run, run.Returned (change run))
    (kept : ∀ run twin, scene.Parallel pairing run twin →
      scene.Parallel pairing (change run) (other twin)) :
    scene.Lockstep pairing (fun _ _ _ => True) (modify change : Action PUnit) (modify other) :=
  fun run twin parallel =>
    ⟨returned run, pairing, le_rfl, ⟨⟩, other twin, rfl, trivial, kept run twin parallel⟩

end Rules

end Scene

/-! ### Steps of evaluation -/

/-- Values, or bodies that are to be evaluated, which stand for one another. -/
inductive Outcome.Alike (pairing : Pairing) : Outcome → Outcome → Prop where
  | complete {value other : Val} :
      value.Alike pairing other → Alike pairing (.complete value) (.complete other)
  | enter (body : NodeId) {env other : Env} :
      Env.Alike pairing env other → Alike pairing (.enter body env) (.enter body other)

theorem Outcome.alike_failure {pairing : Pairing} (cause : Cause) (node : NodeId) :
    (Outcome.failure cause node).Alike pairing (.failure cause node) :=
  .complete (Val.alike_failure cause node)

namespace Action

variable {program : Program} {scene : Scene program} {pairing : Pairing}

theorem lockstep_openRoot : scene.Lockstep pairing Env.Alike openRoot openRoot := by
  intro run twin parallel
  have size : run.scopes.root.2.size = run.scopes.size + 1 := Array.size_push ..
  have opened := parallel.openScopes size (Scopes.bindings_root run.scopes)
    (Array.size_push ..) (Scopes.bindings_root twin.scopes)
  exact ⟨Run.returned_scopes (size ▸ Nat.le_succ _), _, pairing.le_addScopes _ _, _, _, rfl,
    .cons mem_cons_self .nil, opened⟩

variable {env other : Env}

section

variable (envs : Env.Alike pairing env other)
include envs

theorem lockstep_openChild :
    scene.Lockstep pairing Env.Alike (openChild env) (openChild other) := by
  intro run twin parallel
  have size : (run.scopes.child env).2.size = run.scopes.size + 1 := Array.size_push ..
  have opened := parallel.openScopes size (Scopes.bindings_child run.scopes env)
    (Array.size_push ..) (Scopes.bindings_child twin.scopes other)
  have grown := pairing.le_addScopes run.scopes.size twin.scopes.size
  exact ⟨Run.returned_scopes (size ▸ Nat.le_succ _), _, grown, _, _, rfl,
    .cons mem_cons_self (envs.mono grown), opened⟩

theorem lockstep_define (name : String) {value twin : Val} (values : value.Alike pairing twin) :
    scene.Lockstep pairing (fun _ _ _ => True) (define env name value) (define other name twin) :=
  Scene.lockstep_modify (fun _ => Run.returned_scopes (Nat.le_of_eq (Scopes.size_define ..).symm))
    fun _ _ parallel => parallel.define envs name values

theorem lockstep_defineAll {entries others : List (String × Val)}
    (alike : Bindings.Alike pairing entries others) :
    scene.Lockstep pairing (fun _ _ _ => True) (defineAll env entries) (defineAll other others) :=
  Scene.lockstep_modify (fun _ => Run.returned_scopes (Nat.le_of_eq (Scopes.size_defineAll ..).symm))
    fun _ _ parallel => parallel.defineAll envs alike

theorem lockstep_lookup? (name : String) :
    scene.Lockstep pairing (fun large => Option.Rel (Val.Alike large)) (lookup? env name)
      (lookup? other name) :=
  fun _ _ parallel => parallel.reaches (parallel.lookup? envs name)

end

theorem lockstep_freshIdentity :
    scene.Lockstep pairing Identity.Alike freshIdentity freshIdentity :=
  fun _ _ parallel =>
    ⟨{ Run.Returned.refl _ with serial := Nat.le_succ _ }, _, pairing.le_addSerials _ _, _, _, rfl,
      .run mem_cons_self, parallel.freshIdentity⟩

theorem ensureStream_eq (name : String) (run : Run) :
    ensureStream name run =
      match run.streams.reading name with
      | some _ => .ok true { run with streams := run.streams.ensured name }
      | none => .ok false run := by
  cases reads : run.streams.reading name with
  | none => simp only [ensureStream, modifyGet_apply, Streams.ensure?_of_no_reading reads]
  | some latest => simp only [ensureStream, modifyGet_apply, (Streams.ensure?_of_reading reads).1]

theorem lockstep_ensureStream {name : String} (named : program.NamesStream name) :
    scene.Lockstep pairing (fun _ found other => other = found) (ensureStream name)
      (ensureStream name) := by
  intro run twin parallel
  simp only [Ensures, ensureStream_eq, (parallel.shows name named).1,
    (parallel.shows_twin name named).1]
  cases scene.reading name with
  | none => exact parallel.reaches rfl
  | some latest => exact parallel.reaches_ensured name rfl

theorem lockstep_record (node : NodeId) (value other : Val) :
    scene.Lockstep pairing (fun _ _ _ => True) (record node value) (record node other) :=
  Scene.lockstep_modify (fun run => { Run.Returned.refl run with })
    fun _ _ parallel => { parallel with }

end Action

end Reactor

import Reactor.Proofs.Session.Lifecycle
import Reactor.Proofs.Session.Safety
import Reactor.Proofs.Value.WellFormed

/-!
# The values that a session stores

A session has values in many places: in the frames of its machine, in scopes, nodes, reactions and
streams, and as results.  `Session.Stores` lists the places.  In every course all stored values are
well formed if those are that the host supplies, and an exception that names no node is never made by
evaluation: it lies inside a value that the host supplied.

With a main source this is what sound sessions are for.  Without one no run ever begins, and the
values in the session are those that wait in streams.
-/

namespace Reactor

namespace Session

variable {setup : Setup} {Good : Val → Prop} {session : Session}

/-- A value has a place in a session. -/
inductive Stores (session : Session) (value : Val) : Prop where
  | frame {machine : Machine} {frame : Frame}
      (held : session.machine = some machine) (present : frame ∈ machine.frames)
      (received : value ∈ frame.values)
  /-- The result of a machine that is done. -/
  | outcome {machine : Machine}
      (held : session.machine = some machine) (ended : machine.frames = [])
      (result : machine.result = some value)
  | binding {scope : ScopeId} {name : String}
      (bound : (name, value) ∈ session.run.scopes.bindings scope)
  | node {node : NodeId} (known : session.run.nodeValues[node]? = some value)
  | reaction {reaction : Reaction}
      (listed : reaction ∈ session.run.reactions.table) (current : reaction.value = value)
  /-- The history of a stream, what waits there, and its initial value. -/
  | stream {stream : Stream}
      (registered : stream ∈ session.run.streams.streams) (taken : value ∈ stream.values)
  | borrowed {source : String} (lent : (source, value) ∈ session.run.borrowed)
  | source {source : String} (known : (source, value) ∈ session.run.sourceResults)
  | latest (known : session.latest = some value)

theorem Sound.good_of_stores
    (sound : session.Sound setup Good) (held : session.machine.isSome → session.state = .running)
    {value : Val} (stored : session.Stores value) : Good value := by
  have soundMachine : ∀ machine, session.machine = some machine →
      machine.Sound setup.program Good := by
    intro machine isHeld
    have lively := sound.lively
    rw [Lively, held (by rw [isHeld]; rfl)] at lively
    obtain ⟨found, same, soundFound⟩ := lively
    rw [isHeld] at same
    cases same
    exact soundFound
  cases stored with
  | @frame machine frame isHeld present received =>
    have here := soundMachine machine isHeld
    unfold Machine.Sound at here
    split at here
    · next empty => simp [empty] at present
    · next top rest shape =>
      rw [shape] at present
      rcases List.mem_cons.mp present with rfl | below
      · exact here.1.2 value received
      · exact (here.2 frame below).2 value received
  | @outcome machine isHeld ended result =>
    have here := soundMachine machine isHeld
    simp only [Machine.Sound, ended] at here
    obtain ⟨found, same, good⟩ := here
    rw [result] at same
    cases same
    exact good
  | @binding scope name bound => exact sound.run.holds.scopes scope (name, value) bound
  | @node node known => exact sound.run.holds.nodes node value known
  | @reaction reaction listed current => exact current ▸ sound.run.holds.reactions reaction listed
  | @stream stream registered taken => exact sound.run.holds.streams stream registered value taken
  | @borrowed source lent => exact sound.run.holds.borrowed (source, value) lent
  | @source source known => exact sound.run.holds.results (source, value) known
  | latest known => exact sound.latest value known

/-! ### Programs without a main source -/

section

variable {program : Program} (law : Val.Law program.nodes.size Good)
include law

theorem sound_course_of_asleep (missing : program.main? = none) (limits : Limits)
    (calls : List HostCall) (good : ∀ call ∈ calls, ∀ value ∈ call.values, Good value) :
    ((create program limits).course calls).2.Sound ⟨program, limits⟩ Good := by
  refine (@course_keeps_moves ⟨program, limits⟩ _
    (fun session => session.Sound ⟨program, limits⟩ Good ∧ session.Asleep)
    (fun call => ∀ value ∈ call.values, Good value) ?_ (inStep_create program limits)
    ⟨sound_create program limits, rfl, rfl, rfl, rfl⟩ calls good).1
  rintro call session record after goodValues inStep ⟨sound, asleep⟩ move
  exact ⟨(sound.move law (Or.inr (Or.inl asleep.state)) goodValues move).1,
    (asleep.move (by rw [inStep.1]; exact missing) move).1⟩

/-! ### All programs -/

theorem good_of_stores_course (limits : Limits) (calls : List HostCall)
    (good : ∀ call ∈ calls, ∀ value ∈ call.values, Good value) {value : Val}
    (stored : ((create program limits).course calls).2.Stores value) :
    Good value := by
  cases named : program.main? with
  | some main =>
    have hasMain : program.main?.isSome := by rw [named]; rfl
    exact (sound_course law hasMain (sound_create program limits) calls good).2.good_of_stores
      (orderly_course hasMain limits calls).held.mpr stored
  | none =>
    obtain ⟨asleep, -⟩ := asleep_course named limits calls
    exact (sound_course_of_asleep law named limits calls good).good_of_stores
      (by simp [asleep.machine]) stored

end

/--
Values stay well formed.  Whatever calls a host makes, as long as the values that it supplies are well
formed, every value that the session stores is.  An exception inside such a value comes from a node of
the program; the only ones that name no node lie inside values that the host supplied.
-/
theorem stored_values_well_formed (program : Program) (limits : Limits) (calls : List HostCall)
    (supplied : ∀ call ∈ calls, ∀ value ∈ call.values, value.WellFormed program.nodes.size) :
    ∀ value, ((create program limits).course calls).2.Stores value →
      value.WellFormed program.nodes.size ∧
        ∀ part, Val.Part part value → ∀ cause node, part = .exception cause node →
          (∃ origin < program.nodes.size, node = some origin) ∨
            ∃ call ∈ calls, ∃ given ∈ call.values, Val.Part part given := by
  intro value stored
  have law := Val.traced_law program.nodes.size
    fun part => ∃ call ∈ calls, ∃ given ∈ call.values, Val.Part part given
  have traced := good_of_stores_course law limits calls
    (fun call isCall given isGiven => (supplied call isCall given isGiven).traced
      fun part inside _ => ⟨call, isCall, given, isGiven, inside⟩) stored
  refine ⟨traced.wellFormed, ?_⟩
  rintro part inside cause (_ | origin) rfl
  · exact Or.inr (traced.foreign inside trivial)
  · exact Or.inl ⟨origin, traced.wellFormed _ inside, rfl⟩

/-- A host supplies a set with an exception that names no node, and the program adds a member. -/
theorem stored_set_with_foreign_exception_well_formed :
    let program := Program.ofExpr (.call (.access (.stream "s") "add") [.bool false])
    let given : Val := .set [.bool true, .exception .noValue none]
    let grown : Val := .set [.bool true, .exception .noValue none, .bool false]
    let calls : List HostCall := [.registerWith "s" .any (some given), .run]
    (given.WellFormed program.nodes.size ∧ ((create program ⟨8, 1⟩).course calls).2.Stores grown) ∧
      grown.WellFormed program.nodes.size ∧
        ∀ part, Val.Part part grown → ∀ cause node, part = .exception cause node →
          (∃ origin < program.nodes.size, node = some origin) ∨
            ∃ call ∈ calls, ∃ value ∈ call.values, Val.Part part value := by
  intro program given grown calls
  have wellFormed : given.WellFormed program.nodes.size := by
    refine Val.everywhere_iff.mpr ⟨?_, ?_⟩
    · simp [given, Val.WellFormedHere, Val.Apart, Val.same, Val.equals]
    · simp only [given, Val.parts, List.forall_mem_cons]
      exact ⟨Val.everywhere_iff.mpr ⟨trivial, by simp [Val.parts]⟩,
        Val.everywhere_iff.mpr ⟨trivial, by simp [Val.parts]⟩, by simp⟩
  have supplied : ∀ call ∈ calls, ∀ value ∈ call.values, value.WellFormed program.nodes.size := by
    simpa [calls, HostCall.values] using wellFormed
  have stored : ((create program ⟨8, 1⟩).course calls).2.Stores grown := .latest (by cbv)
  exact ⟨⟨wellFormed, stored⟩, stored_values_well_formed program ⟨8, 1⟩ calls supplied grown stored⟩

end Session

end Reactor

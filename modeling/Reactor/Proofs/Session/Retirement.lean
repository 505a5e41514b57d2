import Mathlib
import Reactor.Proofs.Engine.Avoidance
import Reactor.Proofs.Session.Safety

/-!
# Retired scopes stay out of reach

A flush that evaluates the main source again first clears the scopes that nothing kept leads to.
This module shows that such a scope is never reached again, whatever a host calls next: neither from
frames under evaluation, nor from reactions, streams, recorded values or sources.  So a flush takes no
name from a scope that can be reached.

The host must not bring back what it was given long ago.  A function or structure that it hands in
comes from elsewhere, or is a value that the session could give it right now.

The library is imported whole for the equations by which the run at the end is evaluated.
-/

namespace Reactor

open List

/-! ### What a session can reach -/

/-- The scopes that a frame holds on to. -/
def Frame.captures (frame : Frame) : List ScopeId :=
  frame.env ++ Val.capturesOfItems frame.values

/-- The scopes that a run holds on to, with the sources that were borrowed in this pass. -/
def Run.captures (run : Run) : List ScopeId :=
  run.keptScopes ++ Val.capturesOfItems (run.borrowed.map (·.2))

namespace Session

/-- The frames of the machine under way. -/
def frames (session : Session) : List Frame :=
  session.machine.toList.flatMap (·.frames)

/-- A scope that a session can reach, through frames, values and what scopes bind. -/
def Reaches (session : Session) (id : ScopeId) : Prop :=
  session.run.scopes.Reach (session.frames.flatMap Frame.captures ++ session.run.captures) id

/-- Whether a scope binds a name. -/
def Binds (session : Session) (id : ScopeId) (name : String) : Prop :=
  ((session.run.scopes.bindings id).get? name).isSome

end Session

/-! ### What a flush clears -/

/-- The run in which a flush begins to evaluate the main source again, if it does so. -/
def Call.rerunFrom? (session : Session) : Option Run :=
  match session.state with
  | .halted _ => none
  | _ =>
    match takeIn session with
    | .error _ _ => none
    | .ok (changed, dirty) taken =>
      match Action.updateAll taken.setup dirty taken.run with
      | .error _ _ => none
      | .ok _ run =>
        if taken.state.isLive && (!changed.isEmpty || !dirty.isEmpty || taken.advanced) then
          some run
        else none

/-- The scopes that a call clears because a pass begins. -/
def HostCall.clears : HostCall → Session → List ScopeId
  | flush, session => (Call.rerunFrom? session).elim [] Run.retired
  | _, _ => []

/-- The scopes that calls clear because passes begin. -/
def Session.cleared (session : Session) : List HostCall → List ScopeId
  | [] => []
  | call :: rest => call.clears session ++ (call.outcome session).2.cleared rest

/-! ### What a host may hand in -/

/-- A scope from which only scopes of the host can be reached. -/
def Scopes.Foreign (scopes : Scopes) (id : ScopeId) : Prop :=
  ∀ other, scopes.Reach [id] other → scopes.owner [other] = .host

/--
A value that a host can have at this moment: every scope that it holds on to is foreign, or the session
has a node whose value holds on to it.
-/
def Session.Knows (session : Session) (value : Val) : Prop :=
  ∀ id ∈ value.captures, session.run.scopes.Foreign id ∨
    ∃ node known, session.valueOf? node = some known ∧ id ∈ known.captures

/-- Calls that hand in values that the host can have at the time. -/
def Session.Honest (session : Session) : List HostCall → Prop
  | [] => True
  | call :: rest =>
    (∀ value ∈ call.values, session.Knows value) ∧ (call.outcome session).2.Honest rest

theorem Scopes.Foreign.held {scopes : Scopes} {id other : ScopeId} (foreign : scopes.Foreign id)
    (held : other ∈ scopes.held id) : scopes.Foreign other := by
  intro last reached
  refine foreign last (reached.of_start fun start mem => ?_)
  obtain rfl := mem_singleton.mp mem
  exact (Scopes.Reach.here (mem_singleton.mpr rfl)).beyond held

/-! ### Sessions that avoid scopes -/

/--
A session that cannot reach certain scopes.  All scopes that were cleared are among them; they belong
to the run.  Between runs there are none.
-/
structure Session.Avoids (dead : ScopeId → Prop) (cleared : List ScopeId) (session : Session) :
    Prop where
  old : ∀ id, dead id → id < session.run.scopes.size
  run : session.run.Avoids dead session.run.scopes
  machine : ∀ machine, session.machine = some machine → machine.Avoids dead
  resting : session.state = .idle ∨ session.state = .stopped → ∀ id, ¬ dead id
  covered : ∀ id ∈ cleared, dead id
  owned : ∀ id ∈ cleared, ∃ scope : Scope,
    session.run.scopes.cells[id]? = some scope ∧ scope.owner = .run

namespace Session

variable {dead : ScopeId → Prop} {cleared : List ScopeId} {session : Session}

theorem avoids_of_none
    (none : ∀ id, ¬ dead id) (covered : ∀ id ∈ cleared, dead id) (session : Session) :
    session.Avoids dead cleared where
  old id isDead := absurd isDead (none id)
  run := .of_none none _
  machine _ _ := ⟨fun _ _ => ⟨fun id _ => none id, fun _ _ id _ => none id⟩,
    fun _ _ id _ => none id⟩
  resting _ := none
  covered := covered
  owned id mem := absurd (covered id mem) (none id)

section

variable (avoided : session.Avoids dead cleared)
include avoided

theorem Avoids.withRun {run : Run} (kept : run.Avoids dead session.run.scopes) :
    Avoids dead cleared { session with run } :=
  { avoided with
    old := fun id isDead => Nat.lt_of_lt_of_le (avoided.old id isDead) kept.grown.size_le
    run := kept.here
    owned := by
      intro id mem
      obtain ⟨scope, present, isRun⟩ := avoided.owned id mem
      obtain ⟨later, presentLater, owner, -⟩ := kept.grown id scope present
      exact ⟨later, presentLater, owner.trans isRun⟩ }

theorem Avoids.halt (defect : Defect) :
    (Call.haltFor defect session).Avoids dead cleared where
  old id isDead := by
    simpa [Call.haltFor, Run.release] using avoided.old id isDead
  run := avoided.run.release
  machine machine active := by simp [Call.haltFor] at active
  resting rests := by simp [Call.haltFor] at rests
  covered := avoided.covered
  owned := by
    intro id mem
    obtain ⟨scope, present, isRun⟩ := avoided.owned id mem
    simp only [Call.haltFor, Run.release, Scopes.getElem?_retire, present, Option.map_some]
    refine ⟨_, rfl, ?_⟩
    split
    · exact isRun
    · exact isRun

theorem Avoids.finished {machine : Machine} (kept : machine.Avoids dead) :
    (session.finished machine).Avoids dead cleared := by
  have after : Run.Avoids dead session.run.scopes (session.finished machine).run := by
    simp only [Session.finished]
    split
    · next value main found _ =>
      have results := avoided.run.results.define main.name (kept.result value found)
      exact { avoided.run with results := results }
    · exact avoided.run
  exact { avoided.withRun after with
    machine := fun _ active => by cases active
    resting := by rintro (rests | rests) <;> cases rests }

theorem Avoids.settled {action : Action Machine}
    (kept : Upholds (Run.Avoids dead session.run.scopes) action (Machine.Avoids dead)) :
    (session.settled (action session.run)).Avoids dead cleared ∧
      ((∃ defect, (session.settled (action session.run)).state = .halted defect) ∨
        session.run.scopes.Extends (session.settled (action session.run)).run.scopes) := by
  refine @settled_of_ensures _ _ _ (fun after => after.Avoids dead cleared ∧
    ((∃ defect, after.state = .halted defect) ∨ session.run.scopes.Extends after.run.scopes)) _ _
    (kept session.run avoided.run) ?_ ?_ ?_
  · rintro machine last ⟨keptRun, keptMachine⟩ _
    refine ⟨(avoided.withRun keptRun).finished keptMachine, Or.inr ?_⟩
    simp only [Session.finished]
    split
    · exact keptRun.grown
    · exact keptRun.grown
  · rintro machine last ⟨keptRun, keptMachine⟩ _
    refine ⟨{ avoided.withRun keptRun with machine := ?_ }, Or.inr keptRun.grown⟩
    rintro _ ⟨⟩
    exact keptMachine
  · exact fun defect last keptRun =>
      ⟨(avoided.withRun keptRun).halt defect, Or.inl ⟨defect, rfl⟩⟩

theorem Avoids.beginPass (live : session.state.isLive = true) :
    Avoids session.run.Forgotten (cleared ++ session.run.retired)
      { session with run := session.run.beginPass session.setup, machine := none } where
  old id isForgotten := by simpa [Run.beginPass] using isForgotten.1
  run := Run.avoids_beginPass session.setup session.run
  machine _ active := by cases active
  resting rests := by
    rcases rests with state | state
    · rw [show session.state = .idle from state] at live
      cases live
    · rw [show session.state = .stopped from state] at live
      cases live
  covered := by
    intro id mem
    rcases mem_append.mp mem with before | now
    · exact avoided.run.forgotten avoided.old (avoided.covered id before)
    · exact Run.forgotten_of_mem_retired now
  owned := by
    intro id mem
    have ownedBefore : ∃ scope : Scope,
        session.run.scopes.cells[id]? = some scope ∧ scope.owner = .run := by
      rcases mem_append.mp mem with before | now
      · exact avoided.owned id before
      · exact Scopes.owner_of_mem_lost now
    obtain ⟨scope, present, isRun⟩ := ownedBefore
    simp only [Run.beginPass, Scopes.getElem?_retire, present, Option.map_some]
    refine ⟨_, rfl, ?_⟩
    split
    · exact isRun
    · exact isRun

end

theorem settled_of_machine (session : Session) (run : Run) (machine : Option Machine)
    (result : EStateM.Result Defect Run Machine) :
    settled { session with run, machine } result = session.settled result := by
  cases result with
  | ok final last => rfl
  | error defect last => rfl

end Session

/-! ### Taking values in -/

namespace Run.Avoids

variable {dead : ScopeId → Prop} {origin : Scopes} {run : Run}

variable (avoided : run.Avoids dead origin)
include avoided

theorem soilAll {streams : Streams} (kept : streams.Holds (Val.Avoids dead)) (nodes : List NodeId) :
    Avoids dead origin { run with streams, reactions := run.reactions.soilAll nodes } :=
  { avoided with
    streams := kept
    reactions := by
      intro reaction mem
      obtain ⟨before, present, rfl⟩ := mem_map.mp mem
      split
      · exact avoided.reactions before present
      · exact avoided.reactions before present
    envs := by
      intro reaction mem
      obtain ⟨before, present, rfl⟩ := mem_map.mp mem
      split
      · exact avoided.envs before present
      · exact avoided.envs before present }

theorem handed (name : String) {value : Val} (kept : value.Avoids dead) :
    (run.handed (name, value)).Avoids dead origin := by
  have streams := avoided.streams.push (Val.avoids_fabric dead 0) name kept
  simp only [Run.handed]
  split
  · exact avoided.soilAll streams _
  · exact { avoided with streams := streams }

theorem takenIn : run.takenIn.Avoids dead origin :=
  avoided.soilAll (avoided.streams.drain (Val.avoids_fabric dead 0)).commit _

end Run.Avoids

namespace Call

variable {session : Session} {setup : Setup}

theorem rerunFrom?_eq (inStep : session.InStep setup) (alive : session.Alive) {run : Run}
    (updated : Action.updateAll session.setup session.run.takenIn.reactions.dirty
      session.run.takenIn = .ok () run) :
    rerunFrom? session = if session.isStale then some run else none := by
  simp only [rerunFrom?, takeIn_eq inStep, updated]
  rfl

end Call

/-! ### Courses -/

theorem HostCall.flush_of_halted
    {session : Session} (halted : ¬ session.Alive) :
    (∃ defect, flush.outcome session = (.error (.halted defect), session)) ∧
      flush.clears session = [] := by
  obtain ⟨defect, notAlive⟩ := Classical.not_forall.mp halted
  have state := Classical.not_not.mp notAlive
  constructor
  · exact ⟨defect, Call.outcome_flush_of_halted state⟩
  · simp only [HostCall.clears, Call.rerunFrom?, state]
    rfl

namespace Session

variable {dead : ScopeId → Prop} {cleared : List ScopeId} {session : Session} {setup : Setup}

section

variable (avoided : session.Avoids dead cleared)
include avoided

/-- What a host knows can be handed in: some scopes are dead no longer, but none that was cleared. -/
theorem Avoids.spare :
    session.Avoids (fun id => dead id ∧ ¬ session.run.scopes.Foreign id) cleared where
  old id isDead := avoided.old id isDead.1
  run := avoided.run.spare fun _ foreign _ held => foreign.held held
  machine machine active := by
    have kept := avoided.machine machine active
    exact ⟨fun frame mem =>
        ⟨fun id held isDead => (kept.frames frame mem).env id held isDead.1,
          fun value received id held isDead =>
            (kept.frames frame mem).values value received id held isDead.1⟩,
      fun value found id held isDead => kept.result value found id held isDead.1⟩
  resting rests id isDead := avoided.resting rests id isDead.1
  covered id mem := by
    refine ⟨avoided.covered id mem, fun foreign => ?_⟩
    obtain ⟨scope, present, isRun⟩ := avoided.owned id mem
    have isHost := foreign id (.here (mem_singleton.mpr rfl))
    simp only [Scopes.owner, present, isRun] at isHost
    cases isHost
  owned := avoided.owned

theorem Avoids.of_knows {value : Val} (known : session.Knows value) :
    value.Avoids fun id => dead id ∧ ¬ session.run.scopes.Foreign id := by
  rintro id held ⟨isDead, notForeign⟩
  rcases known id held with foreign | ⟨node, other, found, captured⟩
  · exact notForeign foreign
  · exact avoided.run.nodes node other found id captured isDead

/-- A call other than `start`, `stop` and `flush` leaves dead what is dead, if it hands in nothing that
holds on to a dead scope. -/
theorem Avoids.move {call : HostCall} (goesOn : call ≠ .start ∧ call ≠ .stop ∧ call ≠ .flush)
    (kept : ∀ value ∈ call.values, value.Avoids dead) {record : List Entry} {after : Session}
    (move : session.Move call record after) :
    after.Avoids dead cleared := by
  have begun (starts : call.Starts session) (after : Session) : after.Avoids dead cleared := by
    rcases starts with isStart | ⟨-, rests⟩
    · exact absurd isStart goesOn.1
    · exact avoids_of_none (avoided.resting rests) avoided.covered after
  cases move with
  | aside => exact { avoided with }
  | prepared prepares =>
    refine avoided.withRun { avoided.run with streams := ?_ }
    cases prepares with
    | register name => exact avoided.run.streams.register name
    | registerWith registered =>
      exact avoided.run.streams.registerWith (fun value given =>
        kept value (by simp [HostCall.values, given])) registered
    | send name datum => exact avoided.run.streams
  | @handed name value isPush alive =>
    exact avoided.withRun (avoided.run.handed name (kept value (by simp [isPush, HostCall.values])))
  | started starts => exact begun starts _
  | unstarted starts => exact begun starts _
  | stepped running held =>
    exact (avoided.settled (Machine.avoids_step avoided.old
      (fun node _ => Action.avoids_evaluate avoided.old _ node) _ (avoided.machine _ held))).1
  | lost running none => exact avoided.halt .noMachine
  | stopped isStop => exact absurd isStop goesOn.2.1
  | flushed isFlush => exact absurd isFlush goesOn.2.2

end

section

variable (inStep : session.InStep setup) (avoided : session.Avoids dead cleared)
include inStep avoided

/-- A flush clears only what is out of reach for good.  If it meets no defect, all other scopes keep
their names. -/
theorem Avoids.flushes (alive : session.Alive) {record : List Entry} {after : Session}
    (flushes : session.Flushes record after) :
    (∃ dead', after.Avoids dead' (cleared ++ HostCall.flush.clears session)) ∧
      ((∃ defect, after.state = .halted defect) ∨ ∀ id name, id ∉ HostCall.flush.clears session →
        session.Binds id name → after.Binds id name) := by
  have taken := avoided.withRun avoided.run.takenIn
  have updates := Action.avoids_updateAll taken.old session.setup
    session.run.takenIn.reactions.dirty session.run.takenIn taken.run
  cases flushes with
  | @failed defect run failed =>
    rw [Ensures, failed] at updates
    have nothing : HostCall.flush.clears session = [] := by
      simp only [HostCall.clears, Call.rerunFrom?, Call.takeIn_eq inStep, failed]
      rfl
    rw [nothing, append_nil]
    exact ⟨⟨dead, (taken.withRun updates).halt defect⟩, Or.inl ⟨defect, rfl⟩⟩
  | @updated run updated fresh =>
    rw [Ensures, updated] at updates
    have nothing : HostCall.flush.clears session = [] := by
      simp only [HostCall.clears, Call.rerunFrom?_eq inStep alive updated]
      rw [if_neg (Bool.eq_false_iff.mp fresh)]
      rfl
    rw [nothing, append_nil]
    exact ⟨⟨dead, { taken.withRun updates.1 with }⟩,
      Or.inr fun id name _ bound => updates.1.grown.bound bound⟩
  | @passed run updated stale =>
    rw [Ensures, updated] at updates
    have clears : HostCall.flush.clears session = run.retired := by
      simp only [HostCall.clears, Call.rerunFrom?_eq inStep alive updated]
      rw [if_pos stale]
      rfl
    have live : session.state.isLive = true := ((Bool.and_eq_true _ _).mp stale).1
    have begun := (taken.withRun updates.1).beginPass live
    obtain ⟨ended, bound⟩ := begun.settled (Action.avoids_pass begun.old session.setup)
    rw [settled_of_machine, settled_of_machine] at ended bound
    rw [clears]
    refine ⟨⟨_, { ended with }⟩, bound.imp_right fun grown id name notRetired binds => ?_⟩
    have same : (run.beginPass session.setup).scopes.bindings id = run.scopes.bindings id := by
      simp only [Run.beginPass, Scopes.bindings_retire]
      exact if_neg notRetired
    refine grown.bound ?_
    rw [same]
    exact updates.1.grown.bound binds

theorem Avoids.outcome (call : HostCall) (goesOn : call ≠ .start ∧ call ≠ .stop)
    (known : ∀ value ∈ call.values, session.Knows value) :
    ∃ dead', (call.outcome session).2.Avoids dead' (cleared ++ call.clears session) := by
  by_cases isFlush : call = .flush
  · subst isFlush
    by_cases alive : session.Alive
    · refine HostCall.outcome_of_ensures (fun _ after => ∃ dead', after.Avoids dead' _) ?_
      simp only [HostCall.perform, ensures_bind]
      refine (Call.flushes_flush inStep alive).imp ?_ fun _ _ failed =>
        (avoided.flushes inStep alive failed.1).1
      rintro _ _ ⟨middle, notices, flushes, -, rfl⟩
      obtain ⟨dead', ended⟩ := (avoided.flushes inStep alive flushes).1
      exact ⟨dead', { ended with }⟩
    · obtain ⟨⟨defect, refused⟩, nothing⟩ := HostCall.flush_of_halted alive
      rw [refused, nothing, append_nil]
      exact ⟨dead, avoided⟩
  · have clears : call.clears session = [] := by
      cases call with
      | flush => exact absurd rfl isFlush
      | _ => rfl
    have kept := fun value mem => avoided.of_knows (known value mem)
    rw [clears, append_nil]
    refine ⟨_, (call.path inStep).keeps (fun avoided move => ?_) avoided.spare⟩
    exact avoided.move ⟨goesOn.1, goesOn.2, isFlush⟩ kept move

theorem Avoids.course {calls : List HostCall} (goOn : ∀ call ∈ calls, call ≠ .start ∧ call ≠ .stop)
    (honest : session.Honest calls) :
    ∃ dead', (session.course calls).2.Avoids dead' (cleared ++ session.cleared calls) := by
  induction calls generalizing session dead cleared with
  | nil => exact ⟨dead, by simpa [Session.cleared] using avoided⟩
  | cons call rest ih =>
    obtain ⟨here, others⟩ := forall_mem_cons.mp goOn
    obtain ⟨dead', next⟩ := avoided.outcome inStep call here honest.1
    have nextInStep := inStep_course inStep [call]
    obtain ⟨last, ended⟩ := ih nextInStep next others honest.2
    exact ⟨last, by simpa [Session.cleared, append_assoc] using ended⟩

end

end Session

end Reactor

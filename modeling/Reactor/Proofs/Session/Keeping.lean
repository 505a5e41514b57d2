import Reactor.Proofs.Session.Moves

/-!
# What calls keep of a run

A property of runs that evaluation cannot break, and that letting go of a run and updating a reaction
cannot break, outlives every move of a session, if the call that makes the move keeps it where it begins
a run or changes streams.

The first such property is that subscriptions and the table of reactions are in step.  Since it is kept
by every call, courses of calls are paths of moves from beginning to end: `Session.course_tracks`.
-/

namespace Reactor

open List

namespace Session

variable {setup : Setup} {call : HostCall} {session after : Session} {record : List Entry}

section Stable

variable {P : Run → Prop} (stable : Run.Stable session.setup.program P)
  (released : ∀ run : Run, P run → P run.release)
include stable released

theorem keeps_settled
    {action : Action Machine} {run : Run} (kept : Ensures action run (fun _ => P) (fun _ => P)) :
    (session.settled (action run)).setup = session.setup ∧ P (session.settled (action run)).run := by
  refine @settled_of_ensures _ _ _ (fun after => after.setup = session.setup ∧ P after.run) _ _ kept
    ?_ (fun _ _ kept _ => ⟨rfl, kept⟩) (fun _ _ kept => ⟨rfl, released _ kept⟩)
  intro machine last kept _
  refine ⟨rfl, ?_⟩
  unfold finished
  dsimp only
  split
  · exact stable last _ (.elsewhere rfl rfl) kept
  · exact kept

variable (updated : ∀ run id value, P run →
  P { run with reactions := run.reactions.change id (·.settle value) })
include updated

theorem Flushes.keeps (takenIn : P session.run.takenIn) (flushes : session.Flushes record after) :
    after.setup = session.setup ∧ P after.run := by
  have updates := Action.preserves_updateAll stable updated session.run.takenIn.reactions.dirty
    session.run.takenIn takenIn
  cases flushes with
  | failed failed =>
    rw [Ensures, failed] at updates
    exact ⟨rfl, released _ updates⟩
  | updated ended fresh =>
    rw [Ensures, ended] at updates
    exact ⟨rfl, updates⟩
  | @passed run ended stale =>
    rw [Ensures, ended] at updates
    have begun : P (run.beginPass session.setup) := stable run _ (.elsewhere rfl rfl) updates
    exact keeps_settled stable released (Action.preserves_pass stable _ begun)

omit updated in
/-- A call preserves what its passes, its commit and its changes of streams preserve. -/
theorem Move.keeps (flushed : call = .flush → P session.run.takenIn ∧ ∀ run id value, P run →
      P { run with reactions := run.reactions.change id (·.settle value) })
    (reset : call.Starts session → .pass ∈ record → P (session.run.reset session.setup))
    (prepared : ∀ streams, call.Prepares session.run.streams streams → P session.run →
      P { session.run with streams })
    (handed : ∀ name value, call = .push name value → P session.run →
      P (session.run.handed (name, value)))
    (holds : .pass ∉ record → P session.run) (move : session.Move call record after) :
    after.setup = session.setup ∧ P after.run := by
  cases move with
  | aside => exact ⟨rfl, holds not_mem_nil⟩
  | prepared prepares => exact ⟨rfl, prepared _ prepares (holds not_mem_nil)⟩
  | handed isPush _ => exact ⟨rfl, handed _ _ isPush (holds not_mem_nil)⟩
  | started starts begun =>
    exact ⟨rfl, (Action.preserves_mainMachine stable.steady).of_ok
      (reset starts mem_cons_self) begun⟩
  | unstarted starts missing => exact ⟨rfl, reset starts mem_cons_self⟩
  | @stepped machine running held =>
    exact keeps_settled stable released
      (machine.preserves_step stable (Action.preserves_evaluate stable) session.run
        (holds (by simp)))
  | lost running none => exact ⟨rfl, released _ (holds not_mem_nil)⟩
  | stopped isStop => exact ⟨rfl, released _ (holds not_mem_nil)⟩
  | flushed isFlush alive flushes =>
    exact flushes.keeps stable released (flushed isFlush).2 (flushed isFlush).1

end Stable

/-! ### Sessions in step -/

theorem inStep_soilAll
    {program : Program} {run : Run} (inStep : run.InStep program) (nodes : List NodeId) :
    Run.InStep program { run with reactions := run.reactions.soilAll nodes } := by
  induction nodes generalizing run with
  | nil => rwa [Reactions.soilAll_nil]
  | cons node rest ih =>
    rw [Reactions.soilAll_cons]
    exact ih (inStep.soil node)

section

variable (inStep : session.InStep setup)
include inStep

theorem InStep.takenIn : session.run.takenIn.InStep setup.program :=
  inStep_soilAll inStep.2.advancedStreams _

theorem InStep.move (move : session.Move call record after) : after.InStep setup := by
  obtain ⟨rfl, holds⟩ := id inStep
  refine move.keeps (Run.stable_inStep session.setup.program) (fun run _ => Run.InStep.release run)
    (fun _ => ⟨inStep.takenIn, fun run id value kept => kept.settle id value⟩)
    (fun _ _ => Run.InStep.reset _ _) ?_ ?_ fun _ => holds
  · intro streams prepares _
    refine holds.of_streams rfl ?_
    cases prepares with
    | register name => exact (Streams.grows_register session.run.streams name).keepsSubscribers
    | registerWith registered => exact (Streams.grows_registerWith registered).keepsSubscribers
    | send name datum => exact ⟨fun _ => rfl, fun _ present => present⟩
  · intro name value _ _
    have pushed : Run.InStep session.setup.program
        { session.run with streams := session.run.streams.hand (name, value) } :=
      holds.of_streams rfl (Streams.keepsSubscribers_push _ name value)
    unfold Run.handed
    split
    · exact inStep_soilAll pushed _
    · exact pushed

theorem InStep.outcome (call : HostCall) : (call.outcome session).2.InStep setup :=
  (call.path inStep).keeps InStep.move inStep

end

theorem inStep_create (program : Program) (limits : Limits) :
    (create program limits).InStep ⟨program, limits⟩ :=
  ⟨rfl, Run.inStep_of_empty rfl fun _ => rfl⟩

theorem inStep_course (inStep : session.InStep setup) (calls : List HostCall) :
    (session.course calls).2.InStep setup := by
  induction calls generalizing session with
  | nil => exact inStep
  | cons call rest ih => exact ih (inStep.outcome call)

/-! ### Courses -/

/-- The invariant of a course may depend on its record. -/
theorem course_tracks {Inv : List Entry → Session → Prop} {Allowed : HostCall → Prop}
    (kept : ∀ {call past session record after}, Allowed call → session.InStep setup →
      Inv past session → Move call session record after → Inv (past ++ record) after)
    (inStep : session.InStep setup) {past : List Entry} (holds : Inv past session)
    {calls : List HostCall} (allowed : ∀ call ∈ calls, Allowed call) :
    Inv (past ++ session.courseRecord calls) (session.course calls).2 := by
  induction calls generalizing session past with
  | nil => rwa [courseRecord, append_nil]
  | cons call rest ih =>
    obtain ⟨here, later⟩ := forall_mem_cons.mp allowed
    have tracked := (call.path inStep).tracks
      (fun {past session record after} (both : session.InStep setup ∧ Inv past session) move =>
        ⟨both.1.move move, kept here both.1 both.2 move⟩) ⟨inStep, holds⟩
    rw [courseRecord, ← append_assoc]
    exact ih tracked.1 tracked.2 later

theorem course_keeps_moves {Inv : Session → Prop} {Allowed : HostCall → Prop}
    (kept : ∀ {call session record after}, Allowed call → session.InStep setup → Inv session →
      Move call session record after → Inv after)
    (inStep : session.InStep setup) (holds : Inv session)
    {calls : List HostCall} (allowed : ∀ call ∈ calls, Allowed call) :
    Inv (session.course calls).2 :=
  @course_tracks _ _ (fun _ => Inv) _ kept inStep [] holds _ allowed

end Session

end Reactor

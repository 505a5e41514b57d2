import Reactor.Proofs.Run.Likeness
import Reactor.Proofs.Session.Course

/-!
# Sessions that calls cannot tell apart

A relation between runs carries over to sessions that agree on everything else.  If evaluation cannot
tell related runs apart, and they stay related when they are let go of, then calls that advance a run,
give it up or concern observers cannot tell such sessions apart either: they give the same answers and
tell observers the same.  Where no call concerns observers, the sessions need not agree on them.
-/

namespace Reactor

/-- A congruence that counts machines alike and that letting go of runs cannot break. -/
structure Run.Concord (R : Run → Run → Prop) : Prop extends Run.Congruence R where
  nest : ∀ {run twin : Run} (count : Nat), R run twin →
    R { run with nesting := count } { twin with nesting := count }
  release : ∀ {run twin : Run}, R run twin → R run.release twin.release

/-- Sessions that agree on everything but their runs, which are related. -/
def Session.Like (R : Run → Run → Prop) (session twin : Session) : Prop :=
  twin = { session with run := twin.run } ∧ R session.run twin.run

/-- Sessions that agree on everything but their runs, which are related, and on their observers if these
matter. -/
structure Session.LikeIf (watched : Prop) (R : Run → Run → Prop) (session twin : Session) : Prop where
  rest : twin = { session with
    run := twin.run
    observers := twin.observers
    nextObserver := twin.nextObserver
    notices := twin.notices }
  watch : watched → twin.observers = session.observers ∧
    twin.nextObserver = session.nextObserver ∧ twin.notices = session.notices
  related : R session.run twin.run

namespace Session

variable {watched : Prop} {R : Run → Run → Prop} {session twin : Session}

section

variable (like : Like R session twin)
include like

theorem Like.parts : ∃ run, twin = { session with run } ∧ R session.run run :=
  ⟨twin.run, like.1, like.2⟩

theorem Like.state : twin.state = session.state := by
  rw [like.1]

theorem Like.setup : twin.setup = session.setup := by
  rw [like.1]

end

theorem likeIf_eq_like : LikeIf True R = Like R := by
  funext session twin
  refine propext ⟨fun like => ⟨?_, like.related⟩, ?_⟩
  · obtain ⟨observers, nextObserver, notices⟩ := like.watch trivial
    rw [like.rest, observers, nextObserver, notices]
  · rintro ⟨rest, related⟩
    rw [rest]
    exact ⟨rfl, fun _ => ⟨rfl, rfl, rfl⟩, related⟩

variable (like : LikeIf watched R session twin)
include like

theorem LikeIf.parts :
    ∃ run observers nextObserver notices,
      twin = { session with run, observers, nextObserver, notices } ∧
        (watched → observers = session.observers ∧ nextObserver = session.nextObserver ∧
          notices = session.notices) ∧ R session.run run :=
  ⟨_, _, _, _, like.rest, like.watch, like.related⟩

theorem LikeIf.setup : twin.setup = session.setup := by
  rw [like.rest]

theorem LikeIf.machine : twin.machine = session.machine := by
  rw [like.rest]

theorem LikeIf.state : twin.state = session.state := by
  rw [like.rest]

end Session

theorem HostCall.outcome_of_meets
    {R : Session → Session → Prop} {call : HostCall} {session twin : Session}
    (meets : Meets R (call.perform session) (call.perform twin)) :
    (call.outcome twin).1 = (call.outcome session).1 ∧
      R (call.outcome session).2 (call.outcome twin).2 := by
  simp only [outcome]
  cases ended : call.perform session with
  | ok answer after =>
    obtain ⟨twinAfter, twinEnded, related⟩ := meets.of_ok ended
    rw [twinEnded]
    exact ⟨rfl, related⟩
  | error fault after =>
    obtain ⟨twinAfter, twinEnded, related⟩ := meets.of_error ended
    rw [twinEnded]
    exact ⟨rfl, related⟩

namespace Call

open Session (LikeIf)

variable {setup : Setup} {watched : Prop} {R : Run → Run → Prop}

theorem mirrors_performOr {α : Type} {action other : Action α} {failed : Defect → Session → Session}
    (inside : Mirrors R action other)
    (kept : ∀ defect session twin, LikeIf watched R session twin →
      LikeIf watched R (failed defect session) (failed defect twin)) :
    Mirrors (LikeIf watched R) (performOr failed action) (performOr failed other) := by
  intro session twin like
  obtain ⟨run, _, _, _, rfl, watch, related⟩ := like.parts
  have meets := inside session.run run related
  simp only [performOr]
  cases ended : action session.run with
  | ok value after =>
    obtain ⟨twinAfter, twinEnded, still⟩ := meets.of_ok ended
    rw [twinEnded]
    exact ⟨rfl, rfl, watch, still⟩
  | error defect after =>
    obtain ⟨twinAfter, twinEnded, still⟩ := meets.of_error ended
    rw [twinEnded]
    exact ⟨rfl, kept defect _ _ ⟨rfl, watch, still⟩⟩

theorem mirrors_perform {α : Type} {action other : Action α} (concord : Run.Concord R)
    (inside : Mirrors R action other) :
    Mirrors (LikeIf watched R) (perform action) (perform other) := by
  refine mirrors_performOr inside fun defect session twin like => ?_
  obtain ⟨run, _, _, _, rfl, watch, related⟩ := like.parts
  exact ⟨rfl, watch, concord.release related⟩

theorem mirrors_aside {change : Session → Session}
    (apart : ∀ session run observers nextObserver notices,
      change { session with run, observers, nextObserver, notices } =
        { change session with run, observers, nextObserver, notices }) :
    Mirrors (LikeIf watched R) (modify change : Call PUnit) (modify change) := by
  refine mirrors_modify fun session twin like => ?_
  have same := apart session session.run session.observers session.nextObserver session.notices
  have changed := apart session twin.run twin.observers twin.nextObserver twin.notices
  rw [← like.rest] at changed
  rw [changed, show change session = _ from same]
  exact ⟨rfl, like.watch, like.related⟩

theorem mirrors_notify (occasion : Occasion) :
    Mirrors (LikeIf watched R) (notify occasion) (notify occasion) := by
  refine mirrors_modify fun session twin like => ?_
  obtain ⟨run, observers, nextObserver, notices, rfl, watch, related⟩ := like.parts
  refine ⟨rfl, fun seen => ?_, related⟩
  obtain ⟨rfl, rfl, rfl⟩ := watch seen
  exact ⟨rfl, rfl, rfl⟩

theorem mirrors_refuseHalted : Mirrors (LikeIf watched R) refuseHalted refuseHalted := by
  refine mirrors_of_get fun session twin like => ?_
  rw [like.state]
  cases session.state with
  | halted defect => exact ⟨rfl, like⟩
  | idle | running | done | stopped => exact ⟨rfl, like⟩

/-! ### Advancing a run -/

theorem mirrors_finishPass (like : Run.Likeness R) (machine : Machine) :
    Mirrors (LikeIf watched R) (finishPass machine) (finishPass machine) := by
  refine mirrors_modify fun session twin alike => ?_
  obtain ⟨run, _, _, _, rfl, watch, related⟩ := alike.parts
  cases machine.result with
  | none => exact ⟨rfl, watch, related⟩
  | some value =>
    cases session.setup.program.main? with
    | none => exact ⟨rfl, watch, related⟩
    | some main =>
      obtain ⟨streams, reactions, rfl⟩ := like.parts related
      exact ⟨rfl, watch, like.beside related rfl rfl rfl rfl⟩

theorem mirrors_afterStep (like : Run.Likeness R) (machine : Machine) :
    Mirrors (LikeIf watched R) (afterStep machine) (afterStep machine) := by
  have told : Mirrors (LikeIf watched R) (do notify .stepped; return machine.isDone)
      (do notify .stepped; return machine.isDone) :=
    (mirrors_notify .stepped).bind fun _ => mirrors_pure _
  unfold afterStep
  split
  · exact (mirrors_finishPass like machine).bind fun _ => told
  · exact (mirrors_aside fun _ _ _ _ _ => rfl).bind fun _ => told

theorem mirrors_activeMachine (concord : Run.Concord R) :
    Mirrors (LikeIf watched R) activeMachine activeMachine := by
  refine mirrors_of_get fun session twin like => ?_
  rw [like.machine]
  cases session.machine with
  | some machine => exact ⟨rfl, like⟩
  | none => exact mirrors_perform concord (mirrors_throw _) session twin like

/-- A step of like sessions ends alike. -/
theorem mirrors_step (concord : Run.Concord R) : Mirrors (LikeIf watched R) step step := by
  refine mirrors_of_get fun session twin like => ?_
  rw [like.state]
  cases session.state with
  | idle | stopped | halted _ => exact ⟨rfl, like⟩
  | done => exact ⟨rfl, like⟩
  | running =>
    refine (mirrors_activeMachine concord).bind (fun machine => ?_) session twin like
    refine mirrors_of_get fun session twin like => ?_
    rw [like.setup]
    refine ((mirrors_perform concord ?_).bind fun next =>
      mirrors_afterStep concord.toLikeness next) session twin like
    exact machine.mirrors_step concord.toCongruence
      (Action.mirrors_evaluate concord.toCongruence concord.nest)

theorem mirrors_drive (concord : Run.Concord R) (machine : Machine) :
    Mirrors (LikeIf watched R) (drive setup machine) (drive setup machine) := by
  rw [drive]
  split
  · exact (mirrors_afterStep concord.toLikeness machine).bind fun _ => mirrors_pure _
  · refine Mirrors.bind (mirrors_perform concord ?_) fun next => ?_
    · exact machine.mirrors_advance concord.toCongruence
        (Action.mirrors_evaluate concord.toCongruence concord.nest) _ _ _
    · refine (mirrors_afterStep concord.toLikeness next.1).bind fun done => ?_
      split
      · exact mirrors_pure _
      · exact mirrors_drive concord next.1
termination_by machine.size setup
decreasing_by exact next.2

theorem mirrors_driveOn (concord : Run.Concord R) :
    Mirrors (LikeIf watched R) driveOn driveOn := by
  refine mirrors_of_get fun session twin like => ?_
  rw [like.state]
  cases session.state with
  | running =>
    refine mirrors_of_get (fun session twin like => ?_) session twin like
    rw [like.setup]
    exact (mirrors_activeMachine concord).bind (mirrors_drive concord) session twin like
  | idle | done | stopped | halted _ => exact mirrors_refuseHalted session twin like

theorem meets_run
    {session twin : Session} (ended : Meets (LikeIf watched R) (runToEnd session) (runToEnd twin)) :
    Meets (LikeIf watched R) (run session) (run twin) := by
  refine ended.bind fun _ => mirrors_of_get fun session twin like => ?_
  have latest : twin.latest = session.latest := by rw [like.rest]
  rw [latest]
  cases session.latest with
  | some value => exact ⟨rfl, like⟩
  | none => exact ⟨rfl, like⟩

theorem mirrors_runFor (concord : Run.Concord R) (budget : Nat) :
    Mirrors (LikeIf watched R) (runFor budget) (runFor budget) := by
  induction budget with
  | zero =>
    refine mirrors_of_get fun session twin like => ?_
    rw [like.state]
    exact ⟨rfl, like⟩
  | succ budget ih =>
    refine (mirrors_step concord).bind fun done => ?_
    split
    · exact mirrors_pure _
    · exact ih

theorem mirrors_stop (concord : Run.Concord R) : Mirrors (LikeIf watched R) stop stop := by
  refine mirrors_of_get fun session twin like => ?_
  rw [like.state]
  refine Mirrors.bind (mirrors_modify fun session twin like => ?_) (fun _ => ?_) session twin like
  · obtain ⟨run, _, _, _, rfl, watch, related⟩ := like.parts
    exact ⟨rfl, watch, concord.release related⟩
  · split
    · exact mirrors_notify .stopped
    · exact mirrors_pure _

/-! ### Beginning a run or a pass -/

section Beginning

variable (concord : Run.Concord R)
  (reset : ∀ {run twin : Run} (setup : Setup), R run twin → R (run.reset setup) (twin.reset setup))
include concord reset

theorem mirrors_start : Mirrors (LikeIf watched R) start start := by
  refine Mirrors.bind (mirrors_modify fun session twin like => ?_) fun _ => ?_
  · obtain ⟨run, _, _, _, rfl, watch, related⟩ := like.parts
    exact ⟨rfl, watch, reset session.setup related⟩
  · refine mirrors_of_get fun session twin like => ?_
    rw [like.setup]
    refine Mirrors.bind (mirrors_performOr ?_ fun _ _ _ like => like) (fun machine => ?_)
      session twin like
    · exact Action.mirrors_mainMachine concord.toLikeness
    · exact mirrors_aside fun _ _ _ _ _ => rfl

theorem mirrors_run : Mirrors (LikeIf watched R) run run := by
  refine fun session twin like => meets_run ?_
  refine mirrors_of_get (fun session twin like => ?_) session twin like
  rw [like.state]
  cases session.state with
  | idle | stopped =>
    exact ((mirrors_start concord reset).bind fun _ => mirrors_driveOn concord) session twin like
  | running | done | halted _ => exact mirrors_driveOn concord session twin like

end Beginning

theorem mirrors_rerun (concord : Run.Concord R)
    (begun : ∀ {run twin : Run} (setup : Setup), R run twin →
      R (run.beginPass setup) (twin.beginPass setup)) :
    Mirrors (LikeIf watched R) rerun rerun := by
  refine mirrors_of_get fun session twin like => ?_
  rw [like.setup]
  refine Mirrors.bind (mirrors_perform concord (Mirrors.bind (mirrors_modify ?_) fun _ => ?_))
    (mirrors_finishPass concord.toLikeness) session twin like
  · exact fun _ _ related => begun session.setup related
  · exact Action.mirrors_pass concord.toCongruence concord.nest

/-! ### Observers -/

theorem mirrors_observe (seen : watched) : Mirrors (LikeIf watched R) observe observe := by
  refine mirrors_modifyGet fun session twin like => ?_
  obtain ⟨run, _, _, _, rfl, watch, related⟩ := like.parts
  obtain ⟨rfl, rfl, rfl⟩ := watch seen
  exact ⟨rfl, rfl, fun _ => ⟨rfl, rfl, rfl⟩, related⟩

theorem mirrors_ignore (seen : watched) (observer : Nat) :
    Mirrors (LikeIf watched R) (ignore observer) (ignore observer) := by
  refine mirrors_modifyGet fun session twin like => ?_
  obtain ⟨run, _, _, _, rfl, watch, related⟩ := like.parts
  obtain ⟨rfl, rfl, rfl⟩ := watch seen
  exact ⟨rfl, rfl, fun _ => ⟨rfl, rfl, rfl⟩, related⟩

end Call

end Reactor

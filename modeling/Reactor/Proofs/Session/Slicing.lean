import Mathlib.Algebra.GroupWithZero.Nat
import Reactor.Proofs.Session.Ending

/-!
# Runs in slices

A host may advance a run by some steps at a time and do other things in between.  This does not change
the run: slices come to the same as their steps one by one and as one slice that is as long as all of
them together, and a run that is done after some slices is as if it had been taken to its end at once.
The sessions are the same in all their parts, so observers are told the same, in the same order.
-/

namespace Reactor

open List

/-! ### Slices of a machine -/

namespace Machine

variable {setup : Setup} {evaluate : Evaluation} {machine : Machine}

theorem runFor_bind_runFor (machine : Machine) (budget more : Nat) :
    (do (← machine.runFor setup evaluate budget).runFor setup evaluate more) =
      machine.runFor setup evaluate (budget + more) := by
  induction budget generalizing machine with
  | zero => rw [runFor, pure_bind, Nat.zero_add]
  | succ budget ih =>
    rw [Nat.add_right_comm, runFor, runFor, bind_assoc]
    refine bind_congr fun next => ?_
    cases done : next.isDone with
    | true => rw [if_pos rfl, if_pos rfl, pure_bind, runFor_of_nil (List.isEmpty_iff.mp done)]
    | false =>
      rw [if_neg Bool.false_ne_true, if_neg Bool.false_ne_true]
      exact ih next

theorem foldlM_runFor (machine : Machine) (budgets : List Nat) :
    budgets.foldlM (fun paused budget => paused.runFor setup evaluate budget) machine =
      machine.runFor setup evaluate budgets.sum := by
  induction budgets generalizing machine with
  | nil => rfl
  | cons budget rest ih =>
    rw [foldlM_cons, sum_cons, ← runFor_bind_runFor]
    exact bind_congr ih

theorem finish_of_runFor {budget : Nat} {run after : Run} {final : Machine}
    (ended : machine.runFor setup evaluate budget run = .ok final after)
    (done : final.isDone = true) :
    machine.finish setup evaluate run = .ok final after := by
  rw [← runFor_eq_finish (Nat.le_add_left (machine.size setup) budget), ← runFor_bind_runFor,
    bind_of_ok ended, runFor_of_nil (List.isEmpty_iff.mp done)]
  rfl

end Machine

/-! ### Slices of a run -/

namespace Session

variable {session : Session}

/-- A run is under way or over. -/
def Begun (session : Session) : Prop :=
  session.state = .running ∨ session.Over

/-- What a step of such a run answers, and how far the run is behind it. -/
inductive Stepped : Except Fault Answer → Session → Prop where
  | done {after : Session} : after.state = .done → Stepped (.ok (.truth true)) after
  | running {after : Session} : after.state = .running → Stepped (.ok (.truth false)) after
  | halted {fault : Fault} {defect : Defect} {after : Session} :
      after.state = .halted defect → Stepped (.error fault) after

theorem Begun.outcome_step (begun : session.Begun) :
    Stepped (HostCall.step.outcome session).1 (HostCall.step.outcome session).2 := by
  refine HostCall.outcome_of_ensures Stepped ?_
  simp only [HostCall.perform, ensures_bind]
  rcases begun with running | done | ⟨defect, halted⟩
  · refine (ensures_step_of_running running).imp ?_ ?_
    · rintro _ after (⟨rfl, done⟩ | ⟨rfl, goesOn, -⟩)
      · exact .done done
      · exact .running goesOn
    · rintro _ after ⟨_, _, halted⟩
      exact .halted halted
  · simp only [Call.step, ensures_bind, ensures_get, done]
    exact .done done
  · simp only [Call.step, ensures_bind, ensures_get, halted]
    exact .halted halted

theorem outcome_runFor_succ (session : Session) (budget : Nat) :
    (HostCall.runFor (budget + 1)).outcome session =
      match (HostCall.step.outcome session).1 with
      | .ok (.truth false) => (HostCall.runFor budget).outcome (HostCall.step.outcome session).2
      | _ => HostCall.step.outcome session := by
  simp only [HostCall.outcome, HostCall.perform, Call.runFor, bind, EStateM.bind]
  cases Call.step session with
  | error fault after => rfl
  | ok done after =>
    cases done with
    | true => rfl
    | false => rfl

/-- A slice comes to the same as its steps.  It answers whether the main source then has a value, unless
a defect has halted the run. -/
theorem Begun.outcome_runFor (begun : session.Begun) (budget : Nat) :
    let after := (session.course (List.replicate budget .step)).2
    after.Begun ∧ ((HostCall.runFor budget).outcome session).2 = after ∧
      (after.Alive →
        ((HostCall.runFor budget).outcome session).1 = .ok (.truth (after.state = .done))) := by
  induction budget generalizing session with
  | zero => exact ⟨begun, rfl, fun _ => rfl⟩
  | succ budget ih =>
    have stepped := begun.outcome_step
    rw [replicate_succ, course_cons, outcome_runFor_succ]
    generalize HostCall.step.outcome session = next at stepped ⊢
    obtain ⟨answer, later⟩ := next
    cases stepped with
    | done done =>
      rw [course_steps_of_over (.inl done)]
      exact ⟨.inr (.inl done), rfl, fun _ => by rw [done]; rfl⟩
    | running goesOn => exact ih (.inl goesOn)
    | @halted _ defect _ halted =>
      rw [course_steps_of_over (.inr ⟨defect, halted⟩)]
      exact ⟨.inr (.inr ⟨defect, halted⟩), rfl, fun alive => absurd halted (alive defect)⟩

theorem Begun.course_runFor (begun : session.Begun) (budgets : List Nat) :
    (session.course (budgets.map .runFor)).2 =
      (session.course (List.replicate budgets.sum .step)).2 := by
  induction budgets generalizing session with
  | nil => rfl
  | cons budget rest ih =>
    obtain ⟨later, same, -⟩ := begun.outcome_runFor budget
    rw [map_cons, course_cons, sum_cons, ← replicate_append_replicate, course_append, same]
    exact ih later

theorem outcome_run_of_steps (running : session.state = .running) {steps : Nat}
    (done : (session.course (List.replicate steps .step)).2.state = .done) :
    let after := (session.course (List.replicate steps .step)).2
    HostCall.run.outcome session =
      (match after.latest with
        | some value => .ok (.value value)
        | none => .error (.defect .runWithoutValue), after) := by
  -- More steps than are left take the run to its end, and those behind it change nothing.
  have enough : session.stepsLeft < steps + (session.stepsLeft + 1) := by omega
  obtain ⟨-, same, answer⟩ :=
    Begun.outcome_runFor (.inl running) (steps + (session.stepsLeft + 1))
  rw [← replicate_append_replicate, course_append, course_steps_of_over (.inl done)] at same answer
  have sliced : (HostCall.runFor (steps + (session.stepsLeft + 1))).outcome session =
      (.ok (.truth true), (session.course (List.replicate steps .step)).2) :=
    Prod.ext ((answer (by simp [done])).trans (by rw [done]; rfl)) same
  simp only [HostCall.outcome, HostCall.perform, bind, EStateM.bind,
    Call.runFor_eq_driveOn running enough] at sliced
  simp only [HostCall.outcome, HostCall.perform, Call.run, Call.runToEnd, bind, EStateM.bind, get_apply,
    running]
  cases driven : Call.driveOn session with
  | error fault last =>
    rw [driven] at sliced
    cases sliced
  | ok value last =>
    rw [driven] at sliced
    obtain rfl : last = (session.course (List.replicate steps .step)).2 := congrArg (·.2) sliced
    simp only [pure, EStateM.pure]
    cases (session.course (List.replicate steps .step)).2.latest with
    | some value => rfl
    | none => rfl

theorem Begun.getLast?_course_runFor (begun : session.Begun) {budgets : List Nat} (some : budgets ≠ [])
    (alive : ∀ defect, (session.course (budgets.map .runFor)).2.state ≠ .halted defect) :
    (session.course (budgets.map .runFor)).1.getLast? =
      .some (.ok (.truth ((session.course (budgets.map .runFor)).2.state = .done))) := by
  obtain ⟨others, last, rfl⟩ := eq_nil_or_concat budgets |>.resolve_left some
  have before : (session.course (others.map .runFor)).2.Begun := by
    rw [begun.course_runFor]
    exact (begun.outcome_runFor others.sum).1
  obtain ⟨-, same, answer⟩ := before.outcome_runFor last
  rw [concat_eq_append, map_append, course_append] at alive ⊢
  simp only [map_singleton, course_cons, course_nil, same] at alive ⊢
  rw [getLast?_concat, answer alive]

/--
Slices do not change a run.  Take a run that is under way and advance it by some numbers of steps, one
after the other.  The session is then the one that all these steps lead to, one by one or in one slice;
so observers have been told the same, in the same order.  Unless a defect halts the run, the last slice
answers whether the main source has a value, as the one slice does.  If it has, the session is the one
that a run to the end leads to, and that run gives back the latest value.

The same holds of the slices of any machine, whatever evaluates for natives.
-/
theorem slices_do_not_change_run {session : Session} (running : session.state = .running)
    {budgets : List Nat} (some : budgets ≠ []) :
    let sliced := session.course (budgets.map .runFor)
    let whole := (HostCall.runFor budgets.sum).outcome session
    sliced.2 = (session.course (List.replicate budgets.sum .step)).2 ∧
      sliced.2 = whole.2 ∧
      ((∀ defect, sliced.2.state ≠ .halted defect) →
        sliced.1.getLast? = .some (.ok (.truth (sliced.2.state = .done))) ∧
          whole.1 = .ok (.truth (sliced.2.state = .done))) ∧
      (sliced.2.state = .done → HostCall.run.outcome session =
        (match sliced.2.latest with
          | .some value => .ok (.value value)
          | none => .error (.defect .runWithoutValue), sliced.2)) ∧
      ∀ (setup : Setup) (evaluate : NodeId → Env → Action Val) (machine : Machine) (parts : List Nat),
        parts.foldlM (fun paused budget => paused.runFor setup evaluate budget) machine =
            machine.runFor setup evaluate parts.sum ∧
          ∀ run final after, machine.runFor setup evaluate parts.sum run = .ok final after →
            final.isDone = true → machine.finish setup evaluate run = .ok final after := by
  intro sliced whole
  have begun : session.Begun := .inl running
  have same : sliced.2 = (session.course (List.replicate budgets.sum .step)).2 :=
    begun.course_runFor budgets
  obtain ⟨-, once, answer⟩ := begun.outcome_runFor budgets.sum
  rw [← same] at once answer
  refine ⟨same, once.symm, fun alive => ⟨begun.getLast?_course_runFor some alive, answer alive⟩,
    fun done => ?_, fun setup evaluate machine parts => ?_⟩
  · rw [same] at done ⊢
    exact outcome_run_of_steps running done
  · exact ⟨machine.foldlM_runFor parts, fun run final after ended => Machine.finish_of_runFor ended⟩

/-- A slice of one step, an empty one and one that is long enough. -/
theorem slices_do_not_change_run_of_list :
    let program := Program.ofExpr (.list [.bool true, .bool false])
    let session := ((create program ⟨8, 1⟩).course [.observe, .start]).2
    let sliced := session.course ([1, 0, 9].map .runFor)
    session.state = .running ∧ sliced.2.state = .done ∧
      sliced.2 = (session.course (List.replicate 10 .step)).2 ∧
      sliced.1.getLast? = some (.ok (.truth true)) ∧
      HostCall.run.outcome session = (.ok (.value (.list [.bool true, .bool false])), sliced.2) := by
  intro program session sliced
  have running : session.state = .running := rfl
  have done : sliced.2.state = .done := by decide +kernel
  have latest : sliced.2.latest = some (.list [.bool true, .bool false]) :=
    Val.eq_some_of_agrees (by decide +kernel)
  clear_value session
  obtain ⟨same, -, answers, run, -⟩ := slices_do_not_change_run running (List.cons_ne_nil 1 [0, 9])
  refine ⟨running, done, same, ?_, ?_⟩
  · have answer := (answers fun defect halted => by cases done.symm.trans halted).1
    rwa [show decide (sliced.2.state = .done) = true from decide_eq_true done] at answer
  · exact (run done).trans (by rw [latest])

end Session

end Reactor

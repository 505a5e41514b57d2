import Reactor.Proofs.Ensures
import Reactor.Session.Basic

/-!
# The course of a session

A host works with a session by calls, one after the other and in any order.  `HostCall` lists the
calls, and `Session.course` makes them: it gives the answers to all of them and the session behind
the last one.  A call that is refused does not end the course.

What every single call keeps holds at the end of every course; this is `Session.course_keeps`.
-/

namespace Reactor

/-- Whether a fault tells of a defect. -/
def Fault.isFatal : Fault → Bool
  | defect _ | halted _ => true
  | _ => false

/-- A call of the host. -/
inductive HostCall where
  | start
  | step
  | run
  | runFor (budget : Nat)
  | stop
  | flush
  | push (stream : String) (value : Val)
  | send (stream : String) (datum : Datum)
  | register (stream : String)
  | registerWith (stream : String) (kind : StreamKind) (initial : Option Val)
  | observe
  | ignore (observer : Nat)

/-- What a call that is not refused gives back. -/
inductive Answer where
  | nothing
  | truth (truth : Bool)
  | value (value : Val)
  | number (number : Nat)

namespace HostCall

/-- Make a call. -/
def perform : HostCall → Call Answer
  | start => do
      Call.start
      return .nothing
  | step => return .truth (← Call.step)
  | run => return .value (← Call.run)
  | runFor budget => return .truth (← Call.runFor budget)
  | stop => do
      Call.stop
      return .nothing
  | flush => do
      Call.flush
      return .nothing
  | push stream value => do
      Call.push stream value
      return .nothing
  | send stream datum => do
      Call.send stream datum
      return .nothing
  | register stream => do
      Call.register stream
      return .nothing
  | registerWith stream kind initial => do
      Call.registerWith stream kind initial
      return .nothing
  | observe => return .number (← Call.observe)
  | ignore observer => return .truth (← Call.ignore observer)

/-- The values that a host hands in with a call. -/
def values : HostCall → List Val
  | push _ value => [value]
  | registerWith _ _ initial => initial.toList
  | _ => []

/-- The answer to a call, and the session behind it. -/
def outcome (call : HostCall) (session : Session) : Except Fault Answer × Session :=
  match call.perform session with
  | .ok answer after => (.ok answer, after)
  | .error fault after => (.error fault, after)

theorem outcome_of_ensures {call : HostCall} {session : Session}
    (good : Except Fault Answer → Session → Prop)
    (ensured : Ensures call.perform session
      (fun answer => good (.ok answer)) (fun fault => good (.error fault))) :
    good (call.outcome session).1 (call.outcome session).2 := by
  simp only [Ensures] at ensured
  simp only [outcome]
  split at ensured
  · next answer after ended =>
    simpa [ended] using ensured
  · next fault after ended =>
    simpa [ended] using ensured

end HostCall

namespace Session

/-- Make calls one after the other: all answers, and the session behind the last call. -/
def course (session : Session) : List HostCall → List (Except Fault Answer) × Session
  | [] => ([], session)
  | call :: rest =>
    let (answer, next) := call.outcome session
    let (answers, last) := next.course rest
    (answer :: answers, last)

@[simp]
theorem course_nil (session : Session) : session.course [] = ([], session) :=
  rfl

@[simp]
theorem course_cons (session : Session) (call : HostCall) (rest : List HostCall) :
    session.course (call :: rest) =
      ((call.outcome session).1 :: ((call.outcome session).2.course rest).1,
        ((call.outcome session).2.course rest).2) :=
  rfl

theorem course_append (session : Session) (calls others : List HostCall) :
    session.course (calls ++ others) =
      ((session.course calls).1 ++ ((session.course calls).2.course others).1,
        ((session.course calls).2.course others).2) := by
  induction calls generalizing session with
  | nil => rfl
  | cons call rest ih =>
    simp only [List.cons_append, course_cons, ih]

/--
A property of sessions that every allowed call keeps holds at the end of every course of allowed
calls, and every answer on the way is as good as the answer to one call.
-/
theorem course_keeps (Inv : Session → Prop) (Allowed : HostCall → Prop)
    (Good : Except Fault Answer → Prop)
    (kept : ∀ call session, Allowed call → Inv session →
      Good (call.outcome session).1 ∧ Inv (call.outcome session).2)
    (calls : List HostCall) (allowed : ∀ call ∈ calls, Allowed call) (session : Session)
    (holds : Inv session) :
    (∀ answer ∈ (session.course calls).1, Good answer) ∧ Inv (session.course calls).2 := by
  induction calls generalizing session with
  | nil => exact ⟨fun _ mem => (by cases mem), holds⟩
  | cons call rest ih =>
    obtain ⟨good, after⟩ :=
      kept call session (allowed call List.mem_cons_self) holds
    obtain ⟨others, last⟩ :=
      ih (fun other mem => allowed other (List.mem_cons_of_mem _ mem))
        (call.outcome session).2 after
    refine ⟨?_, last⟩
    intro answer mem
    rcases List.mem_cons.mp mem with rfl | later
    · exact good
    · exact others answer later

/-- No defect has ended the run. -/
@[simp]
abbrev Alive (session : Session) : Prop :=
  ∀ defect, session.state ≠ .halted defect

/-! ### Steps behind the end of a run -/

/-- The run is over: the main source has a value, or a defect has ended the run. -/
def Over (session : Session) : Prop :=
  session.state = .done ∨ ∃ defect, session.state = .halted defect

theorem outcome_step_of_over
    {session : Session} (ended : session.Over) : (HostCall.step.outcome session).2 = session := by
  rcases ended with done | ⟨defect, halted⟩
  · simp only [HostCall.outcome, HostCall.perform, Call.step, bind, EStateM.bind, get_apply, done]
    rfl
  · simp only [HostCall.outcome, HostCall.perform, Call.step, bind, EStateM.bind, get_apply, halted]
    rfl

theorem course_steps_of_over {session : Session} (ended : session.Over) (steps : Nat) :
    (session.course (List.replicate steps .step)).2 = session := by
  induction steps with
  | zero => rfl
  | succ steps ih =>
    rw [List.replicate_succ, course_cons, outcome_step_of_over ended]
    exact ih

end Session

/-! ### Rules for calls -/

namespace Call

variable {α : Type} {session : Session} {Inv : Session → Prop}

variable {good : α → Session → Prop} {bad : Fault → Session → Prop}

@[simp]
theorem ensures_performOr (failed : Defect → Session → Session) (action : Action α) :
    Ensures (performOr failed action) session good bad ↔
      Ensures action session.run
        (fun value run => good value { session with run })
        (fun defect run => bad (.defect defect) (failed defect { session with run })) := by
  simp only [Ensures, performOr]
  cases action session.run <;> rfl

@[simp]
theorem ensures_perform (action : Action α) :
    Ensures (perform action) session good bad ↔
      Ensures action session.run
        (fun value run => good value { session with run })
        (fun defect run => bad (.defect defect) (haltFor defect { session with run })) :=
  ensures_performOr haltFor action

end Call

/-! ### Values that are told apart by evaluation -/

namespace Val

mutual

/-- Whether two values are the same Boolean, the same exception, or lists of such values.  Of other
values this says nothing. -/
def agrees : Val → Val → Bool
  | bool left, bool right => left == right
  | exception left node, exception right other => left == right && node == other
  | list left, list right => agreeItems left right
  | _, _ => false

def agreeItems : List Val → List Val → Bool
  | [], [] => true
  | item :: left, other :: right => agrees item other && agreeItems left right
  | _, _ => false

end

mutual

theorem eq_of_agrees : {left right : Val} → agrees left right = true → left = right
  | bool _, right, agree | exception .., right, agree => by cases right <;> simp_all [agrees]
  | list left, right, agree => by
    cases right with
    | list right => rw [eq_of_agreeItems agree]
    | _ => cases agree
  | num _, _, agree | text _, _, agree | set _, _, agree | map _, _, agree | record .., _, agree
  | closure _, _, agree | method .., _, agree | native .., _, agree | constructor _, _, agree
  | conversion _, _, agree => by cases agree

theorem eq_of_agreeItems : {left right : List Val} → agreeItems left right = true → left = right
  | [], [], _ => rfl
  | item :: left, other :: right, agree => by
    rw [agreeItems, Bool.and_eq_true] at agree
    rw [eq_of_agrees agree.1, eq_of_agreeItems agree.2]
  | [], _ :: _, agree | _ :: _, [], agree => by cases agree

end

theorem eq_some_of_agrees {found : Option Val} {value : Val}
    (agree : found.any value.agrees = true) : found = some value := by
  obtain ⟨other, rfl, same⟩ := Option.any_eq_true _ _ |>.mp agree
  rw [eq_of_agrees same]

end Val

end Reactor

import Reactor.Proofs.Engine.Log
import Reactor.Proofs.Ensures

/-!
# Exceptions in a log

An exception comes up in an evaluation when a frame completes with it or is delivered it.  It is passed
on by frames that complete with it, one below the other, and when nothing else happens any more, it has
ended the evaluation.

`Action.Propagates` says of an action and its log that the first exception that comes up is passed on
from there and is the value of the action.  `Action.Passes` says that an action hands over an exception
that it finds and does nothing else.  The rules for both follow the log of one action behind another.
-/

namespace Reactor

open List

/-- The value that the active frame received last, or the result if there are no frames. -/
def Machine.received? (machine : Machine) : Option Val :=
  match machine.frames with
  | [] => machine.result
  | top :: _ => top.values.getLast?

namespace Event

/-- The exception that a frame completes with or is delivered.  In both cases it is what the active
frame has received afterwards, or the result. -/
def raised? : Event → Option Val
  | moved moment => moment.after.received?.filter Val.isException
  | called .. => none

/-- A frame completes with an exception, and nothing else happens. -/
def PassesOn (exception : Val) : Event → Prop
  | moved moment =>
    moment.after.depth < moment.before.depth ∧ moment.after.received? = some exception
  | called .. => False

/-- No exception comes up in any of the events. -/
def Quiet (events : List Event) : Prop :=
  ∀ event ∈ events, event.raised? = none

/-- All that happens is that frames complete with an exception. -/
def Passing (exception : Val) (events : List Event) : Prop :=
  ∀ event ∈ events, event.PassesOn exception

/-- An exception comes up as the first one, and from then on it is passed on. -/
def Raises (events : List Event) (exception : Val) : Prop :=
  ∃ earlier event later,
    events = earlier ++ event :: later ∧ Quiet earlier ∧
      event.raised? = some exception ∧ Passing exception later

/-- If an exception comes up, it is the outcome. -/
def Ends (events : List Event) (outcome : Option Val) : Prop :=
  Quiet events ∨ ∃ exception, outcome = some exception ∧ Raises events exception

variable {events others : List Event} {exception : Val}

theorem quiet_nil : Quiet [] :=
  fun _ mem => by cases mem

theorem passing_nil : Passing exception [] :=
  fun _ mem => by cases mem

theorem Quiet.append (quiet : Quiet events) (othersQuiet : Quiet others) :
    Quiet (events ++ others) :=
  forall_mem_append.mpr ⟨quiet, othersQuiet⟩

variable {event : Event}

theorem raised?_of_passesOn
    (raised : exception.isException = true) (passes : event.PassesOn exception) :
    event.raised? = some exception := by
  cases event with
  | moved moment => simp [raised?, passes.2, raised]
  | called _ _ _ => cases passes

theorem isException_of_raised? (raised : event.raised? = some exception) :
    exception.isException = true := by
  cases event with
  | moved moment => exact (Option.filter_eq_some_iff.mp raised).2
  | called _ _ _ => cases raised

theorem Raises.isException (raises : Raises events exception) : exception.isException = true := by
  obtain ⟨_, _, _, _, _, raised, _⟩ := raises
  exact isException_of_raised? raised

theorem Raises.append_passing
    (raises : Raises events exception) (passing : Passing exception others) :
    Raises (events ++ others) exception := by
  obtain ⟨earlier, event, later, rfl, quiet, raised, passes⟩ := raises
  exact ⟨earlier, event, later ++ others, by simp, quiet, raised,
    forall_mem_append.mpr ⟨passes, passing⟩⟩

theorem Quiet.append_raises (quiet : Quiet events) (raises : Raises others exception) :
    Raises (events ++ others) exception := by
  obtain ⟨earlier, event, later, rfl, othersQuiet, raised, passes⟩ := raises
  exact ⟨events ++ earlier, event, later, by simp, quiet.append othersQuiet, raised, passes⟩

theorem Quiet.append_ends
    (quiet : Quiet events) {outcome : Option Val} (ends : Ends others outcome) :
    Ends (events ++ others) outcome := by
  rcases ends with othersQuiet | ⟨exception, isOutcome, raises⟩
  · exact Or.inl (quiet.append othersQuiet)
  · exact Or.inr ⟨exception, isOutcome, quiet.append_raises raises⟩

theorem Passing.ends (raised : exception.isException = true) (passing : Passing exception others) :
    Ends others (some exception) := by
  cases others with
  | nil => exact Or.inl quiet_nil
  | cons event later =>
    obtain ⟨passes, passesLater⟩ := forall_mem_cons.mp passing
    exact Or.inr ⟨exception, rfl, [], event, later, rfl, quiet_nil,
      raised?_of_passesOn raised passes, passesLater⟩

theorem Ends.append_passing
    (ends : Ends events (some exception)) (raised : exception.isException = true)
    (passing : Passing exception others) :
    Ends (events ++ others) (some exception) := by
  rcases ends with quiet | ⟨other, same, raises⟩
  · exact quiet.append_ends (passing.ends raised)
  · cases same
    exact Or.inr ⟨exception, rfl, raises.append_passing passing⟩

theorem Ends.quiet {outcome : Option Val} (ends : Ends events outcome)
    (calm : ∀ value, outcome = some value → value.isException = false) : Quiet events := by
  rcases ends with quiet | ⟨exception, isOutcome, raises⟩
  · exact quiet
  · have raised := raises.isException
    rw [calm exception isOutcome] at raised
    cases raised

theorem Ends.append_completed {moment : Moment} {value : Val} (ends : Ends events (some value))
    (lower : moment.after.depth < moment.before.depth)
    (received : moment.after.received? = some value) :
    Ends (events ++ [moved moment]) (some value) := by
  cases raised : value.isException with
  | true =>
    refine ends.append_passing raised ?_
    exact forall_mem_singleton.mpr ⟨lower, received⟩
  | false =>
    have quiet := ends.quiet fun other same => Option.some.inj same ▸ raised
    refine Or.inl (quiet.append (forall_mem_singleton.mpr ?_))
    simp [raised?, received, raised]

theorem Quiet.append_moved (quiet : Quiet events) (moment : Moment) :
    Ends (events ++ [moved moment]) moment.after.received? := by
  refine quiet.append_ends ?_
  cases raised : (moved moment).raised? with
  | none => exact Or.inl (forall_mem_singleton.mpr raised)
  | some exception =>
    refine Or.inr ⟨exception, ?_, [], moved moment, [], rfl, quiet_nil, raised, passing_nil⟩
    exact (Option.filter_eq_some_iff.mp raised).1

/-- Wherever an exception comes up, it is the one that came up first, and it is passed on from there. -/
theorem Raises.of_raised? (raises : Raises events exception)
    {earlier later : List Event} (split : events = earlier ++ event :: later)
    {other : Val} (raised : event.raised? = some other) :
    other = exception ∧ Passing exception later := by
  obtain ⟨before, first, after, rfl, quiet, raisedFirst, passing⟩ := raises
  rcases append_eq_append_iff.mp split with ⟨between, rfl, rest⟩ | ⟨between, rfl, rest⟩
  · cases between with
    | nil =>
      cases rest
      rw [raisedFirst] at raised
      cases raised
      exact ⟨rfl, passing⟩
    | cons head tail =>
      cases rest
      obtain ⟨_, passesLater⟩ := forall_mem_append.mp passing
      obtain ⟨passes, passesAfter⟩ := forall_mem_cons.mp passesLater
      rw [raised?_of_passesOn (isException_of_raised? raisedFirst) passes] at raised
      cases raised
      exact ⟨rfl, passesAfter⟩
  · cases between with
    | nil =>
      cases rest
      rw [raisedFirst] at raised
      cases raised
      exact ⟨rfl, passing⟩
    | cons head tail =>
      cases rest
      have none := quiet event (mem_append_right _ mem_cons_self)
      rw [none] at raised
      cases raised

theorem Ends.of_raised? {outcome : Option Val} (ends : Ends events outcome)
    {earlier later : List Event} (split : events = earlier ++ event :: later)
    (raised : event.raised? = some exception) :
    outcome = some exception ∧ Passing exception later := by
  rcases ends with quiet | ⟨first, rfl, raises⟩
  · rw [quiet event (by simp [split])] at raised
    cases raised
  · obtain ⟨rfl, passing⟩ := raises.of_raised? split raised
    exact ⟨rfl, passing⟩

end Event

/-! ### Actions and their logs -/

namespace Action

open Event

theorem ensures_behind {action : Action α} {logged : α → Log} {run : Run}
    (good : List Event → α → Run → Prop) (bad : List Event → Defect → Run → Prop)
    (ensured : Ensures action run
      (fun value after => good (logged value after) value after) (bad [])) :
    Ensures action run (good (action.behind logged run)) (bad (action.behind logged run)) := by
  simp only [Ensures, behind] at *
  cases ended : action run with
  | ok value after =>
    rw [ended] at ensured
    exact ensured
  | error defect after =>
    rw [ended] at ensured
    exact ensured

theorem ensures_bind_behind {action : Action α} {next : α → Action β} {logged : α → Log} {run : Run}
    (good : List Event → β → Run → Prop) (bad : List Event → Defect → Run → Prop)
    (ensured : Ensures action run (fun value after =>
        Ensures (next value) after (good (logged value after)) (bad (logged value after)))
      (bad [])) :
    Ensures (action >>= next) run
      (good (action.behind logged run)) (bad (action.behind logged run)) := by
  rw [ensures_bind]
  exact ensures_behind
    (fun events value after => Ensures (next value) after (good events) (bad events)) bad ensured

variable {α β : Type}

/-- If an exception comes up in the course of an action, it is its value.  The value of an answer is
what `value?` makes of it. -/
def Propagates
    (action : Action α) (log : Log) (value? : α → Option Val) (promise : α → Prop) : Prop :=
  ∀ run : Run, run.defect = none →
    Ensures action run
      (fun answer after =>
        after.defect = none ∧ promise answer ∧ Ends (log run) (value? answer))
      (fun _ _ => Quiet (log run))

/-- An action that hands over the exception that it finds and does nothing else. -/
def Passes (action : Action α) (log : Log) (value? : α → Option Val) (promise : α → Prop)
    (exception : Val) : Prop :=
  ∀ run : Run, run.defect = none →
    Ensures action run
      (fun answer after =>
        after.defect = none ∧ promise answer ∧
          value? answer = some exception ∧ Passing exception (log run))
      (fun _ _ => False)

section Rules

variable {action : Action α} {log : Log} {value? : α → Option Val} {promise : α → Prop}
  {next : α → Action β} {logged : α → Log} {value?' : β → Option Val} {promise' : β → Prop}

theorem propagates_pure (answer : α) (promised : promise answer) :
    Propagates (pure answer) Log.silent value? promise :=
  fun _ calm => ⟨calm, promised, Or.inl quiet_nil⟩

theorem propagates_of_preserves (preserves : Preserves (fun run : Run => run.defect = none) action)
    (promised : ∀ answer, promise answer) :
    Propagates action Log.silent value? promise :=
  fun run calm => (preserves run calm).imp
    (fun answer _ kept => ⟨kept, promised answer, Or.inl quiet_nil⟩)
    (fun _ _ _ => quiet_nil)

/-- What follows events that have ended with an outcome: an exception is passed on, and otherwise the
next one that comes up is the outcome. -/
theorem ensures_of_ends
    {events : List Event} {outcome : Option Val} (ends : Ends events outcome)
    (propagates : Propagates action log value? promise)
    (passes : ∀ exception, outcome = some exception → exception.isException = true →
      Passes action log value? promise exception)
    {run : Run} (calm : run.defect = none) :
    Ensures action run
      (fun answer after =>
        after.defect = none ∧ promise answer ∧ Ends (events ++ log run) (value? answer))
      (fun _ _ => Quiet (events ++ log run)) := by
  by_cases raised : ∃ exception, outcome = some exception ∧ exception.isException = true
  · obtain ⟨exception, rfl, isException⟩ := raised
    refine (passes exception rfl isException run calm).imp ?_
      fun _ _ impossible => impossible.elim
    rintro answer after ⟨calmAfter, promised, isValue, passing⟩
    rw [isValue]
    exact ⟨calmAfter, promised, ends.append_passing isException passing⟩
  · have quiet : Quiet events := ends.quiet fun value isOutcome => by
      simpa using fun isException => raised ⟨value, isOutcome, isException⟩
    refine (propagates run calm).imp ?_ fun _ _ => quiet.append
    rintro answer after ⟨calmAfter, promised, endsAfter⟩
    exact ⟨calmAfter, promised, quiet.append_ends endsAfter⟩

theorem Propagates.bind (first : Propagates action log value? promise)
    (rest : ∀ answer, promise answer → Propagates (next answer) (logged answer) value?' promise')
    (passes : ∀ answer exception, promise answer → value? answer = some exception →
      exception.isException = true →
        Passes (next answer) (logged answer) value?' promise' exception) :
    Propagates (action >>= next) (fun run => log run ++ action.behind logged run)
      value?' promise' := by
  intro run calm
  refine ensures_bind_behind
    (fun events answer after =>
      after.defect = none ∧ promise' answer ∧ Ends (log run ++ events) (value?' answer))
    (fun events _ _ => Quiet (log run ++ events)) ((first run calm).imp ?_ ?_)
  · rintro answer after ⟨calmAfter, promised, ends⟩
    exact ensures_of_ends ends (rest answer promised)
      (fun exception => passes answer exception promised) calmAfter
  · intro _ _ quiet
    exact quiet.append quiet_nil

theorem Passes.bind {exception : Val} (first : Passes action log value? promise exception)
    (rest : ∀ answer, promise answer → value? answer = some exception →
      Passes (next answer) (logged answer) value?' promise' exception) :
    Passes (action >>= next) (fun run => log run ++ action.behind logged run)
      value?' promise' exception := by
  intro run calm
  refine ensures_bind_behind
    (fun events answer after =>
      after.defect = none ∧ promise' answer ∧ value?' answer = some exception ∧
        Passing exception (log run ++ events))
    (fun _ _ _ => False) ((first run calm).map ?_)
  rintro answer after ⟨calmAfter, promised, isValue, passing⟩
  refine (rest answer promised isValue after calmAfter).map ?_
  rintro final last ⟨calmLast, promisedFinal, isFinal, passingLast⟩
  exact ⟨calmLast, promisedFinal, isFinal, forall_mem_append.mpr ⟨passing, passingLast⟩⟩

end Rules

end Action

end Reactor

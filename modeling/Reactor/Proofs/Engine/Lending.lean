import Reactor.Proofs.Engine.Watching
import Reactor.Proofs.Run.Evolution

/-!
# Where the values of borrowed sources come from

A source that was borrowed answers from what is known of it.  In the course of an evaluation nothing
becomes known of a source but by an evaluation of that source that comes to an end, which the log
shows.  So at every moment, on machines at every level of nesting, what is known of a source was
known at the start or stands in the log before that moment.

Along with this goes what happens to streams: some come into being and subscribers change, but at
every moment all that was readable at the start can be read.
-/

namespace Reactor

/-- Sources, each with a value that an evaluation of it ended with. -/
abbrev Loans := String → Val → Prop

/-- A frame that has the value of the source that it borrows. -/
def Frame.Lends (program : Program) (frame : Frame) : Loans := fun source value =>
  frame.kind = .borrow .source ∧ frame.values.getLast? = some value ∧
    ∃ name, program.node? frame.node = some (.borrow source name)

/-- An evaluation of a source comes to an end, and its value becomes known. -/
def Event.Lends (program : Program) : Event → Loans
  | moved moment => fun source value =>
    ∃ top rest, moment.before.frames = top :: rest ∧ top.Lends program source value
  | called .. => fun _ _ => False

/-- The sources whose evaluations come to an end in some events. -/
def Event.loans (program : Program) (events : List Event) : Loans := fun source value =>
  ∃ event ∈ events, event.Lends program source value

theorem Event.placed {events others earlier later : List Event} {event : Event}
    (happens : events ++ others = earlier ++ event :: later) :
    (∃ rest, events = earlier ++ event :: rest) ∨
      ∃ middle, earlier = events ++ middle ∧ others = middle ++ event :: later := by
  rcases List.append_eq_append_iff.mp happens with ⟨middle, split, rest⟩ | ⟨middle, split, tail⟩
  · exact Or.inr ⟨middle, split, rest⟩
  · cases middle with
    | nil => exact Or.inr ⟨[], by simp_all, tail.symm⟩
    | cons head middle =>
      cases tail
      exact Or.inl ⟨middle, split⟩

/-- What a run knows of sources was known or is on loan, and its streams extend the given ones. -/
structure Run.Traced (known : Bindings) (streams : Streams) (loans : Loans) (run : Run) : Prop where
  known_or_lent : ∀ source value,
    run.borrowed.get? source = some value → known.get? source = some value ∨ loans source value
  streams : streams.Extends run.streams

/-- The log traces all that becomes known of sources, from moment to moment and up to the end. -/
structure Run.Traces
    (program : Program) (known : Bindings) (streams : Streams) (events : List Event) (after : Run) :
    Prop where
  ended : after.Traced known streams (Event.loans program events)
  moments : ∀ earlier moment later, events = earlier ++ .moved moment :: later →
    moment.run.Traced known streams (Event.loans program earlier)

namespace Run

variable {program : Program} {known : Bindings} {streams : Streams} {loans : Loans}
  {run after : Run} {events : List Event}

theorem Traced.imp {others : Loans} (traced : run.Traced known streams loans)
    (more : ∀ source value, loans source value → others source value) :
    run.Traced known streams others :=
  ⟨fun source value found => (traced.known_or_lent source value found).imp_right
    (more source value), traced.streams⟩

theorem Traced.trans {between : Run} {others : Loans} (first : between.Traced known streams loans)
    (second : run.Traced between.borrowed between.streams others) :
    run.Traced known streams fun source value => loans source value ∨ others source value := by
  refine ⟨fun source value found => ?_, first.streams.trans second.streams⟩
  rcases second.known_or_lent source value found with before | lent
  · exact (first.known_or_lent source value before).imp_right Or.inl
  · exact Or.inr (Or.inr lent)

theorem loans_append (events others : List Event) (source : String) (value : Val) :
    Event.loans program (events ++ others) source value ↔
      Event.loans program events source value ∨ Event.loans program others source value := by
  simp only [Event.loans, List.mem_append, or_and_right, exists_or]

theorem Traced.aside (traced : run.Traced known streams loans)
    (borrowed : after.borrowed = run.borrowed) (extended : run.streams.Extends after.streams) :
    after.Traced known streams loans :=
  ⟨fun source value found => traced.known_or_lent source value (borrowed ▸ found),
    traced.streams.trans extended⟩

theorem traces_self (program : Program) (run : Run) :
    run.Traces program run.borrowed run.streams [] where
  ended := ⟨fun _ _ found => Or.inl found, .refl _⟩
  moments earlier moment later split := by
    cases earlier <;> cases split

theorem Traces.aside (traces : run.Traces program known streams events)
    (borrowed : after.borrowed = run.borrowed) (extended : run.streams.Extends after.streams) :
    after.Traces program known streams events :=
  ⟨traces.ended.aside borrowed extended, traces.moments⟩

theorem Traces.append
    {between : Run} {event : Event} (traces : between.Traces program known streams events)
    (lent : after.Traced between.borrowed between.streams (event.Lends program))
    (before : ∀ moment, event = .moved moment →
      moment.run.Traced known streams (Event.loans program events)) :
    after.Traces program known streams (events ++ [event]) where
  ended := (traces.ended.trans lent).imp fun source value either =>
    (loans_append events [event] source value).mpr
      (either.imp_right fun lends => ⟨event, List.mem_singleton_self _, lends⟩)
  moments earlier moment later happens := by
    rcases Event.placed happens with ⟨rest, within⟩ | ⟨middle, rfl, behind⟩
    · exact traces.moments earlier moment rest within
    · cases middle with
      | nil =>
        cases behind
        rw [List.append_nil]
        exact before moment rfl
      | cons head middle => simp at behind

end Run

/-! ### Steps of frames -/

namespace Frame

open Reactor.Action

variable {setup : Setup}

theorem traced_finishBorrow {frame : Frame} (kind : frame.kind = .borrow .source) (run : Run) :
    Ensures (frame.finishBorrow setup) run
      (fun _ after => after.Traced run.borrowed run.streams (frame.Lends setup.program))
      (fun _ after => after.borrowed = run.borrowed ∧ run.streams.Extends after.streams) := by
  unfold finishBorrow borrowParts
  split
  · next source name present =>
    simp only [pure_bind, ensures_bind, ensures_modify]
    split
    · exact ⟨rfl, .refl _⟩
    · next value last =>
      refine ⟨fun other answer known => ?_, .refl _⟩
      change (run.borrowed.define source value).get? other = some answer at known
      by_cases same : source = other
      · subst same
        rw [Bindings.get?_define_self] at known
        cases known
        exact Or.inr ⟨kind, last, name, present⟩
      · rw [Bindings.get?_define_of_ne same] at known
        exact Or.inl known
  · exact ⟨rfl, .refl _⟩

theorem traced_advance (evaluate : Evaluation) {frame : Frame} (plain : frame.kind ≠ .operands)
    (run : Run) :
    Ensures (frame.advance setup evaluate) run
      (fun _ after => after.Traced run.borrowed run.streams (frame.Lends setup.program))
      (fun _ after => after.borrowed = run.borrowed ∧ run.streams.Extends after.streams) := by
  by_cases source : frame.kind = .borrow .source
  · rcases frame with ⟨id, kind, env, values⟩
    cases source
    exact traced_finishBorrow rfl run
  · have steady : Run.Steady setup.program fun after =>
        after.borrowed = run.borrowed ∧ run.streams.Extends after.streams :=
      fun _ _ change _ borrowed same => ⟨borrowed.trans same.1, same.2.trans change.extends⟩
    refine (preserves_advance_of_ne steady evaluate plain source run ⟨rfl, .refl _⟩).map ?_
    exact fun _ after same => ⟨fun _ _ found => Or.inl (same.1 ▸ found), same.2⟩

end Frame

/-! ### Evaluation -/

namespace Action

/-- What becomes known of sources is watched from a run on. -/
def tracing (setup : Setup) (known : Bindings) (streams : Streams) : Watch setup false where
  Knows _ := True
  Holds _ history run := run.Traces setup.program known streams (history.map Prod.snd)
  Past history run := run.Traces setup.program known streams (history.map Prod.snd)
  knows := trivial
  knowsWithin _ := trivial
  past traces := traces
  aside traces aside := traces.aside aside.borrowed aside.streams
  pastAside traces aside := traces.aside aside.borrowed aside.streams
  called _ _ traces := by
    rw [History.map_snd_add]
    refine traces.append ⟨fun _ _ found => Or.inl found, .refl _⟩ ?_
    rintro moment ⟨⟩
  started := by
    intro waiting history run after machine traces aside _
    rw [History.map_snd_add]
    refine traces.append ⟨fun _ _ found => Or.inl (aside.borrowed ▸ found), aside.streams⟩ ?_
    rintro _ ⟨⟩
    exact traces.ended
  ended traces _ := traces
  stepped := by
    intro lower next frame waiting history run between after evaluate advance plain traces advanced
      aside _ _
    have lent := @Frame.traced_advance setup evaluate frame plain run
    rw [Ensures, advanced] at lent
    rw [History.map_snd_add]
    refine traces.append ?_ ?_
    · refine (lent.aside aside.borrowed aside.streams).imp fun _ _ lends => ?_
      exact ⟨frame, lower.frames, rfl, lends⟩
    · rintro _ ⟨⟩
      exact traces.ended
  failed := by
    intro lower frame waiting history run after evaluate defect plain traces advanced
    have lent := @Frame.traced_advance setup evaluate frame plain run
    rw [Ensures, advanced] at lent
    exact traces.aside lent.1 lent.2
  combined := by
    intro lower next frame waiting history events run between after evaluate advance _ traces _ _
      inside _ aside _ _
    rw [History.map_snd_add _ _ [_]]
    refine inside.append ⟨fun _ _ found => Or.inl (aside.borrowed ▸ found), aside.streams⟩ ?_
    rintro _ ⟨⟩
    rw [History.map_snd_add]
    exact traces.ended.imp fun source value lent =>
      (Run.loans_append _ events source value).mpr (Or.inl lent)

/-- Only what the log shows becomes known of sources. -/
def Traces {α : Type} (program : Program) (action : Action α) (log : Log) : Prop :=
  ∀ run : Run,
    Ensures action run
      (fun _ after => after.Traces program run.borrowed run.streams (log run))
      (fun _ after => after.Traces program run.borrowed run.streams (log run))

theorem Traces.traced {α : Type} {program : Program} {action : Action α} {log : Log}
    (traces : Traces program action log) {run : Run} {earlier later : List Event} {moment : Moment}
    (happens : log run = earlier ++ .moved moment :: later) :
    moment.run.Traced run.borrowed run.streams (Event.loans program earlier) := by
  have ended := traces run
  simp only [Ensures] at ended
  cases result : action run with
  | ok value after =>
    rw [result] at ended
    exact ended.moments earlier moment later happens
  | error defect after =>
    rw [result] at ended
    exact ended.moments earlier moment later happens

theorem map_snd_add_nil (events : List Event) :
    (History.add [] false events).map Prod.snd = events := by
  simp

theorem traces_pass (setup : Setup) : Traces setup.program (pass setup) (passLog setup) := by
  intro run
  have begun : (tracing setup run.borrowed run.streams).Holds [] [] run :=
    run.traces_self setup.program
  have kept := Watch.keeps_pass _ begun
  simp only [tracing, map_snd_add_nil] at kept
  exact kept.map (fun _ _ ended => ended.2)

theorem traces_updateAll (setup : Setup) (ids : List NodeId) :
    Traces setup.program (updateAll setup ids) (updateAllLog setup ids) := by
  intro run
  have elsewhere : ∀ {history : History} {run after : Run} {known : Bindings} {streams : Streams},
      run.Traces setup.program known streams (history.map Prod.snd) →
      after.borrowed = run.borrowed → after.borrowing = run.borrowing →
      after.streams = run.streams →
        after.Traces setup.program known streams (history.map Prod.snd) :=
    fun traces borrowed _ same => traces.aside borrowed (same ▸ .refl _)
  have kept := @Watch.keeps_updateAll _ _ (tracing setup run.borrowed run.streams) elsewhere
    elsewhere ids [] run (run.traces_self setup.program)
  simpa only [tracing, map_snd_add_nil] using kept

end Action

end Reactor

import Reactor.Proofs.Engine.Log
import Reactor.Proofs.Session.Course

/-!
# The log of a session

What happens in the evaluations that the calls of a host lead to, call after call.
-/

namespace Reactor

open List

namespace Call

/-- The log of the start of a run. -/
def startLog (session : Session) : List Event :=
  Machine.startLog [] (Action.mainMachine session.setup) (session.run.reset session.setup)

/-- The log of a step of the run. -/
def stepLog (session : Session) : List Event :=
  match session.state, session.machine with
  | .running, some machine =>
    machine.stepLog session.setup (Action.evaluate session.setup)
      (Action.evaluateLog session.setup) [] session.run
  | _, _ => []

/-- The log of all steps to the end of the run. -/
def driveLog (session : Session) : List Event :=
  match session.state, session.machine with
  | .running, some machine => Action.finishLog session.setup machine session.run
  | _, _ => []

/-- The log of a run from its start to its end. -/
def freshLog (session : Session) : List Event :=
  startLog session ++
    match start session with
    | .ok _ started => driveLog started
    | .error _ _ => []

/-- The log of a run to its end, with its start if none is under way. -/
def runLog (session : Session) : List Event :=
  match session.state with
  | .idle | .stopped => freshLog session
  | _ => driveLog session

/-- The log of at most a number of steps. -/
def runForLog : Nat → Session → List Event
  | 0, _ => []
  | budget + 1, session =>
    stepLog session ++
      match step session with
      | .ok false after => runForLog budget after
      | _ => []

/-- The log of a flush: the updates, and then the pass over the main source if there is one. -/
def flushLog (session : Session) : List Event :=
  match session.state with
  | .halted _ => []
  | _ =>
    match takeIn session with
    | .error _ _ => []
    | .ok (changed, dirty) taken =>
      Action.updateAllLog taken.setup dirty taken.run ++
        match Action.updateAll taken.setup dirty taken.run with
        | .error _ _ => []
        | .ok _ run =>
          if taken.state.isLive &&
            (!changed.isEmpty || !dirty.isEmpty || taken.advanced) then
            Action.passLog taken.setup (run.beginPass taken.setup)
          else []

end Call

/-- The log of a call. -/
def HostCall.log : HostCall → Session → List Event
  | start => Call.startLog
  | step => Call.stepLog
  | run => Call.runLog
  | runFor budget => Call.runForLog budget
  | flush => Call.flushLog
  | stop | push .. | send .. | register _ | registerWith .. | observe | ignore _ => fun _ => []

/-- The log of calls made one after the other. -/
def Session.courseLog (session : Session) : List HostCall → List Event
  | [] => []
  | call :: rest => call.log session ++ (call.outcome session).2.courseLog rest

/-! ### Records -/

/-- An entry of a record: a pass over the main source begins, or something happens, in the update of a
reaction or not. -/
inductive Entry where
  | pass
  | event (updating : Bool) (event : Event)

/-- What happens, if anything does. -/
def Entry.event? : Entry → Option Event
  | .pass => none
  | .event _ happening => some happening

/-- The record of what a flush does after values were taken in. -/
def Call.refreshRecord (changed : List String) (dirty : List NodeId) (session : Session) :
    List Entry :=
  (Action.updateAllLog session.setup dirty session.run).map (.event true) ++
    match Action.updateAll session.setup dirty session.run with
    | .error _ _ => []
    | .ok _ run =>
      if session.state.isLive && (!changed.isEmpty || !dirty.isEmpty || session.advanced) then
        .pass :: (Action.passLog session.setup (run.beginPass session.setup)).map (.event false)
      else []

/-- The record of a flush. -/
def Call.flushRecord (session : Session) : List Entry :=
  match session.state with
  | .halted _ => []
  | _ =>
    match takeIn session with
    | .error _ _ => []
    | .ok (changed, dirty) taken => refreshRecord changed dirty taken

/-- The record of a call.  A run begins with a pass. -/
def HostCall.record : HostCall → Session → List Entry
  | start, session => .pass :: (Call.startLog session).map (.event false)
  | run, session =>
    match session.state with
    | .idle | .stopped => .pass :: (Call.freshLog session).map (.event false)
    | _ => (Call.driveLog session).map (.event false)
  | flush, session => Call.flushRecord session
  | call, session => (call.log session).map (.event false)

/-- The record of calls made one after the other. -/
def Session.courseRecord (session : Session) : List HostCall → List Entry
  | [] => []
  | call :: rest => call.record session ++ (call.outcome session).2.courseRecord rest

theorem Entry.filterMap_events (updating : Bool) (events : List Event) :
    (events.map (Entry.event updating)).filterMap Entry.event? = events := by
  induction events with
  | nil => rfl
  | cons event rest ih => simpa [event?] using ih

theorem Call.filterMap_flushRecord (session : Session) :
    (flushRecord session).filterMap Entry.event? = flushLog session := by
  unfold flushRecord flushLog
  generalize takeIn session = result
  cases session.state with
  | halted defect => rfl
  | idle | running | done | stopped =>
    rcases result with ⟨⟨changed, dirty⟩, taken⟩ | ⟨fault, taken⟩
    · simp only [refreshRecord, filterMap_append, Entry.filterMap_events]
      cases Action.updateAll taken.setup dirty taken.run with
      | error defect run => rfl
      | ok _ run =>
        dsimp only
        split
        · rw [filterMap_cons_none rfl, Entry.filterMap_events]
        · rfl
    · rfl

theorem HostCall.filterMap_record (call : HostCall) (session : Session) :
    (call.record session).filterMap Entry.event? = call.log session := by
  cases call with
  | flush => exact Call.filterMap_flushRecord session
  | run =>
    simp only [record, log, Call.runLog]
    cases session.state with
    | idle | stopped => rw [filterMap_cons_none rfl, Entry.filterMap_events]
    | running | done | halted _ => exact Entry.filterMap_events _ _
  | start =>
    rw [record, filterMap_cons_none rfl, Entry.filterMap_events]
    rfl
  | _ => exact Entry.filterMap_events _ _

theorem Session.filterMap_courseRecord (session : Session) (calls : List HostCall) :
    (session.courseRecord calls).filterMap Entry.event? = session.courseLog calls := by
  induction calls generalizing session with
  | nil => rfl
  | cons call rest ih =>
    rw [courseRecord, courseLog, filterMap_append, ih, call.filterMap_record]

end Reactor

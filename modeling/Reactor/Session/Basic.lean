import Reactor.Engine.Evaluate

/-!
# Sessions

A session is what a host works with: a program, the state of its run, and the observers that want to
know when something happened.  Calls of the host are computations on a session that may be refused
with a fault.

A run starts with `start` and advances with `step`, `runFor` and `run`.  Values pushed to streams wait
for the next `flush`: it makes them readable, updates every dirty reaction once, and evaluates the
main source again if anything has changed.  A defect halts the run.
-/

namespace Reactor

/-- How far the run of a session is. -/
inductive RunState where
  | idle
  | running
  /-- The main source has a value; reactions go on. -/
  | done
  | stopped
  /-- A defect ended the run. -/
  | halted (defect : Defect)
  deriving DecidableEq, Repr, Inhabited

namespace RunState

/-- Whether a run is under way or its reactions go on. -/
def isLive : RunState → Bool
  | running | done => true
  | _ => false

end RunState

/-- Why an observer is told. -/
inductive Occasion where
  | stepped
  | flushed
  | stopped
  deriving DecidableEq, Repr, Inhabited

/-- What one observer was told: the occasion, and the latest result at that time. -/
structure Notice where
  observer : Nat
  occasion : Occasion
  result : Option Val
  deriving Inhabited

/-- A session. -/
structure Session where
  setup : Setup
  run : Run
  machine : Option Machine
  state : RunState
  /-- The latest value of the main source. -/
  latest : Option Val
  /-- The numbers of the observers, in ascending order. -/
  observers : List Nat
  nextObserver : Nat
  /-- Whether the last flush advanced a stream. -/
  advanced : Bool
  /-- What observers have been told so far. -/
  notices : Array Notice
  deriving Inhabited

/-- A session that has run nothing yet. -/
def Session.create (program : Program) (limits : Limits) : Session where
  setup := ⟨program, limits⟩
  run := .initial
  machine := none
  state := .idle
  latest := none
  observers := []
  nextObserver := 0
  advanced := false
  notices := #[]

/-- A call of the host.  A call that is refused may have changed the session before. -/
abbrev Call := EStateM Fault Session

namespace Call

/-- Do something to the run.  A defect refuses the call and changes the session as told. -/
def performOr {α : Type} (failed : Defect → Session → Session) (action : Action α) : Call α :=
  fun session =>
    match action session.run with
    | .ok value run => .ok value { session with run }
    | .error defect run => .error (.defect defect) (failed defect { session with run })

/-- End the run for a defect and let go of all it held. -/
def haltFor (defect : Defect) (session : Session) : Session :=
  { session with machine := none, run := session.run.release, state := .halted defect }

/-- Do something to the run.  A defect halts it. -/
def perform {α : Type} (action : Action α) : Call α :=
  performOr haltFor action

/-- Tell all observers the latest result. -/
def notify (occasion : Occasion) : Call Unit :=
  modify fun session =>
    { session with
      notices := session.observers.foldl
        (fun notices observer => notices.push ⟨observer, occasion, session.latest⟩)
        session.notices }

/-- Refuse the call if a defect has ended the run. -/
def refuseHalted : Call Unit := do
  match (← get).state with
  | .halted defect => throw (.halted defect)
  | _ => return

/-! ### The course of a run -/

/-- Start a run of the main source.  Reactions and histories of an earlier run are forgotten. -/
def start : Call Unit := do
  modify fun session =>
    { session with run := session.run.reset session.setup, latest := none, advanced := false }
  let machine ← performOr (fun _ session => session) (Action.mainMachine (← get).setup)
  modify fun session => { session with machine := some machine, state := .running }

/-- Make the result of a machine that is done the latest value of the main source. -/
def finishPass (machine : Machine) : Call Unit :=
  modify fun session =>
    let run :=
      match machine.result, session.setup.program.main? with
      | some value, some main =>
        { session.run with sourceResults := session.run.sourceResults.define main.name value }
      | _, _ => session.run
    { session with run, machine := none, latest := machine.result, state := .done }

/-- Go on with a machine after a step.  The answer tells whether the main source has a value. -/
def afterStep (machine : Machine) : Call Bool := do
  if machine.isDone then finishPass machine
  else modify fun session => { session with machine := some machine }
  notify .stepped
  return machine.isDone

/-- The machine of the run that is under way. -/
def activeMachine : Call Machine := do
  match (← get).machine with
  | some machine => return machine
  | none => perform (throw .noMachine)

/-- Advance the run by one step.  The answer tells whether the main source has a value. -/
def step : Call Bool := do
  match (← get).state with
  | .idle | .stopped => throw .notStarted
  | .halted defect => throw (.halted defect)
  | .done => return true
  | .running =>
    let machine ← activeMachine
    let setup := (← get).setup
    afterStep (← perform (machine.step setup (Action.evaluate setup)))

/-- Take steps until the main source has a value, and tell observers of each. -/
def drive (setup : Setup) (machine : Machine) : Call Unit :=
  match shape : machine.frames with
  | [] => do
    let _ ← afterStep machine
  | top :: rest => do
    let ⟨next, _⟩ ← perform (machine.advance setup (Action.evaluate setup) top rest shape)
    if ← afterStep next then return else drive setup next
termination_by machine.size setup

/-- Advance the run that is under way until the main source is done. -/
def driveOn : Call Unit := do
  match (← get).state with
  | .running => drive (← get).setup (← activeMachine)
  | _ => refuseHalted

/-- Advance the run until the main source is done.  A run is started if none is under way. -/
def runToEnd : Call Unit := do
  match (← get).state with
  | .idle | .stopped => start
  | _ => pure ()
  driveOn

/-- Advance the run until the main source has a value, and give that value back. -/
def run : Call Val := do
  runToEnd
  match (← get).latest with
  | some value => return value
  | none => throw (.defect .runWithoutValue)

/-- Advance the run by at most a number of steps.  The answer tells whether the main source has a
value. -/
def runFor : Nat → Call Bool
  | 0 => return (← get).state = .done
  | budget + 1 => do
    if ← step then return true else runFor budget

/-- End the run and let go of all it held.  Observers are told if it was live. -/
def stop : Call Unit := do
  let live := (← get).state.isLive
  modify fun session =>
    { session with
      machine := none
      run := session.run.release
      state := if live then .stopped else session.state }
  if live then notify .stopped

/-! ### Streams -/

/-- Register a stream for values of all kinds.  One that is there stays as it is. -/
def register (name : String) : Call Unit :=
  modify fun session =>
    { session with run.streams := session.run.streams.register name }

/-- Register a stream with a kind and an initial value, or refuse the call. -/
def registerWith (name : String) (kind : StreamKind) (initial : Option Val) : Call Unit := do
  match (← get).run.streams.registerWith name kind initial with
  | .ok streams => modify fun session => { session with run.streams := streams }
  | .error fault => throw fault

/-- Send a datum to a stream.  It is delivered at the next flush. -/
def send (name : String) (datum : Datum) : Call Unit := do
  match Streams.send (some (← get).run.streams) name datum with
  | .ok streams => modify fun session => { session with run.streams := streams }
  | .error fault => throw fault

/-- Hand a value to a stream for the next flush and mark its subscribers dirty. -/
def push (name : String) (value : Val) : Call Unit := do
  refuseHalted
  let (streams, answer) := (← get).run.streams.push name value
  modify fun session => { session with run.streams := streams }
  match answer with
  | .error fault => throw fault
  | .ok subscribers => perform (Action.markAllDirty subscribers)

/-- Make what was sent and pushed readable.  The names of the streams that advanced are given back. -/
def commitStreams : Call (List String) := do
  modify fun session => { session with run.streams := session.run.streams.drain.1.commit }
  return (← get).run.streams.changed

/-- Evaluate the main source again, in a new pass. -/
def rerun : Call Unit := do
  let setup := (← get).setup
  let machine ← perform do
    modify (·.beginPass setup)
    Action.pass setup
  finishPass machine

/-- Make what was sent and pushed readable and mark the subscribers dirty.  The names of the streams
that advanced and the dirty reactions, in the order in which they came into being, are given back. -/
def takeIn : Call (List String × List NodeId) := do
  let changed ← commitStreams
  let streams := (← get).run.streams
  perform (Action.markAllDirty (changed.flatMap streams.subscribers))
  return (changed, (← get).run.reactions.dirty)

/-- Make what was sent and pushed readable, update every dirty reaction once, and evaluate the main
source again if anything has changed. -/
def flush : Call Unit := do
  refuseHalted
  let (changed, dirty) ← takeIn
  perform (Action.updateAll (← get).setup dirty)
  let session ← get
  let stale := !changed.isEmpty || !dirty.isEmpty || session.advanced
  modify fun session => { session with advanced := !changed.isEmpty }
  if session.state.isLive && stale then rerun
  notify .flushed

/-! ### Observers -/

/-- Register an observer.  Its number is given back. -/
def observe : Call Nat :=
  modifyGet fun session =>
    (session.nextObserver,
      { session with
        observers := session.observers ++ [session.nextObserver]
        nextObserver := session.nextObserver + 1 })

/-- Drop an observer.  The answer tells whether it was registered. -/
def ignore (observer : Nat) : Call Bool :=
  modifyGet fun session =>
    (observer ∈ session.observers,
      { session with observers := session.observers.filter (· ≠ observer) })

end Call

namespace Session

/-- The latest value of a source in this run. -/
def sourceResult? (session : Session) (name : String) : Option Val :=
  session.run.sourceResults.get? name

/-- The latest value of a node. -/
def valueOf? (session : Session) (node : NodeId) : Option Val :=
  session.run.nodeValues[node]?

end Session

/-- The value of a program in a session of its own. -/
def Program.evaluate (program : Program) (limits : Limits) : Except Fault Val :=
  match Call.run (Session.create program limits) with
  | .ok value _ => .ok value
  | .error fault _ => .error fault

end Reactor

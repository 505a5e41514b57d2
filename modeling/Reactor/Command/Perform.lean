import Reactor.Command.Arguments
import Reactor.Program.Reading
import Reactor.Session.Basic
import Reactor.Settings.Basic

/-!
# Carrying out commands

A command reads files, prints and waits.  How that is done is up to the world it is given, so the same
command runs on a computer and in a simulation.  A command that fails ends with a message; what it has
printed until then stays printed.
-/

namespace Reactor.Command

/-- What a command needs of its surroundings. -/
structure World (m : Type → Type) where
  /-- The text of a file, if it can be read. -/
  read : String → m (Option String)
  print : String → m Unit
  /-- Wait for a number of milliseconds. -/
  wait : Nat → m Unit
  environment : Variables

abbrev Script (m : Type → Type) := ExceptT String m

variable {m : Type → Type} [Monad m]

def printLine (world : World m) (line : String) : Script m Unit :=
  ExceptT.lift (world.print (line ++ "\n"))

/-! ### Programs -/

def readExpr (world : World m) (path : String) : Script m Expr := do
  match ← ExceptT.lift (world.read path) with
  | none => throw s!"Failed to read {path}"
  | some text =>
    match Expr.read? text with
    | some expr => return expr
    | none => throw s!"Invalid syntax tree in {path}"

def readProgram (world : World m) (path : String) (sources : List (String × String)) :
    Script m Program := do
  let main ← readExpr world path
  sources.foldlM
    (fun program (name, path) => return program.addSource name (← readExpr world path))
    (.ofExpr main)

/-! ### Sessions -/

/-- Make a call.  A fault ends the command. -/
def call {α : Type} (action : Call α) : StateT Session (Script m) α := fun session =>
  match action session with
  | .ok value session => return (value, session)
  | .error fault _ => throw fault.message

def printLatest (world : World m) : StateT Session (Script m) Unit := do
  printLine world (((← get).latest.map Val.render).getD "(no value)")

def flushAndPrint (world : World m) : StateT Session (Script m) Unit := do
  call .flush
  printLatest world

def pushTyped (typed : String) : StateT Session (Script m) Unit := do
  match assignment? typed with
  | none => throw s!"Expected name=value, got {Text.quoted typed}"
  | some (stream, literal) => call (.push stream (Literal.parse literal).toVal)

/-- Evaluate a program and push values to its streams.  Pooled values become readable together. -/
def runPushes (world : World m) (pushes : List String) (pooled : Bool) :
    StateT Session (Script m) Unit := do
  call .runToEnd
  printLatest world
  for typed in pushes do
    pushTyped typed
    unless pooled do flushAndPrint world
  if pooled && !pushes.isEmpty then flushAndPrint world
  call .stop

def beat (world : World m) (tickMs tick : Nat) : StateT Session (Script m) Unit := do
  StateT.lift (ExceptT.lift (world.wait tickMs))
  call (.send "Time" (.num (tick * tickMs).toFloat "ms"))
  call .flush
  if let some value := (← get).latest then printLine world s!"[{tick}] {value.render}"

/-- Evaluate a program while a clock drives the time.  A clock needs time between its beats. -/
def runLive (world : World m) (tickMs ticks : Nat) : StateT Session (Script m) Unit := do
  let value ← call .run
  printLine world value.render
  if tickMs = 0 then throw "Timer task failed"
  for tick in [1 : ticks + 1] do beat world tickMs tick
  call .stop

/-! ### Tasks -/

def perform (world : World m) (settings : Settings) : Task → Script m Unit
  | .run program sources pushes pooled => do
    let program ← readProgram world program sources
    let _ ← (runPushes world pushes pooled).run (.create program settings.limits)
  | .live program sources tickMs ticks => do
    let program ← readProgram world program sources
    let _ ← (runLive world tickMs ticks).run (.create program settings.limits)
  | .config =>
    match settings.render with
    | .ok text => ExceptT.lift (world.print text)
    | .error fault => throw fault.message

def variablesFile : String := ".env"

def Invocation.perform (invocation : Invocation) (world : World m) : Script m Unit := do
  let environment :=
    match ← ExceptT.lift (world.read variablesFile) with
    | some text => world.environment.addFile text
    | none => world.environment
  let wishes : Wishes :=
    { file := invocation.config, maxFrameDepth := invocation.maxFrameDepth }
  match ← ExceptT.lift (Settings.load world.read environment wishes).run with
  | .ok settings => Command.perform world settings invocation.task
  | .error fault => throw fault.message

end Reactor.Command

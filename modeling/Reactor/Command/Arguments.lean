import Reactor.Decimal.Reading
import Reactor.Text.Split

/-!
# The arguments of a command

A command line is a word that says what to do, with options before and behind it.  An option starts
with two dashes; its value is the next word or follows an equals sign.  Two dashes alone end the
options.  Asking for help ends everything that comes after it.
-/

namespace Reactor.Command

/-- What a command is asked to do. -/
inductive Task where
  /-- Evaluate a program, then push values to its streams. -/
  | run (program : String) (sources : List (String × String)) (pushes : List String)
      (pooled : Bool)
  /-- Evaluate a program while a clock drives the time. -/
  | live (program : String) (sources : List (String × String)) (tickMs ticks : Nat)
  /-- Print the settings. -/
  | config
  deriving DecidableEq, Repr, Inhabited

/-- A command with the options that every task takes. -/
structure Invocation where
  config : Option String
  maxFrameDepth : Option Nat
  task : Task
  deriving DecidableEq, Repr, Inhabited

/-- Why the arguments name no task. -/
inductive Refusal where
  | help
  | misuse
  deriving DecidableEq, Repr, Inhabited

/-- Cut a text at the first equals sign.  The name in front may not be empty. -/
def assignment? (text : String) : Option (String × String) :=
  match Text.cutAt '=' text.toList with
  | some (name@(_ :: _), value) => some (String.ofList name, String.ofList value)
  | _ => none

/-! ### Options -/

/-- How an option is used. -/
inductive Usage where
  /-- Without a value, at most once. -/
  | flag
  /-- With a value, at most once. -/
  | single
  /-- With a value, any number of times. -/
  | many
  deriving DecidableEq, Repr, Inhabited

/-- An option. -/
structure Form where
  name : String
  usage : Usage
  /-- Which values it takes. -/
  takes : String → Bool := fun _ => true

def isCount (word : String) : Bool :=
  (Decimal.natural? word.toList).isSome

def commonForms : List Form :=
  [⟨"config", .single, fun _ => true⟩, ⟨"max-frame-depth", .single, isCount⟩]

def sourceForm : Form :=
  ⟨"source", .many, fun word => (assignment? word).isSome⟩

/-- What may stand at one place of a command line: some options, and a program or none. -/
structure Level where
  forms : List Form
  takesProgram : Bool

/-- What was given at one level. -/
structure Given where
  /-- The values of options, in their order. -/
  values : List (String × String) := []
  program : Option String := none
  deriving DecidableEq, Repr, Inhabited

namespace Given

def accept (given : Given) (form : Form) (value : String) : Except Refusal Given :=
  if !form.takes value then .error .misuse
  else if form.usage ≠ .many && (given.values.lookup form.name).isSome then .error .misuse
  else .ok { given with values := given.values ++ [(form.name, value)] }

def acceptProgram (given : Given) (word : String) : Except Refusal Given :=
  if word.isEmpty || given.program.isSome then .error .misuse
  else .ok { given with program := some word }

def all (given : Given) (name : String) : List String :=
  (given.values.filter (·.1 = name)).map Prod.snd

def value? (given : Given) (name : String) : Option String :=
  given.values.lookup name

def count? (given : Given) (name : String) : Option Nat :=
  (given.value? name).bind fun word => Decimal.natural? word.toList

def sources (given : Given) : List (String × String) :=
  (given.all "source").filterMap assignment?

end Given

/-! ### Words -/

/-- What a word of the command line is. -/
inductive Word where
  | plain
  /-- The end of the options. -/
  | separator
  | option (name : String) (value : Option String)
  | letters (first : Char)
  deriving DecidableEq, Repr, Inhabited

def Word.ofString (word : String) : Word :=
  match word.toList with
  | ['-', '-'] => separator
  | '-' :: '-' :: name =>
    match Text.cutAt '=' name with
    | some (name, value) => option (String.ofList name) (some (String.ofList value))
    | none => option (String.ofList name) none
  | '-' :: first :: _ => letters first
  | _ => plain

/-- The state between two words.  The last option is taken up only with the next word of the level, so
that the word for the task comes before it. -/
structure Progress where
  given : Given := {}
  waiting : Option (Form × String) := none

def Progress.settle (progress : Progress) : Except Refusal Given :=
  match progress.waiting with
  | some (form, value) => progress.given.accept form value
  | none => .ok progress.given

/-- Read the words of a level.  Where no program is taken, the first plain word is given back with
what follows it. -/
def scan (level : Level) (progress : Progress) :
    List String → Except Refusal (Progress × Option (String × List String))
  | [] => .ok (progress, none)
  | word :: rest =>
    match Word.ofString word with
    | .plain =>
      if level.takesProgram then do
        let given ← (← progress.settle).acceptProgram word
        scan level ⟨given, none⟩ rest
      else .ok (progress, some (word, rest))
    | .separator =>
      if level.takesProgram then do
        let given ← rest.foldlM Given.acceptProgram (← progress.settle)
        return (⟨given, none⟩, none)
      else if rest.isEmpty then .ok (progress, none)
      else .error .misuse
    | .letters first => do
      let _ ← progress.settle
      throw (if first = 'h' then .help else .misuse)
    | .option name attached => do
      let given ← progress.settle
      if name = "help" then throw (if attached.isNone then .help else .misuse)
      match level.forms.find? (·.name = name), attached, rest with
      | none, _, _ => throw .misuse
      | some form, some value, rest =>
        if form.usage = .flag then throw .misuse
        scan level ⟨← given.accept form value, none⟩ rest
      | some form, none, rest =>
        if form.usage = .flag then scan level ⟨← given.accept form "", none⟩ rest
        else
          match rest with
          | [] => throw .misuse
          | value :: rest =>
            if Word.ofString value = .plain then scan level ⟨given, some (form, value)⟩ rest
            else throw .misuse

/-! ### Tasks -/

def level? : String → Option Level
  | "run" =>
    some ⟨sourceForm :: ⟨"push", .many, fun _ => true⟩ :: ⟨"pooled", .flag, fun _ => true⟩ ::
      commonForms, true⟩
  | "live" =>
    some ⟨sourceForm :: ⟨"tick-ms", .single, isCount⟩ :: ⟨"ticks", .single, isCount⟩ ::
      commonForms, true⟩
  | "config" => some ⟨commonForms, false⟩
  | _ => none

def task? (name : String) (given : Given) : Option Task :=
  match name, given.program with
  | "run", some program =>
    some (.run program given.sources (given.all "push") (given.value? "pooled").isSome)
  | "live", some program =>
    some (.live program given.sources ((given.count? "tick-ms").getD 100)
      ((given.count? "ticks").getD 10))
  | "config", none => some .config
  | _, _ => none

def helpOn : List String → Refusal
  | [] => .help
  | [name] => if name = "help" || (level? name).isSome then .help else .misuse
  | _ => .misuse

/-- Read the arguments of a command.  An option that stands before and behind the word for the task has
the value behind it. -/
def Invocation.ofArguments (arguments : List String) : Except Refusal Invocation := do
  let (outer, next) ← scan ⟨commonForms, false⟩ {} arguments
  let some (name, rest) := next | throw .misuse
  if name = "help" then throw (helpOn rest)
  let some level := level? name | throw .misuse
  let (inner, left) ← scan level {} rest
  let inner ← inner.settle
  let outer ← outer.settle
  if left.isSome then throw .misuse
  let some task := task? name inner | throw .misuse
  return {
    config := inner.value? "config" <|> outer.value? "config"
    maxFrameDepth := inner.count? "max-frame-depth" <|> outer.count? "max-frame-depth"
    task }

end Reactor.Command

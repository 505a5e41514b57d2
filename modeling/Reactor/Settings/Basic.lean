import Reactor.Engine.Run
import Reactor.Settings.Format
import Reactor.Settings.Key
import Reactor.Settings.Variables
import Reactor.Toml.Writer

/-!
# Settings

What a user can choose: the limits of evaluation, the number of steps per slice and the filter of the
log.  A wish of the command comes first, then variables whose names start with `TEMPO_`, then a file,
then the defaults.
-/

namespace Reactor

/-- The settings of a command. -/
structure Settings where
  maxFrameDepth : Nat := 10000
  maxNesting : Nat := 64
  /-- The number of steps per slice for a host that drives a run in slices. -/
  runBudget : Nat := 1000
  logFilter : String := "info"
  deriving DecidableEq, Repr, Inhabited

/-- What a command asks for itself. -/
structure Wishes where
  file : Option String := none
  maxFrameDepth : Option Nat := none
  logFilter : Option String := none
  deriving DecidableEq, Repr, Inhabited

/-- Why there are no settings. -/
inductive SettingsFault where
  /-- A file that is missing or that cannot be read. -/
  | unreadable
  /-- A setting of the wrong kind. -/
  | invalid
  /-- A setting that may not be zero. -/
  | zero (name : String)
  /-- A number too large to be written. -/
  | unwritable
  deriving DecidableEq, Repr, Inhabited

def SettingsFault.message : SettingsFault → String
  | unreadable => "Failed to load configuration"
  | invalid => "Invalid configuration"
  | zero name => s!"{name} must be at least 1"
  | unwritable => "Failed to render configuration"

namespace Settings

/-! ### Layers -/

/-- What a name was given last.  A key that leads into the setting makes it compound. -/
def latest? (name : String) (given : List (String × Setting)) : Option Setting :=
  given.reverse.findSome? fun (key, value) =>
    let key := SettingKey.ofString key
    if key.name = name then some (if key.inside then .compound else value) else none

/-- The setting with a name; `fallback` stands where none was given. -/
def pick {α : Type} (kind? : Setting → Option α) (fallback : α) (name : String)
    (given : List (String × Setting)) : Except SettingsFault α :=
  match latest? name given with
  | none => .ok fallback
  | some value =>
    match kind? value with
    | some value => .ok value
    | none => .error .invalid

def ofGiven (given : List (String × Setting)) : Except SettingsFault Settings := do
  let defaults : Settings := {}
  return {
    maxFrameDepth := ← pick Setting.count? defaults.maxFrameDepth "max_frame_depth" given
    maxNesting := ← pick Setting.count? defaults.maxNesting "max_nesting" given
    runBudget := ← pick Setting.count? defaults.runBudget "run_budget" given
    logFilter := ← pick Setting.text? defaults.logFilter "log_filter" given }

/-- Put the wishes of the command over the settings. -/
def override (settings : Settings) (wishes : Wishes) : Settings :=
  { settings with
    maxFrameDepth := wishes.maxFrameDepth.getD settings.maxFrameDepth
    logFilter := wishes.logFilter.getD settings.logFilter }

/-- Refuse settings with which nothing can be done. -/
def check (settings : Settings) : Except SettingsFault Settings :=
  if settings.maxFrameDepth = 0 then .error (.zero "max_frame_depth")
  else if settings.maxNesting = 0 then .error (.zero "max_nesting")
  else if settings.runBudget = 0 then .error (.zero "run_budget")
  else .ok settings

/-! ### Files -/

/-- The first file that is there, of those with a path and one of some endings. -/
def firstFile {m : Type → Type} [Monad m] (read : String → m (Option String)) (path : String) :
    List (String × SettingsFormat) → m (Option (SettingsFormat × String))
  | [] => return none
  | (ending, format) :: rest => do
    let some candidate := Path.withEnding? path ending | return none
    match ← read candidate with
    | some text => return some (format, text)
    | none => firstFile read path rest

/-- The file at a path, with or without its ending.  A file with an unknown ending is as good as
none. -/
def locate {m : Type → Type} [Monad m] (read : String → m (Option String)) (path : String) :
    m (Option (SettingsFormat × String)) := do
  match ← read path with
  | some text => return (SettingsFormat.ofPath? path).map (·, text)
  | none => firstFile read path SettingsFormat.endings

/-- What a file says.  A file that was asked for has to be there. -/
def givenByFile {m : Type → Type} [Monad m] (read : String → m (Option String))
    (asked : Option String) : ExceptT SettingsFault m (List (String × Setting)) := do
  match ← ExceptT.lift (locate read (asked.getD "tempo")) with
  | some (format, text) =>
    match format.read? text with
    | some given => return given
    | none => throw .unreadable
  | none => if asked.isSome then throw .unreadable else return []

def load {m : Type → Type} [Monad m] (read : String → m (Option String)) (environment : Variables)
    (wishes : Wishes) : ExceptT SettingsFault m Settings := do
  let given ← givenByFile read (wishes.file <|> environment.lookup "TEMPO_CONFIG_PATH")
  let settings ← ofGiven (given ++ environment.settings "tempo_")
  (settings.override wishes).check

/-! ### Use -/

def limits (settings : Settings) : Limits :=
  ⟨settings.maxFrameDepth, settings.maxNesting⟩

def render (settings : Settings) : Except SettingsFault String :=
  let counts := [settings.maxFrameDepth, settings.maxNesting, settings.runBudget]
  if counts.any fun count => !Decimal.fitsSigned count then .error .unwritable
  else
    .ok (s!"max_frame_depth = {settings.maxFrameDepth}\nmax_nesting = {settings.maxNesting}\n" ++
      s!"run_budget = {settings.runBudget}\nlog_filter = " ++
      Toml.renderString settings.logFilter ++ "\n")

end Settings

end Reactor

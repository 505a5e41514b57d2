import Reactor.File.Path
import Reactor.Ini.Reader
import Reactor.Json5.Reader
import Reactor.Ron.Reader
import Reactor.Settings.Setting
import Reactor.Toml.Reader
import Reactor.Yaml.Reader

/-!
# Forms of settings files

The ending of its name tells in which form a file is written.  Whatever the form, a file says which
keys have which values.
-/

namespace Reactor

/-- How a settings file is written. -/
inductive SettingsFormat where
  | toml
  | json
  | yaml
  | ini
  | ron
  | json5
  deriving DecidableEq, Repr, Inhabited

namespace SettingsFormat

def endings : List (String × SettingsFormat) :=
  [("toml", toml), ("json", json), ("yaml", yaml), ("yml", yaml), ("ini", ini), ("ron", ron),
    ("json5", json5)]

def ofPath? (path : String) : Option SettingsFormat :=
  endings.lookup (Path.ending path)

def ofObject? : Json → Option (List (String × Setting))
  | .obj members => some (members.map fun (key, value) => (key, .ofJson value))
  | _ => none

/-- The keys and values of entries.  A heading makes a table of what follows it. -/
def ofEntries (heading : Bool) : List Ini.Entry → List (String × Setting)
  | [] => []
  | .heading name :: rest => (name, .compound) :: ofEntries true rest
  | .pair key text :: rest =>
    if heading then ofEntries true rest else (key, .text text) :: ofEntries false rest

def read? (format : SettingsFormat) (text : String) : Option (List (String × Setting)) :=
  let text := String.ofList (Text.dropOrderMark text.toList)
  match format with
  | toml =>
    (Toml.read? text).map fun members => members.map fun (key, value) => (key, .ofToml value)
  | json => (Json.read text).bind ofObject?
  | yaml => (Yaml.read? text).bind ofObject?
  | ini => (Ini.read? text).map (ofEntries false)
  | ron => (Ron.read? text).bind ofObject?
  | json5 => (Json5.read? text).bind ofObject?

end SettingsFormat

end Reactor

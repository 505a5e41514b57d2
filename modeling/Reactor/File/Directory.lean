import Reactor.File.Path

/-!
# Directories in memory

Files with their texts, and the directories that their paths lead through.  Reading follows a path
name by name from the top: every name but the last has to be a directory, and the last one a file.
-/

namespace Reactor

/-- The files of a directory and of the directories in it, each by the names that lead to it. -/
structure Directory where
  files : List (List (List Char) × String)
  deriving Inhabited

namespace Directory

def ofFiles (files : List (String × String)) : Directory :=
  ⟨files.map fun (path, text) => ((Path.names path).filter fun name => !Path.isHere name, text)⟩

def hasDirectory (directory : Directory) (place : List (List Char)) : Bool :=
  directory.files.any fun (names, _) => place.isPrefixOf names && place.length < names.length

def readFrom? (directory : Directory) (place : List (List Char)) : List (List Char) → Option String
  | [] => none
  | name :: rest =>
    if Path.isHere name then readFrom? directory place rest
    else if Path.isUp name then
      if place.isEmpty then none else readFrom? directory place.dropLast rest
    else if rest.isEmpty then directory.files.lookup (place ++ [name])
    else if directory.hasDirectory (place ++ [name]) then
      readFrom? directory (place ++ [name]) rest
    else none

/-- The text of the file at a path.  A path from the root of all directories leads out of this one. -/
def read? (directory : Directory) (path : String) : Option String :=
  if path.startsWith "/" then none else directory.readFrom? [] (Path.names path)

end Directory

end Reactor

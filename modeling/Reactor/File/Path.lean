import Reactor.Text.Split

/-!
# Paths

A path is a list of names with slashes between them.  An empty name and a single point mean the
directory that was reached so far, two points the one around it.  The ending of a name is what
follows its last point.
-/

namespace Reactor.Path

def names (path : String) : List (List Char) :=
  Text.splitAt '/' path.toList

def isHere (name : List Char) : Bool :=
  name = [] || name = ['.']

/-- Whether a name means the directory around the one that was reached so far. -/
def isUp (name : List Char) : Bool :=
  name = ['.', '.']

/-- The ending of a name.  A point at the start of a name does not divide it. -/
def endingOf (name : List Char) : String :=
  match Text.cutAt '.' name.reverse with
  | some (ending, _ :: _) => String.ofList ending.reverse
  | _ => ""

def ending (path : String) : String :=
  endingOf ((names path).getLast?.getD [])

/-- A path with an ending behind its last name.  There is none for a path that has no last name, such
as one that leads up. -/
def withEnding? (path ending : String) : Option String :=
  match (names path).reverse.dropWhile isHere with
  | [] => none
  | name :: before =>
    if isUp name then none
    else some (String.ofList (['/'].intercalate (name :: before).reverse) ++ "." ++ ending)

end Reactor.Path

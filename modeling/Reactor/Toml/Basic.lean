/-!
# TOML documents

Values and tables.  A table knows how it came about, because that decides what may be added to it
later: tables written in braces are complete, tables with a header of their own have just one, and
tables that exist only because something inside them has a name may still get a header.
-/

namespace Reactor

/-- How a table came about. -/
inductive TableOrigin where
  /-- Written in braces. -/
  | inline
  /-- Named on the way to another table. -/
  | implied
  /-- Named on the way to a value. -/
  | dotted
  /-- Named by a header of its own. -/
  | headed
  deriving DecidableEq, Repr, Inhabited

/-- A value. -/
inductive Toml where
  | str (text : String)
  | int (value : Int)
  | float (value : Float)
  | bool (truth : Bool)
  /-- A date, a time or both, in its usual form. -/
  | moment (text : String)
  | arr (items : List Toml)
  | table (origin : TableOrigin) (members : List (String × Toml))
  /-- Tables that share one header. -/
  | tables (rows : List (List (String × Toml)))
  deriving Inhabited

namespace Toml

abbrev Members := List (String × Toml)

/-- Give a name a value, in its place if it has one. -/
def put (name : String) (value : Toml) : Members → Members
  | [] => [(name, value)]
  | (other, old) :: rest =>
    if other = name then (name, value) :: rest else (other, old) :: put name value rest

def changeLast (change : Members → Option Members) : List Members → Option (List Members)
  | [] => none
  | [row] => (change row).map ([·])
  | row :: rest => (changeLast change rest).map (row :: ·)

/-- Change the table at the end of a path.  Tables on the path that are missing come into being.  On
the way to a value, a table with a header of its own may not be entered.  `change` is told how the
table came about. -/
def descend (dotted : Bool) (change : TableOrigin → Members → Option Members)
    (origin : TableOrigin) : (path : List String) → Members → Option Members
  | [], members => change origin members
  | name :: path, members =>
    match members.lookup name with
    | none =>
      let origin := if dotted then .dotted else .implied
      (descend dotted change origin path []).map fun inner =>
        members ++ [(name, table origin inner)]
    | some (table origin inner) =>
      if origin = .inline ∨ (dotted ∧ origin = .headed) then none
      else
        (descend dotted change origin path inner).map fun inner =>
          put name (table origin inner) members
    | some (tables rows) =>
      (changeLast (descend dotted change .headed path) rows).map fun rows =>
        put name (tables rows) members
    | some _ => none

def addNew (name : String) (value : Toml) (members : Members) : Option Members :=
  if (members.lookup name).isSome then none else some (members ++ [(name, value)])

/-- Add a value under a dotted name.  Tables on the way belong to values alone. -/
def addValue (path : List String) (name : String) (value : Toml) (members : Members) :
    Option Members :=
  descend true
    (fun origin inner =>
      if path.isEmpty || origin = .dotted then addNew name value inner else none)
    .headed path members

def find? (name : String) : (path : List String) → Members → Option Toml
  | [], members => members.lookup name
  | step :: path, members =>
    match members.lookup step with
    | some (table _ inner) => find? name path inner
    | some (tables rows) => rows.getLast?.bind (find? name path)
    | _ => none

/-- The members with which a table starts when its header is met.  A table that was only implied so
far keeps what it has; any other may not be there yet. -/
def headedMembers? (path : List String) (name : String) (root : Members) : Option Members :=
  match find? name path root with
  | none => some []
  | some (table .implied inner) => some inner
  | some _ => none

/-- Put a table with a header at its place. -/
def placeTable (path : List String) (name : String) (members root : Members) : Option Members :=
  descend false (fun _ inner => some (put name (table .headed members) inner)) .headed path root

/-- Add a further table to those that share a header. -/
def placeRow (path : List String) (name : String) (members root : Members) : Option Members :=
  descend false
    (fun _ inner =>
      match inner.lookup name with
      | none => some (inner ++ [(name, tables [members])])
      | some (tables rows) => some (put name (tables (rows ++ [members])) inner)
      | some _ => none)
    .headed path root

end Toml

end Reactor

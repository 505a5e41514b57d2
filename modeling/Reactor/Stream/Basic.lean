import Reactor.Value.Basic

/-!
# Streams

A stream is a named history of values that only grows.  New values wait behind the history until
they are committed; reads see the history alone.  Reactions subscribe to streams.
-/

namespace Reactor

/-- Which values a stream accepts. -/
inductive StreamKind where
  | any
  | only (kind : Kind)
  deriving DecidableEq, Repr, Inhabited

namespace StreamKind

def accepts : StreamKind → Kind → Bool
  | any, _ => true
  | only expected, kind => expected = kind

def name : StreamKind → String
  | any => "any"
  | only kind => kind.name

def ofName? (name : String) : Option StreamKind :=
  if name = "any" then some any else (Kind.ofName? name).map only

end StreamKind

/-- A stream. -/
structure Stream where
  name : String
  kind : StreamKind
  /-- The value with which the history of every run starts. -/
  initial : Option Val
  /-- The values that can be read, oldest first. -/
  history : List Val
  /-- The values that wait to be committed, oldest first. -/
  pending : List Val
  /-- The reactions that want to know of new values, in ascending order. -/
  subscribers : List NodeId
  deriving Inhabited

namespace Stream

def create (name : String) (kind : StreamKind) (initial : Option Val) : Stream where
  name := name
  kind := kind
  initial := initial
  history := initial.toList
  pending := []
  subscribers := []

def latest? (stream : Stream) : Option Val :=
  stream.history.getLast?

def accept (stream : Stream) (value : Val) : Stream :=
  { stream with pending := stream.pending ++ [value] }

def hasPending (stream : Stream) : Bool :=
  !stream.pending.isEmpty

def commit (stream : Stream) : Stream :=
  { stream with history := stream.history ++ stream.pending, pending := [] }

def reset (stream : Stream) : Stream :=
  { stream with history := stream.initial.toList, pending := [], subscribers := [] }

/-- Put a number into an ascending list, once. -/
def insertId (id : NodeId) : List NodeId → List NodeId
  | [] => [id]
  | other :: rest =>
    if id < other then id :: other :: rest
    else if id = other then other :: rest
    else other :: insertId id rest

def subscribe (stream : Stream) (reaction : NodeId) : Stream :=
  { stream with subscribers := insertId reaction stream.subscribers }

def unsubscribeAll (stream : Stream) : Stream :=
  { stream with subscribers := [] }

/-- Every value of a stream, readable or not, and its initial value. -/
def values (stream : Stream) : List Val :=
  stream.history ++ stream.pending ++ stream.initial.toList

@[simp]
theorem mem_insertId {id other : NodeId} {ids : List NodeId} :
    other ∈ insertId id ids ↔ other = id ∨ other ∈ ids := by
  induction ids with
  | nil => simp [insertId]
  | cons first rest ih =>
    simp only [insertId]
    split
    · simp
    · split
      · rename_i equal
        subst equal
        simp
      · simp only [List.mem_cons, ih]
        constructor
        · rintro (found | found | found) <;> simp [found]
        · rintro (found | found | found) <;> simp [found]

end Stream

end Reactor

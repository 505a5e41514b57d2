import Reactor.Fault
import Reactor.Stream.Basic
import Reactor.Total
import Reactor.Value.Datum

/-!
# The streams of a session

The host registers streams and feeds them, directly or by sending data that wait in an inbox.  All
values become readable together, when they are committed.  The stream `Time` is there without
registration: it appears when it is first needed.
-/

namespace Reactor

/-- The registered streams. -/
structure Streams where
  /-- In the order of their names. -/
  streams : List Stream
  /-- The names of the streams that advanced at the last commit, in order. -/
  changed : List String
  /-- Data that were sent and not yet delivered, oldest first. -/
  inbox : List (String × Datum)
  deriving Inhabited

namespace Streams

def empty : Streams := ⟨[], [], []⟩

def get? (streams : Streams) (name : String) : Option Stream :=
  streams.streams.find? (·.name = name)

def insertByName (stream : Stream) : List Stream → List Stream
  | [] => [stream]
  | other :: rest =>
    if stream.name < other.name then stream :: other :: rest else other :: insertByName stream rest

/-- Add a stream whose name is new. -/
def add (streams : Streams) (stream : Stream) : Streams :=
  { streams with streams := insertByName stream streams.streams }

def change (streams : Streams) (name : String) (update : Stream → Stream) : Streams :=
  { streams with
    streams := streams.streams.map fun stream =>
      if stream.name = name then update stream else stream }

def changeAll (streams : Streams) (update : Stream → Stream) : Streams :=
  { streams with streams := streams.streams.map update }

def provided? (name : String) : Option Stream :=
  if name = "Time" then some (.create name (.only .number) (some (.measure 0 "ms"))) else none

/-- Register a stream for values of any kind, unless it is there. -/
def register (streams : Streams) (name : String) : Streams :=
  match streams.get? name with
  | some _ => streams
  | none => streams.add (.create name .any none)

/-- Register a stream with a kind and an initial value, unless it is there.  The initial value must
fit the kind, and so must a stream that is there. -/
def registerWith (streams : Streams) (name : String) (kind : StreamKind) (initial : Option Val) :
    Except Fault Streams :=
  match initial.filter fun value => !kind.accepts value.kind with
  | some value => .error (.streamKindMismatch name kind.name value.kind.name)
  | none =>
    match streams.get? name with
    | some existing =>
      if existing.kind = kind then .ok streams
      else .error (.streamConflict name existing.kind.name kind.name)
    | none => .ok (streams.add (.create name kind initial))

/-- Make sure that a stream is there, if it is registered or provided. -/
def ensure? (streams : Streams) (name : String) : Option Streams :=
  match streams.get? name with
  | some _ => some streams
  | none => (provided? name).map streams.add

def latest? (streams : Streams) (name : String) : Option Val :=
  (streams.get? name).bind Stream.latest?

def hasChanged (streams : Streams) (name : String) : Bool :=
  name ∈ streams.changed

/-- Hand a value to a stream.  The answer lists the subscribers of the stream. -/
def push (streams : Streams) (name : String) (value : Val) : Streams × Except Fault (List NodeId) :=
  match streams.ensure? name with
  | none => (streams, .error (.unknownStream name))
  | some streams =>
    match streams.get? name with
    | none => (streams, .error (.unknownStream name))
    | some stream =>
      if stream.kind.accepts value.kind then
        (streams.change name (·.accept value), .ok stream.subscribers)
      else (streams, .error (.streamKindMismatch name stream.kind.name value.kind.name))

/-- Send a datum to streams.  It waits in their inbox, unless they are gone. -/
def send (streams : Option Streams) (name : String) (datum : Datum) : Except Fault Streams :=
  match streams with
  | some streams => .ok { streams with inbox := streams.inbox ++ [(name, datum)] }
  | none => .error (.streamClosed name)

/-- Deliver one datum.  What a stream refuses is dropped; `count` is the number of data that were
accepted. -/
def deliver (state : Streams × Nat) (message : String × Datum) : Streams × Nat :=
  match state.1.push message.1 message.2.toVal with
  | (streams, .ok _) => (streams, state.2 + 1)
  | (streams, .error _) => (streams, state.2)

/-- Deliver the data that wait in the inbox, in the order in which they were sent.  The number of data
that were accepted is given back. -/
def drain (streams : Streams) : Streams × Nat :=
  streams.inbox.foldl deliver ({ streams with inbox := [] }, 0)

def commit (streams : Streams) : Streams :=
  { streams with
    changed := (streams.streams.filter Stream.hasPending).map (·.name)
    streams := streams.streams.map Stream.commit }

def subscribe (streams : Streams) (name : String) (reaction : NodeId) : Streams :=
  streams.change name (·.subscribe reaction)

def subscribeAll (streams : Streams) (names : List String) (reaction : NodeId) : Streams :=
  names.foldl (fun streams name => streams.subscribe name reaction) streams

def subscribers (streams : Streams) (name : String) : List NodeId :=
  ((streams.get? name).map (·.subscribers)).getD []

def unsubscribeAll (streams : Streams) : Streams :=
  streams.changeAll Stream.unsubscribeAll

def subscriptionCount (streams : Streams) : Nat :=
  total (streams.streams.map (·.subscribers.length))

def values (streams : Streams) : List Val :=
  streams.streams.flatMap Stream.values

/-- Take every stream back to its initial history.  Data in the inbox stay there. -/
def reset (streams : Streams) : Streams :=
  { streams.changeAll Stream.reset with changed := [] }

end Streams

end Reactor

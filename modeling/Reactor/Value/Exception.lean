/-!
# Exceptions

An exception is a value.  It records what went wrong in an expression and travels through the
program like any other value; it never aborts a run.
-/

namespace Reactor

/-- What went wrong in an expression. -/
inductive Cause where
  /-- A value of the wrong kind. -/
  | typeMismatch (expected received : String)
  /-- A name with no binding in scope. -/
  | unboundName (name : String)
  /-- A stream that nobody has registered. -/
  | missingStream (name : String)
  /-- A stream without a first value. -/
  | streamAbsent (name : String)
  /-- A call with the wrong number of inputs. -/
  | arityMismatch (expected received : Nat)
  /-- A built-in function that the kind does not have. -/
  | unknownFunction (kind name : String)
  /-- A field that the subject does not have. -/
  | unknownField (subject name : String)
  /-- A call of a value that is no function. -/
  | notCallable (received : String)
  /-- Arithmetic on numbers whose units do not fit. -/
  | incompatibleUnits (left right : String)
  /-- A place that needs a stream. -/
  | expectedStream
  /-- A reaction inside the evaluation of a reaction. -/
  | nestedReaction
  /-- A source that borrows itself, directly or through others. -/
  | cyclicBorrow (name : String)
  /-- A source that the program does not have. -/
  | unknownSource (name : String)
  /-- An evaluation nested more deeply than the limit allows. -/
  | depthLimit (limit : Nat)
  /-- A position outside a list. -/
  | indexOutOfBounds (index : String) (length : Nat)
  /-- A key that a map does not have. -/
  | missingKey (key : String)
  | divisionByZero
  /-- A block without statements. -/
  | noValue
  /-- A text that would be longer than the limit in bytes. -/
  | textTooLong (limit : Nat)
  /-- A nested evaluation that a defect of the engine cut short. -/
  | interrupted
  deriving DecidableEq, Repr, Inhabited

def Cause.message : Cause → String
  | typeMismatch expected received => s!"type mismatch: expected {expected}, received {received}"
  | unboundName name => s!"unbound name {name}"
  | missingStream name => s!"missing stream {name}"
  | streamAbsent name => s!"stream {name} has no value yet"
  | arityMismatch expected received => s!"expected {expected} inputs, received {received}"
  | unknownFunction kind name => s!"{kind} has no function {name}"
  | unknownField subject name => s!"{subject} has no field {name}"
  | notCallable received => s!"{received} is not a function"
  | incompatibleUnits left right => s!"incompatible units {left} and {right}"
  | expectedStream => "reaction condition does not reference a stream"
  | nestedReaction => "reaction reached while another reaction is evaluating"
  | cyclicBorrow name => s!"source {name} borrows itself"
  | unknownSource name => s!"unknown source {name}"
  | depthLimit limit => s!"evaluation exceeded {limit} nested frames"
  | indexOutOfBounds index length => s!"index {index} is out of bounds for length {length}"
  | missingKey key => s!"no entry for key {key}"
  | divisionByZero => "division by zero"
  | noValue => "block has no value"
  | textTooLong limit => s!"text would exceed {limit} bytes"
  | interrupted => "evaluation interrupted"

end Reactor

import Reactor.Value.Kind

/-!
# Faults

A fault is what a call of the host gives instead of an answer.  Most faults reject one call and
change nothing.  A defect is a broken promise inside the engine: it ends the run.
-/

namespace Reactor

/-- A promise inside the engine that did not hold.  Nodes are given by their numbers. -/
inductive Defect where
  | noMainSource
  | unknownNode (node : Nat)
  | bodyWithoutValue
  | missingOperands (node : Nat)
  | wrongFrame (node : Nat)
  | noReactionForFrame (node : Nat)
  | lostInitialValue (node : Nat)
  | noReactionToUpdate (node : Nat)
  | updateBeforeCreation (node : Nat)
  | vanishedReaction (node : Nat)
  | noBorrowForFrame (node : Nat)
  | sourceWithoutValue (source : String)
  | deadSubscriber (node : Nat)
  | evaluationWithoutValue (node : Nat)
  | noMachine
  | runWithoutValue
  deriving DecidableEq, Repr, Inhabited

def Defect.message : Defect → String
  | noMainSource => "program has no main source"
  | unknownNode node => s!"frame over unknown node #{node}"
  | bodyWithoutValue => "body frame resumed without a value"
  | missingOperands node => s!"operands of #{node} were not evaluated"
  | wrongFrame node => s!"#{node} needs its own frame kind"
  | noReactionForFrame node => s!"reaction frame over non-reaction node #{node}"
  | lostInitialValue node => s!"reaction #{node} lost its initial value"
  | noReactionToUpdate node => s!"#{node} is not a reaction"
  | updateBeforeCreation node => s!"reaction #{node} updated before creation"
  | vanishedReaction node => s!"reaction #{node} vanished during update"
  | noBorrowForFrame node => s!"borrow frame over non-borrow node #{node}"
  | sourceWithoutValue source => s!"source {source} produced no value"
  | deadSubscriber node => s!"stream subscriber #{node} is not a live reaction"
  | evaluationWithoutValue node => s!"evaluation of #{node} finished without a value"
  | noMachine => "running without a machine"
  | runWithoutValue => "run finished without a value"

/-- Why a call of the host was refused. -/
inductive Fault where
  | defect (defect : Defect)
  /-- A defect ended the run earlier. -/
  | halted (defect : Defect)
  | notStarted
  | streamConflict (name existing requested : String)
  | streamKindMismatch (name expected received : String)
  | unknownStream (name : String)
  | streamClosed (name : String)
  deriving DecidableEq, Repr, Inhabited

def Fault.message : Fault → String
  | defect cause => s!"engine defect: {cause.message}"
  | halted cause => s!"run halted: engine defect: {cause.message}"
  | notStarted => "evaluator has not been started"
  | streamConflict name existing requested =>
    s!"stream {name} is already registered as {existing}, not {requested}"
  | streamKindMismatch name expected received =>
    s!"stream {name} carries {expected} values, received {received}"
  | unknownStream name => s!"unknown stream {name}"
  | streamClosed name => s!"stream {name} no longer accepts values"

end Reactor

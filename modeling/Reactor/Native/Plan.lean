import Reactor.Value.Basic

/-!
# Plans of native functions

A native function computes its value on its own, except that it may call functions it was given.  It
is therefore a plan: either the value is known, or some function has to be called first and the plan
goes on with what the call gives.

The functions that are called come from the inputs and are applied to parts of the receiver.  So every
call in a plan is smaller than the call that made the plan, in the measure `Val.weight`.  This is why
native functions that call one another come to an end, although no expression is evaluated on the
way.
-/

namespace Reactor

namespace Val

/-- The exception that arises at a node. -/
def failure (cause : Cause) (node : NodeId) : Val :=
  exception cause (some node)

/-- The exception for a value that is not of the kind expected at a node. -/
def mismatch (received : Val) (expected : String) (node : NodeId) : Val :=
  failure (.typeMismatch expected received.render) node

/-- The size of the last input. -/
noncomputable def lastSize : List Val → Nat
  | [] => 0
  | [only] => sizeOf only
  | _ :: rest => lastSize rest

/-- The size of a call: that of the function and that of its last input. -/
noncomputable def weight (function : Val) (args : List Val) : Nat :=
  sizeOf function + lastSize args

/-- Whether a call is smaller than the call of a native function on a receiver. -/
def Within (receiver : Val) (inputs : List Val) (function : Val) (args : List Val) : Prop :=
  weight function args < sizeOf receiver + lastSize inputs

theorem Within.weight_lt {receiver : Val} {inputs : List Val} {function : Val} {args : List Val}
    (within : Within receiver inputs function args) (name : String) :
    weight function args < weight (native receiver name) inputs := by
  simp only [Within] at within
  simp only [weight, native.sizeOf_spec] at *
  omega

theorem sizeOf_item_lt {item : Val} {items : List Val} (member : item ∈ items) :
    sizeOf item < sizeOf (list items) ∧ sizeOf item < sizeOf (set items) := by
  have := List.sizeOf_lt_of_mem member
  simp only [list.sizeOf_spec, set.sizeOf_spec]
  omega

theorem sizeOf_entry_lt {entry : Val × Val} {entries : List (Val × Val)}
    (member : entry ∈ entries) : sizeOf entry.2 < sizeOf (map entries) := by
  have := List.sizeOf_lt_of_mem member
  rcases entry with ⟨key, value⟩
  simp only [map.sizeOf_spec, Prod.mk.sizeOf_spec] at *
  omega

end Val

/-- A plan whose calls are all allowed. -/
inductive Plan (Allowed : Val → List Val → Prop) where
  | done (value : Val)
  | call (function : Val) (args : List Val) (allowed : Allowed function args)
      (resume : Val → Plan Allowed)

namespace Plan

variable {Allowed : Val → List Val → Prop}

instance : Inhabited (Plan Allowed) := ⟨done default⟩

/-- Carry out a plan, given how calls are carried out. -/
def run {m : Type → Type} [Monad m]
    (apply : (function : Val) → (args : List Val) → Allowed function args → m Val) :
    Plan Allowed → m Val
  | done value => pure value
  | call function args allowed resume => do
    let value ← apply function args allowed
    (resume value).run apply

/-- Go on with the truth that a call gave.  Exceptions are passed on, other values are refused. -/
def decide (node : NodeId) (next : Bool → Plan Allowed) : Val → Plan Allowed
  | .bool truth => next truth
  | .exception cause origin => done (.exception cause origin)
  | other => done (other.mismatch "Boolean" node)

/-- Call a function on each list of inputs and finish with the values, unless one is an
exception. -/
def collect (function : Val) (finish : List Val → Val) (found : List Val) :
    (calls : List (List Val)) → (∀ args ∈ calls, Allowed function args) → Plan Allowed
  | [], _ => done (finish found.reverse)
  | args :: rest, allowed =>
    call function args (allowed args List.mem_cons_self) fun value =>
      if value.isException then done value
      else collect function finish (value :: found) rest
        fun args member => allowed args (List.mem_cons_of_mem _ member)

/-- Finish with the items for which a function gives the truth. -/
def select {α : Type} (node : NodeId) (function : Val) (args : α → List Val)
    (finish : List α → Val) (kept : List α) :
    (items : List α) → (∀ item ∈ items, Allowed function (args item)) → Plan Allowed
  | [], _ => done (finish kept.reverse)
  | item :: rest, allowed =>
    call function (args item) (allowed item List.mem_cons_self) <| decide node fun truth =>
      select node function args finish (if truth then item :: kept else kept) rest
        fun item member => allowed item (List.mem_cons_of_mem _ member)

/-- Whether a function gives the truth for every item.  The first one for which it does not ends the
plan. -/
def every (node : NodeId) (function : Val) :
    (items : List Val) → (∀ item ∈ items, Allowed function [item]) → Plan Allowed
  | [], _ => done (.bool true)
  | item :: rest, allowed =>
    call function [item] (allowed item List.mem_cons_self) <| decide node fun truth =>
      if truth then
        every node function rest fun item member => allowed item (List.mem_cons_of_mem _ member)
      else done (.bool false)

/-- Combine items with a value so far, from left to right.  An exception ends the plan. -/
def fold (function : Val) (total : Val) :
    (items : List Val) → (∀ total, ∀ item ∈ items, Allowed function [total, item]) →
      Plan Allowed
  | [], _ => done total
  | item :: rest, allowed =>
    call function [total, item] (allowed total item List.mem_cons_self) fun total =>
      if total.isException then done total
      else fold function total rest
        fun total item member => allowed total item (List.mem_cons_of_mem _ member)

end Plan

end Reactor

import Reactor.Proofs.Ensures
import Reactor.Engine.Evaluate

/-!
# Operators and functions of a value

A function of a value can be called in two ways: as an operator, or by taking the function out of the
value by its name and calling what comes out.  Both look for a function of the value's own structure
first and for a native one then, in code of their own.  Fields are the one difference, since only a name
behind a value can stand for a field.

The main result is that the two ways are the same action wherever the name stands for a function, and
that an operator is not known where the name stands for nothing.
-/

namespace Reactor

/-- The function of a value's own structure with a name. -/
def Val.ownFunction? (name : String) : Val → Option Closure
  | record definition _ => definition.function? name
  | _ => none

/-- A name that stands for no field of a value. -/
def Val.LacksField (name : String) : Val → Prop
  | record definition fields => field? definition fields name = none
  | _ => True

/-- A kind without functions of some name knows none of them for any number of inputs. -/
theorem Native.lookup_of_not_has {kind : Kind} {name : String} (unknown : has kind name = false)
    (arity : Nat) : lookup kind name arity = .error (.unknownFunction kind.name name) := by
  have none : (suite kind).functions.filter (·.name = name) = [] := by
    simpa [has, List.filter_eq_nil_iff] using unknown
  rw [lookup, none]

theorem Val.access_eq {subject : Val} {name : String} (fieldless : subject.LacksField name)
    (node : NodeId) :
    subject.access name node =
      match subject.ownFunction? name with
      | some function => .method subject function
      | none =>
        if Native.has subject.kind name then .native subject name
        else .failure (.unknownField subject.ownerName name) node := by
  cases subject with
  | record definition fields =>
    have noField : field? definition fields name = none := fieldless
    simp only [access, ownFunction?, noField]
    cases definition.function? name <;> rfl
  | _ => rfl

namespace Action

variable {evaluate : Evaluation} {node : NodeId} {receiver : Val} {name : String} {args : List Val}

theorem dispatch_eq :
    dispatch evaluate node receiver name args =
      match receiver.ownFunction? name with
      | some function => invoke evaluate node (.method receiver function) args
      | none => invoke evaluate node (.native receiver name) args := by
  cases receiver with
  | record definition fields =>
    simp only [dispatch, Val.ownFunction?]
    cases definition.function? name <;> rfl
  | _ => rfl

theorem invoke_native_of_not_has (unknown : Native.has receiver.kind name = false) :
    invoke evaluate node (.native receiver name) args =
      pure (.failure (.unknownFunction receiver.kind.name name) node) := by
  simp only [invoke, invokeWith, callNative, Native.lookup_of_not_has unknown]

/-- An operator does what the function does that its name stands for behind the receiver, unless that
name stands for a field.  Where it stands for nothing, the operator is an unknown function of the
receiver's kind. -/
theorem dispatch_agrees_with_access
    (evaluate : Evaluation) (node : NodeId) {receiver : Val} {name : String}
    (fieldless : receiver.LacksField name) (args : List Val) :
    ((receiver.access name node).isException = false →
      dispatch evaluate node receiver name args =
        invoke evaluate node (receiver.access name node) args) ∧
    ((receiver.access name node).isException = true →
      receiver.access name node = .failure (.unknownField receiver.ownerName name) node ∧
        dispatch evaluate node receiver name args =
          pure (.failure (.unknownFunction receiver.kind.name name) node)) := by
  rw [Val.access_eq fieldless, dispatch_eq]
  cases receiver.ownFunction? name with
  | some function => exact ⟨fun _ => rfl, nofun⟩
  | none =>
    cases known : Native.has receiver.kind name with
    | true => exact ⟨fun _ => rfl, nofun⟩
    | false => exact ⟨nofun, fun _ => ⟨rfl, invoke_native_of_not_has known⟩⟩

/-- A structure with a function of its own for equality, and without one that flies. -/
theorem dispatch_agrees_with_access_for_own_equality :
    let definition : Definition :=
      ⟨⟨.run, 1⟩, "Point", ["x"], [⟨⟨.run, 0⟩, some "=", ["other"], 0, []⟩], []⟩
    let point : Val := .record definition [.bool true]
    (point.LacksField "=" ∧ (point.access "=" 4).isException = false ∧
      dispatch (Action.evaluate default) 4 point "=" [.bool false] =
        invoke (Action.evaluate default) 4 (point.access "=" 4) [.bool false]) ∧
    point.LacksField "fly" ∧ (point.access "fly" 4).isException = true ∧
      dispatch (Action.evaluate default) 4 point "fly" [] =
        pure (.failure (.unknownFunction "Structure" "fly") 4) := by
  intro definition point
  have lacksEquality : point.LacksField "=" := rfl
  have lacksFlight : point.LacksField "fly" := rfl
  exact ⟨⟨lacksEquality, rfl, (dispatch_agrees_with_access _ 4 lacksEquality _).1 rfl⟩,
    lacksFlight, rfl, ((dispatch_agrees_with_access _ 4 lacksFlight []).2 rfl).2⟩

end Action

end Reactor

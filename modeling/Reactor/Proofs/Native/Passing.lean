import Reactor.Native.Catalogue

/-!
# Native functions pass exceptions on

A native function that is given a function may call it many times.  Once such a call gives an
exception, the native calls nothing more, and the exception is its own value.  This holds of every
function of the catalogue.
-/

namespace Reactor

namespace Plan

variable {Allowed : Val → List Val → Prop}

/-- A plan that ends with the first exception that a call gives. -/
def PassesOn : Plan Allowed → Prop
  | done _ => True
  | call _ _ _ resume =>
    (∀ value : Val, value.isException = true → resume value = done value) ∧
      ∀ value : Val, value.isException = false → (resume value).PassesOn

@[simp]
theorem passesOn_done (value : Val) : (done value : Plan Allowed).PassesOn :=
  trivial

section

variable {node : NodeId} {next : Bool → Plan Allowed}

theorem decide_of_isException {value : Val} (raised : value.isException = true) :
    decide node next value = done value := by
  cases value with
  | exception cause origin => rfl
  | _ => cases raised

theorem passesOn_decide (passes : ∀ truth, (next truth).PassesOn) (value : Val) :
    (decide node next value).PassesOn := by
  cases value with
  | bool truth => exact passes truth
  | _ => exact passesOn_done _

end

@[simp]
theorem passesOn_collect (function : Val) (finish : List Val → Val) (found : List Val)
    (calls : List (List Val)) (allowed : ∀ args ∈ calls, Allowed function args) :
    (collect function finish found calls allowed).PassesOn := by
  induction calls generalizing found with
  | nil => exact passesOn_done _
  | cons args rest ih =>
    refine ⟨fun value raised => if_pos raised, fun value calm => ?_⟩
    simp only [calm, Bool.false_eq_true, if_false]
    exact ih _ _

@[simp]
theorem passesOn_select {α : Type} (node : NodeId) (function : Val) (args : α → List Val)
    (finish : List α → Val) (kept : List α)
    (items : List α) (allowed : ∀ item ∈ items, Allowed function (args item)) :
    (select node function args finish kept items allowed).PassesOn := by
  induction items generalizing kept with
  | nil => exact passesOn_done _
  | cons item rest ih =>
    refine ⟨fun value raised => decide_of_isException raised, fun value _ => ?_⟩
    exact passesOn_decide (fun truth => ih _ _) value

@[simp]
theorem passesOn_every (node : NodeId) (function : Val)
    (items : List Val) (allowed : ∀ item ∈ items, Allowed function [item]) :
    (every node function items allowed).PassesOn := by
  induction items with
  | nil => exact passesOn_done _
  | cons item rest ih =>
    refine ⟨fun value raised => decide_of_isException raised, fun value _ => ?_⟩
    refine passesOn_decide (fun truth => ?_) value
    cases truth with
    | true => exact ih _
    | false => exact passesOn_done _

@[simp]
theorem passesOn_fold (function total : Val) (items : List Val)
    (allowed : ∀ total, ∀ item ∈ items, Allowed function [total, item]) :
    (fold function total items allowed).PassesOn := by
  induction items generalizing total with
  | nil => exact passesOn_done _
  | cons item rest ih =>
    refine ⟨fun value raised => if_pos raised, fun value calm => ?_⟩
    simp only [calm, Bool.false_eq_true, if_false]
    exact ih _ _

end Plan

namespace Native

/-- A native function whose plans end with the first exception. -/
def Body.PassesOn (body : Body) : Prop :=
  ∀ node receiver args, (body.plan node receiver args).PassesOn

@[simp]
theorem Body.passesOn_nullary
    {plan : (node : NodeId) → (receiver : Val) → Plan (receiver.Within [])} :
    (nullary plan).PassesOn ↔ ∀ node receiver, (plan node receiver).PassesOn := by
  refine ⟨fun passes node receiver => passes node receiver [], fun passes node receiver args => ?_⟩
  rcases args with _ | ⟨first, rest⟩
  · exact passes node receiver
  · exact Plan.passesOn_done _

@[simp]
theorem Body.passesOn_unary
    {plan : (node : NodeId) → (receiver input : Val) → Plan (receiver.Within [input])} :
    (unary plan).PassesOn ↔ ∀ node receiver input, (plan node receiver input).PassesOn := by
  refine ⟨fun passes node receiver input => passes node receiver [input],
    fun passes node receiver args => ?_⟩
  rcases args with _ | ⟨first, _ | ⟨second, rest⟩⟩
  · exact Plan.passesOn_done _
  · exact passes node receiver first
  · exact Plan.passesOn_done _

@[simp]
theorem Body.passesOn_binary
    {plan : (node : NodeId) → (receiver first second : Val) →
      Plan (receiver.Within [first, second])} :
    (binary plan).PassesOn ↔
      ∀ node receiver first second, (plan node receiver first second).PassesOn := by
  refine ⟨fun passes node receiver first second => passes node receiver [first, second],
    fun passes node receiver args => ?_⟩
  rcases args with _ | ⟨first, _ | ⟨second, _ | ⟨third, rest⟩⟩⟩
  · exact Plan.passesOn_done _
  · exact Plan.passesOn_done _
  · exact passes node receiver first second
  · exact Plan.passesOn_done _

section

variable (node : NodeId)

theorem passesOn_translateList (receiver function : Val) :
    (translateList node receiver function).PassesOn := by
  unfold translateList
  split <;> simp

theorem passesOn_filterList (receiver function : Val) :
    (filterList node receiver function).PassesOn := by
  unfold filterList
  split <;> simp

theorem passesOn_everyItem (receiver function : Val) :
    (everyItem node receiver function).PassesOn := by
  unfold everyItem
  split <;> simp

theorem passesOn_combineList (receiver initial function : Val) :
    (combineList node receiver initial function).PassesOn := by
  unfold combineList
  split <;> simp

variable (receiver function : Val)

theorem passesOn_filterSet : (filterSet node receiver function).PassesOn := by
  unfold filterSet
  split <;> simp

theorem passesOn_filterMap : (filterMap node receiver function).PassesOn := by
  unfold filterMap
  split <;> simp

theorem passesOn_translateMap : (translateMap node receiver function).PassesOn := by
  unfold translateMap
  split <;> simp

end

/-- Every native function passes exceptions of its calls on. -/
theorem passesOn_functions (kind : Kind) :
    ∀ function ∈ (suite kind).functions, function.body.PassesOn := by
  cases kind with
  | boolean => simp [suite, equality, truthFunctions, simple, operator]
  | number => simp [suite, equality, numberFunctions, simple, operator]
  | text => simp [suite, equality, textFunctions, simple, operator]
  | list =>
    simp [suite, equality, listFunctions, simple, operator, passesOn_translateList,
      passesOn_filterList, passesOn_everyItem, passesOn_combineList]
  | set => simp [suite, equality, setFunctions, simple, operator, passesOn_filterSet]
  | map =>
    simp [suite, equality, mapFunctions, simple, operator, passesOn_filterMap,
      passesOn_translateMap]
  | record | function | exception => simp [suite, equality, operator]

end Native

end Reactor

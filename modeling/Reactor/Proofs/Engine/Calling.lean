import Reactor.Proofs.Engine.Log
import Reactor.Proofs.Native.Passing
import Reactor.Proofs.Native.Weaving

/-!
# The course of calls

A call may lead to a native that calls functions itself, and to natives among these.  What holds of all
calls is proved along this course: for the plan of a native, for the native, for the call of a value, and
for the calls that natives make, which get smaller.  `Calling` lists what is asked of the single steps,
and `Calling.gives_combine` is the whole course.

Evaluation may be compared with another evaluation, so there are two actions at each place; the log is
that of the first.  What is known of values may change in the course of a call, as does the world in
which they are looked at.
-/

namespace Reactor

/-- Nodes that combine their operands by calling a function. -/
def Node.calls : Node → Bool
  | .call .. | .binary .. | .unary .. => true
  | _ => false

theorem Native.ordinary_of_lookup {kind : Kind} {name : String} {arity : Nat} {cause : Cause}
    (refused : lookup kind name arity = .error cause) : cause.tellsCycle = false := by
  simp only [lookup] at refused
  split at refused
  · cases refused
    rfl
  · split at refused
    · cases refused
    · cases refused
      rfl

/-- What a native does when its plan is carried out: a defect that waits is reported. -/
def Action.reported (value : Val) : Action Outcome := do
  match ← takeDefect with
  | some defect => throw defect
  | none => return .complete value

/-- What is asked of the steps of a call, given how bodies are evaluated. -/
structure Calling
    (evaluate twin : NodeId → Env → Action Val) (evaluated : NodeId → Env → Log)
    (waiting : List Machine) (node : NodeId) where
  World : Type
  Later : World → World → Prop
  /-- What is known of values in a world. -/
  Good : World → Val → Prop
  /-- What holds of two actions that come to an outcome, and of the log. -/
  Gives : World → Action Outcome → Action Outcome → Log → Prop
  /-- What holds of two calls that a native makes. -/
  Answers : World → Action Val → Action Val → Log → Prop
  now : ∀ world, Later world world
  after : ∀ {first second third}, Later first second → Later second third → Later first third
  stays : ∀ {world later value}, Later world later → Good world value → Good later value
  size : Nat
  inside : node < size
  fabric : ∀ world, Val.Fabric size (Good world)
  owner : ∀ {world receiver name}, Good world (.native receiver name) → Good world receiver
  method : ∀ {world definition fields name function}, Good world (.record definition fields) →
    definition.function? name = some function →
      Good world (.method (.record definition fields) function)
  construct : ∀ {world definition} {args : List Val}, Good world (.constructor definition) →
    definition.fields.length = args.length → (∀ arg ∈ args, Good world arg) →
      Good world (.record definition args)
  enterClosure : ∀ {world function} {args : List Val}, Good world (.closure function) →
    (∀ arg ∈ args, Good world arg) →
      Gives world (.enter function none args node) (.enter function none args node) .silent
  enterMethod : ∀ {world receiver function} {args : List Val},
    Good world (.method receiver function) → (∀ arg ∈ args, Good world arg) →
      Gives world (.enter function (some receiver) args node)
        (.enter function (some receiver) args node) .silent
  complete : ∀ {world value}, Good world value →
    Gives world (pure (.complete value)) (pure (.complete value)) .silent
  done : ∀ {world value}, Good world value → Answers world (pure value) (pure value) .silent
  /-- One call after the other.  Behind an exception there is none. -/
  chain : ∀ {world} {action beside : Action Val} {log : Log}
    {next other : Val → Action Val} {logged : Val → Log}, Answers world action beside log →
    (∀ value : Val, value.isException = true →
      next value = pure value ∧ other value = pure value ∧ logged value = .silent) →
    (∀ later value, Later world later → Good later value →
      Answers later (next value) (other value) (logged value)) →
      Answers world (action >>= next) (beside >>= other)
        fun run => log run ++ action.behind logged run
  report : ∀ {world} {action beside : Action Val} {log : Log}, Answers world action beside log →
    Gives world (action >>= Action.reported) (beside >>= Action.reported) log
  answer : ∀ {world function} {args : List Val} {log}, Good world function →
    (∀ arg ∈ args, Good world arg) →
    Gives world (.invoke evaluate node function args) (.invoke twin node function args) log →
      Answers world (.apply evaluate node function args) (.apply twin node function args) fun run =>
        .called waiting function args ::
          (log run ++
            (Action.invoke evaluate node function args).behind (Action.outcomeLog evaluated) run)

namespace Calling

open Reactor.Action

variable {evaluate twin : Evaluation} {evaluated : NodeId → Env → Log}
  {waiting : List Machine} {node : NodeId} (calling : Calling evaluate twin evaluated waiting node)
  {world : calling.World}

/-- Calls that natives make are answered, each in the world in which it is made. -/
def AnswersAll
    {Allowed : Val → List Val → Prop}
    (apply beside : (function : Val) → (args : List Val) → Allowed function args → Action Val)
    (applied : (function : Val) → (args : List Val) → Allowed function args → Log) : Prop :=
  ∀ world function args allowed, calling.Good world function →
    (∀ arg ∈ args, calling.Good world arg) →
      calling.Answers world (apply function args allowed) (beside function args allowed)
        (applied function args allowed)

theorem weave :
    Val.Weave calling.size calling.Later fun world => Val.Selves (calling.Good world) :=
  Val.Fabric.weave calling.now calling.after calling.stays calling.fabric

variable {calling}

theorem failure {cause : Cause} (ordinary : cause.tellsCycle = false) :
    calling.Gives world (pure (.failure cause node)) (pure (.failure cause node)) .silent :=
  calling.complete ((calling.fabric world).ordinary cause node ordinary calling.inside)

theorem answers_planRun {Allowed : Val → List Val → Prop}
    {apply beside : (function : Val) → (args : List Val) → Allowed function args → Action Val}
    {applied : (function : Val) → (args : List Val) → Allowed function args → Log}
    (answers : calling.AnswersAll apply beside applied)
    {plan : Plan Allowed} (passes : plan.PassesOn)
    (woven : plan.Woven calling.Later (fun world => Val.Selves (calling.Good world)) world plan) :
    calling.Answers world (plan.run apply) (plan.run beside) (plan.log apply applied) := by
  induction plan generalizing world with
  | done value =>
    cases woven with | done alike => exact calling.done alike.2
  | call function args allowed resume ih =>
    cases woven with | call callable inputs resumed => ?_
    refine calling.chain (answers world function args allowed callable.2
      (Val.forall₂_selves.mp inputs).2) ?_ ?_
    · intro value raised
      rw [passes.1 value raised]
      exact ⟨rfl, rfl, rfl⟩
    · intro later value grown good
      refine ih value ?_ (resumed later grown value value ⟨rfl, good⟩)
      cases raised : value.isException with
      | true =>
        rw [passes.1 value raised]
        exact Plan.passesOn_done value
      | false => exact passes.2 value raised

variable {args : List Val}

theorem gives_callNative {receiver : Val} (good : calling.Good world receiver) (name : String)
    (goodArgs : ∀ arg ∈ args, calling.Good world arg)
    {apply beside : (function : Val) → (inputs : List Val) →
      receiver.Within args function inputs → Action Val}
    {applied : (function : Val) → (inputs : List Val) → receiver.Within args function inputs → Log}
    (answers : calling.AnswersAll apply beside applied) :
    calling.Gives world (callNative node receiver name args apply)
      (callNative node receiver name args beside)
      (callNativeLog node receiver name args apply applied) := by
  unfold callNative callNativeLog
  cases found : Native.lookup receiver.kind name args.length with
  | error cause => exact failure (Native.ordinary_of_lookup found)
  | ok function =>
    have passes := Native.passesOn_functions _ function (Native.of_lookup found).1
    refine calling.report (answers_planRun answers (passes node receiver args) ?_)
    exact Native.woven_functions calling.weave _ function (Native.of_lookup found).1 world node _ _ _ _
      calling.inside ⟨rfl, good⟩ (Val.forall₂_selves.mpr ⟨rfl, goodArgs⟩)

theorem gives_invokeWith {callee : Val} (good : calling.Good world callee)
    (goodArgs : ∀ arg ∈ args, calling.Good world arg)
    {apply beside : (function : Val) → (inputs : List Val) →
      function.weight inputs < callee.weight args → Action Val}
    {applied : (function : Val) → (inputs : List Val) →
      function.weight inputs < callee.weight args → Log}
    (answers : calling.AnswersAll apply beside applied) :
    calling.Gives world (invokeWith node callee args apply) (invokeWith node callee args beside)
      (invokeLogWith node callee args apply applied) := by
  cases callee with
  | closure function => exact calling.enterClosure good goodArgs
  | method receiver function => exact calling.enterMethod good goodArgs
  | native receiver name =>
    exact gives_callNative (calling.owner good) name goodArgs fun world function inputs _ =>
      answers world function inputs _
  | «constructor» definition =>
    dsimp only [invokeWith, invokeLogWith]
    split
    · next counted => exact calling.complete (calling.construct good counted goodArgs)
    · exact failure rfl
  | conversion kind =>
    rcases args with _ | ⟨only, _ | ⟨second, rest⟩⟩
    · exact failure rfl
    · dsimp only [invokeWith, invokeLogWith]
      cases found : (Native.suite kind).conversion with
      | some convert =>
        exact calling.complete (Native.woven_conversion calling.weave found calling.inside
          ⟨rfl, goodArgs only List.mem_cons_self⟩).2
      | none => exact failure rfl
    · exact failure rfl
  | bool _ | num _ | text _ | list _ | set _ | map _ | record _ _ | exception _ _ =>
    exact failure rfl

/-- Calls of natives by natives get smaller, which is what the induction is on. -/
theorem answers_apply (world : calling.World) {function : Val} (good : calling.Good world function)
    {args : List Val} (goodArgs : ∀ arg ∈ args, calling.Good world arg) :
    calling.Answers world (apply evaluate node function args) (apply twin node function args)
      (applyLog evaluate evaluated waiting node function args) := by
  rw [show applyLog evaluate evaluated waiting node function args = _ from
    funext fun run => by rw [applyLog]]
  refine calling.answer good goodArgs (gives_invokeWith good goodArgs ?_)
  intro world other inputs smaller goodOther goodInputs
  exact answers_apply world goodOther goodInputs
termination_by function.weight args

theorem gives_invoke (world : calling.World) {callee : Val} (good : calling.Good world callee)
    (goodArgs : ∀ arg ∈ args, calling.Good world arg) :
    calling.Gives world (invoke evaluate node callee args) (invoke twin node callee args)
      (invokeLog evaluate evaluated waiting node callee args) :=
  gives_invokeWith good goodArgs fun world _ _ _ callable inputs => answers_apply world callable inputs

theorem gives_dispatch
    (world : calling.World) {receiver : Val} (good : calling.Good world receiver) (op : String)
    (goodArgs : ∀ arg ∈ args, calling.Good world arg) :
    calling.Gives world (dispatch evaluate node receiver op args)
      (dispatch twin node receiver op args)
      (dispatchLog evaluate evaluated waiting node receiver op args) := by
  have native := gives_callNative good op goodArgs
    (show calling.AnswersAll (fun function inputs _ => apply evaluate node function inputs)
        (fun function inputs _ => apply twin node function inputs)
        (fun function inputs _ => applyLog evaluate evaluated waiting node function inputs) from
      fun world _ _ _ callable inputs => answers_apply world callable inputs)
  cases receiver with
  | record definition fields =>
    dsimp only [dispatch, dispatchLog]
    cases found : definition.function? op with
    | some function => exact calling.enterMethod (calling.method good found) goodArgs
    | none => exact native
  | _ => exact native

theorem gives_combine (world : calling.World) {setup : Setup} {operator : Node}
    {values : List Val} (good : ∀ value ∈ values, calling.Good world value) (env : Env)
    (simple : operator.calls = false →
      calling.Gives world (combine setup evaluate node operator values env)
        (combine setup twin node operator values env) .silent)
    (missing : values.length ≠ operator.operands.length →
      calling.Gives world (throw (.missingOperands node)) (throw (.missingOperands node)) .silent) :
    calling.Gives world (combine setup evaluate node operator values env)
      (combine setup twin node operator values env)
      (combineLog evaluate evaluated waiting node operator values) := by
  cases operator with
  | call callee args =>
    cases values with
    | nil => exact missing (by simp [Node.operands])
    | cons first rest =>
      obtain ⟨goodCallee, goodArgs⟩ := List.forall_mem_cons.mp good
      exact gives_invoke world goodCallee goodArgs
  | binary left op right =>
    rcases values with _ | ⟨first, _ | ⟨second, _ | ⟨third, rest⟩⟩⟩
    · exact missing (by simp [Node.operands])
    · exact missing (by simp [Node.operands])
    · exact gives_dispatch world (good first (by simp)) op (by simpa using good second (by simp))
    · exact missing (by simp [Node.operands])
  | unary op operand =>
    simp only [combine, combineLog, lastOperand]
    cases last : values.getLast? with
    | some receiver => exact gives_dispatch world (good receiver (List.mem_of_getLast? last)) op (by simp)
    | none =>
      rw [List.getLast?_eq_none_iff] at last
      exact missing (by simp [last, Node.operands])
  | _ => exact simple rfl

/-! ### Calls where nothing is asked of values -/

/-- What is asked of the steps of a call if nothing is asked of values. -/
structure Plain
    (evaluate : NodeId → Env → Action Val) (evaluated : NodeId → Env → Log) (waiting : List Machine)
    (node : NodeId) where
  Gives : Action Outcome → Log → Prop
  Answers : Action Val → Log → Prop
  enter : ∀ function receiver args, Gives (.enter function receiver args node) .silent
  complete : ∀ value, Gives (pure (.complete value)) .silent
  done : ∀ value, Answers (pure value) .silent
  chain : ∀ {action : Action Val} {log : Log} {next : Val → Action Val} {logged : Val → Log},
    Answers action log →
    (∀ value : Val, value.isException = true → next value = pure value ∧ logged value = .silent) →
    (∀ value, Answers (next value) (logged value)) →
      Answers (action >>= next) fun run => log run ++ action.behind logged run
  report : ∀ {action : Action Val} {log : Log}, Answers action log →
    Gives (action >>= Action.reported) log
  answer : ∀ {function args log}, Gives (.invoke evaluate node function args) log →
    Answers (.apply evaluate node function args) fun run =>
      .called waiting function args ::
        (log run ++
          (Action.invoke evaluate node function args).behind (Action.outcomeLog evaluated) run)

def Plain.toCalling (plain : Plain evaluate evaluated waiting node) :
    Calling evaluate evaluate evaluated waiting node where
  World := Unit
  Later _ _ := True
  Good _ _ := True
  Gives _ action _ log := plain.Gives action log
  Answers _ action _ log := plain.Answers action log
  now _ := trivial
  after _ _ := trivial
  stays _ _ := trivial
  size := node + 1
  inside := Nat.lt_succ_self node
  fabric _ := .ofTrue _
  owner _ := trivial
  method _ _ := trivial
  construct _ _ _ := trivial
  enterClosure _ _ := plain.enter _ _ _
  enterMethod _ _ := plain.enter _ _ _
  complete _ := plain.complete _
  done _ := plain.done _
  chain first passes rest := plain.chain first
    (fun value raised => ⟨(passes value raised).1, (passes value raised).2.2⟩)
    fun value => rest () value trivial trivial
  report := plain.report
  answer _ _ gives := plain.answer gives

theorem Plain.gives_combine
    (plain : Plain evaluate evaluated waiting node) {setup : Setup} (operator : Node)
    (values : List Val) (env : Env)
    (simple : operator.calls = false →
      plain.Gives (combine setup evaluate node operator values env) .silent)
    (missing : plain.Gives (throw (.missingOperands node)) .silent) :
    plain.Gives (combine setup evaluate node operator values env)
      (combineLog evaluate evaluated waiting node operator values) :=
  plain.toCalling.gives_combine () (fun _ _ => trivial) env simple fun _ => missing

end Calling

end Reactor

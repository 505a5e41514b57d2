import Reactor.Proofs.Engine.Calling
import Reactor.Proofs.Program.Inside
import Reactor.Proofs.Tallies

/-!
# What evaluation asks of runs and values

Whatever holds of evaluation is proved along its course, from the single changes of a run up to whole
passes.  This is done once, for a relation between runs, a property of values and a property of the
scopes in which nodes are evaluated.  `Manner` lists what is asked for names, streams and data, and
`Conduct` for scopes and functions; two further lists are about reactions and defects.

The main result of this module is that combining operands tallies, provided that evaluating a node does:
`Action.tallies_combine`.
-/

namespace Reactor

open List

/-- A value with a property, or a body in scopes in which it may be evaluated. -/
def Outcome.Fares (Good : Val → Prop) (Enters : NodeId → Env → Prop) : Outcome → Prop
  | complete value => Good value
  | enter body env => Enters body env

/-- The parts of a node may be evaluated where the node is, and the functions that it makes there have a
property. -/
structure Node.Fares
    (Good : Val → Prop) (Enters : NodeId → Env → Prop) (env : Env) (node : Node) : Prop where
  child : ∀ child ∈ node.children, Enters child env
  makes : ∀ body ∈ node.bodies, ∀ identity name params,
    Good (.closure ⟨identity, name, params, body, env⟩)

/-- What is asked for names, streams and data. -/
structure Manner
    (R : Run → Run → Prop) (Good : Val → Prop) (Enters : NodeId → Env → Prop) : Prop where
  fabric : ∀ {id env}, Enters id env → Val.Fabric (id + 1) Good
  defines : ∀ {id env definition}, Enters id env → definition.env = env →
    (∀ function ∈ definition.functions, Good (.closure function)) → Good (.constructor definition)
  access : ∀ {id env subject} name, Enters id env → Good subject → Good (subject.access name id)
  /-- Related runs differ in streams, reactions and the count of machines only. -/
  same : ∀ {run twin : Run}, R run twin → twin =
    { run with streams := twin.streams, reactions := twin.reactions, nesting := twin.nesting }
  lookup : ∀ {run twin : Run} {id env name value}, Enters id env → R run twin →
    run.scopes.lookup? env name = some value → Good value
  define : ∀ {run twin : Run} {id env value} name, Enters id env → Good value → R run twin →
    R { run with scopes := run.scopes.define env name value }
      { twin with scopes := twin.scopes.define env name value }
  identity : ∀ {run twin : Run}, R run twin →
    R { run with serial := run.serial + 1 } { twin with serial := twin.serial + 1 }
  /-- A stream is missing in both runs, or it comes into being in both with the same newest value. -/
  provide : ∀ {run twin : Run} (name : String), R run twin →
    run.streams.ensure? name = none ∧ twin.streams.ensure? name = none ∨
      ∃ streams others,
        run.streams.ensure? name = some streams ∧ twin.streams.ensure? name = some others ∧
          others.latest? name = streams.latest? name ∧
          R { run with streams } { twin with streams := others }
  latest : ∀ {run twin : Run} {name value}, R run twin →
    run.streams.latest? name = some value → Good value
  changed : ∀ {run twin : Run}, R run twin → twin.streams.changed = run.streams.changed

/-- What is asked for scopes and functions. -/
structure Conduct
    (program : Program) (R : Run → Run → Prop) (Good : Val → Prop)
    (Enters : NodeId → Env → Prop) : Prop extends Manner R Good Enters where
  node : ∀ {id env node}, Enters id env → program.node? id = some node → node.Fares Good Enters env
  /-- The body of a function is evaluated in a scope inside the one of the function. -/
  openBody : ∀ {run twin : Run} {function}, Good (.closure function) → R run twin →
    R { run with scopes := (run.scopes.child function.env).2 }
        { twin with scopes := (twin.scopes.child function.env).2 } ∧
      Enters function.body (run.scopes.child function.env).1
  owner : ∀ {receiver name}, Good (.native receiver name) → Good receiver
  bound : ∀ {receiver function}, Good (.method receiver function) →
    Good receiver ∧ Good (.closure function)
  method : ∀ {definition fields name function}, Good (.record definition fields) →
    definition.function? name = some function → Good (.method (.record definition fields) function)
  construct : ∀ {definition} {args : List Val}, Good (.constructor definition) →
    definition.fields.length = args.length → (∀ arg ∈ args, Good arg) →
      Good (.record definition args)
  fields : ∀ {receiver : Val}, Good receiver → ∀ entry ∈ receiver.visibleFields, Good entry.2
  cycle : ∀ {id env} source, Enters id env → Good (.failure (.cyclicBorrow source) id)
  openRoot : ∀ {run twin : Run}, R run twin →
    R { run with scopes := run.scopes.root.2 } { twin with scopes := twin.scopes.root.2 } ∧
      ∀ root < program.nodes.size, Enters root run.scopes.root.1
  openChild : ∀ {run twin : Run} {id env}, Enters id env → R run twin →
    R { run with scopes := (run.scopes.child env).2 }
        { twin with scopes := (twin.scopes.child env).2 } ∧
      Enters id (run.scopes.child env).1
  record : ∀ {run twin : Run} {value} node, Good value → R run twin →
    R { run with nodeValues := run.nodeValues.insert node value }
      { twin with nodeValues := twin.nodeValues.insert node value }
  borrowed : ∀ {run twin : Run} {source value}, R run twin →
    run.borrowed.get? source = some value → Good value
  borrow : ∀ {run twin : Run} names, R run twin →
    R { run with borrowing := names } { twin with borrowing := names }

/-- What is asked for defects in calls and for the ends of sources. -/
structure Run.Reports (fails : Prop) (R : Run → Run → Prop) (Good : Val → Prop) : Prop where
  take : ∀ {run twin : Run}, R run twin →
    R { run with defect := none } { twin with defect := none } ∧ (fails ∨ run.defect = none)
  keep : ∀ {run twin : Run} defect, fails → R run twin → R { run with defect } { twin with defect }
  lend : ∀ {run twin : Run} {value} source, Good value → R run twin →
    R { run with
        borrowed := run.borrowed.define source value
        sourceResults := run.sourceResults.define source value }
      { twin with
        borrowed := twin.borrowed.define source value
        sourceResults := twin.sourceResults.define source value }

theorem Action.good_pairUp
    {Good : Val → Prop} {values : List Val} (good : ∀ value ∈ values, Good value) :
    ∀ entry ∈ pairUp values, Good entry.1 ∧ Good entry.2 := by
  fun_induction pairUp values with
  | case1 key value rest ih =>
    obtain ⟨goodKey, goodOthers⟩ := forall_mem_cons.mp good
    obtain ⟨goodValue, goodRest⟩ := forall_mem_cons.mp goodOthers
    exact forall_mem_cons.mpr ⟨⟨goodKey, goodValue⟩, ih goodRest⟩
  | case2 => simp

/-! ### Names, streams and data -/

variable {fails : Prop} {R : Run → Run → Prop} {Good : Val → Prop} {Enters : NodeId → Env → Prop}

section

variable (manner : Manner R Good Enters) {run twin : Run} (related : R run twin)
include manner related

theorem Manner.scopes : twin.scopes = run.scopes := by
  rw [manner.same related]

theorem Manner.parts :
    ∃ streams reactions nesting, twin = { run with streams, reactions, nesting } :=
  ⟨twin.streams, twin.reactions, twin.nesting, manner.same related⟩

end

theorem Manner.failure
    (manner : Manner R Good Enters) {id : NodeId} {env : Env} (entered : Enters id env)
    {cause : Cause} (ordinary : cause.tellsCycle = false) :
    Good (.failure cause id) :=
  (manner.fabric entered).ordinary cause id ordinary (Nat.lt_succ_self id)

namespace Action

section Simple

variable (manner : Manner R Good Enters) {id : NodeId} {env : Env} (entered : Enters id env)
include manner

include entered in
theorem tallies_define {value : Val} (good : Good value) (name : String) :
    Tallies fails R (define env name value) (define env name value) fun _ => True :=
  tallies_modify fun _ _ related => manner.define name entered good related

include entered in
theorem tallies_lookup? (name : String) :
    Tallies fails R (lookup? env name) (lookup? env name) fun found =>
      ∀ value, found = some value → Good value := by
  refine tallies_of_get fun run twin related => ?_
  rw [manner.scopes related]
  exact ⟨rfl, related, fun _ => manner.lookup entered related⟩

theorem tallies_freshIdentity :
    Tallies fails R freshIdentity freshIdentity fun _ => True := by
  refine tallies_modifyGet fun run twin related => ⟨?_, manner.identity related, trivial⟩
  rw [manner.same related]

/-- What follows an attempt to make a stream available sees the same newest value of it. -/
theorem tallies_ensureStream_bind
    {α : Type} {promise : α → Prop} (name : String) {next : Bool → Action α}
    (found : ∀ run twin, R run twin → twin.streams.latest? name = run.streams.latest? name →
      Tally fails R promise (next true run) (next true twin))
    (missing : Tallies fails R (next false) (next false) promise) :
    Tallies fails R (ensureStream name >>= next) (ensureStream name >>= next) promise := by
  intro run twin related
  rcases manner.provide name related with ⟨absent, twinAbsent⟩ |
    ⟨streams, others, present, twinPresent, latest, still⟩
  · simp only [Bind.bind, EStateM.bind, ensureStream, modifyGet_apply, absent, twinAbsent]
    exact missing run twin related
  · simp only [Bind.bind, EStateM.bind, ensureStream, modifyGet_apply, present, twinPresent]
    exact found _ _ still latest

theorem tallies_ensureStream (name : String) :
    Tallies fails R (ensureStream name) (ensureStream name) fun _ => True := by
  rw [← bind_pure (ensureStream name)]
  exact tallies_ensureStream_bind manner name (fun _ _ related _ => ⟨rfl, related, trivial⟩)
    (tallies_pure trivial)

include entered in
theorem tallies_readStream (name : String) :
    Tallies fails R (readStream name id) (readStream name id) Good := by
  refine tallies_ensureStream_bind manner name ?_ (tallies_pure (manner.failure entered rfl))
  intro run twin related latest
  simp only [if_true, Bind.bind, EStateM.bind, get_apply, latest]
  cases newest : run.streams.latest? name with
  | some value => exact ⟨rfl, related, manner.latest related newest⟩
  | none => exact ⟨rfl, related, manner.failure entered rfl⟩

include entered in
theorem tallies_streamChanged {setup : Setup} (stream : NodeId) :
    Tallies fails R (streamChanged setup stream id) (streamChanged setup stream id) Good := by
  unfold streamChanged
  split
  · refine (tallies_ensureStream manner _).bind fun there _ => ?_
    split
    · refine tallies_of_get fun run twin related => ?_
      simp only [Streams.hasChanged, manner.changed related]
      exact ⟨rfl, related, (manner.fabric entered).bool _⟩
    · exact tallies_pure (manner.failure entered rfl)
  · exact tallies_pure (manner.failure entered rfl)

include entered in
theorem tallies_resolve (name : String) :
    Tallies fails R (resolve name id env) (resolve name id env) Good := by
  refine (tallies_lookup? manner entered name).bind fun found good => ?_
  split
  · exact tallies_pure (good _ rfl)
  · split
    · exact tallies_pure ((manner.fabric entered).conversion _)
    · exact tallies_pure (manner.failure entered rfl)

theorem tallies_makeClosure {body : NodeId}
    (makes : ∀ identity name params, Good (.closure ⟨identity, name, params, body, env⟩))
    (name : Option String) (params : List String) :
    Tallies fails R (makeClosure name params body env) (makeClosure name params body env)
      fun function => Good (.closure function) :=
  (tallies_freshIdentity manner).bind fun _ _ => tallies_pure (makes _ _ _)

theorem tallies_makeFunctions {functions : List (Signature × NodeId)}
    (makes : ∀ body ∈ functions.map (·.2), ∀ identity name params,
      Good (.closure ⟨identity, name, params, body, env⟩)) :
    Tallies fails R (makeFunctions env functions) (makeFunctions env functions) fun made =>
      ∀ function ∈ made, Good (.closure function) := by
  induction functions with
  | nil => exact tallies_pure (forall_mem_nil _)
  | cons first rest ih =>
    obtain ⟨here, others⟩ := forall_mem_cons.mp makes
    refine (tallies_makeClosure manner here _ _).bind fun function good => ?_
    refine (ih others).bind fun made goodMade => tallies_pure ?_
    exact forall_mem_cons.mpr ⟨good, goodMade⟩

include entered in
theorem tallies_makeFunction {body : NodeId}
    (makes : ∀ identity name params, Good (.closure ⟨identity, name, params, body, env⟩))
    (name : Option String) (params : List String) :
    Tallies fails R (makeFunction name params body env) (makeFunction name params body env)
      Good := by
  refine (tallies_makeClosure manner makes name params).bind fun function good => ?_
  cases name with
  | none => exact tallies_pure good
  | some word =>
    exact (tallies_define manner entered good word).bind fun _ _ => tallies_pure good

include entered in
theorem tallies_makeRecord {functions : List (Signature × NodeId)}
    (makes : ∀ body ∈ functions.map (·.2), ∀ identity name params,
      Good (.closure ⟨identity, name, params, body, env⟩))
    (name : String) (fields : List String) :
    Tallies fails R (makeRecord name fields functions env) (makeRecord name fields functions env)
      Good := by
  refine (tallies_makeFunctions manner makes).bind fun made good => ?_
  refine (tallies_freshIdentity manner).bind fun identity _ => ?_
  have defined : Good (.constructor ⟨identity, name, fields, made, env⟩) :=
    manner.defines entered rfl good
  exact (tallies_define manner entered defined name).bind fun _ _ => tallies_pure defined

omit manner in
theorem tallies_lastOperand
    {values : List Val} (doubt : fails ∨ values ≠ []) (good : ∀ value ∈ values, Good value) :
    Tallies fails R (lastOperand id values) (lastOperand id values) Good := by
  unfold lastOperand
  split
  · next value last => exact tallies_pure (good value (mem_of_getLast? last))
  · next none =>
    rcases doubt with allowed | some
    · exact tallies_throw allowed _
    · exact absurd (getLast?_eq_none_iff.mp none) some

include entered in
theorem tallies_combine_of_not_calls {setup : Setup} (evaluate twin : Evaluation) {node : Node}
    (simple : node.calls = false) (fares : node.Fares Good Enters env) {values : List Val}
    (doubt : fails ∨ node.ownsFrame = false ∧ values.length = node.operands.length)
    (good : ∀ value ∈ values, Good value) :
    Tallies fails R (combine setup evaluate id node values env)
      (combine setup twin id node values env) (Outcome.Fares Good Enters) := by
  have fabric := manner.fabric entered
  have last : node.operands ≠ [] →
      Tallies fails R (lastOperand id values) (lastOperand id values) Good := by
    refine fun some => tallies_lastOperand (doubt.imp_right fun counted none => some ?_) good
    exact eq_nil_of_length_eq_zero (by rw [← counted.2, none]; rfl)
  have answer : ∀ {action : Action Val}, Tallies fails R action action Good →
      Tallies fails R (do return .complete (← action)) (do return .complete (← action))
        (Outcome.Fares Good Enters) :=
    fun tallies => tallies.bind fun _ goodValue => tallies_pure goodValue
  cases node with
  | bool truth => exact tallies_pure (fabric.bool truth)
  | num value units => exact tallies_pure (fabric.num _)
  | text characters => exact tallies_pure (fabric.text characters)
  | list items => exact tallies_pure ((fabric.list_iff values).mpr good)
  | set items => exact tallies_pure (fabric.ofMembers good)
  | map entries => exact tallies_pure (fabric.ofEntries (good_pairUp good))
  | name word => exact answer (tallies_resolve manner entered word)
  | previous =>
    refine (tallies_lookup? manner entered ".").bind fun found goodFound => ?_
    split
    · exact tallies_pure (goodFound _ rfl)
    · exact tallies_pure (manner.failure entered rfl)
  | block statements =>
    simp only [combine]
    split
    · next value found => exact tallies_pure (good value (mem_of_getLast? found))
    · exact tallies_pure (manner.failure entered rfl)
  | bind word value =>
    refine (last (cons_ne_nil _ _)).bind fun value goodValue => ?_
    exact (tallies_define manner entered goodValue word).bind fun _ _ => tallies_pure goodValue
  | function word params body =>
    exact answer (tallies_makeFunction manner entered
      (fares.makes body (mem_singleton_self body)) word params)
  | record word fields functions =>
    exact answer (tallies_makeRecord manner entered fares.makes word fields)
  | call _ _ | binary _ _ _ | unary _ _ => cases simple
  | conditional condition yes no =>
    refine (last (cons_ne_nil _ _)).bind fun value _ => ?_
    split
    · next truth _ =>
      refine tallies_pure (fares.child _ ?_)
      cases truth <;> simp [Node.children]
    · exact tallies_pure (manner.failure entered rfl)
  | access subject word =>
    exact (last (cons_ne_nil _ _)).bind fun value goodValue =>
      tallies_pure (manner.access word entered goodValue)
  | is operand tag =>
    exact (last (cons_ne_nil _ _)).bind fun value _ => tallies_pure (fabric.bool _)
  | stream word => exact answer (tallies_readStream manner entered word)
  | changed stream => exact answer (tallies_streamChanged manner entered stream)
  | reaction _ _ _ _ | borrow _ _ =>
    rcases doubt with allowed | ⟨plain, -⟩
    · exact tallies_throw allowed _
    · cases plain

end Simple

/-! ### Calls -/

section Calls

variable {program : Program} (conduct : Conduct program R Good Enters)
include conduct

theorem tallies_openRoot :
    Tallies fails R openRoot openRoot fun env => ∀ root < program.nodes.size, Enters root env := by
  refine tallies_modifyGet fun run twin related => ⟨?_, conduct.openRoot related⟩
  rw [conduct.scopes related]

theorem tallies_openChild {id : NodeId} {env : Env} (entered : Enters id env) :
    Tallies fails R (openChild env) (openChild env) (Enters id) := by
  refine tallies_modifyGet fun run twin related => ⟨?_, conduct.openChild entered related⟩
  rw [conduct.scopes related]

theorem tallies_openBody {function : Closure} (good : Good (.closure function)) :
    Tallies fails R (openChild function.env) (openChild function.env) (Enters function.body) := by
  refine tallies_modifyGet fun run twin related => ⟨?_, conduct.openBody good related⟩
  rw [conduct.scopes related]

theorem tallies_defineAll
    {id : NodeId} {env : Env} (entered : Enters id env) {entries : List (String × Val)}
    (good : ∀ entry ∈ entries, Good entry.2) :
    Tallies fails R (defineAll env entries) (defineAll env entries) fun _ => True := by
  refine tallies_modify fun run twin related => ?_
  induction entries generalizing run twin with
  | nil => exact related
  | cons entry rest ih =>
    obtain ⟨here, others⟩ := forall_mem_cons.mp good
    exact ih others _ _ (conduct.define entry.1 entered here related)

theorem tallies_record {value : Val} (good : Good value) (node : NodeId) :
    Tallies fails R (record node value) (record node value) fun _ => True :=
  tallies_modify fun _ _ related => conduct.record node good related

theorem tallies_enter {node : NodeId} {env : Env} (entered : Enters node env)
    {function : Closure} (good : Good (.closure function))
    {receiver : Option Val} (goodReceiver : ∀ value ∈ receiver, Good value)
    {args : List Val} (goodArgs : ∀ arg ∈ args, Good arg) :
    Tallies fails R (enter function receiver args node) (enter function receiver args node)
      (Outcome.Fares Good Enters) := by
  simp only [enter]
  split
  · refine (tallies_openBody conduct good).bind fun env inside => ?_
    refine (tallies_defineAll conduct inside ?_).bind fun _ _ => tallies_pure inside
    refine forall_mem_append.mpr ⟨?_, ?_⟩
    · cases receiver with
      | none => exact forall_mem_nil _
      | some value => exact conduct.fields (goodReceiver value rfl)
    · exact fun entry mem => goodArgs entry.2 (of_mem_zip mem).2
  · exact tallies_pure (conduct.failure entered rfl)

variable (reports : Run.Reports fails R Good)
include reports

omit conduct in
theorem tallies_reported {value : Val} (good : Good value) (same : ∀ {run twin : Run}, R run twin →
      twin.defect = run.defect) :
    Tallies fails R (reported value) (reported value) (Outcome.Fares Good Enters) := by
  have taken : Tallies fails R takeDefect takeDefect fun waiting => fails ∨ waiting = none :=
    tallies_modifyGet fun run twin related => ⟨(same related).symm, reports.take related⟩
  refine taken.bind fun waiting doubt => ?_
  cases waiting with
  | none => exact tallies_pure good
  | some defect => exact tallies_throw (doubt.resolve_right nofun) defect

/-- Calls tally if the evaluation of bodies does. -/
def calling
    {evaluate twin : NodeId → Env → Action Val}
    (tallies : ∀ body env, Enters body env →
      Tallies fails R (evaluate body env) (twin body env) Good)
    (evaluated : NodeId → Env → Log) (waiting : List Machine)
    {node : NodeId} {env : Env} (entered : Enters node env) :
    Calling evaluate twin evaluated waiting node where
  World := Unit
  Later _ _ := True
  Good _ := Good
  Gives _ action beside _ := Tallies fails R action beside (Outcome.Fares Good Enters)
  Answers _ action beside _ := Tallies fails R action beside Good
  now _ := trivial
  after _ _ := trivial
  stays _ good := good
  size := node + 1
  inside := Nat.lt_succ_self node
  fabric _ := conduct.fabric entered
  owner := conduct.owner
  method := conduct.method
  construct := conduct.construct
  enterClosure good := tallies_enter conduct entered good (by simp)
  enterMethod good goodArgs := by
    refine tallies_enter conduct entered (conduct.bound good).2 ?_ goodArgs
    rintro _ ⟨⟩
    exact (conduct.bound good).1
  complete good := tallies_pure good
  done good := tallies_pure good
  chain first _ rest := first.bind fun value good => rest () value trivial good
  report answers := answers.bind fun _ good =>
    tallies_reported reports good fun related => by rw [conduct.same related]
  answer := by
    intro _ function args log _ _ gives
    rw [apply, apply]
    refine Tallies.bind (@tallies_attempt _ _ _ _ _ Good (gives.bind fun outcome fares => ?_))
      fun answer attempted => ?_
    · cases outcome with
      | complete value => exact tallies_pure fares
      | enter body env => exact tallies body env fares
    · cases answer with
      | ok value => exact tallies_pure (attempted.1 value rfl)
      | error defect =>
        have allowed := attempted.2 defect rfl
        refine Tallies.bind (tallies_modify fun run twin related => ?_) fun _ _ =>
          tallies_pure (conduct.failure entered rfl)
        rw [show twin.defect = run.defect by rw [conduct.same related]]
        exact reports.keep _ allowed related

theorem tallies_apply {evaluate twin : Evaluation} (tallies : ∀ body env, Enters body env →
      Tallies fails R (evaluate body env) (twin body env) Good)
    {node : NodeId} {env : Env} (entered : Enters node env) {function : Val} (good : Good function)
    {args : List Val} (goodArgs : ∀ arg ∈ args, Good arg) :
    Tallies fails R (apply evaluate node function args) (apply twin node function args) Good :=
  (calling conduct reports tallies (fun _ _ => .silent) [] entered).answers_apply () good goodArgs

theorem tallies_combine {setup : Setup} {evaluate twin : Evaluation}
    (tallies : ∀ body env, Enters body env →
      Tallies fails R (evaluate body env) (twin body env) Good)
    {id : NodeId} {env : Env} (entered : Enters id env) {node : Node}
    (fares : node.Fares Good Enters env) {values : List Val}
    (doubt : fails ∨ node.ownsFrame = false ∧ values.length = node.operands.length)
    (good : ∀ value ∈ values, Good value) :
    Tallies fails R (combine setup evaluate id node values env)
      (combine setup twin id node values env) (Outcome.Fares Good Enters) := by
  refine (calling conduct reports tallies (fun _ _ => .silent) [] entered).gives_combine
    () good env (fun simple => ?_) fun miscounted => ?_
  · exact tallies_combine_of_not_calls conduct.toManner entered evaluate twin simple fares doubt good
  · exact tallies_throw (doubt.resolve_right fun counted => miscounted counted.2) _

end Calls

end Action

end Reactor

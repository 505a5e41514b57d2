import Reactor.Proofs.Run.Parallel

/-!
# Calls in parallel runs

In parallel runs functions are called and operands are combined alike: `Action.tracks_combine`.  All
that concerns a single node goes on in lockstep.  A native function may call functions whose evaluation
fails in the first run.  Such a failure is kept until the native function has come to its end and is
reported then; up to there it takes the place of a value that leads on.
-/

namespace Reactor

variable {program : Program} {scene : Scene program} {pairing : Pairing}

/-! ### Parts of values -/

theorem Bindings.alike_zip (names : List String) {values others : List Val}
    (alike : List.Forall₂ (Val.Alike pairing) values others) :
    Bindings.Alike pairing (names.zip values) (names.zip others) := by
  unfold Bindings.Alike
  induction alike generalizing names with
  | nil => simp
  | cons first _ ih =>
    cases names with
    | nil => exact .nil
    | cons name names => exact .cons ⟨rfl, first⟩ (ih names)

namespace Val

variable {subject twin : Val}

theorem Alike.visibleFields (alike : subject.Alike pairing twin) :
    Bindings.Alike pairing subject.visibleFields twin.visibleFields := by
  cases alike with
  | record defined fields =>
    simp only [Val.visibleFields, defined.fields]
    exact Bindings.alike_zip _ fields
  | _ => exact .nil

theorem Alike.access (alike : subject.Alike pairing twin) (name : String) (node : NodeId) :
    (subject.access name node).Alike pairing (twin.access name node) := by
  have native : Alike pairing
      (if Native.has subject.kind name then .native subject name
        else .failure (.unknownField subject.ownerName name) node)
      (if Native.has twin.kind name then .native twin name
        else .failure (.unknownField twin.ownerName name) node) := by
    rw [alike.kind_eq, alike.ownerName_eq]
    split
    · exact .native name alike
    · exact alike_failure _ node
  cases alike with
  | @record definition other fields others defined values =>
    have found : Option.Rel (Alike pairing) (field? definition fields name)
        (field? other others name) := by
      simp only [field?, defined.fields]
      cases definition.fields.idxOf? name with
      | none => exact .none
      | some place => exact rel_getElem? values place
    have made := defined.function? name
    simp only [Val.access]
    generalize field? definition fields name = left, field? other others name = right at found
    generalize definition.function? name = function, other.function? name = functionTwin at made
    cases found with
    | some value => exact value
    | none =>
      cases made with
      | some function => exact .method (.record defined values) function
      | none => exact native
  | _ => exact native

end Val

theorem TypeTag.matchedBy_eq {value twin : Val} (alike : value.Alike pairing twin) (tag : TypeTag) :
    tag.matchedBy twin = tag.matchedBy value := by
  have kind := alike.kind_eq
  cases alike with
  | record defined _ => cases tag <;> simp [matchedBy, defined.name, Val.kind]
  | _ => cases tag <;> simp_all [matchedBy]

namespace Action

/-! ### Streams, names and functions -/

theorem readStream_eq (name : String) (node : NodeId) (run : Run) :
    readStream name node run =
      match run.streams.reading name with
      | some latest => .ok (latest.getD (.failure (.streamAbsent name) node))
          { run with streams := run.streams.ensured name }
      | none => .ok (.failure (.missingStream name) node) run := by
  cases reads : run.streams.reading name with
  | none =>
    simp only [readStream, bind, EStateM.bind, ensureStream_eq, reads]
    rfl
  | some latest =>
    simp only [readStream, bind, EStateM.bind, ensureStream_eq, reads, if_true, get_apply,
      (Streams.ensure?_of_reading reads).2]
    cases latest <;> rfl

theorem lockstep_readStream {name : String} (named : program.NamesStream name) (node : NodeId) :
    scene.Lockstep pairing Val.Alike (readStream name node) (readStream name node) := by
  intro run twin parallel
  simp only [Ensures, readStream_eq, (parallel.shows name named).1,
    (parallel.shows_twin name named).1]
  cases reading : scene.reading name with
  | none => exact parallel.reaches (Val.alike_failure _ node)
  | some latest =>
    refine parallel.reaches_ensured name ?_
    cases latest with
    | none => exact Val.alike_failure _ node
    | some value => exact (scene.reading_independent named reading).alike pairing

theorem streamChanged_eq {setup : Setup} {stream : NodeId} {name : String}
    (named : setup.program.node? stream = some (.stream name)) (node : NodeId) (run : Run) :
    streamChanged setup stream node run =
      match run.streams.reading name with
      | some _ => .ok (.bool (run.streams.hasChanged name))
          { run with streams := run.streams.ensured name }
      | none => .ok (.failure (.missingStream name) node) run := by
  cases reads : run.streams.reading name with
  | none =>
    simp only [streamChanged, named, bind, EStateM.bind, ensureStream_eq, reads]
    rfl
  | some latest =>
    simp only [streamChanged, named, bind, EStateM.bind, ensureStream_eq, reads, if_true,
      get_apply, Streams.hasChanged, Streams.changed_ensured]
    rfl

theorem lockstep_streamChanged
    {setup : Setup} {scene : Scene setup.program} (stream node : NodeId) :
    scene.Lockstep pairing Val.Alike (streamChanged setup stream node)
      (streamChanged setup stream node) := by
  cases present : setup.program.node? stream with
  | none =>
    simp only [streamChanged, present]
    exact Scene.lockstep_pure (Val.alike_failure _ node)
  | some found =>
    cases found with
    | stream name =>
      intro run twin parallel
      obtain ⟨reads, unchanged⟩ := parallel.shows name ⟨stream, present⟩
      obtain ⟨readsTwin, unchangedTwin⟩ := parallel.shows_twin name ⟨stream, present⟩
      simp only [Ensures, streamChanged_eq present, reads, readsTwin, unchanged, unchangedTwin]
      cases scene.reading name with
      | none => exact parallel.reaches (Val.alike_failure _ node)
      | some latest => exact parallel.reaches_ensured name (.bool false)
    | _ =>
      simp only [streamChanged, present]
      exact Scene.lockstep_pure (Val.alike_failure _ node)

variable {env other : Env}

section

variable (envs : Env.Alike pairing env other)
include envs

theorem lockstep_resolve (name : String) (node : NodeId) :
    scene.Lockstep pairing Val.Alike (resolve name node env) (resolve name node other) := by
  refine (lockstep_lookup? envs name).bind fun larger grown found foundTwin bound => ?_
  cases bound with
  | some value => exact Scene.lockstep_pure value
  | none =>
    dsimp only
    split
    · exact Scene.lockstep_pure (.conversion _)
    · exact Scene.lockstep_pure (Val.alike_failure _ node)

theorem lockstep_makeClosure (name : Option String) (params : List String) (body : NodeId) :
    scene.Lockstep pairing Closure.Alike (makeClosure name params body env)
      (makeClosure name params body other) :=
  lockstep_freshIdentity.bind fun _ grown _ _ identity =>
    Scene.lockstep_pure ⟨identity, rfl, rfl, rfl, envs.mono grown⟩

theorem lockstep_makeFunctions (functions : List (Signature × NodeId)) :
    scene.Lockstep pairing (fun large => List.Forall₂ (Closure.Alike large))
      (makeFunctions env functions) (makeFunctions other functions) := by
  induction functions generalizing pairing with
  | nil => exact Scene.lockstep_pure .nil
  | cons first rest ih =>
    refine (lockstep_makeClosure envs _ _ _).bind fun larger grown function twin made => ?_
    refine (ih (envs.mono grown)).bind fun largest more others twins madeOthers => ?_
    exact Scene.lockstep_pure (.cons (made.mono more) madeOthers)

theorem lockstep_makeFunction (name : Option String) (params : List String) (body : NodeId) :
    scene.Lockstep pairing Val.Alike (makeFunction name params body env)
      (makeFunction name params body other) := by
  refine (lockstep_makeClosure envs name params body).bind fun larger grown function twin made => ?_
  cases name with
  | none => exact Scene.lockstep_pure (.closure made)
  | some word =>
    refine (lockstep_define (envs.mono grown) word (.closure made)).bind fun _ more _ _ _ => ?_
    exact Scene.lockstep_pure (.closure (made.mono more))

theorem lockstep_makeRecord (name : String) (fields : List String)
    (functions : List (Signature × NodeId)) :
    scene.Lockstep pairing Val.Alike (makeRecord name fields functions env)
      (makeRecord name fields functions other) := by
  refine (lockstep_makeFunctions envs functions).bind fun larger grown made twins alike => ?_
  refine lockstep_freshIdentity.bind fun largest more identity twin same => ?_
  have defined : (Val.constructor ⟨identity, name, fields, made, env⟩).Alike largest
      (.constructor ⟨twin, name, fields, twins, other⟩) :=
    .constructor ⟨same, rfl, rfl, alike.imp fun _ _ function => function.mono more,
      envs.mono (grown.trans more)⟩
  refine (lockstep_define (envs.mono (grown.trans more)) name defined).bind fun _ further _ _ _ => ?_
  exact Scene.lockstep_pure (defined.mono further)

end

theorem lockstep_lastOperand
    {values others : List Val} (alike : List.Forall₂ (Val.Alike pairing) values others)
    (id : NodeId) :
    scene.Lockstep pairing Val.Alike (lastOperand id values) (lastOperand id others) := by
  have last := rel_getLast? alike
  unfold lastOperand
  generalize values.getLast? = left, others.getLast? = right at last
  cases last with
  | some value => exact Scene.lockstep_pure value
  | none => exact Scene.lockstep_throw _ _

theorem lockstep_enter {function other : Closure} (made : function.Alike pairing other)
    {receiver twin : Option Val} (receivers : Option.Rel (Val.Alike pairing) receiver twin)
    {args inputs : List Val} (alike : List.Forall₂ (Val.Alike pairing) args inputs)
    (node : NodeId) :
    scene.Lockstep pairing Outcome.Alike (enter function receiver args node)
      (enter other twin inputs node) := by
  simp only [enter, made.params, ← alike.length_eq]
  split
  · refine (lockstep_openChild made.env).bind fun larger grown env otherEnv envs => ?_
    have fields : Bindings.Alike pairing (receiver.elim [] Val.visibleFields)
        (twin.elim [] Val.visibleFields) := by
      cases receivers with
      | none => exact .nil
      | some value => exact value.visibleFields
    have entries : Bindings.Alike larger
        (receiver.elim [] Val.visibleFields ++ function.params.zip args)
        (twin.elim [] Val.visibleFields ++ function.params.zip inputs) :=
      List.rel_append (fields.mono grown) (Bindings.alike_zip _ (Val.Alike.mono_all alike grown))
    refine (lockstep_defineAll envs entries).bind fun largest more _ _ _ => ?_
    rw [made.body]
    exact Scene.lockstep_pure (.enter _ (envs.mono more))
  · exact Scene.lockstep_pure (Outcome.alike_failure _ node)

end Action

/-! ### Calls of native functions -/

/-- From parallel runs the first action keeps a defect to be reported, or the second one leads on as far
as `Scene.Tracks` asks. -/
def Scene.Endures (scene : Scene program) (pairing : Pairing) (Kept : Val → Prop)
    (left right : Action Val) : Prop :=
  ∀ run twin, scene.Parallel pairing run twin →
    Ensures left run
      (fun value after => Kept value ∧ after.defect.isSome ∨
        (scene.Covers after.reactions →
          scene.Reaches pairing Val.Alike run value after (right twin)))
      (fun _ _ => True)

namespace Action

theorem grows_apply {evaluate : Evaluation} (grows : ∀ body env, (evaluate body env).Grows)
    (node : NodeId) (function : Val) (args : List Val) :
    (apply evaluate node function args).Grows :=
  fun reactions => (mirrors_apply (Run.unmoved_grown reactions).likeness
    (fun body env => (grows body env reactions).mirrors) node function args).preserves

theorem grows_planRun {Allowed : Val → List Val → Prop}
    {apply : (function : Val) → (args : List Val) → Allowed function args → Action Val}
    (grows : ∀ function args allowed, (apply function args allowed).Grows) (plan : Plan Allowed) :
    (plan.run apply).Grows :=
  fun reactions => by
    induction plan with
    | done value => exact preserves_pure value
    | call function args allowed resume ih =>
      exact Preserves.bind (grows function args allowed reactions) ih

section Plans

variable {Allowed Permitted : Val → List Val → Prop}
  {apply : (function : Val) → (args : List Val) → Allowed function args → Action Val}
  {other : (function : Val) → (args : List Val) → Permitted function args → Action Val}

/-- A plan ends with the first exception, so nothing happens any more once a defect waits to be
reported. -/
theorem endures_planRun
    (applied : ∀ (pairing : Pairing) (function twin : Val) (args inputs : List Val)
      (allowed : Allowed function args) (permitted : Permitted twin inputs),
      function.Alike pairing twin → List.Forall₂ (Val.Alike pairing) args inputs →
        scene.Endures pairing (·.isException = true) (apply function args allowed)
          (other twin inputs permitted))
    (grows : ∀ function args allowed, (apply function args allowed).Grows)
    {plan : Plan Allowed} {planTwin : Plan Permitted} (passes : plan.PassesOn)
    {pairing : Pairing.Exact}
    (alike : plan.Woven (fun small large : Pairing.Exact => small.1 ≤ large.1)
      (fun pairing => Val.Alike pairing.1) pairing planTwin) :
    scene.Endures pairing.1 (fun _ => True) (plan.run apply) (planTwin.run other) := by
  induction alike with
  | done value =>
    intro run twin parallel
    exact Or.inr fun _ => parallel.reaches value
  | @call pairing function functionTwin args inputs allowed permitted resume proceed callable given
      resumed ih =>
      intro run twin parallel
      simp only [Plan.run, ensures_bind]
      refine (applied pairing.1 function functionTwin args inputs allowed permitted callable given
        run twin parallel).map ?_
      rintro value middle (⟨raised, waits⟩ | reaches)
      · rw [passes.1 value raised]
        exact Or.inl ⟨trivial, waits⟩
      · have passesOn : (resume value).PassesOn := by
          cases raised : value.isException with
          | true => rw [passes.1 value raised]; exact Plan.passesOn_done value
          | false => exact passes.2 value raised
        refine ((grows_planRun grows (resume value)).ensures middle |>.and
          (ensures_end ((resume value).run apply) middle)).imp ?_ fun _ _ _ => trivial
        rintro final after ⟨more, lastEnded⟩
        by_cases waits : after.defect.isSome
        · exact Or.inl ⟨trivial, waits⟩
        · refine Or.inr fun covers => ?_
          obtain ⟨returned, larger, grown, answer, twinMiddle, ended, related, stillParallel⟩ :=
            reaches (covers.of_grown more)
          have last := ih ⟨larger, stillParallel.serials_exact⟩ grown value answer related
            passesOn middle twinMiddle stillParallel
          rw [Ensures, lastEnded] at last
          have leads := last.resolve_left (fun kept => waits kept.2) covers
          exact leads.after grown returned ended

end Plans

theorem tracks_callNative
    {receiver twin : Val} (receivers : receiver.Alike pairing twin) (name : String)
    {args inputs : List Val} (given : List.Forall₂ (Val.Alike pairing) args inputs) (node : NodeId)
    {apply : (function : Val) → (values : List Val) →
      receiver.Within args function values → Action Val}
    {other : (function : Val) → (values : List Val) →
      twin.Within inputs function values → Action Val}
    (applied : ∀ (pairing : Pairing) (function functionTwin : Val) (values valuesTwin : List Val)
      (within : receiver.Within args function values)
      (withinTwin : twin.Within inputs functionTwin valuesTwin),
      function.Alike pairing functionTwin → List.Forall₂ (Val.Alike pairing) values valuesTwin →
        scene.Endures pairing (·.isException = true) (apply function values within)
          (other functionTwin valuesTwin withinTwin))
    (grows : ∀ function values within, (apply function values within).Grows) :
    scene.Tracks pairing Outcome.Alike (callNative node receiver name args apply)
      (callNative node twin name inputs other) := by
  refine .of_exact fun exact => ?_
  simp only [callNative, receivers.kind_eq, ← given.length_eq]
  split
  · exact Scene.tracks_pure (Outcome.alike_failure _ node)
  · next function found =>
    have listed := (Native.of_lookup found).1
    have alike := Native.woven_functions (Val.alike_weave (node + 1)) _ function listed
      ⟨pairing, exact⟩ node receiver twin args inputs (Nat.lt_succ_self node) receivers given
    have passes := Native.passesOn_functions _ function listed node receiver args
    intro run runTwin parallel
    rw [ensures_bind]
    refine (endures_planRun applied grows passes alike run runTwin parallel).map ?_
    intro value middle endured
    simp only [takeDefect, ensures_bind, ensures_modifyGet]
    cases waiting : middle.defect with
    | some defect => trivial
    | none =>
      rintro covers
      have reaches := endured.resolve_left (by simp [waiting]) covers
      obtain ⟨returned, larger, grown, answer, twinMiddle, ended, related, stillParallel⟩ :=
        reaches
      refine Scene.Reaches.after grown returned ended
        ⟨{ Run.Returned.refl middle with defect := waiting.symm }, larger, le_rfl,
          .complete answer, { twinMiddle with defect := none }, ?_, .complete related,
          { stillParallel with defect := rfl }⟩
      simp only [bind, EStateM.bind, modifyGet_apply, stillParallel.defect, waiting]
      rfl

theorem tracks_invokeWith {callee twin : Val} (callees : callee.Alike pairing twin)
    {args inputs : List Val} (given : List.Forall₂ (Val.Alike pairing) args inputs) (node : NodeId)
    {apply : (function : Val) → (values : List Val) →
      function.weight values < callee.weight args → Action Val}
    {other : (function : Val) → (values : List Val) →
      function.weight values < twin.weight inputs → Action Val}
    (applied : ∀ (pairing : Pairing) (function functionTwin : Val) (values valuesTwin : List Val)
      (smaller : function.weight values < callee.weight args)
      (smallerTwin : functionTwin.weight valuesTwin < twin.weight inputs),
      function.Alike pairing functionTwin → List.Forall₂ (Val.Alike pairing) values valuesTwin →
        scene.Endures pairing (·.isException = true) (apply function values smaller)
          (other functionTwin valuesTwin smallerTwin))
    (grows : ∀ function values smaller, (apply function values smaller).Grows) :
    scene.Tracks pairing Outcome.Alike (invokeWith node callee args apply)
      (invokeWith node twin inputs other) := by
  have refused : scene.Tracks pairing Outcome.Alike
      (return .failure (.notCallable callee.render) node)
      (return .failure (.notCallable twin.render) node) := by
    rw [callees.render_eq]
    exact Scene.tracks_pure (Outcome.alike_failure _ node)
  cases callees with
  | closure made => exact (lockstep_enter made .none given node).tracks
  | method receiver made => exact (lockstep_enter made (.some receiver) given node).tracks
  | native name receiver =>
    exact tracks_callNative receiver name given node
      (fun pairing _ _ _ _ _ _ => applied pairing _ _ _ _ _ _) fun _ _ _ => grows _ _ _
  | constructor defined =>
    simp only [invokeWith, defined.fields, ← given.length_eq]
    split
    · exact Scene.tracks_pure (.complete (.record defined given))
    · exact Scene.tracks_pure (Outcome.alike_failure _ node)
  | conversion kind =>
    refine .of_exact fun exact => ?_
    match args, inputs, given with
    | [], [], .nil => exact Scene.tracks_pure (Outcome.alike_failure _ node)
    | [_], [_], .cons only .nil =>
      simp only [invokeWith]
      split
      · next convert found =>
        exact Scene.tracks_pure (.complete (@Native.woven_conversion _ _ _ _ ⟨pairing, exact⟩ _ _
          (Val.alike_weave (node + 1)) _ _ found node (Nat.lt_succ_self node) only))
      · exact refused
    | _ :: _ :: _, _ :: _ :: _, .cons _ (.cons _ rest) =>
      simp only [invokeWith, List.length_cons, rest.length_eq]
      exact Scene.tracks_pure (Outcome.alike_failure _ node)
  | bool _ | num _ | text _ | list _ | set _ | map _ _ | record _ _ | exception _ _ => exact refused

theorem attempt_of_ok {α : Type} {action : Action α} {run after : Run} {value : α}
    (ended : action run = .ok value after) : attempt action run = .ok (.ok value) after := by
  simp only [attempt, ended]

section Calling

variable {evaluate evaluateTwin : Evaluation}
  (evaluated : ∀ (pairing : Pairing) (body : NodeId) (env other : Env),
    Env.Alike pairing env other →
      scene.Tracks pairing Val.Alike (evaluate body env) (evaluateTwin body other))
  (grows : ∀ body env, (evaluate body env).Grows)

include evaluated grows

theorem tracks_answer {function twin : Val} (callable : function.Alike pairing twin)
    {args inputs : List Val} (given : List.Forall₂ (Val.Alike pairing) args inputs)
    (node : NodeId)
    (applied : ∀ (pairing : Pairing) (other otherTwin : Val) (values valuesTwin : List Val),
      other.weight values < function.weight args → other.Alike pairing otherTwin →
        List.Forall₂ (Val.Alike pairing) values valuesTwin →
          scene.Endures pairing (·.isException = true) (apply evaluate node other values)
            (apply evaluateTwin node otherTwin valuesTwin)) :
    scene.Tracks pairing Val.Alike
      (do
        match ← invokeWith node function args
            (fun other inputs _ => apply evaluate node other inputs) with
        | .complete value => pure value
        | .enter body env => evaluate body env)
      (do
        match ← invokeWith node twin inputs
            (fun other inputs _ => apply evaluateTwin node other inputs) with
        | .complete value => pure value
        | .enter body env => evaluateTwin body env) := by
  refine Scene.Tracks.bind (tracks_invokeWith callable given node ?_ ?_) ?_ ?_
  · intro pairing other otherTwin values valuesTwin smaller _ alike alikeValues
    exact applied pairing other otherTwin values valuesTwin smaller alike alikeValues
  · exact fun other values _ => grows_apply grows node other values
  · intro outcome reactions
    cases outcome with
    | complete value => exact preserves_pure value
    | enter body env => exact grows body env reactions
  · intro larger _ outcome outcomeTwin alike
    cases alike with
    | complete value => exact Scene.tracks_pure value
    | enter body envs => exact evaluated larger body _ _ envs

/-- Calls of natives by natives get smaller, which is what the induction is on. -/
theorem endures_apply
    {pairing : Pairing} {function twin : Val} (callable : function.Alike pairing twin)
    {args inputs : List Val} (given : List.Forall₂ (Val.Alike pairing) args inputs)
    (node : NodeId) :
    scene.Endures pairing (·.isException = true) (apply evaluate node function args)
      (apply evaluateTwin node twin inputs) := by
  have called := tracks_answer evaluated grows callable given node
    fun pairing other otherTwin values valuesTwin smaller alike alikeValues =>
      endures_apply alike alikeValues node
  intro run runTwin parallel
  rw [apply, apply, ensures_bind, ensures_attempt]
  refine (called run runTwin parallel).imp ?_ ?_
  · intro value after reaches
    refine Or.inr fun covers => ?_
    obtain ⟨returned, larger, grown, answer, twinAfter, ended, related, stillParallel⟩ :=
      reaches covers
    exact Scene.Reaches.after grown returned (attempt_of_ok ended) (stillParallel.reaches related)
  · intro defect after _
    refine Or.inl ⟨rfl, ?_⟩
    simp
termination_by function.weight args

theorem tracks_invoke {callee twin : Val} (callees : callee.Alike pairing twin)
    {args inputs : List Val} (given : List.Forall₂ (Val.Alike pairing) args inputs)
    (node : NodeId) :
    scene.Tracks pairing Outcome.Alike (invoke evaluate node callee args)
      (invoke evaluateTwin node twin inputs) :=
  tracks_invokeWith callees given node
    (fun _ _ _ _ _ _ _ callable values => endures_apply evaluated grows callable values node)
    fun _ _ _ => grows_apply grows node _ _

/-- Operators on alike receivers and arguments track each other. -/
theorem tracks_dispatch
    {receiver twin : Val} (receivers : receiver.Alike pairing twin) (op : String)
    {args inputs : List Val} (given : List.Forall₂ (Val.Alike pairing) args inputs)
    (node : NodeId) :
    scene.Tracks pairing Outcome.Alike (dispatch evaluate node receiver op args)
      (dispatch evaluateTwin node twin op inputs) := by
  have native : scene.Tracks pairing Outcome.Alike
      (callNative node receiver op args fun function values _ => apply evaluate node function values)
      (callNative node twin op inputs fun function values _ =>
        apply evaluateTwin node function values) :=
    tracks_callNative receivers op given node
      (fun _ _ _ _ _ _ _ callable values => endures_apply evaluated grows callable values node)
      fun _ _ _ => grows_apply grows node _ _
  have whole := receivers
  cases receivers with
  | @record definition other fields others defined values =>
    have made := defined.function? op
    simp only [dispatch]
    generalize definition.function? op = function, other.function? op = functionTwin at made
    cases made with
    | some function => exact (lockstep_enter function (.some whole) given node).tracks
    | none => exact native
  | _ => exact native

end Calling

/-! ### Combining operands -/

theorem tracks_combine {setup : Setup} {scene : Scene setup.program}
    {evaluate evaluateTwin : Evaluation}
    (evaluated : ∀ (pairing : Pairing) (body : NodeId) (env other : Env),
      Env.Alike pairing env other →
        scene.Tracks pairing Val.Alike (evaluate body env) (evaluateTwin body other))
    (grows : ∀ body env, (evaluate body env).Grows)
    {id : NodeId} {node : Node} (present : setup.program.node? id = some node)
    {values others : List Val} (alike : List.Forall₂ (Val.Alike pairing) values others)
    {env envTwin : Env} (envs : Env.Alike pairing env envTwin) :
    scene.Tracks pairing Outcome.Alike (combine setup evaluate id node values env)
      (combine setup evaluateTwin id node others envTwin) := by
  have complete : ∀ {left right : Action Val}, scene.Lockstep pairing Val.Alike left right →
      scene.Tracks pairing Outcome.Alike (do return .complete (← left))
        (do return .complete (← right)) :=
    fun steps => (steps.bind fun _ _ _ _ value =>
      Scene.lockstep_pure (V := Outcome.Alike) (.complete value)).tracks
  have last : scene.Lockstep pairing Val.Alike (lastOperand id values) (lastOperand id others) :=
    lockstep_lastOperand alike id
  cases node with
  | bool truth => exact Scene.tracks_pure (.complete (.bool truth))
  | num value units => exact Scene.tracks_pure (.complete (.num _))
  | text characters => exact Scene.tracks_pure (.complete (.text characters))
  | list items => exact Scene.tracks_pure (.complete (.list alike))
  | set items =>
    exact .of_exact fun exact => Scene.tracks_pure (.complete
      (@Val.Weave.ofMembers _ _ _ _ ⟨pairing, exact⟩ (Val.alike_weave 0) _ _ alike))
  | map entries =>
    exact .of_exact fun exact => Scene.tracks_pure (.complete
      (@Val.Weave.ofEntries _ _ _ _ ⟨pairing, exact⟩ (Val.alike_weave 0) _ _ (Val.alike_pairUp alike)))
  | name word => exact complete (lockstep_resolve envs word id)
  | previous =>
    refine (lockstep_lookup? envs ".").bind_tracks fun _ _ _ _ bound => ?_
    cases bound with
    | some value => exact Scene.tracks_pure (.complete value)
    | none => exact Scene.tracks_pure (Outcome.alike_failure _ id)
  | block statements =>
    have found := rel_getLast? alike
    simp only [combine]
    generalize values.getLast? = left, others.getLast? = right at found
    cases found with
    | some value => exact Scene.tracks_pure (.complete value)
    | none => exact Scene.tracks_pure (Outcome.alike_failure _ id)
  | bind word value =>
    refine last.bind_tracks fun larger grown value twin bound => ?_
    refine (lockstep_define (envs.mono grown) word bound).bind_tracks fun _ more _ _ _ => ?_
    exact Scene.tracks_pure (.complete (bound.mono more))
  | function word params body => exact complete (lockstep_makeFunction envs word params body)
  | record word fields functions => exact complete (lockstep_makeRecord envs word fields functions)
  | call callee args =>
    cases alike with
    | nil => exact Scene.tracks_throw _ _
    | cons first rest => exact tracks_invoke evaluated grows first rest id
  | binary left op right =>
    cases alike with
    | nil => exact Scene.tracks_throw _ _
    | cons first rest =>
      cases rest with
      | nil => exact Scene.tracks_throw _ _
      | cons second more =>
        cases more with
        | nil => exact tracks_dispatch evaluated grows first op (.cons second .nil) id
        | cons _ _ => exact Scene.tracks_throw _ _
  | unary op operand =>
    exact last.bind_tracks fun _ _ _ _ receiver =>
      tracks_dispatch evaluated grows receiver op .nil id
  | conditional condition yes no =>
    refine last.bind_tracks fun larger grown value twin decides => ?_
    have refused := Val.alike_mismatch decides "Boolean" id
    cases decides with
    | bool truth => exact Scene.tracks_pure (.enter _ (envs.mono grown))
    | _ => exact Scene.tracks_pure (.complete refused)
  | access subject word =>
    exact last.bind_tracks fun _ _ _ _ value =>
      Scene.tracks_pure (.complete (value.access word id))
  | is operand tag =>
    refine last.bind_tracks fun _ _ _ _ value => ?_
    rw [TypeTag.matchedBy_eq value]
    exact Scene.tracks_pure (.complete (.bool _))
  | stream word => exact complete (lockstep_readStream ⟨id, present⟩ id)
  | changed stream => exact complete (lockstep_streamChanged stream id)
  | reaction _ _ _ _ | borrow _ _ => exact Scene.tracks_throw _ _

end Action

end Reactor

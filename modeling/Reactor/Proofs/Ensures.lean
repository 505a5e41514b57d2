import Reactor.Engine.Run

/-!
# What computations ensure

Actions on a run and calls of a host are computations on a state that end with a value or with a
failure, and in either case in some state.  `Ensures` states what holds at that end.  Its rules take
a computation apart step by step, so a statement about a whole computation becomes one about the
states between its steps.

`Preserves` is the special form for a property of states that outlives a computation, however it
ends.  `Upholds` says in addition what a computation that does not fail promises of its value.
-/

namespace Reactor

section General

variable {ε σ α β : Type}

/--
What a computation that starts in a state leads to: `good` holds of its value and the state behind
it, or `bad` of its failure and the state behind it.
-/
def Ensures (action : EStateM ε σ α) (state : σ)
    (good : α → σ → Prop) (bad : ε → σ → Prop) : Prop :=
  match action state with
  | .ok value after => good value after
  | .error failure after => bad failure after

variable {state : σ} {good : α → σ → Prop} {bad : ε → σ → Prop}

variable {action : EStateM ε σ α} {value : α} {promise : α → Prop}

section

variable {good' : α → σ → Prop}

section

variable (ensured : Ensures action state good bad)
  (onValue : ∀ value after, good value after → good' value after)
include ensured onValue

theorem Ensures.imp {bad' : ε → σ → Prop}
    (onFailure : ∀ failure after, bad failure after → bad' failure after) :
    Ensures action state good' bad' := by
  simp only [Ensures] at *
  split
  · next value after ended =>
    rw [ended] at ensured
    exact onValue value after ensured
  · next failure after ended =>
    rw [ended] at ensured
    exact onFailure failure after ensured

theorem Ensures.map : Ensures action state good' bad :=
  ensured.imp onValue fun _ _ failed => failed

end

theorem Ensures.and {bad' : ε → σ → Prop} (ensured : Ensures action state good bad)
    (also : Ensures action state good' bad') :
    Ensures action state
      (fun value after => good value after ∧ good' value after)
      (fun failure after => bad failure after ∧ bad' failure after) := by
  simp only [Ensures] at *
  cases ended : action state with
  | ok value after =>
    rw [ended] at ensured also
    exact ⟨ensured, also⟩
  | error failure after =>
    rw [ended] at ensured also
    exact ⟨ensured, also⟩

end

theorem ensures_end (action : EStateM ε σ α) (state : σ) :
    Ensures action state
      (fun value after => action state = .ok value after)
      (fun failure after => action state = .error failure after) := by
  simp only [Ensures]
  cases action state <;> rfl

theorem ensures_congr {other : EStateM ε σ α} {start : σ} (same : action state = other start) :
    Ensures action state good bad ↔ Ensures other start good bad := by
  simp only [Ensures, same]

@[simp]
theorem ensures_pure (value : α) :
    Ensures (pure value) state good bad ↔ good value state :=
  Iff.rfl

@[simp]
theorem ensures_throw (failure : ε) :
    Ensures (throw failure) state good bad ↔ bad failure state :=
  Iff.rfl

@[simp]
theorem ensures_bind (action : EStateM ε σ α) (next : α → EStateM ε σ β) {good : β → σ → Prop} :
    Ensures (action >>= next) state good bad ↔
      Ensures action state (fun value after => Ensures (next value) after good bad) bad := by
  simp only [Ensures, bind, EStateM.bind]
  cases action state <;> rfl

@[simp]
theorem ensures_get {good : σ → σ → Prop} :
    Ensures get state good bad ↔ good state state :=
  Iff.rfl

@[simp]
theorem ensures_set (after : σ) {good : PUnit → σ → Prop} :
    Ensures (set after) state good bad ↔ good ⟨⟩ after :=
  Iff.rfl

@[simp]
theorem ensures_modify (change : σ → σ) {good : PUnit → σ → Prop} :
    Ensures (modify change) state good bad ↔ good ⟨⟩ (change state) :=
  Iff.rfl

@[simp]
theorem ensures_modifyGet (change : σ → α × σ) :
    Ensures (modifyGet change) state good bad ↔ good (change state).1 (change state).2 :=
  Iff.rfl

/-! ### Carrying a computation out -/

theorem get_apply (state : σ) : (get : EStateM ε σ σ) state = .ok state state :=
  rfl

theorem modify_apply (change : σ → σ) (state : σ) :
    (modify change : EStateM ε σ PUnit) state = .ok ⟨⟩ (change state) :=
  rfl

theorem modifyGet_apply (change : σ → α × σ) (state : σ) :
    (modifyGet change : EStateM ε σ α) state = .ok (change state).1 (change state).2 :=
  rfl

theorem bind_of_ok {after : σ} (ended : action state = .ok value after) (next : α → EStateM ε σ β) :
    (action >>= next) state = next value after := by
  simp only [bind, EStateM.bind, ended]

/-! ### Properties that outlive a computation -/

/-- A property of states that holds after a computation if it held before. -/
def Preserves (P : σ → Prop) (action : EStateM ε σ α) : Prop :=
  ∀ state, P state → Ensures action state (fun _ => P) (fun _ => P)

variable {P : σ → Prop}

theorem preserves_pure (value : α) :
    Preserves P (pure value : EStateM ε σ α) :=
  fun _ holds => holds

theorem preserves_throw (failure : ε) :
    Preserves P (throw failure : EStateM ε σ α) :=
  fun _ holds => holds

theorem preserves_get : Preserves P (get : EStateM ε σ σ) :=
  fun _ holds => holds

theorem preserves_modify {change : σ → σ} (kept : ∀ state, P state → P (change state)) :
    Preserves P (modify change : EStateM ε σ PUnit) :=
  kept

theorem Preserves.bind {next : α → EStateM ε σ β}
    (first : Preserves P action) (rest : ∀ value, Preserves P (next value)) :
    Preserves P (action >>= next) := by
  intro state holds
  rw [ensures_bind]
  exact (first state holds).map (fun value after kept => rest value after kept)

theorem Preserves.of_ok {after : σ}
    (preserved : Preserves P action) (holds : P state) (ended : action state = .ok value after) :
    P after := by
  have ensured := preserved state holds
  simpa [Ensures, ended] using ensured

/-! ### Properties that come with a promise -/

/-- A property of states that holds after a computation if it held before, and a value that is as
promised. -/
def Upholds (P : σ → Prop) (action : EStateM ε σ α) (promise : α → Prop) : Prop :=
  ∀ state, P state → Ensures action state (fun value after => P after ∧ promise value) (fun _ => P)

theorem upholds_pure (kept : promise value) :
    Upholds P (pure value : EStateM ε σ α) promise :=
  fun _ holds => ⟨holds, kept⟩

theorem upholds_throw (failure : ε) (promise : α → Prop) :
    Upholds P (throw failure : EStateM ε σ α) promise :=
  fun _ holds => holds

theorem Upholds.bind {next : α → EStateM ε σ β}
    {promise' : β → Prop} (first : Upholds P action promise)
    (rest : ∀ value, promise value → Upholds P (next value) promise') :
    Upholds P (action >>= next) promise' := by
  intro state holds
  rw [ensures_bind]
  exact (first state holds).map (fun value after ended => rest value ended.2 after ended.1)

theorem upholds_get : Upholds P (get : EStateM ε σ σ) P :=
  fun _ holds => ⟨holds, holds⟩

theorem upholds_modify {change : σ → σ} (kept : ∀ state, P state → P (change state)) :
    Upholds P (modify change : EStateM ε σ PUnit) fun _ => True :=
  fun state holds => ⟨kept state holds, trivial⟩

theorem upholds_modifyGet {change : σ → α × σ}
    (kept : ∀ state, P state → P (change state).2 ∧ promise (change state).1) :
    Upholds P (modifyGet change : EStateM ε σ α) promise :=
  fun state holds => kept state holds

end General

/-- A way to evaluate nodes in scopes. -/
abbrev Evaluation := NodeId → Env → Action Val

namespace Action

variable {α : Type} {run : Run} {P : Run → Prop}

@[simp]
theorem ensures_cleaningUp (clean : Run → Run) (action : Action α)
    {good : α → Run → Prop} {bad : Defect → Run → Prop} :
    Ensures (cleaningUp clean action) run good bad ↔
      Ensures action run
        (fun value after => good value (clean after))
        (fun defect after => bad defect (clean after)) := by
  simp only [Ensures, cleaningUp]
  cases action run <;> rfl

@[simp]
theorem ensures_attempt (action : Action α)
    {good : Except Defect α → Run → Prop} {bad : Defect → Run → Prop} :
    Ensures (attempt action) run good bad ↔
      Ensures action run
        (fun value after => good (.ok value) after)
        (fun defect after => good (.error defect) after) := by
  simp only [Ensures, attempt]
  cases action run <;> rfl

variable {action : Action α} {clean : Run → Run}

theorem preserves_cleaningUp (inside : Preserves P action) (kept : ∀ run, P run → P (clean run)) :
    Preserves P (cleaningUp clean action) := by
  intro run holds
  rw [ensures_cleaningUp]
  exact (inside run holds).imp
    (fun _ after => kept after)
    (fun _ after => kept after)

theorem upholds_cleaningUp {promise : α → Prop} (inside : Upholds P action promise)
    (kept : ∀ run, P run → P (clean run)) :
    Upholds P (cleaningUp clean action) promise := by
  intro run holds
  rw [ensures_cleaningUp]
  exact (inside run holds).imp
    (fun _ after ended => ⟨kept after ended.1, ended.2⟩)
    (fun _ after ended => kept after ended)

end Action

end Reactor

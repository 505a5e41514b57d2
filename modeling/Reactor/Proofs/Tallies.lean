import Reactor.Proofs.Mirrors

/-!
# Computations that tally

Two computations tally if they mirror one another and their value is as promised; they may fail only
where failures are allowed.  With a trivial promise this is `Mirrors`.  A computation that tallies with
itself on a part of the states upholds that part, so one traversal of a program serves for statements
about one run and for statements about two.
-/

namespace Reactor

section General

variable {ε σ α β : Type}

/-- Two computations have ended alike, in related states, as promised or as far as failures are
allowed. -/
def Tally (fails : Prop) (R : σ → σ → Prop) (promise : α → Prop) :
    EStateM.Result ε σ α → EStateM.Result ε σ α → Prop
  | .ok value state, .ok other twin => value = other ∧ R state twin ∧ promise value
  | .error failure state, .error other twin => failure = other ∧ R state twin ∧ fails
  | _, _ => False

/-- From related states two computations end alike, in related states and as promised. -/
def Tallies (fails : Prop) (R : σ → σ → Prop) (left right : EStateM ε σ α) (promise : α → Prop) :
    Prop :=
  ∀ state twin, R state twin → Tally fails R promise (left state) (right twin)

variable {fails : Prop} {R : σ → σ → Prop} {P : σ → Prop} {left right : EStateM ε σ α}
  {promise : α → Prop} {state twin : σ}

theorem Tally.meets
    {first second : EStateM.Result ε σ α} (tally : Tally fails R promise first second) :
    Meets R first second := by
  match first, second, tally with
  | .ok _ _, .ok _ _, ⟨same, related, _⟩ => exact ⟨same, related⟩
  | .error _ _, .error _ _, ⟨same, related, _⟩ => exact ⟨same, related⟩

theorem Tallies.mirrors (tallies : Tallies True R left right promise) : Mirrors R left right :=
  fun state twin related => (tallies state twin related).meets

theorem Mirrors.tallies (mirrors : Mirrors R left right) :
    Tallies True R left right fun _ => True := by
  intro state twin related
  have meets := mirrors state twin related
  match left state, right twin, meets with
  | .ok _ _, .ok _ _, ⟨same, still⟩ => exact ⟨same, still, trivial⟩
  | .error _ _, .error _ _, ⟨same, still⟩ => exact ⟨same, still, trivial⟩

/-- A computation tallies with itself on a part of the states exactly if it does not leave it and keeps
its promise. -/
theorem tallies_self_iff :
    Tallies fails (fun state twin => twin = state ∧ P state) left left promise ↔
      ∀ state, P state → Ensures left state (fun value after => P after ∧ promise value)
        (fun _ after => P after ∧ fails) := by
  constructor
  · intro tallies state holds
    have tally := tallies state state ⟨rfl, holds⟩
    simp only [Ensures]
    cases ended : left state with
    | ok value after =>
      rw [ended] at tally
      exact ⟨tally.2.1.2, tally.2.2⟩
    | error failure after =>
      rw [ended] at tally
      exact ⟨tally.2.1.2, tally.2.2⟩
  · rintro ensured state _ ⟨rfl, holds⟩
    have kept := ensured _ holds
    simp only [Ensures] at kept
    cases ended : left _ with
    | ok value after =>
      rw [ended] at kept
      exact ⟨rfl, ⟨rfl, kept.1⟩, kept.2⟩
    | error failure after =>
      rw [ended] at kept
      exact ⟨rfl, ⟨rfl, kept.1⟩, kept.2⟩

theorem Tallies.upholds
    (tallies : Tallies fails (fun state twin => twin = state ∧ P state) left left promise) :
    Upholds P left promise :=
  fun state holds => (tallies_self_iff.mp tallies state holds).imp
    (fun _ _ kept => kept) fun _ _ kept => kept.1

theorem Upholds.tallies (upheld : Upholds P left promise) :
    Tallies True (fun state twin => twin = state ∧ P state) left left promise :=
  tallies_self_iff.mpr fun state holds => (upheld state holds).imp
    (fun _ _ kept => kept) fun _ _ kept => ⟨kept, trivial⟩

/-! ### Rules -/

theorem tallies_pure {value : α} (kept : promise value) :
    Tallies fails R (pure value : EStateM ε σ α) (pure value) promise :=
  fun _ _ related => ⟨rfl, related, kept⟩

theorem tallies_throw (allowed : fails) (failure : ε) :
    Tallies fails R (throw failure : EStateM ε σ α) (throw failure) promise :=
  fun _ _ related => ⟨rfl, related, allowed⟩

variable {next other : α → EStateM ε σ β} {promise' : β → Prop}

theorem Tally.bind (first : Tally fails R promise (left state) (right twin))
    (rest : ∀ value, promise value → Tallies fails R (next value) (other value) promise') :
    Tally fails R promise' ((left >>= next) state) ((right >>= other) twin) := by
  simp only [Bind.bind, EStateM.bind]
  match left state, right twin, first with
  | .ok value after, .ok _ twinAfter, ⟨rfl, related, kept⟩ =>
    exact rest value kept after twinAfter related
  | .error _ _, .error _ _, ended => exact ended

theorem Tally.bind_of_ensures {good : α → σ → Prop} {bad : ε → σ → Prop}
    (first : Tally fails R promise (left state) (right twin)) (ensured : Ensures left state good bad)
    (rest : ∀ value after twinAfter, good value after → R after twinAfter →
      Tally fails R promise' (next value after) (other value twinAfter)) :
    Tally fails R promise' ((left >>= next) state) ((right >>= other) twin) := by
  simp only [Bind.bind, EStateM.bind]
  unfold Ensures at ensured
  match left state, right twin, first, ensured with
  | .ok value after, .ok _ twinAfter, ⟨rfl, related, _⟩, ensured =>
    exact rest value after twinAfter ensured related
  | .error _ _, .error _ _, ended, _ => exact ended

/-- The second computation may rely on the promise of the first. -/
theorem Tallies.bind (first : Tallies fails R left right promise)
    (rest : ∀ value, promise value → Tallies fails R (next value) (other value) promise') :
    Tallies fails R (left >>= next) (right >>= other) promise' :=
  fun state twin related => (first state twin related).bind rest

theorem tallies_of_get {next other : σ → EStateM ε σ α} (rest : ∀ state twin, R state twin →
      Tally fails R promise (next state state) (other twin twin)) :
    Tallies fails R (get >>= next) (get >>= other) promise :=
  rest

theorem tally_set {after twinAfter : σ} {next other : PUnit → EStateM ε σ α}
    (rest : Tally fails R promise (next ⟨⟩ after) (other ⟨⟩ twinAfter)) :
    Tally fails R promise ((set after >>= next) state) ((set twinAfter >>= other) twin) :=
  rest

theorem tallies_modify
    {change other : σ → σ} (kept : ∀ state twin, R state twin → R (change state) (other twin)) :
    Tallies fails R (modify change : EStateM ε σ PUnit) (modify other) fun _ => True :=
  fun state twin related => ⟨rfl, kept state twin related, trivial⟩

theorem tallies_modifyGet {change other : σ → α × σ}
    (kept : ∀ state twin, R state twin → (change state).1 = (other twin).1 ∧
      R (change state).2 (other twin).2 ∧ promise (change state).1) :
    Tallies fails R (modifyGet change : EStateM ε σ α) (modifyGet other) promise :=
  kept

end General

namespace Action

variable {α : Type} {fails : Prop} {R : Run → Run → Prop} {left right : Action α}
  {promise : α → Prop}

theorem tallies_cleaningUp {clean : Run → Run} (inside : Tallies fails R left right promise)
    (kept : ∀ run twin, R run twin → R (clean run) (clean twin)) :
    Tallies fails R (cleaningUp clean left) (cleaningUp clean right) promise := by
  intro run twin related
  have tally := inside run twin related
  simp only [cleaningUp]
  generalize left run = first, right twin = second at tally
  cases first with
  | ok value after =>
    cases second with
    | ok other twinAfter => exact ⟨tally.1, kept _ _ tally.2.1, tally.2.2⟩
    | error defect twinAfter => exact tally
  | error defect after =>
    cases second with
    | ok other twinAfter => exact tally
    | error other twinAfter => exact ⟨tally.1, kept _ _ tally.2.1, tally.2.2⟩

theorem tallies_attempt (inside : Tallies fails R left right promise) :
    Tallies fails R (attempt left) (attempt right) fun answer =>
      (∀ value, answer = .ok value → promise value) ∧ ∀ defect, answer = .error defect → fails := by
  intro run twin related
  have tally := inside run twin related
  simp only [attempt]
  generalize left run = first, right twin = second at tally
  cases first with
  | ok value after =>
    cases second with
    | ok other twinAfter =>
      obtain ⟨rfl, still, promised⟩ := tally
      refine ⟨rfl, still, fun _ same => ?_, fun _ same => ?_⟩
      · cases same
        exact promised
      · cases same
    | error defect twinAfter => exact tally.elim
  | error defect after =>
    cases second with
    | ok other twinAfter => exact tally.elim
    | error other twinAfter =>
      obtain ⟨rfl, still, allowed⟩ := tally
      refine ⟨rfl, still, fun _ same => ?_, fun _ _ => allowed⟩
      cases same

end Action

end Reactor

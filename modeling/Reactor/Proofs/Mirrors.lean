import Reactor.Proofs.Ensures

/-!
# Computations that mirror one another

Two computations mirror one another under a relation between states if they lead from related states
to related states and end alike: both with the same value, or both with the same failure.  The rules
take two computations apart side by side, as the rules of `Ensures` do with one.

The two computations need not be the same.  A computation that mirrors itself cannot tell related
states apart, and one that mirrors another under equality of states computes the same.
-/

namespace Reactor

section General

variable {ε σ α β : Type}

/-- Two computations have ended alike, in related states. -/
def Meets (R : σ → σ → Prop) : EStateM.Result ε σ α → EStateM.Result ε σ α → Prop
  | .ok value state, .ok other twin => value = other ∧ R state twin
  | .error failure state, .error other twin => failure = other ∧ R state twin
  | _, _ => False

/-- From related states two computations end alike, in related states. -/
def Mirrors (R : σ → σ → Prop) (left right : EStateM ε σ α) : Prop :=
  ∀ state twin, R state twin → Meets R (left state) (right twin)

variable {R : σ → σ → Prop} {left right : EStateM ε σ α}

variable {state : σ} {P : σ → Prop}

section

variable {first second : EStateM.Result ε σ α} (meets : Meets R first second)
include meets

theorem Meets.of_ok {value : α} (ended : first = .ok value state) :
    ∃ twin, second = .ok value twin ∧ R state twin := by
  subst ended
  match second, meets with
  | .ok _ twin, ⟨rfl, related⟩ => exact ⟨twin, rfl, related⟩

theorem Meets.of_error {failure : ε} (ended : first = .error failure state) :
    ∃ twin, second = .error failure twin ∧ R state twin := by
  subst ended
  match second, meets with
  | .error _ twin, ⟨rfl, related⟩ => exact ⟨twin, rfl, related⟩

end

theorem Meets.bind {twin : σ} {next other : α → EStateM ε σ β}
    (first : Meets R (left state) (right twin))
    (rest : ∀ value, Mirrors R (next value) (other value)) :
    Meets R ((left >>= next) state) ((right >>= other) twin) := by
  simp only [Bind.bind, EStateM.bind]
  cases ended : left state with
  | ok value after =>
    obtain ⟨twinAfter, twinEnded, related⟩ := first.of_ok ended
    rw [twinEnded]
    exact rest value after twinAfter related
  | error failure after =>
    obtain ⟨twinAfter, twinEnded, related⟩ := first.of_error ended
    rw [twinEnded]
    exact ⟨rfl, related⟩

theorem mirrors_pure (value : α) :
    Mirrors R (pure value : EStateM ε σ α) (pure value) :=
  fun _ _ related => ⟨rfl, related⟩

theorem mirrors_throw (failure : ε) :
    Mirrors R (throw failure : EStateM ε σ α) (throw failure) :=
  fun _ _ related => ⟨rfl, related⟩

/-- Computations that mirror each other do so in sequence. -/
theorem Mirrors.bind {next other : α → EStateM ε σ β} (first : Mirrors R left right)
    (rest : ∀ value, Mirrors R (next value) (other value)) :
    Mirrors R (left >>= next) (right >>= other) :=
  fun state twin related => (first state twin related).bind rest

theorem mirrors_of_get {next other : σ → EStateM ε σ α}
    (rest : ∀ state twin, R state twin → Meets R (next state state) (other twin twin)) :
    Mirrors R (get >>= next) (get >>= other) :=
  rest

theorem mirrors_modify {change other : σ → σ}
    (kept : ∀ state twin, R state twin → R (change state) (other twin)) :
    Mirrors R (modify change : EStateM ε σ PUnit) (modify other) :=
  fun state twin related => ⟨rfl, kept state twin related⟩

theorem mirrors_modifyGet {change other : σ → α × σ} (kept : ∀ state twin, R state twin →
      (change state).1 = (other twin).1 ∧ R (change state).2 (other twin).2) :
    Mirrors R (modifyGet change : EStateM ε σ α) (modifyGet other) :=
  kept

/-- Computations that mirror one another under equality on a part of the states are the same there. -/
theorem eq_of_mirrors (mirrors : Mirrors (fun state twin => twin = state ∧ P state) left right)
    (holds : P state) :
    left state = right state := by
  have meets := mirrors state state ⟨rfl, holds⟩
  cases ended : left state with
  | ok value after =>
    obtain ⟨twin, twinEnded, rfl, -⟩ := meets.of_ok ended
    exact twinEnded.symm
  | error failure after =>
    obtain ⟨twin, twinEnded, rfl, -⟩ := meets.of_error ended
    exact twinEnded.symm

theorem Mirrors.preserves (mirrors : Mirrors (fun state twin => twin = state ∧ P state) left left) :
    Preserves P left := by
  intro state holds
  have meets := mirrors state state ⟨rfl, holds⟩
  unfold Ensures
  split
  · next value after ended =>
    obtain ⟨twin, -, -, kept⟩ := meets.of_ok ended
    exact kept
  · next failure after ended =>
    obtain ⟨twin, -, -, kept⟩ := meets.of_error ended
    exact kept

theorem Preserves.mirrors (preserved : Preserves P left) :
    Mirrors (fun state twin => twin = state ∧ P state) left left := by
  rintro state twin ⟨rfl, holds⟩
  have kept := preserved twin holds
  simp only [Ensures] at kept
  cases ended : left twin with
  | ok value after =>
    rw [ended] at kept
    exact ⟨rfl, rfl, kept⟩
  | error failure after =>
    rw [ended] at kept
    exact ⟨rfl, rfl, kept⟩

end General

namespace Action

variable {α : Type} {R : Run → Run → Prop}

theorem meets_cleaningUp {left right : Action α} {clean : Run → Run} {run twin : Run}
    {S : Run → Run → Prop} (meets : Meets R (left run) (right twin))
    (kept : ∀ run twin, R run twin → S (clean run) (clean twin)) :
    Meets S (cleaningUp clean left run) (cleaningUp clean right twin) := by
  simp only [cleaningUp]
  cases ended : left run with
  | ok value after =>
    obtain ⟨twinAfter, twinEnded, still⟩ := meets.of_ok ended
    rw [twinEnded]
    exact ⟨rfl, kept _ _ still⟩
  | error defect after =>
    obtain ⟨twinAfter, twinEnded, still⟩ := meets.of_error ended
    rw [twinEnded]
    exact ⟨rfl, kept _ _ still⟩

end Action

end Reactor

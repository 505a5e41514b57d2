import Reactor.Scope.Reach

/-!
# Marks and reachable scopes

`Scopes.Reach` says which scopes can be reached from some others, through the values that scopes bind.
The marks that `Scopes.reachable` sets cover all of them: a scope that can be reached is never lost.

`Scopes.Extends` says what evaluation leaves of a store: every scope stays, with its owner and all names
that it binds.
-/

namespace Reactor.Scopes

open List

/-- A scope can be reached from some others: it is one of them, or a value bound in a scope that can be
reached holds on to it. -/
inductive Reach (scopes : Scopes) (start : List ScopeId) : ScopeId → Prop where
  | here {id : ScopeId} (member : id ∈ start) : Reach scopes start id
  | beyond {id other : ScopeId} (reached : Reach scopes start id)
      (held : other ∈ scopes.held id) : Reach scopes start other

variable {scopes : Scopes} {start : List ScopeId}

variable {id : ScopeId}

/-- What contains the start and all that its scopes hold on to contains all that can be reached. -/
theorem Reach.induct {P : ScopeId → Prop} (first : ∀ id ∈ start, P id)
    (closed : ∀ id, P id → ∀ other ∈ scopes.held id, P other)
    (reached : Reach scopes start id) : P id := by
  induction reached with
  | here mem => exact first _ mem
  | beyond _ held ih => exact closed _ ih _ held

theorem Reach.of_start {others : List ScopeId} (covered : ∀ id ∈ start, Reach scopes others id)
    (reached : Reach scopes start id) : Reach scopes others id :=
  reached.induct covered fun _ already _ held => already.beyond held

/-! ### Marks -/

/-- What marking is about to do: everything that a marked scope holds on to is marked or pending. -/
def Covered (scopes : Scopes) (marks : Array Bool) (pending : List ScopeId) : Prop :=
  ∀ id, marks[id]? = some true →
    ∀ other ∈ scopes.held id, marks[other]? = some false → other ∈ pending

theorem getElem?_mark (marks : Array Bool) (id other : ScopeId) :
    (marks.setIfInBounds id true)[other]? =
      if id = other then marks[other]?.map fun _ => true else marks[other]? := by
  rw [Array.getElem?_setIfInBounds]
  split
  · next same =>
    subst same
    split
    · next inside => simp [inside]
    · next outside => simp [outside]
  · rfl

theorem mark_keeps (scopes : Scopes) (marks : Array Bool) (pending : List ScopeId) (id : ScopeId) :
    (marks[id]? ≠ some false → (scopes.mark marks pending)[id]? ≠ some false) ∧
      (marks[id]? = none ↔ (scopes.mark marks pending)[id]? = none) ∧
      (id ∈ pending → (scopes.mark marks pending)[id]? ≠ some false) := by
  fun_induction mark scopes marks pending with
  | case1 marks => simp
  | case2 marks first pending unmarked ih =>
    obtain ⟨kept, outside, covered⟩ := ih
    have here : (marks.setIfInBounds first true)[id]? ≠ some false ∨ first ≠ id := by
      by_cases same : first = id
      · left
        rw [getElem?_mark, if_pos same]
        cases marks[id]? <;> simp
      · exact Or.inr same
    refine ⟨fun marked => kept ?_, ?_, fun mem => ?_⟩
    · rw [getElem?_mark]
      split
      · cases marks[id]? <;> simp
      · exact marked
    · rw [← outside, getElem?_mark]
      split
      · simp
      · exact Iff.rfl
    · rcases mem_cons.mp mem with rfl | later
      · exact kept (here.resolve_right fun differs => differs rfl)
      · exact covered (mem_append_right _ later)
  | case3 marks first pending marked ih =>
    obtain ⟨kept, outside, covered⟩ := ih
    refine ⟨kept, outside, fun mem => ?_⟩
    rcases mem_cons.mp mem with rfl | later
    · exact kept marked
    · exact covered later

theorem covered_mark
    {marks : Array Bool} {pending : List ScopeId} (covered : Covered scopes marks pending) :
    Covered scopes (scopes.mark marks pending) [] := by
  fun_induction mark scopes marks pending with
  | case1 marks => exact covered
  | case2 marks first pending unmarked ih =>
    apply ih
    intro id marked other held stillFalse
    rw [getElem?_mark] at marked stillFalse
    split at stillFalse
    · cases found : marks[other]? <;> simp [found] at stillFalse
    · next differs =>
      split at marked
      · next same =>
        subst same
        exact mem_append_left _ held
      · have mem := covered id marked other held stillFalse
        rcases mem_cons.mp mem with rfl | later
        · exact absurd rfl differs
        · exact mem_append_right _ later
  | case3 marks first pending marked ih =>
    apply ih
    intro id alreadyMarked other held stillFalse
    rcases mem_cons.mp (covered id alreadyMarked other held stillFalse) with rfl | later
    · exact absurd stillFalse marked
    · exact later

theorem held_of_absent (absent : scopes.cells[id]? = none) : scopes.held id = [] := by
  simp [held, bindings, absent]

theorem reachable_of_reach (reached : Reach scopes start id) :
    (scopes.reachable start)[id]? ≠ some false := by
  have unmarked : Covered scopes (Array.replicate scopes.size false) start := by
    intro id marked
    simp [Array.getElem?_replicate] at marked
  have closed := covered_mark unmarked
  induction reached with
  | @here id mem => exact (mark_keeps scopes _ start id).2.2 mem
  | @beyond id other _ held marked =>
    cases mark : (scopes.reachable start)[id]? with
    | none =>
      have outside :=
        (mark_keeps scopes (Array.replicate scopes.size false) start id).2.1.mpr mark
      have absent : scopes.cells[id]? = none := by
        simp only [Array.getElem?_eq_none_iff, Array.size_replicate] at outside ⊢
        exact outside
      rw [held_of_absent absent] at held
      cases held
    | some truth =>
      cases truth with
      | false => exact absurd mark marked
      | true =>
        intro stillFalse
        cases closed id mark other held stillFalse

theorem isLost_of_reach {scope : Scope} (reached : Reach scopes start id)
    (present : scopes.cells[id]? = some scope) :
    isLost (scopes.reachable start) id scope = false := by
  have marked := reachable_of_reach reached
  have inside : (scopes.reachable start)[id]? ≠ none := by
    intro none
    have outside := (mark_keeps scopes (Array.replicate scopes.size false) start id).2.1.mpr none
    simp only [Array.getElem?_eq_none_iff, Array.size_replicate] at outside
    have below := (Array.getElem?_eq_some_iff.mp present).1
    exact absurd below (Nat.not_lt.mpr outside)
  cases mark : (scopes.reachable start)[id]? with
  | none => exact absurd mark inside
  | some truth =>
    cases truth with
    | false => exact absurd mark marked
    | true => simp [isLost, mark]

/-! ### Retired scopes -/

/-- The scopes that `retire` clears. -/
def lost (scopes : Scopes) (kept : List Val) (roots : List Env) : List ScopeId :=
  let marks := scopes.reachable (roots.flatten ++ Val.capturesOfItems kept)
  (List.range scopes.size).filter fun id => scopes.cells[id]?.any (isLost marks id)

variable {kept : List Val} {roots : List Env}

theorem mem_lost :
    id ∈ scopes.lost kept roots ↔
      ∃ scope, scopes.cells[id]? = some scope ∧
        isLost (scopes.reachable (roots.flatten ++ Val.capturesOfItems kept)) id scope = true := by
  simp only [lost, mem_filter, mem_range, Option.any_eq_true_iff_get]
  constructor
  · rintro ⟨-, present, isLost⟩
    exact ⟨_, (Option.some_get present).symm, isLost⟩
  · rintro ⟨scope, present, isLost⟩
    refine ⟨(Array.getElem?_eq_some_iff.mp present).1, by simp [present], ?_⟩
    simpa [present] using isLost

theorem owner_of_mem_lost (isLost : id ∈ scopes.lost kept roots) :
    ∃ scope, scopes.cells[id]? = some scope ∧ scope.owner = .run := by
  obtain ⟨scope, present, unmarked⟩ := mem_lost.mp isLost
  simp only [Scopes.isLost, Bool.and_eq_true, decide_eq_true_eq] at unmarked
  exact ⟨scope, present, unmarked.1⟩

/-- What roots and kept values reach is not lost. -/
theorem not_mem_lost (reached : Reach scopes (roots.flatten ++ Val.capturesOfItems kept) id) :
    id ∉ scopes.lost kept roots := by
  intro mem
  obtain ⟨scope, present, unmarked⟩ := mem_lost.mp mem
  rw [isLost_of_reach reached present] at unmarked
  cases unmarked

section

variable (scopes : Scopes) (kept : List Val) (roots : List Env)

theorem getElem?_retire (id : ScopeId) :
    (scopes.retire kept roots).cells[id]? =
      scopes.cells[id]?.map fun scope =>
        if id ∈ scopes.lost kept roots then { scope with bindings := [] } else scope := by
  simp only [retire, Array.getElem?_mapIdx]
  cases present : scopes.cells[id]? with
  | none => rfl
  | some scope =>
    have same : id ∈ scopes.lost kept roots ↔
        isLost (scopes.reachable (roots.flatten ++ Val.capturesOfItems kept)) id scope = true := by
      rw [mem_lost, present]
      simp
    simp only [Option.map_some, same]

theorem bindings_retire (id : ScopeId) :
    (scopes.retire kept roots).bindings id =
      if id ∈ scopes.lost kept roots then [] else scopes.bindings id := by
  simp only [bindings, getElem?_retire]
  cases scopes.cells[id]? with
  | none => simp
  | some scope =>
    simp only [Option.map_some]
    split
    · rfl
    · rfl

@[simp]
theorem size_retire : (scopes.retire kept roots).size = scopes.size := by
  simp [retire, size]

end

/-! ### Stores that grow -/

/-- Every scope stays, with its owner and the names that it binds. -/
def Extends (scopes after : Scopes) : Prop :=
  ∀ (id : ScopeId) (scope : Scope), scopes.cells[id]? = some scope →
    ∃ later : Scope, after.cells[id]? = some later ∧ later.owner = scope.owner ∧
      ∀ name, (scope.bindings.get? name).isSome → (later.bindings.get? name).isSome

theorem Extends.refl (scopes : Scopes) : Extends scopes scopes :=
  fun _ scope present => ⟨scope, present, rfl, fun _ bound => bound⟩

theorem Extends.trans
    {first second third : Scopes} (left : Extends first second) (right : Extends second third) :
    Extends first third := by
  intro id scope present
  obtain ⟨later, presentLater, owner, names⟩ := left id scope present
  obtain ⟨last, presentLast, lastOwner, lastNames⟩ := right id later presentLater
  exact ⟨last, presentLast, lastOwner.trans owner,
    fun name bound => lastNames name (names name bound)⟩

theorem Extends.size_le {after : Scopes} (extended : Extends scopes after) :
    scopes.size ≤ after.size := by
  by_cases empty : scopes.size = 0
  · omega
  · have inside : scopes.size - 1 < scopes.cells.size := by
      simp only [size] at *
      omega
    obtain ⟨later, present, -⟩ := extended (scopes.size - 1) _ (Array.getElem?_eq_getElem inside)
    have below := (Array.getElem?_eq_some_iff.mp present).1
    simp only [size] at *
    omega

theorem Extends.bound
    {after : Scopes} (extended : Extends scopes after) {id : ScopeId} {name : String}
    (bound : ((scopes.bindings id).get? name).isSome) :
    ((after.bindings id).get? name).isSome := by
  simp only [bindings] at *
  cases present : scopes.cells[id]? with
  | none =>
    rw [present] at bound
    cases bound
  | some scope =>
    rw [present] at bound
    obtain ⟨later, presentLater, -, names⟩ := extended id scope present
    rw [presentLater]
    exact names name bound

theorem extends_push (scopes : Scopes) (scope : Scope) :
    Extends scopes ⟨scopes.cells.push scope⟩ := by
  intro id old present
  have inside := (Array.getElem?_eq_some_iff.mp present).1
  refine ⟨old, ?_, rfl, fun _ bound => bound⟩
  rw [Array.getElem?_push, if_neg (Nat.ne_of_lt inside)]
  exact present

theorem isSome_get?_define {bindings : Bindings} {name other : String} (value : Val)
    (bound : (bindings.get? name).isSome) :
    ((bindings.define other value).get? name).isSome := by
  by_cases same : other = name
  · subst same
    simp
  · rwa [Bindings.get?_define_of_ne same]

theorem extends_define (scopes : Scopes) (env : Env) (name : String) (value : Val) :
    Extends scopes (scopes.define env name value) := by
  cases env with
  | nil => exact Extends.refl scopes
  | cons inner outer =>
    intro id scope present
    simp only [define, Array.getElem?_modify, present, Option.map_some]
    split
    · exact ⟨_, rfl, rfl, fun _ bound => isSome_get?_define value bound⟩
    · exact ⟨scope, rfl, rfl, fun _ bound => bound⟩

theorem extends_defineAll (scopes : Scopes) (env : Env) (entries : List (String × Val)) :
    Extends scopes (scopes.defineAll env entries) := by
  induction entries generalizing scopes with
  | nil => exact Extends.refl scopes
  | cons entry rest ih =>
    exact (extends_define scopes env entry.1 entry.2).trans (ih _)

end Reactor.Scopes

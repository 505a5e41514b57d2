import Reactor.Proofs.Run.Avoiding

/-!
# Retiring scopes is exact

Whether a scope is still of use is a matter of chains: the chain that an expression is evaluated in, the
chain that a function was defined in.  `Val.ClosesOver` says which chains there are inside a value, and
`Scopes.Live` which chains can come up again: the ones that are given, the ones inside the values that
are kept, the outer part of a live chain, and the ones inside a value bound in the innermost scope of a
live chain.  Neither speaks of marks or of an order in which scopes are visited.

The main result compares them with `Scopes.retire`, which sets marks until nothing is left to mark:
exactly the scopes of the run that are in no live chain are cleared.
-/

namespace Reactor

open List

/-- A definition or one of its functions was made in the chain. -/
def Definition.ClosesOver (definition : Definition) (env : Env) : Prop :=
  definition.env = env ∨ ∃ function ∈ definition.functions, function.env = env

/-- Something inside a value was made in the chain. -/
inductive Val.ClosesOver (env : Env) : Val → Prop where
  | item {items : List Val} {item : Val} (member : item ∈ items) (inside : ClosesOver env item) :
      ClosesOver env (.list items)
  | member {members : List Val} {item : Val} (member : item ∈ members)
      (inside : ClosesOver env item) : ClosesOver env (.set members)
  | key {entries : List (Val × Val)} {entry : Val × Val} (member : entry ∈ entries)
      (inside : ClosesOver env entry.1) : ClosesOver env (.map entries)
  | value {entries : List (Val × Val)} {entry : Val × Val} (member : entry ∈ entries)
      (inside : ClosesOver env entry.2) : ClosesOver env (.map entries)
  | definition {definition : Definition} {fields : List Val} (made : definition.ClosesOver env) :
      ClosesOver env (.record definition fields)
  | field {definition : Definition} {fields : List Val} {field : Val} (member : field ∈ fields)
      (inside : ClosesOver env field) : ClosesOver env (.record definition fields)
  | closure {function : Closure} (made : function.env = env) : ClosesOver env (.closure function)
  | method {receiver : Val} {function : Closure} (made : function.env = env) :
      ClosesOver env (.method receiver function)
  | receiver {receiver : Val} {function : Closure} (inside : ClosesOver env receiver) :
      ClosesOver env (.method receiver function)
  | native {receiver : Val} {name : String} (inside : ClosesOver env receiver) :
      ClosesOver env (.native receiver name)
  | constructor {definition : Definition} (made : definition.ClosesOver env) :
      ClosesOver env (.constructor definition)

theorem Definition.mem_captures {definition : Definition} {id : ScopeId} :
    id ∈ definition.captures ↔ ∃ env, definition.ClosesOver env ∧ id ∈ env := by
  simp only [captures, ClosesOver, mem_append, mem_flatMap]
  constructor
  · rintro (mem | ⟨function, listed, mem⟩)
    · exact ⟨_, .inl rfl, mem⟩
    · exact ⟨_, .inr ⟨function, listed, rfl⟩, mem⟩
  · rintro ⟨env, rfl | ⟨function, listed, rfl⟩, mem⟩
    · exact .inl mem
    · exact .inr ⟨function, listed, mem⟩

namespace Val

theorem ClosesOver.mem_captures
    {env : Env} {value : Val} (inside : value.ClosesOver env) {id : ScopeId} (mem : id ∈ env) :
    id ∈ value.captures := by
  induction inside with
  | item listed _ ih | member listed _ ih =>
    rw [captures, mem_capturesOfItems]
    exact ⟨_, listed, ih⟩
  | key listed _ ih =>
    rw [captures, mem_capturesOfEntries]
    exact ⟨_, listed, .inl ih⟩
  | value listed _ ih =>
    rw [captures, mem_capturesOfEntries]
    exact ⟨_, listed, .inr ih⟩
  | definition made =>
    rw [captures]
    exact mem_append_left _ (Definition.mem_captures.mpr ⟨env, made, mem⟩)
  | field listed _ ih =>
    rw [captures, mem_append, mem_capturesOfItems]
    exact .inr ⟨_, listed, ih⟩
  | closure made =>
    rw [captures, made]
    exact mem
  | method made =>
    rw [captures, made]
    exact mem_append_left _ mem
  | receiver _ ih =>
    rw [captures]
    exact mem_append_right _ ih
  | native _ ih =>
    rw [captures]
    exact ih
  | constructor made =>
    rw [captures]
    exact Definition.mem_captures.mpr ⟨env, made, mem⟩

theorem exists_closesOver {id : ScopeId} :
    (value : Val) → id ∈ value.captures → ∃ env, value.ClosesOver env ∧ id ∈ env
  | bool _, held | num _, held | text _, held | conversion _, held | exception _ _, held => by
      rw [captures] at held
      cases held
  | list items, held => by
      rw [captures, mem_capturesOfItems] at held
      obtain ⟨item, listed, held⟩ := held
      obtain ⟨env, inside, mem⟩ := exists_closesOver item held
      exact ⟨env, .item listed inside, mem⟩
  | set members, held => by
      rw [captures, mem_capturesOfItems] at held
      obtain ⟨item, listed, held⟩ := held
      obtain ⟨env, inside, mem⟩ := exists_closesOver item held
      exact ⟨env, .member listed inside, mem⟩
  | map entries, held => by
      rw [captures, mem_capturesOfEntries] at held
      obtain ⟨entry, listed, held⟩ := held
      rcases entry with ⟨key, value⟩
      have smaller : 1 + sizeOf key + sizeOf value < sizeOf entries :=
        sizeOf_lt_of_mem listed
      rcases held with held | held
      · obtain ⟨env, inside, mem⟩ := exists_closesOver key held
        exact ⟨env, .key listed inside, mem⟩
      · obtain ⟨env, inside, mem⟩ := exists_closesOver value held
        exact ⟨env, .value listed inside, mem⟩
  | record definition fields, held => by
      rw [captures, mem_append, mem_capturesOfItems, Definition.mem_captures] at held
      rcases held with ⟨env, made, mem⟩ | ⟨field, listed, held⟩
      · exact ⟨env, .definition made, mem⟩
      · obtain ⟨env, inside, mem⟩ := exists_closesOver field held
        exact ⟨env, .field listed inside, mem⟩
  | closure function, held => by
      rw [captures] at held
      exact ⟨_, .closure rfl, held⟩
  | method receiver function, held => by
      rw [captures, mem_append] at held
      rcases held with held | held
      · exact ⟨_, .method rfl, held⟩
      · obtain ⟨env, inside, mem⟩ := exists_closesOver receiver held
        exact ⟨env, .receiver inside, mem⟩
  | native receiver name, held => by
      rw [captures] at held
      obtain ⟨env, inside, mem⟩ := exists_closesOver receiver held
      exact ⟨env, .native inside, mem⟩
  | constructor definition, held => by
      rw [captures, Definition.mem_captures] at held
      obtain ⟨env, made, mem⟩ := held
      exact ⟨env, .constructor made, mem⟩

end Val

namespace Scopes

variable {scopes : Scopes} {kept : List Val} {roots : List Env}

/-- The chains that can come up again if the run goes on with some values and some chains. -/
inductive Live (scopes : Scopes) (kept : List Val) (roots : List Env) : Env → Prop where
  | root {env : Env} (given : env ∈ roots) : Live scopes kept roots env
  | kept {value : Val} {env : Env} (given : value ∈ kept) (inside : value.ClosesOver env) :
      Live scopes kept roots env
  | parent {id : ScopeId} {outer : Env} (live : Live scopes kept roots (id :: outer)) :
      Live scopes kept roots outer
  | bound {id : ScopeId} {outer : Env} {name : String} {value : Val} {env : Env}
      (live : Live scopes kept roots (id :: outer)) (bound : (name, value) ∈ scopes.bindings id)
      (inside : value.ClosesOver env) : Live scopes kept roots env

variable {env : Env} {id : ScopeId}

theorem Live.exists_cons (live : Live scopes kept roots env)
    (mem : id ∈ env) : ∃ outer, Live scopes kept roots (id :: outer) := by
  induction env with
  | nil => cases mem
  | cons inner outer ih =>
    rcases mem_cons.mp mem with rfl | further
    · exact ⟨outer, live⟩
    · exact ih live.parent further

theorem Live.reach (live : Live scopes kept roots env) :
    ∀ id ∈ env, Reach scopes (roots.flatten ++ Val.capturesOfItems kept) id := by
  induction live with
  | root given =>
    intro id mem
    exact .here (mem_append_left _ (mem_flatten.mpr ⟨_, given, mem⟩))
  | kept given inside =>
    intro id mem
    refine .here (mem_append_right _ ?_)
    exact Val.mem_capturesOfItems.mpr ⟨_, given, inside.mem_captures mem⟩
  | parent _ ih => exact fun id mem => ih id (mem_cons_of_mem _ mem)
  | bound _ bound inside ih =>
    intro id mem
    refine (ih _ mem_cons_self).beyond ?_
    exact mem_flatMap.mpr ⟨_, bound, inside.mem_captures mem⟩

theorem Reach.exists_live (reached : Reach scopes (roots.flatten ++ Val.capturesOfItems kept) id) :
    ∃ outer, Live scopes kept roots (id :: outer) := by
  induction reached with
  | here mem =>
    rcases mem_append.mp mem with given | held
    · obtain ⟨env, given, mem⟩ := mem_flatten.mp given
      exact (Live.root given).exists_cons mem
    · obtain ⟨value, given, held⟩ := Val.mem_capturesOfItems.mp held
      obtain ⟨env, inside, mem⟩ := value.exists_closesOver held
      exact (Live.kept given inside).exists_cons mem
  | beyond _ held ih =>
    obtain ⟨outer, live⟩ := ih
    obtain ⟨⟨name, value⟩, bound, held⟩ := mem_flatMap.mp held
    obtain ⟨env, inside, mem⟩ := value.exists_closesOver held
    exact (live.bound bound inside).exists_cons mem

theorem reach_of_mark {start : List ScopeId} {marks : Array Bool} {pending : List ScopeId}
    (marked : ∀ id, marks[id]? = some true → Reach scopes start id)
    (awaited : ∀ id ∈ pending, Reach scopes start id) :
    ∀ id, (scopes.mark marks pending)[id]? = some true → Reach scopes start id := by
  fun_induction mark scopes marks pending with
  | case1 marks => exact marked
  | case2 marks first pending unmarked ih =>
    obtain ⟨here, later⟩ := forall_mem_cons.mp awaited
    refine ih (fun id set => ?_) (forall_mem_append.mpr ⟨fun other held => here.beyond held, later⟩)
    rw [getElem?_mark] at set
    split at set
    · next same => exact same ▸ here
    · exact marked id set
  | case3 marks first pending _ ih =>
    exact ih marked (forall_mem_cons.mp awaited).2

theorem mem_lost_iff :
    id ∈ scopes.lost kept roots ↔
      (∃ scope, scopes.cells[id]? = some scope ∧ scope.owner = .run) ∧
        ∀ outer, ¬ Live scopes kept roots (id :: outer) := by
  constructor
  · intro isLost
    refine ⟨owner_of_mem_lost isLost, fun outer live => ?_⟩
    exact not_mem_lost (live.reach id mem_cons_self) isLost
  · rintro ⟨⟨scope, present, owner⟩, dead⟩
    have unmarked :
        (scopes.reachable (roots.flatten ++ Val.capturesOfItems kept))[id]? ≠ some true := by
      intro marked
      have reached := reach_of_mark
        (fun id set => by simp [Array.getElem?_replicate] at set) (fun id => .here) id marked
      obtain ⟨outer, live⟩ := reached.exists_live
      exact dead outer live
    exact mem_lost.mpr ⟨scope, present, by simp [isLost, owner, unmarked]⟩

theorem getElem?_retire_of_live (live : Live scopes kept roots env) :
    ∀ id ∈ env, (scopes.retire kept roots).cells[id]? = scopes.cells[id]? := by
  intro id mem
  simp only [getElem?_retire, if_neg (not_mem_lost (live.reach id mem)), Option.map_id']

theorem lookup?_congr {after : Scopes} (same : ∀ id ∈ env, after.cells[id]? = scopes.cells[id]?)
    (name : String) : after.lookup? env name = scopes.lookup? env name := by
  induction env with
  | nil => rfl
  | cons inner outer ih =>
    obtain ⟨here, further⟩ := forall_mem_cons.mp same
    simp only [lookup?, bindings, here, ih further]

/-- Retiring scopes is exact.  The scopes of every live chain stay as they are, so every name means what
it meant in the chain; the other scopes of the run bind nothing any more; and the scopes that do not
belong to the run are not concerned. -/
theorem retire_clears_exactly_the_dead (scopes : Scopes) (kept : List Val) (roots : List Env) :
    (∀ env, Live scopes kept roots env →
      (∀ id ∈ env, (scopes.retire kept roots).cells[id]? = scopes.cells[id]?) ∧
        ∀ name, (scopes.retire kept roots).lookup? env name = scopes.lookup? env name) ∧
      (∀ (id : ScopeId) (scope : Scope), scopes.cells[id]? = some scope → scope.owner = .run →
        (∀ outer, ¬ Live scopes kept roots (id :: outer)) →
          (scopes.retire kept roots).cells[id]? = some { scope with bindings := [] }) ∧
      (∀ (id : ScopeId) (scope : Scope), scopes.cells[id]? = some scope → scope.owner ≠ .run →
        (scopes.retire kept roots).cells[id]? = some scope) ∧
      (scopes.retire kept roots).size = scopes.size := by
  refine ⟨fun env live => ?_, fun id scope present owner dead => ?_,
    fun id scope present owner => ?_, size_retire scopes kept roots⟩
  · have same := getElem?_retire_of_live live
    exact ⟨same, lookup?_congr same⟩
  · have isLost := mem_lost_iff.mpr ⟨⟨scope, present, owner⟩, dead⟩
    rw [getElem?_retire, present, Option.map_some, if_pos isLost]
  · have stays : id ∉ scopes.lost kept roots := by
      intro isLost
      obtain ⟨other, found, owned⟩ := owner_of_mem_lost isLost
      rw [present] at found
      cases found
      exact owner owned
    rw [getElem?_retire, present, Option.map_some, if_neg stays]

/-- Two functions are each bound in the scope that they close over, and the scope of one is a root. -/
theorem retire_clears_exactly_the_dead_for_two_functions :
    let function : ScopeId → Val := fun id => .closure ⟨⟨.run, id⟩, none, [], 0, [id]⟩
    let scopes : Scopes :=
      ⟨#[⟨.run, [("f", function 0)]⟩, ⟨.run, [("g", function 1)]⟩, ⟨.host, [("h", function 1)]⟩]⟩
    let after := scopes.retire [] [[0]]
    after.lookup? [0] "f" = scopes.lookup? [0] "f" ∧ after.cells[1]? = some ⟨.run, []⟩ ∧
      after.cells[2]? = some ⟨.host, [("h", function 1)]⟩ := by
  intro function scopes after
  have chains : ∀ env, Live scopes [] [[0]] env → env = [0] ∨ env = [] := by
    intro env live
    induction live with
    | root given => exact .inl (List.mem_singleton.mp given)
    | kept given inside => cases given
    | @parent id outer live hypothesis =>
      obtain ⟨rfl, rfl⟩ : id = 0 ∧ outer = [] := by simpa using hypothesis
      exact .inr rfl
    | @bound id outer _ _ _ live bound inside hypothesis =>
      obtain ⟨rfl, rfl⟩ : id = 0 ∧ outer = [] := by simpa using hypothesis
      cases List.mem_singleton.mp (show _ ∈ [("f", function 0)] from bound)
      cases inside with
      | closure made => exact .inl made.symm
  have dead : ∀ outer, ¬ Live scopes [] [[0]] (1 :: outer) := by
    intro outer live
    simpa using chains _ live
  obtain ⟨alive, lost, foreign, -⟩ := retire_clears_exactly_the_dead scopes [] [[0]]
  exact ⟨(alive [0] (.root (List.mem_singleton_self _))).2 "f", lost 1 _ rfl rfl dead,
    foreign 2 _ rfl nofun⟩

end Scopes

end Reactor

import Reactor.Proofs.Stream.Lookup
import Reactor.Proofs.Reaction.Lookup
import Reactor.Proofs.Value.Law

/-!
# Properties of all values of a run

A run holds values in scopes, streams, reactions, nodes and sources.  `Run.Holds` says that all of
them have a property.  Whatever stores values keeps it as long as the values stored have it, and
whatever is read from such a run has it.
-/

namespace Reactor

open List

variable {size : Nat} {Good : Val → Prop}

/-! ### Names -/

/-- Names whose values all have a property. -/
def Bindings.Holds (Good : Val → Prop) (bindings : Bindings) : Prop :=
  ∀ entry ∈ bindings, Good entry.2

namespace Bindings

variable {bindings : Bindings} (holds : bindings.Holds Good)
include holds

theorem Holds.define (name : String) {value : Val} (good : Good value) :
    (bindings.define name value).Holds Good := by
  induction bindings with
  | nil => simpa [Bindings.define, Holds] using good
  | cons entry rest ih =>
    obtain ⟨here, others⟩ := forall_mem_cons.mp holds
    simp only [Bindings.define]
    split
    · exact forall_mem_cons.mpr ⟨good, others⟩
    · exact forall_mem_cons.mpr ⟨here, ih others⟩

theorem Holds.get? {name : String} {value : Val} (found : bindings.get? name = some value) :
    Good value := by
  induction bindings with
  | nil => cases found
  | cons entry rest ih =>
    obtain ⟨here, others⟩ := forall_mem_cons.mp holds
    simp only [Bindings.get?] at found
    split at found
    · cases found
      exact here
    · exact ih others found

end Bindings

/-! ### Scopes -/

/-- Scopes in which all bound values have a property. -/
def Scopes.Holds (Good : Val → Prop) (scopes : Scopes) : Prop :=
  ∀ id, (scopes.bindings id).Holds Good

namespace Scopes

theorem holds_empty : Scopes.empty.Holds Good := by
  intro id entry mem
  simp [Scopes.bindings, Scopes.empty] at mem

variable {scopes : Scopes} {value : Val}

theorem Holds.root (holds : scopes.Holds Good) :
    scopes.root.2.Holds Good := by
  intro id
  rw [bindings_root]
  exact holds id

theorem Holds.child (holds : scopes.Holds Good) (env : Env) :
    (scopes.child env).2.Holds Good := by
  intro id
  rw [bindings_child]
  exact holds id

section

variable {id : ScopeId} (holds : (scopes.bindings id).Holds Good) (env : Env)
include holds

theorem holds_bindings_define (name : String) (good : Good value) :
    ((scopes.define env name value).bindings id).Holds Good := by
  by_cases innermost : env.head? = some id
  · obtain ⟨outer, rfl⟩ := head?_eq_some_iff.mp innermost
    simp only [bindings, Scopes.define, Array.getElem?_modify] at holds ⊢
    cases cell : scopes.cells[id]? with
    | none => simp [Bindings.Holds]
    | some scope =>
      simp only [cell] at holds
      simpa using holds.define name good
  · rwa [bindings_define_of_ne scopes env name value innermost]

theorem holds_bindings_defineAll {entries : List (String × Val)}
    (good : ∀ entry ∈ entries, Good entry.2) :
    ((scopes.defineAll env entries).bindings id).Holds Good := by
  induction entries generalizing scopes with
  | nil => exact holds
  | cons entry rest ih =>
    obtain ⟨here, others⟩ := forall_mem_cons.mp good
    exact ih (holds_bindings_define holds env entry.1 here) others

end

variable (holds : scopes.Holds Good)
include holds

theorem Holds.define (env : Env) (name : String) (good : Good value) :
    (scopes.define env name value).Holds Good :=
  fun id => holds_bindings_define (holds id) env name good

theorem Holds.defineAll (env : Env) {entries : List (String × Val)}
    (good : ∀ entry ∈ entries, Good entry.2) :
    (scopes.defineAll env entries).Holds Good :=
  fun id => holds_bindings_defineAll (holds id) env good

theorem Holds.lookup? {env : Env} {name : String} (found : scopes.lookup? env name = some value) :
    Good value := by
  induction env with
  | nil => cases found
  | cons id outer ih =>
    simp only [Scopes.lookup?] at found
    split at found
    · next bound =>
      cases found
      exact (holds id).get? bound
    · exact ih found

theorem Holds.retire (kept : List Val) (roots : List Env) :
    (scopes.retire kept roots).Holds Good := by
  intro id entry mem
  have before := holds id
  simp only [bindings, Scopes.retire, Array.getElem?_mapIdx] at before mem
  cases cell : scopes.cells[id]? with
  | none => simp [cell] at mem
  | some scope =>
    simp only [cell, Option.map_some] at before mem
    split at mem
    · cases mem
    · exact before entry mem

end Scopes

/-! ### Streams -/

/-- Streams whose values all have a property, those that wait and the initial ones included. -/
def Streams.Holds (Good : Val → Prop) (streams : Streams) : Prop :=
  ∀ stream ∈ streams.streams, ∀ value ∈ stream.values, Good value

namespace Streams

theorem mem_insertByName {stream other : Stream} {streams : List Stream} :
    other ∈ insertByName stream streams ↔ other = stream ∨ other ∈ streams := by
  induction streams with
  | nil => simp [insertByName]
  | cons first rest ih =>
    simp only [insertByName]
    split
    · simp
    · simp only [mem_cons, ih]
      exact or_left_comm

theorem holds_empty : Streams.empty.Holds Good := by
  simp [Streams.Holds, Streams.empty]

variable {streams : Streams} {name : String}

theorem Holds.add (holds : streams.Holds Good)
    {stream : Stream} (good : ∀ value ∈ stream.values, Good value) :
    (streams.add stream).Holds Good := by
  intro other mem
  rcases mem_insertByName.mp mem with rfl | old
  · exact good
  · exact holds other old

theorem Holds.changeAll (holds : streams.Holds Good) {update : Stream → Stream}
    (kept : ∀ stream, (∀ value ∈ stream.values, Good value) →
      ∀ value ∈ (update stream).values, Good value) :
    (streams.changeAll update).Holds Good := by
  intro other mem
  obtain ⟨stream, present, rfl⟩ := mem_map.mp mem
  exact kept stream (holds stream present)

theorem Holds.change (holds : streams.Holds Good) (name : String) {update : Stream → Stream}
    (kept : ∀ stream, (∀ value ∈ stream.values, Good value) →
      ∀ value ∈ (update stream).values, Good value) :
    (streams.change name update).Holds Good := by
  refine Holds.changeAll holds fun stream good => ?_
  split
  · exact kept stream good
  · exact good

theorem values_create {kind : StreamKind} {initial : Option Val} {value : Val}
    (mem : value ∈ (Stream.create name kind initial).values) :
    initial = some value := by
  simpa [Stream.values, Stream.create] using mem

theorem Holds.ensure? (law : Val.Fabric size Good) {after : Streams} (holds : streams.Holds Good)
    (ensured : streams.ensure? name = some after) :
    after.Holds Good := by
  simp only [Streams.ensure?] at ensured
  split at ensured
  · cases ensured
    exact holds
  · obtain ⟨stream, provided, rfl⟩ := Option.map_eq_some_iff.mp ensured
    apply holds.add
    simp only [provided?] at provided
    split at provided
    · cases provided
      intro value mem
      cases values_create mem
      exact law.num _
    · cases provided

theorem Holds.register (holds : streams.Holds Good) (name : String) :
    (streams.register name).Holds Good := by
  simp only [Streams.register]
  split
  · exact holds
  · apply holds.add
    intro value mem
    cases values_create mem

theorem Holds.registerWith {after : Streams} (holds : streams.Holds Good)
    {kind : StreamKind} {initial : Option Val} (good : ∀ value, initial = some value → Good value)
    (registered : streams.registerWith name kind initial = .ok after) :
    after.Holds Good := by
  simp only [Streams.registerWith] at registered
  split at registered
  · cases registered
  · split at registered
    · split at registered
      · cases registered
        exact holds
      · cases registered
    · cases registered
      exact holds.add fun value mem => good value (values_create mem)

theorem Holds.push (law : Val.Fabric size Good) {streams : Streams} (holds : streams.Holds Good)
    (name : String) {value : Val} (good : Good value) :
    (streams.push name value).1.Holds Good := by
  simp only [Streams.push]
  split
  · exact holds
  · next after ensured =>
    have there : after.Holds Good := Holds.ensure? law holds ensured
    split
    · exact there
    · split
      · refine there.change name fun stream goodStream other mem => ?_
        simp only [Stream.values, Stream.accept, mem_append, mem_singleton] at *
        rcases mem with (old | old | rfl) | old
        · exact goodStream other (Or.inl (Or.inl old))
        · exact goodStream other (Or.inl (Or.inr old))
        · exact good
        · exact goodStream other (Or.inr old)
      · exact there

theorem Holds.drain (law : Val.Fabric size Good) (holds : streams.Holds Good) :
    streams.drain.1.Holds Good := by
  have delivered : ∀ (messages : List (String × Datum)) (state : Streams × Nat),
      state.1.Holds Good → (messages.foldl deliver state).1.Holds Good := by
    intro messages
    induction messages with
    | nil => exact fun _ kept => kept
    | cons message rest ih =>
      intro state kept
      apply ih
      have pushed := kept.push law message.1 (law.datum message.2)
      simp only [deliver]
      split <;> simp_all
  exact delivered streams.inbox _ holds

variable (holds : streams.Holds Good)
include holds

theorem Holds.commit : streams.commit.Holds Good := by
  refine Holds.changeAll holds fun stream good value mem => good value ?_
  simpa [Stream.values, Stream.commit] using mem

theorem Holds.reset : streams.reset.Holds Good := by
  refine Holds.changeAll holds fun stream good value mem => good value ?_
  simp only [Stream.values, Stream.reset, append_nil, mem_append] at mem ⊢
  exact Or.inr (mem.elim id id)

theorem Holds.unsubscribeAll : streams.unsubscribeAll.Holds Good :=
  Holds.changeAll holds fun _ good => good

theorem Holds.subscribeAll (names : List String) (reaction : NodeId) :
    (streams.subscribeAll names reaction).Holds Good := by
  induction names generalizing streams with
  | nil => exact holds
  | cons name rest ih => exact ih (holds.change name fun _ good => good)

theorem Holds.latest? {value : Val} (found : streams.latest? name = some value) : Good value := by
  obtain ⟨stream, present, newest⟩ := Option.bind_eq_some_iff.mp found
  apply holds stream (mem_of_get? present)
  have inHistory : value ∈ stream.history := mem_of_getLast? newest
  simp [Stream.values, inHistory]

end Streams

/-! ### Reactions -/

/-- Reactions whose values all have a property. -/
def Reactions.Holds (Good : Val → Prop) (reactions : Reactions) : Prop :=
  ∀ reaction ∈ reactions.table, Good reaction.value

namespace Reactions

variable {reactions : Reactions}

variable (holds : reactions.Holds Good)
include holds

theorem Holds.get? {node : NodeId} {reaction : Reaction}
    (found : reactions.get? node = some reaction) :
    Good reaction.value :=
  holds reaction (mem_table_of_get? found)

theorem Holds.insert {reaction : Reaction} (good : Good reaction.value) :
    (reactions.insert reaction).Holds Good := by
  have inserted : ∀ table : List Reaction, (∀ other ∈ table, Good other.value) →
      ∀ other ∈ insertInto reaction table, Good other.value := by
    intro table
    induction table with
    | nil => simpa [insertInto] using good
    | cons first rest ih =>
      intro all
      obtain ⟨here, others⟩ := forall_mem_cons.mp all
      simp only [insertInto]
      split
      · exact forall_mem_cons.mpr ⟨good, others⟩
      · exact forall_mem_cons.mpr ⟨here, ih others⟩
  exact inserted reactions.table holds

theorem Holds.change (node : NodeId) {update : Reaction → Reaction}
    (kept : ∀ reaction, Good reaction.value → Good (update reaction).value) :
    (reactions.change node update).Holds Good := by
  intro other mem
  obtain ⟨reaction, present, rfl⟩ := mem_map.mp mem
  split
  · exact kept reaction (holds reaction present)
  · exact holds reaction present

end Reactions

/-! ### Runs -/

/-- A run whose values all have a property. -/
structure Run.Holds (Good : Val → Prop) (run : Run) : Prop where
  scopes : run.scopes.Holds Good
  streams : run.streams.Holds Good
  reactions : run.reactions.Holds Good
  nodes : ∀ (node : NodeId) (value : Val), run.nodeValues[node]? = some value → Good value
  borrowed : run.borrowed.Holds Good
  results : run.sourceResults.Holds Good

namespace Run

theorem holds_initial : Run.initial.Holds Good where
  scopes := Scopes.holds_empty
  streams := Streams.holds_empty
  reactions := by simp [Run.initial, Reactions.Holds, Reactions.empty]
  nodes := by simp [Run.initial]
  borrowed := by simp [Run.initial, Bindings.Holds]
  results := by simp [Run.initial, Bindings.Holds]

variable {run : Run}

section

variable (holds : run.Holds Good)
include holds

theorem Holds.beginPass (setup : Setup) :
    (run.beginPass setup).Holds Good where
  scopes := holds.scopes.retire _ _
  streams := holds.streams
  reactions := holds.reactions
  nodes := holds.nodes
  borrowed := by simp [Run.beginPass, Bindings.Holds]
  results := holds.results

theorem Holds.reset (setup : Setup) :
    (run.reset setup).Holds Good where
  scopes := by
    simp only [Run.reset]
    split
    · exact holds.scopes.retire _ _
    · exact Scopes.holds_empty
  streams := holds.streams.reset
  reactions := by simp [Run.reset, Reactions.Holds, Reactions.empty]
  nodes := by simp [Run.reset]
  borrowed := by simp [Run.reset, Bindings.Holds]
  results := by simp [Run.reset, Bindings.Holds]

theorem Holds.release : run.release.Holds Good where
  scopes := holds.scopes.retire _ _
  streams := holds.streams.unsubscribeAll
  reactions := by simp [Run.release, Reactions.Holds, Reactions.empty]
  nodes := by simp [Run.release]
  borrowed := by simp [Run.release, Bindings.Holds]
  results := holds.results

theorem Holds.addReaction {reaction : Reaction} (good : Good reaction.value) :
    (run.addReaction reaction).Holds Good where
  scopes := holds.scopes
  streams := holds.streams.subscribeAll _ _
  reactions := holds.reactions.insert good
  nodes := holds.nodes
  borrowed := holds.borrowed
  results := holds.results

end

theorem Holds.record
    {run : Run} (holds : run.Holds Good) (node : NodeId) {value : Val} (good : Good value) :
    Run.Holds Good { run with nodeValues := run.nodeValues.insert node value } where
  scopes := holds.scopes
  streams := holds.streams
  reactions := holds.reactions
  nodes := by
    intro other stored found
    simp only [Std.HashMap.getElem?_insert] at found
    split at found
    · cases found
      exact good
    · exact holds.nodes other stored found
  borrowed := holds.borrowed
  results := holds.results

end Run

end Reactor

import Reactor.Proofs.Value.Law

/-!
# Closed values

A function value refers to its body by the number of a node.  A value is closed in a program if every
function inside it, at any depth, has a body among the nodes of the program.  This is what a host has
to promise of the values that it hands in, and the engine keeps it.
-/

namespace Reactor

open List

/-- The bodies of the functions of a structure. -/
def Definition.bodies (definition : Definition) : List NodeId :=
  definition.functions.map (·.body)

namespace Val

mutual

/-- The bodies of all functions inside a value. -/
def bodies : Val → List NodeId
  | list items | set items => bodiesOfItems items
  | map entries => bodiesOfEntries entries
  | record definition fields => definition.bodies ++ bodiesOfItems fields
  | closure function => [function.body]
  | method receiver function => function.body :: bodies receiver
  | native receiver _ => bodies receiver
  | constructor definition => definition.bodies
  | bool _ | num _ | text _ | conversion _ | exception .. => []

/-- The bodies of all functions inside the values of a list. -/
def bodiesOfItems : List Val → List NodeId
  | [] => []
  | item :: rest => bodies item ++ bodiesOfItems rest

/-- The bodies of all functions inside keys and values. -/
def bodiesOfEntries : List (Val × Val) → List NodeId
  | [] => []
  | (key, value) :: rest => bodies key ++ bodies value ++ bodiesOfEntries rest

end

/-- A value whose functions have their bodies among the first `size` nodes. -/
def Closed (size : Nat) (value : Val) : Prop :=
  ∀ body ∈ value.bodies, body < size

variable {size : Nat}

theorem closedItems_iff {items : List Val} :
    (∀ body ∈ bodiesOfItems items, body < size) ↔ ∀ item ∈ items, item.Closed size := by
  induction items with
  | nil => simp [bodiesOfItems]
  | cons item rest ih =>
    rw [forall_mem_cons, ← ih]
    simp only [bodiesOfItems, mem_append, Closed]
    constructor
    · intro all
      exact ⟨fun body mem => all body (Or.inl mem), fun body mem => all body (Or.inr mem)⟩
    · rintro ⟨first, others⟩ body (mem | mem)
      · exact first body mem
      · exact others body mem

theorem closedEntries_iff {entries : List (Val × Val)} :
    (∀ body ∈ bodiesOfEntries entries, body < size) ↔
      ∀ entry ∈ entries, entry.1.Closed size ∧ entry.2.Closed size := by
  induction entries with
  | nil => simp [bodiesOfEntries]
  | cons entry rest ih =>
    obtain ⟨key, value⟩ := entry
    rw [forall_mem_cons, ← ih]
    simp only [bodiesOfEntries, mem_append, Closed]
    constructor
    · intro all
      exact ⟨⟨fun body mem => all body (Or.inl (Or.inl mem)),
          fun body mem => all body (Or.inl (Or.inr mem))⟩,
        fun body mem => all body (Or.inr mem)⟩
    · rintro ⟨⟨inKey, inValue⟩, others⟩ body ((mem | mem) | mem)
      · exact inKey body mem
      · exact inValue body mem
      · exact others body mem

theorem closed_list_iff {items : List Val} :
    (list items).Closed size ↔ ∀ item ∈ items, item.Closed size := by
  simpa only [Closed, bodies] using closedItems_iff

theorem closed_set_iff {members : List Val} :
    (set members).Closed size ↔ ∀ item ∈ members, item.Closed size := by
  simpa only [Closed, bodies] using closedItems_iff

theorem closed_map_iff {entries : List (Val × Val)} :
    (map entries).Closed size ↔ ∀ entry ∈ entries, entry.1.Closed size ∧ entry.2.Closed size := by
  simpa only [Closed, bodies] using closedEntries_iff

theorem closed_constructor_iff {definition : Definition} :
    (constructor definition).Closed size ↔
      ∀ function ∈ definition.functions, function.body < size := by
  simp [Closed, bodies, Definition.bodies]

theorem closed_record_iff {definition : Definition} {fields : List Val} :
    (record definition fields).Closed size ↔
      (constructor definition).Closed size ∧ ∀ field ∈ fields, field.Closed size := by
  rw [← closedItems_iff]
  simp only [Closed, bodies, mem_append]
  constructor
  · intro all
    exact ⟨fun body mem => all body (Or.inl mem), fun body mem => all body (Or.inr mem)⟩
  · rintro ⟨inDefinition, inFields⟩ body (mem | mem)
    · exact inDefinition body mem
    · exact inFields body mem

theorem closed_law (size : Nat) : Law size (Closed size) where
  toFabric := Fabric.ofParts
    (fun _ => by simp [Closed, bodies]) (fun _ => by simp [Closed, bodies])
    (fun _ => by simp [Closed, bodies]) (fun _ => by simp [Closed, bodies])
    (fun _ _ _ _ => by simp [Closed, bodies, failure])
    (fun _ => closed_list_iff) (fun _ => closed_set_iff) (fun _ => closed_map_iff)
  cycle _ _ _ := by simp [Closed, bodies, failure]
  closure_iff _ := by simp [Closed, bodies]
  constructor_iff _ := closed_constructor_iff
  parts := closed_record_iff.mp
  construct closed _ closedArgs := closed_record_iff.mpr ⟨closed, closedArgs⟩
  method_iff _ _ := by
    simp only [Closed, bodies, forall_mem_cons]
    exact and_comm
  native_iff _ _ := by simp [Closed, bodies]

end Val

end Reactor

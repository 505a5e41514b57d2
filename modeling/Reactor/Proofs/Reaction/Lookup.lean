import Reactor.Reaction.Table

/-!
# Looking up reactions after changes

The table lists reactions in the order in which they came into being.  Where every node occurs once,
the listed reactions are those that are found by their nodes.
-/

namespace Reactor.Reactions

open List

/-- The nodes of all reactions, in the order in which the reactions came into being. -/
def nodes (reactions : Reactions) : List NodeId :=
  reactions.table.map (·.node)

variable {reaction : Reaction} {reactions : Reactions} {node : NodeId}

theorem node_of_get? (found : reactions.get? node = some reaction) :
    reaction.node = node := by
  simpa using find?_some found

theorem mem_table_of_get? (found : reactions.get? node = some reaction) :
    reaction ∈ reactions.table :=
  mem_of_find?_eq_some found

theorem get?_of_mem_table (once : reactions.nodes.Nodup) (mem : reaction ∈ reactions.table) :
    reactions.get? reaction.node = some reaction := by
  rcases reactions with ⟨table⟩
  simp only [nodes, get?] at *
  induction table with
  | nil => cases mem
  | cons first rest ih =>
    obtain ⟨absent, onceInRest⟩ := nodup_cons.mp once
    rcases mem_cons.mp mem with rfl | later
    · simp
    · have differs : first.node ≠ reaction.node := by
        intro equal
        exact absent (mem_map.mpr ⟨reaction, later, equal.symm⟩)
      simpa [differs] using ih onceInRest later

theorem find?_insertInto (reaction : Reaction) (table : List Reaction) (node : NodeId) :
    (insertInto reaction table).find? (·.node = node) =
      if node = reaction.node then some reaction
      else table.find? (·.node = node) := by
  induction table with
  | nil =>
    by_cases same : node = reaction.node
    · simp [insertInto, same]
    · simp [insertInto, same, Ne.symm same]
  | cons other rest ih =>
    simp only [insertInto]
    split
    · next here =>
      by_cases same : node = reaction.node
      · simp [same]
      · simp [same, Ne.symm same, here]
    · next elsewhere =>
      by_cases here : other.node = node
      · have differs : node ≠ reaction.node := here ▸ elsewhere
        simp [here, differs]
      · simp [here, ih]

/-- A reaction takes the place of an earlier one at its node. -/
theorem get?_insert (reactions : Reactions) (reaction : Reaction) (node : NodeId) :
    (reactions.insert reaction).get? node =
      if node = reaction.node then some reaction else reactions.get? node :=
  find?_insertInto reaction reactions.table node

theorem mem_of_mem_insertInto {entry : Reaction} {table : List Reaction}
    (mem : entry ∈ insertInto reaction table) :
    entry = reaction ∨ entry ∈ table := by
  induction table with
  | nil => exact Or.inl (mem_singleton.mp mem)
  | cons other rest ih =>
    simp only [insertInto] at mem
    split at mem
    · rcases mem_cons.mp mem with equal | later
      · exact Or.inl equal
      · exact Or.inr (mem_cons_of_mem _ later)
    · rcases mem_cons.mp mem with equal | later
      · exact Or.inr (equal ▸ mem_cons_self)
      · rcases ih later with equal | old
        · exact Or.inl equal
        · exact Or.inr (mem_cons_of_mem _ old)

theorem nodes_insertInto_subset {table : List Reaction}
    (mem : node ∈ (insertInto reaction table).map (·.node)) :
    node = reaction.node ∨ node ∈ table.map (·.node) := by
  obtain ⟨entry, entered, rfl⟩ := mem_map.mp mem
  rcases mem_of_mem_insertInto entered with rfl | old
  · exact Or.inl rfl
  · exact Or.inr (mem_map_of_mem old)

theorem nodup_nodes_insert (once : reactions.nodes.Nodup) (reaction : Reaction) :
    (reactions.insert reaction).nodes.Nodup := by
  rcases reactions with ⟨table⟩
  simp only [nodes, insert] at *
  induction table with
  | nil => simp [insertInto]
  | cons other rest ih =>
    obtain ⟨absent, onceInRest⟩ := nodup_cons.mp once
    simp only [insertInto]
    split
    · next here =>
      simp only [here] at absent
      exact nodup_cons.mpr ⟨absent, onceInRest⟩
    · next elsewhere =>
      refine nodup_cons.mpr ⟨?_, ih onceInRest⟩
      intro mem
      rcases nodes_insertInto_subset mem with equal | old
      · exact elsewhere equal
      · exact absent old

variable (reactions : Reactions) {update : Reaction → Reaction}

theorem get?_change (changed node : NodeId)
    (placed : ∀ reaction, (update reaction).node = reaction.node) :
    (reactions.change changed update).get? node =
      if node = changed then (reactions.get? node).map update
      else reactions.get? node := by
  have samePlace : ∀ reaction : Reaction,
      (if reaction.node = changed then update reaction else reaction).node = reaction.node := by
    intro reaction
    split
    · exact placed reaction
    · rfl
  simp only [get?, change, find?_map, Function.comp_def, samePlace]
  cases found : reactions.table.find? (·.node = node) with
  | none => simp
  | some reaction =>
    have here : reaction.node = node := by
      simpa using find?_some found
    by_cases same : node = changed
    · simp [here, same]
    · simp [here, same]

theorem nodes_change (changed : NodeId)
    (placed : ∀ reaction, (update reaction).node = reaction.node) :
    (reactions.change changed update).nodes = reactions.nodes := by
  simp only [nodes, change, map_map]
  apply map_congr_left
  intro reaction _
  simp only [Function.comp_apply]
  split
  · exact placed reaction
  · rfl

end Reactor.Reactions

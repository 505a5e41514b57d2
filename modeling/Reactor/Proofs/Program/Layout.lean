import Reactor.Program.Basic

/-!
# Laying out loses nothing

Whatever the form of an expression, laying it out comes to the same: its parts are laid out one after
the other, and a node is added whose children are the last nodes of the parts.  `Node.Lays` says that a
node stands for an expression in this way, and `Laid` what is true of nodes that were added for a list
of expressions.  A program with its sources is laid out from no nodes at all, so what is true of lists
of expressions is true of programs: the expressions can be read back, the nodes of each source lie
together, and every node is a root or the child of one node.
-/

namespace Reactor

open List

/-! ### Expressions and nodes by parts -/

namespace Expr

/-- The direct parts of an expression, from left to right. -/
def parts : Expr → List Expr
  | bool _ | num .. | text _ | name _ | previous | stream _ | borrow .. => []
  | list items | set items | block items => items
  | map entries => entries.flatMap fun (key, value) => [key, value]
  | record _ _ functions => functions.map (·.2)
  | call callee args => callee :: args
  | binary left _ right => [left, right]
  | conditional first second third | reaction first second third => [first, second, third]
  | bind _ only | function _ _ only | unary _ only | access only _ | is only _ | changed only => [only]

/-- The name that the parts of an expression are directly bound to. -/
def bound? : Expr → Option String
  | bind word _ => some word
  | _ => none

theorem sizeOf_lt_of_mem_parts {part whole : Expr} (inside : part ∈ whole.parts) :
    sizeOf part < sizeOf whole := by
  cases whole with
  | list items | set items | block items =>
    have smaller : sizeOf part < sizeOf items := sizeOf_lt_of_mem inside
    simp only [list.sizeOf_spec, set.sizeOf_spec, block.sizeOf_spec]
    omega
  | map entries =>
    obtain ⟨⟨key, value⟩, mem, isPart⟩ := mem_flatMap.mp inside
    have smaller := sizeOf_lt_of_mem mem
    simp only [Prod.mk.sizeOf_spec] at smaller
    simp only [mem_cons, not_mem_nil, or_false] at isPart
    simp only [map.sizeOf_spec]
    rcases isPart with rfl | rfl <;> omega
  | record word fields functions =>
    obtain ⟨⟨signature, body⟩, mem, rfl⟩ := mem_map.mp inside
    have smaller := sizeOf_lt_of_mem mem
    simp only [Prod.mk.sizeOf_spec] at smaller
    simp only [record.sizeOf_spec]
    omega
  | call callee args =>
    simp only [call.sizeOf_spec]
    rcases mem_cons.mp inside with rfl | isArg
    · omega
    · have smaller := sizeOf_lt_of_mem isArg
      omega
  | binary | conditional | reaction | bind | function | unary | access | is | changed =>
    simp only [parts, mem_cons, not_mem_nil, or_false] at inside
    rcases inside with rfl | rfl | rfl <;> simp +arith
  | bool | num | text | name | previous | stream | borrow => cases inside

/-- What holds of an expression whenever it holds of its parts holds of all expressions. -/
theorem induct_parts {motive : Expr → Prop}
    (whole : ∀ expr, (∀ part ∈ expr.parts, motive part) → motive expr) (expr : Expr) :
    motive expr :=
  whole expr fun part inside =>
    have := sizeOf_lt_of_mem_parts inside
    induct_parts whole part
termination_by sizeOf expr

end Expr

namespace Node

/-- The expression that a node stands for, if it is known what its children stand for. -/
def toExpr (read : NodeId → Expr) : Node → Expr
  | bool value => .bool value
  | num value units => .num value units
  | text characters => .text characters
  | list items => .list (items.map read)
  | set items => .set (items.map read)
  | map entries => .map (entries.map fun (key, value) => (read key, read value))
  | name word => .name word
  | previous => .previous
  | block statements => .block (statements.map read)
  | bind word value => .bind word (read value)
  | function word params body => .function word params (read body)
  | record word fields functions =>
    .record word fields (functions.map fun (signature, body) => (signature, read body))
  | call callee args => .call (read callee) (args.map read)
  | binary left op right => .binary (read left) op (read right)
  | unary op operand => .unary op (read operand)
  | conditional condition yes no => .conditional (read condition) (read yes) (read no)
  | access subject word => .access (read subject) word
  | is operand tag => .is (read operand) tag
  | stream word => .stream word
  | changed subject => .changed (read subject)
  | reaction initial condition next _ => .reaction (read initial) (read condition) (read next)
  | borrow source word => .borrow source word

/-- The name that the children of a node are directly bound to. -/
def bound? : Node → Option String
  | bind word _ => some word
  | _ => none

/-- The name that a reaction is bound to, if the node is one. -/
def binding? : Node → Option (Option String)
  | reaction _ _ _ binding => some binding
  | _ => none

/-- The node stands for an expression that is directly bound to a name or not, with the given nodes for
its parts. -/
structure Lays (binding : Option String) (expr : Expr) (ids : List NodeId) (node : Node) : Prop where
  children : node.children = ids
  bound : node.bound? = expr.bound?
  binding : ∀ given, node.binding? = some given → given = binding
  reads : ∀ read, ids.map read = expr.parts → node.toExpr read = expr

end Node

/-- Lay out expressions one after the other, all of them bound to a name or none. -/
def layOutParts (binding : Option String) : List Expr → Array Node → List NodeId × Array Node
  | [], nodes => ([], nodes)
  | expr :: rest, nodes =>
    let nodes := expr.layOut binding nodes
    let (ids, final) := layOutParts binding rest nodes
    ((nodes.size - 1) :: ids, final)

theorem layOutAll_eq (exprs : List Expr) (nodes : Array Node) :
    layOutAll exprs nodes = layOutParts none exprs nodes := by
  induction exprs generalizing nodes with
  | nil => rfl
  | cons expr rest ih => rw [layOutAll, layOutParts, ih]

theorem layOutParts_entries (entries : List (Expr × Expr)) (nodes : Array Node) :
    layOutParts none (entries.flatMap fun (key, value) => [key, value]) nodes =
      ((layOutEntries entries nodes).1.flatMap fun (key, value) => [key, value],
        (layOutEntries entries nodes).2) := by
  induction entries generalizing nodes with
  | nil => rfl
  | cons entry rest ih =>
    obtain ⟨key, value⟩ := entry
    simp only [flatMap_cons, cons_append, nil_append, layOutParts, ih, layOutEntries]

theorem layOutParts_functions (functions : List (Signature × Expr)) (nodes : Array Node) :
    layOutParts none (functions.map (·.2)) nodes =
        ((layOutFunctions functions nodes).1.map (·.2), (layOutFunctions functions nodes).2) ∧
      (layOutFunctions functions nodes).1.map (·.1) = functions.map (·.1) := by
  induction functions generalizing nodes with
  | nil => exact ⟨rfl, rfl⟩
  | cons function rest ih =>
    obtain ⟨signature, body⟩ := function
    obtain ⟨laid, signatures⟩ := ih (body.layOut none nodes)
    simp only [map_cons, layOutParts, layOutFunctions, laid, signatures, and_self]

theorem map_of_flatMap_pairs
    {ids : List (NodeId × NodeId)} {entries : List (Expr × Expr)} {read : NodeId → Expr}
    (reads : (ids.flatMap fun (key, value) => [key, value]).map read =
      entries.flatMap fun (key, value) => [key, value]) :
    (ids.map fun (key, value) => (read key, read value)) = entries := by
  induction ids generalizing entries with
  | nil =>
    cases entries with
    | nil => rfl
    | cons entry rest => cases reads
  | cons id rest ih =>
    cases entries with
    | nil => cases reads
    | cons entry others =>
      simp only [flatMap_cons, cons_append, nil_append, map_cons, List.cons.injEq] at reads
      rw [map_cons, ih reads.2.2]
      exact congrArg (· :: others) (Prod.ext reads.1 reads.2.1)

theorem map_of_map_bodies
    {ids : List (Signature × NodeId)} {functions : List (Signature × Expr)} {read : NodeId → Expr}
    (signatures : ids.map (·.1) = functions.map (·.1))
    (reads : (ids.map (·.2)).map read = functions.map (·.2)) :
    (ids.map fun (signature, body) => (signature, read body)) = functions := by
  induction ids generalizing functions with
  | nil =>
    cases functions with
    | nil => rfl
    | cons function rest => cases reads
  | cons id rest ih =>
    cases functions with
    | nil => cases reads
    | cons function others =>
      simp only [map_cons, List.cons.injEq] at signatures reads
      rw [map_cons, ih signatures.2 reads.2]
      exact congrArg (· :: others) (Prod.ext signatures.1 reads.1)

/-- To lay out an expression is to lay out its parts and to add a node for it. -/
theorem Expr.exists_layOut_eq (binding : Option String) (expr : Expr) (nodes : Array Node) :
    ∃ node, expr.layOut binding nodes = (layOutParts expr.bound? expr.parts nodes).2.push node ∧
      node.Lays binding expr (layOutParts expr.bound? expr.parts nodes).1 := by
  cases expr with
  | bool | num | text | name | previous | stream | borrow =>
    exact ⟨_, rfl, rfl, rfl, nofun, fun _ _ => rfl⟩
  | list items =>
    rw [layOut, layOutAll_eq]
    exact ⟨_, rfl, rfl, rfl, nofun, fun read reads => congrArg list reads⟩
  | set items =>
    rw [layOut, layOutAll_eq]
    exact ⟨_, rfl, rfl, rfl, nofun, fun read reads => congrArg set reads⟩
  | block statements =>
    rw [layOut, layOutAll_eq]
    exact ⟨_, rfl, rfl, rfl, nofun, fun read reads => congrArg block reads⟩
  | map entries =>
    simp only [layOut, bound?, parts, layOutParts_entries]
    exact ⟨_, rfl, rfl, rfl, nofun, fun read reads => congrArg map (map_of_flatMap_pairs reads)⟩
  | record word fields functions =>
    obtain ⟨laid, signatures⟩ := layOutParts_functions functions nodes
    simp only [layOut, bound?, parts, laid]
    exact ⟨_, rfl, rfl, rfl, nofun, fun read reads =>
      congrArg (record word fields) (map_of_map_bodies signatures reads)⟩
  | call callee args =>
    rw [layOut, layOutAll_eq]
    refine ⟨_, rfl, rfl, rfl, nofun, fun read reads => ?_⟩
    simp only [bound?, parts, layOutParts, map_cons, List.cons.injEq] at reads
    simp only [Node.toExpr, reads]
  | bind | function | unary | access | is | changed | binary | conditional =>
    refine ⟨_, rfl, rfl, rfl, nofun, fun read reads => ?_⟩
    simp only [bound?, parts, layOutParts, map_cons, List.cons.injEq] at reads
    simp only [Node.toExpr, reads]
  | reaction initial condition next =>
    refine ⟨_, rfl, rfl, rfl, fun given same => (Option.some.inj same).symm, fun read reads => ?_⟩
    simp only [bound?, parts, layOutParts, map_cons, List.cons.injEq] at reads
    simp only [Node.toExpr, reads]

/-! ### Reading nodes back -/

/-- The expression that stands at a node, read back through its children.  Only nodes that come before
it are read as its children. -/
def exprAt (nodes : Array Node) (id : NodeId) : Expr :=
  match nodes[id]? with
  | none => .previous
  | some node => node.toExpr fun child => if child < id then exprAt nodes child else .previous
termination_by id

theorem exprAt_of_node {nodes : Array Node} {id : NodeId} {node : Node}
    (present : nodes[id]? = some node) :
    exprAt nodes id =
      node.toExpr fun child => if child < id then exprAt nodes child else .previous := by
  rw [exprAt]
  simp only [present]

theorem exprAt_eq_of_kept {nodes after : Array Node}
    (kept : ∀ id < nodes.size, after[id]? = nodes[id]?) {id : NodeId} (below : id < nodes.size) :
    exprAt after id = exprAt nodes id := by
  induction id using Nat.strongRecOn with
  | ind id ih =>
    have present := Array.getElem?_eq_getElem below
    rw [exprAt_of_node present, exprAt_of_node ((kept id below).trans present)]
    congr 1
    funext child
    split
    · rename_i earlier
      exact ih child earlier (Nat.lt_trans earlier below)
    · rfl

/-- Nodes were added for expressions that are directly bound to a name or not, and the given nodes stand
for them.  The new nodes are closed under children, each is given or the child of one new node, and a new
reaction knows the name to which its parent binds it. -/
structure Laid (binding : Option String) (exprs : List Expr) (nodes : Array Node)
    (ids : List NodeId) (after : Array Node) : Prop where
  grown : nodes.size ≤ after.size
  kept : ∀ id < nodes.size, after[id]? = nodes[id]?
  inside : ∀ id ∈ ids, nodes.size ≤ id ∧ id < after.size
  within : ∀ id node, nodes.size ≤ id → after[id]? = some node →
    ∀ child ∈ node.children, nodes.size ≤ child ∧ child < id
  once : (after.toList.flatMap Node.children ++ ids).Perm
    (nodes.toList.flatMap Node.children ++ List.range' nodes.size (after.size - nodes.size))
  bound : ∀ id node, nodes.size ≤ id → after[id]? = some node →
    ∀ child ∈ node.children, ∀ given, after[child]?.bind Node.binding? = some given →
      given = node.bound?
  named : ∀ id ∈ ids, ∀ given, after[id]?.bind Node.binding? = some given → given = binding
  reads : ids.map (exprAt after) = exprs

namespace Laid

variable {binding : Option String} {nodes mid after : Array Node}

theorem nil : Laid binding [] nodes [] nodes where
  grown := Nat.le_refl _
  kept := fun _ _ => rfl
  inside := forall_mem_nil _
  within := fun id node new present => by
    rw [Array.getElem?_eq_none new] at present
    cases present
  once := by simp
  bound := fun id node new present => by
    rw [Array.getElem?_eq_none new] at present
    cases present
  named := forall_mem_nil _
  reads := rfl

theorem append {first second : List Expr} {ids others : List NodeId}
    (one : Laid binding first nodes ids mid) (two : Laid binding second mid others after) :
    Laid binding (first ++ second) nodes (ids ++ others) after where
  grown := Nat.le_trans one.grown two.grown
  kept := fun id below =>
    (two.kept id (Nat.lt_of_lt_of_le below one.grown)).trans (one.kept id below)
  inside := fun id given => by
    rcases mem_append.mp given with given | given
    · exact ⟨(one.inside id given).1, Nat.lt_of_lt_of_le (one.inside id given).2 two.grown⟩
    · exact ⟨Nat.le_trans one.grown (two.inside id given).1, (two.inside id given).2⟩
  within := fun id node new present child isChild => by
    rcases Nat.lt_or_ge id mid.size with old | new'
    · exact one.within id node new ((two.kept id old).symm.trans present) child isChild
    · have inside := two.within id node new' present child isChild
      exact ⟨Nat.le_trans one.grown inside.1, inside.2⟩
  once := by
    have sizes : after.size - nodes.size = (mid.size - nodes.size) + (after.size - mid.size) := by
      have := one.grown
      have := two.grown
      omega
    have next : nodes.size + (mid.size - nodes.size) = mid.size := by
      have := one.grown
      omega
    have swap : ∀ {start left right : List NodeId},
        (start ++ left ++ right).Perm (start ++ right ++ left) := fun {start left right} => by
      simpa only [append_assoc] using perm_append_comm.append_left start
    rw [sizes, ← range'_append_1, next, ← append_assoc, ← append_assoc]
    calc (after.toList.flatMap Node.children ++ ids ++ others).Perm
          (after.toList.flatMap Node.children ++ others ++ ids) := swap
      List.Perm _ (mid.toList.flatMap Node.children ++
            List.range' mid.size (after.size - mid.size) ++ ids) := two.once.append_right ids
      List.Perm _ (mid.toList.flatMap Node.children ++ ids ++
            List.range' mid.size (after.size - mid.size)) := swap
      List.Perm _ _ := one.once.append_right _
  bound := fun id node new present child isChild given same => by
    rcases Nat.lt_or_ge id mid.size with old | new'
    · have present := (two.kept id old).symm.trans present
      have earlier := (one.within id node new present child isChild).2
      rw [two.kept child (Nat.lt_trans earlier old)] at same
      exact one.bound id node new present child isChild given same
    · exact two.bound id node new' present child isChild given same
  named := fun id given name same => by
    rcases mem_append.mp given with given | given
    · rw [two.kept id (one.inside id given).2] at same
      exact one.named id given name same
    · exact two.named id given name same
  reads := by
    rw [map_append, two.reads, ← one.reads]
    congr 1
    exact map_congr_left fun id given => exprAt_eq_of_kept two.kept (one.inside id given).2

theorem getElem?_push_of_lt (node : Node) {id : NodeId} (below : id < nodes.size) :
    (nodes.push node)[id]? = nodes[id]? := by
  rw [Array.getElem?_push_lt below, Array.getElem?_eq_getElem below]

theorem push {expr : Expr} {ids : List NodeId} {node : Node}
    (parts : Laid expr.bound? expr.parts nodes ids mid) (lays : node.Lays binding expr ids) :
    Laid binding [expr] nodes [mid.size] (mid.push node) where
  grown := by
    rw [Array.size_push]
    exact Nat.le_succ_of_le parts.grown
  kept := fun id below => by
    have old := Nat.lt_of_lt_of_le below parts.grown
    rw [getElem?_push_of_lt node old, parts.kept id below]
  inside := fun id given => by
    rw [mem_singleton.mp given, Array.size_push]
    exact ⟨parts.grown, Nat.lt_succ_self _⟩
  within := by
    intro id found new present child isChild
    rw [Array.getElem?_push] at present
    split at present
    · rename_i last
      cases present
      rw [last]
      rw [lays.children] at isChild
      exact parts.inside child isChild
    · exact parts.within id found new present child isChild
  once := by
    have sizes : mid.size + 1 - nodes.size = mid.size - nodes.size + 1 := by
      have := parts.grown
      omega
    have last : nodes.size + (mid.size - nodes.size) = mid.size := by
      have := parts.grown
      omega
    rw [Array.size_push, sizes, range'_1_concat, last, Array.toList_push, flatMap_append,
      flatMap_singleton, lays.children, ← append_assoc]
    exact parts.once.append_right [mid.size]
  bound := by
    intro id found new present child isChild given same
    rw [Array.getElem?_push] at present
    split at present
    · cases present
      rw [lays.children] at isChild
      rw [getElem?_push_of_lt node (parts.inside child isChild).2] at same
      rw [lays.bound]
      exact parts.named child isChild given same
    · have earlier := (parts.within id found new present child isChild).2
      have below := (Array.getElem?_eq_some_iff.mp present).1
      rw [getElem?_push_of_lt node (Nat.lt_trans earlier below)] at same
      exact parts.bound id found new present child isChild given same
  named := by
    intro id given name same
    rw [mem_singleton.mp given, Array.getElem?_push_size] at same
    exact lays.binding name same
  reads := by
    rw [map_singleton, exprAt_of_node Array.getElem?_push_size, lays.reads]
    rw [← parts.reads]
    refine map_congr_left fun id given => ?_
    rw [if_pos (parts.inside id given).2]
    exact exprAt_eq_of_kept (fun id below => getElem?_push_of_lt node below)
      (parts.inside id given).2

theorem binding_iff {exprs : List Expr} {ids : List NodeId} (laid : Laid none exprs #[] ids after)
    {id initial condition next : NodeId} {binding : Option String}
    (present : after[id]? = some (.reaction initial condition next binding)) (word : String) :
    binding = some word ↔ ∃ parent : NodeId, after[parent]? = some (.bind word id) := by
  have given : after[id]?.bind Node.binding? = some binding := by rw [present]; rfl
  constructor
  · rintro rfl
    have placed : id ∈ after.toList.flatMap Node.children ++ ids := by
      rw [laid.once.mem_iff]
      simpa using (Array.getElem?_eq_some_iff.mp present).1
    rcases mem_append.mp placed with isChild | isRoot
    · obtain ⟨node, mem, isChild⟩ := mem_flatMap.mp isChild
      obtain ⟨parent, found⟩ := mem_iff_getElem?.mp mem
      rw [Array.getElem?_toList] at found
      have bound := laid.bound parent node (Nat.zero_le _) found id isChild _ given
      cases node with
      | bind named value =>
        obtain rfl := mem_singleton.mp isChild
        obtain rfl := Option.some.inj bound
        exact ⟨parent, found⟩
      | _ => cases bound
    · cases laid.named id isRoot _ given
  · rintro ⟨parent, found⟩
    exact laid.bound parent _ (Nat.zero_le _) found id (mem_singleton_self id) binding given

end Laid

theorem laid_layOutParts {binding : Option String} {exprs : List Expr}
    (each : ∀ expr ∈ exprs, ∀ binding nodes,
      Laid binding [expr] nodes [(expr.layOut binding nodes).size - 1] (expr.layOut binding nodes))
    (nodes : Array Node) :
    Laid binding exprs nodes (layOutParts binding exprs nodes).1
      (layOutParts binding exprs nodes).2 := by
  induction exprs generalizing nodes with
  | nil => exact .nil
  | cons expr rest ih =>
    rw [forall_mem_cons] at each
    exact (each.1 binding nodes).append (ih each.2 (expr.layOut binding nodes))

theorem Expr.laid_layOut (expr : Expr) (binding : Option String) (nodes : Array Node) :
    Laid binding [expr] nodes [(expr.layOut binding nodes).size - 1] (expr.layOut binding nodes) := by
  induction expr using Expr.induct_parts generalizing binding nodes with
  | whole expr ih =>
    obtain ⟨node, same, lays⟩ := expr.exists_layOut_eq binding nodes
    rw [same, Array.size_push]
    exact (laid_layOutParts ih nodes).push lays

/-! ### Programs -/

namespace Program

/-- The program of named expressions, each added as a source. -/
def ofSources (sources : List (String × Expr)) : Program :=
  sources.foldl (fun program source => program.addSource source.1 source.2) empty

theorem ofSources_append (sources : List (String × Expr)) (name : String) (expr : Expr) :
    ofSources (sources ++ [(name, expr)]) = (ofSources sources).addSource name expr := by
  simp only [ofSources, foldl_append, foldl_cons, foldl_nil]

theorem laid_ofSources (earlier later : List (String × Expr)) :
    ∃ added, (ofSources (earlier ++ later)).sources = (ofSources earlier).sources ++ added ∧
      added.map (·.name) = later.map (·.1) ∧
      Laid none (later.map (·.2)) (ofSources earlier).nodes (added.map (·.root))
        (ofSources (earlier ++ later)).nodes := by
  induction later generalizing earlier with
  | nil => exact ⟨[], by simp, rfl, by simpa using .nil⟩
  | cons source rest ih =>
    obtain ⟨name, expr⟩ := source
    obtain ⟨added, same, names, laid⟩ := ih (earlier ++ [(name, expr)])
    rw [append_cons, same]
    rw [ofSources_append] at laid ⊢
    exact ⟨_ :: added, append_assoc .., congrArg (name :: ·) names,
      (expr.laid_layOut none (ofSources earlier).nodes).append laid⟩

/-- A source among others is a stretch of nodes that is closed under children, ends with its root and
stays as it was laid out. -/
structure HasSource (program : Program) (earlier : List (String × Expr)) (name : String) (expr : Expr) :
    Prop where
  source : program.sources[earlier.length]? =
    some ⟨name, (ofSources (earlier ++ [(name, expr)])).nodes.size - 1⟩
  grown : (ofSources earlier).nodes.size < (ofSources (earlier ++ [(name, expr)])).nodes.size
  inside : (ofSources (earlier ++ [(name, expr)])).nodes.size ≤ program.nodes.size
  kept : ∀ id < (ofSources (earlier ++ [(name, expr)])).nodes.size,
    program.node? id = (ofSources (earlier ++ [(name, expr)])).node? id
  within : ∀ id node, (ofSources earlier).nodes.size ≤ id →
    id < (ofSources (earlier ++ [(name, expr)])).nodes.size → program.node? id = some node →
      ∀ child ∈ node.children, (ofSources earlier).nodes.size ≤ child ∧ child < id

theorem length_sources_ofSources (sources : List (String × Expr)) :
    (ofSources sources).sources.length = sources.length := by
  obtain ⟨added, same, names, -⟩ := laid_ofSources [] sources
  rw [nil_append, show (ofSources []).sources = [] from rfl, nil_append] at same
  simpa [same] using congrArg List.length names

theorem hasSource_ofSources (earlier : List (String × Expr)) (name : String) (expr : Expr)
    (later : List (String × Expr)) :
    (ofSources (earlier ++ (name, expr) :: later)).HasSource earlier name expr := by
  obtain ⟨added, same, -, rest⟩ := laid_ofSources (earlier ++ [(name, expr)]) later
  have laid := expr.laid_layOut none (ofSources earlier).nodes
  rw [append_cons]
  constructor
  · rw [same, ofSources_append]
    simp [addSource, length_sources_ofSources]
  · rw [ofSources_append]
    exact (expr.ordered_layOut none (ofSources earlier).ordered).2
  · exact rest.grown
  · exact rest.kept
  · intro id node new below present
    have present := (rest.kept id below).symm.trans present
    rw [ofSources_append] at present
    exact laid.within id node new present

/-- Laying out sources loses nothing: their names and expressions can be read back from the roots, each
source has a stretch of nodes of its own that ends with its root and that no later source changes, every
node is a root or the child of one node at one place, and a reaction has the name that it is bound to. -/
theorem sources_read_back_from_nodes (sources : List (String × Expr)) :
    let program := ofSources sources
    (program.sources.map fun source => (source.name, exprAt program.nodes source.root)) = sources ∧
    (∀ earlier name expr later, sources = earlier ++ (name, expr) :: later →
      program.HasSource earlier name expr) ∧
    (program.nodes.toList.flatMap Node.children ++ program.sources.map (·.root)).Perm
      (List.range program.nodes.size) ∧
    ∀ id initial condition next binding,
      program.node? id = some (.reaction initial condition next binding) →
        ∀ word, binding = some word ↔ ∃ parent, program.node? parent = some (.bind word id) := by
  intro program
  obtain ⟨added, same, names, laid⟩ := laid_ofSources [] sources
  rw [show (ofSources []).sources = [] from rfl, List.nil_append, List.nil_append] at same
  subst same
  rw [List.nil_append, show (ofSources []).nodes = #[] from rfl] at laid
  refine ⟨?_, ?_, ?_, ?_⟩
  · have reads := laid.reads
    rw [List.map_map] at reads
    calc (program.sources.map fun source => (source.name, exprAt program.nodes source.root))
        = (program.sources.map (·.name)).zip
            (program.sources.map (exprAt program.nodes ∘ (·.root))) := (List.zip_map' ..).symm
      _ = (sources.map (·.1)).zip (sources.map (·.2)) := by rw [names, reads]
      _ = sources := by rw [List.zip_map', List.map_id']
  · rintro earlier name expr later rfl
    exact hasSource_ofSources earlier name expr later
  · simpa [List.range_eq_range'] using laid.once
  · exact fun id initial condition next binding present word => laid.binding_iff present word

end Program

end Reactor

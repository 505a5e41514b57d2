import Reactor.Program.Node
import Reactor.Total

/-!
# Programs

A program holds the nodes of all its sources in one array.  The parts of a node come before the node
itself, so a walk from a node to its parts always ends.  A source is a named root; the first source
is the main one.

`Program.addSource` lays an expression out as nodes, and `Program.denotedStreams` collects the
streams that occur below a node.
-/

namespace Reactor

/-- Nodes whose parts all come before them. -/
def Ordered (nodes : Array Node) : Prop :=
  ∀ (id : Nat) (node : Node), nodes[id]? = some node →
    ∀ child : Nat, child ∈ node.children → child < id

theorem Ordered.empty : Ordered #[] := by
  intro id node present
  simp at present

theorem Ordered.push {nodes : Array Node} (ordered : Ordered nodes) {node : Node}
    (before : ∀ child : Nat, child ∈ node.children → child < nodes.size) : Ordered (nodes.push node) := by
  intro id found present
  rw [Array.getElem?_push] at present
  split at present
  · cases present
    rename_i atEnd
    subst atEnd
    exact before
  · exact ordered id found present

/-! ### Laying out expressions -/

mutual

/-- Lay out an expression after the given nodes: first its parts, then the expression itself.
`binding` is the name that the expression is directly bound to. -/
def Expr.layOut (binding : Option String) : Expr → Array Node → Array Node
  | .bool value, nodes => nodes.push (.bool value)
  | .num value units, nodes => nodes.push (.num value units)
  | .text characters, nodes => nodes.push (.text characters)
  | .list items, nodes =>
    let (items, nodes) := layOutAll items nodes
    nodes.push (.list items)
  | .set items, nodes =>
    let (items, nodes) := layOutAll items nodes
    nodes.push (.set items)
  | .map entries, nodes =>
    let (entries, nodes) := layOutEntries entries nodes
    nodes.push (.map entries)
  | .name word, nodes => nodes.push (.name word)
  | .previous, nodes => nodes.push .previous
  | .block statements, nodes =>
    let (statements, nodes) := layOutAll statements nodes
    nodes.push (.block statements)
  | .bind word value, nodes =>
    let nodes := value.layOut (some word) nodes
    nodes.push (.bind word (nodes.size - 1))
  | .function word params body, nodes =>
    let nodes := body.layOut none nodes
    nodes.push (.function word params (nodes.size - 1))
  | .record word fields functions, nodes =>
    let (functions, nodes) := layOutFunctions functions nodes
    nodes.push (.record word fields functions)
  | .call callee args, nodes =>
    let nodes := callee.layOut none nodes
    let callee := nodes.size - 1
    let (args, nodes) := layOutAll args nodes
    nodes.push (.call callee args)
  | .binary left op right, nodes =>
    let nodes := left.layOut none nodes
    let left := nodes.size - 1
    let nodes := right.layOut none nodes
    nodes.push (.binary left op (nodes.size - 1))
  | .unary op operand, nodes =>
    let nodes := operand.layOut none nodes
    nodes.push (.unary op (nodes.size - 1))
  | .conditional condition yes no, nodes =>
    let nodes := condition.layOut none nodes
    let condition := nodes.size - 1
    let nodes := yes.layOut none nodes
    let yes := nodes.size - 1
    let nodes := no.layOut none nodes
    nodes.push (.conditional condition yes (nodes.size - 1))
  | .access subject word, nodes =>
    let nodes := subject.layOut none nodes
    nodes.push (.access (nodes.size - 1) word)
  | .is operand tag, nodes =>
    let nodes := operand.layOut none nodes
    nodes.push (.is (nodes.size - 1) tag)
  | .stream word, nodes => nodes.push (.stream word)
  | .changed subject, nodes =>
    let nodes := subject.layOut none nodes
    nodes.push (.changed (nodes.size - 1))
  | .reaction initial condition next, nodes =>
    let nodes := initial.layOut none nodes
    let initial := nodes.size - 1
    let nodes := condition.layOut none nodes
    let condition := nodes.size - 1
    let nodes := next.layOut none nodes
    nodes.push (.reaction initial condition (nodes.size - 1) binding)
  | .borrow source word, nodes => nodes.push (.borrow source word)

/-- Lay out expressions one after the other.  The numbers of their nodes are given back. -/
def layOutAll : List Expr → Array Node → List NodeId × Array Node
  | [], nodes => ([], nodes)
  | expr :: rest, nodes =>
    let nodes := expr.layOut none nodes
    let (ids, final) := layOutAll rest nodes
    ((nodes.size - 1) :: ids, final)

/-- Lay out the entries of a map, each key before its value. -/
def layOutEntries : List (Expr × Expr) → Array Node → List (NodeId × NodeId) × Array Node
  | [], nodes => ([], nodes)
  | (key, value) :: rest, nodes =>
    let nodes := key.layOut none nodes
    let key := nodes.size - 1
    let nodes := value.layOut none nodes
    let (entries, final) := layOutEntries rest nodes
    ((key, nodes.size - 1) :: entries, final)

def layOutFunctions :
    List (Signature × Expr) → Array Node → List (Signature × NodeId) × Array Node
  | [], nodes => ([], nodes)
  | (signature, body) :: rest, nodes =>
    let nodes := body.layOut none nodes
    let (functions, final) := layOutFunctions rest nodes
    ((signature, nodes.size - 1) :: functions, final)

end

mutual

/-- Laying out an expression keeps the order of nodes and adds at least one. -/
theorem Expr.ordered_layOut (binding : Option String) (expr : Expr) {nodes : Array Node}
    (ordered : Ordered nodes) :
    Ordered (expr.layOut binding nodes) ∧ nodes.size < (expr.layOut binding nodes).size := by
  cases expr with
  | bool _ | num _ _ | text _ | name _ | previous | stream _ | borrow _ _ =>
    exact ⟨ordered.push (by simp [Node.children]), by simp [Expr.layOut]⟩
  | list items | set items | block items =>
    have parts := ordered_layOutAll items ordered
    refine ⟨parts.1.push (by simpa [Node.children] using parts.2.2), ?_⟩
    simp only [Expr.layOut, Array.size_push]
    omega
  | map entries =>
    have parts := ordered_layOutEntries entries ordered
    refine ⟨parts.1.push ?_, ?_⟩
    · intro child member
      simp only [Node.children, List.mem_flatMap] at member
      obtain ⟨entry, present, member⟩ := member
      have below := parts.2.2 entry present
      rcases List.mem_cons.mp member with rfl | member
      · exact below.1
      · rw [List.mem_singleton.mp member]
        exact below.2
    · simp only [Expr.layOut, Array.size_push]
      omega
  | record name fields functions =>
    have parts := ordered_layOutFunctions functions ordered
    refine ⟨parts.1.push ?_, ?_⟩
    · intro child member
      simp only [Node.children, List.mem_map] at member
      obtain ⟨function, present, rfl⟩ := member
      exact parts.2.2 function present
    · simp only [Expr.layOut, Array.size_push]
      omega
  | bind name value =>
    have part := Expr.ordered_layOut (some name) value ordered
    exact ⟨part.1.push (by
      intro child member
      rw [List.mem_singleton.mp member]
      exact Nat.sub_one_lt_of_lt part.2),
      by simp only [Expr.layOut, Array.size_push]; omega⟩
  | function _ _ part | unary _ part | access part _ | is part _ | changed part =>
    have part := Expr.ordered_layOut none part ordered
    exact ⟨part.1.push (by
      intro child member
      rw [List.mem_singleton.mp member]
      exact Nat.sub_one_lt_of_lt part.2),
      by simp only [Expr.layOut, Array.size_push]; omega⟩
  | call callee args =>
    have first := Expr.ordered_layOut none callee ordered
    have rest := ordered_layOutAll args first.1
    refine ⟨rest.1.push ?_, by simp only [Expr.layOut, Array.size_push]; omega⟩
    intro child member
    rcases List.mem_cons.mp member with rfl | member
    · omega
    · exact rest.2.2 child member
  | binary left op right =>
    have first := Expr.ordered_layOut none left ordered
    have second := Expr.ordered_layOut none right first.1
    refine ⟨second.1.push ?_, by simp only [Expr.layOut, Array.size_push]; omega⟩
    intro child member
    simp only [Node.children, List.mem_cons, List.not_mem_nil, or_false] at member
    omega
  | conditional condition yes no =>
    have first := Expr.ordered_layOut none condition ordered
    have second := Expr.ordered_layOut none yes first.1
    have third := Expr.ordered_layOut none no second.1
    refine ⟨third.1.push ?_, by simp only [Expr.layOut, Array.size_push]; omega⟩
    intro child member
    simp only [Node.children, List.mem_cons, List.not_mem_nil, or_false] at member
    omega
  | reaction initial condition next =>
    have first := Expr.ordered_layOut none initial ordered
    have second := Expr.ordered_layOut none condition first.1
    have third := Expr.ordered_layOut none next second.1
    refine ⟨third.1.push ?_, by simp only [Expr.layOut, Array.size_push]; omega⟩
    intro child member
    simp only [Node.children, List.mem_cons, List.not_mem_nil, or_false] at member
    omega

theorem ordered_layOutAll (exprs : List Expr) {nodes : Array Node} (ordered : Ordered nodes) :
    Ordered (layOutAll exprs nodes).2 ∧ nodes.size ≤ (layOutAll exprs nodes).2.size ∧
      ∀ id : Nat, id ∈ (layOutAll exprs nodes).1 → id < (layOutAll exprs nodes).2.size := by
  cases exprs with
  | nil => exact ⟨ordered, Nat.le_refl _, by simp [layOutAll]⟩
  | cons expr rest =>
    have first := Expr.ordered_layOut none expr ordered
    have others := ordered_layOutAll rest first.1
    refine ⟨others.1, ?_, ?_⟩
    · simp only [layOutAll]
      omega
    · intro id member
      rcases List.mem_cons.mp member with rfl | member
      · simp only [layOutAll]
        omega
      · exact others.2.2 id member

theorem ordered_layOutEntries (entries : List (Expr × Expr)) {nodes : Array Node}
    (ordered : Ordered nodes) :
    Ordered (layOutEntries entries nodes).2 ∧ nodes.size ≤ (layOutEntries entries nodes).2.size ∧
      ∀ entry : Nat × Nat, entry ∈ (layOutEntries entries nodes).1 →
        entry.1 < (layOutEntries entries nodes).2.size ∧
          entry.2 < (layOutEntries entries nodes).2.size := by
  match entries with
  | [] => exact ⟨ordered, Nat.le_refl _, by simp [layOutEntries]⟩
  | (key, value) :: rest =>
    have first := Expr.ordered_layOut none key ordered
    have second := Expr.ordered_layOut none value first.1
    have others := ordered_layOutEntries rest second.1
    refine ⟨others.1, ?_, ?_⟩
    · simp only [layOutEntries]
      omega
    · intro entry member
      rcases List.mem_cons.mp member with rfl | member
      · simp only [layOutEntries]
        omega
      · exact others.2.2 entry member

theorem ordered_layOutFunctions (functions : List (Signature × Expr)) {nodes : Array Node}
    (ordered : Ordered nodes) :
    Ordered (layOutFunctions functions nodes).2 ∧
      nodes.size ≤ (layOutFunctions functions nodes).2.size ∧
      ∀ function : Signature × Nat, function ∈ (layOutFunctions functions nodes).1 →
        function.2 < (layOutFunctions functions nodes).2.size := by
  match functions with
  | [] => exact ⟨ordered, Nat.le_refl _, by simp [layOutFunctions]⟩
  | (signature, body) :: rest =>
    have first := Expr.ordered_layOut none body ordered
    have others := ordered_layOutFunctions rest first.1
    refine ⟨others.1, ?_, ?_⟩
    · simp only [layOutFunctions]
      omega
    · intro function member
      rcases List.mem_cons.mp member with rfl | member
      · simp only [layOutFunctions]
        omega
      · exact others.2.2 function member

end

/-! ### Programs -/

/-- A named root. -/
structure Source where
  name : String
  root : NodeId
  deriving DecidableEq, Repr, Inhabited

/-- Sources whose roots are all among the nodes. -/
def Rooted (nodes : Array Node) (sources : List Source) : Prop :=
  ∀ source ∈ sources, source.root < nodes.size

theorem Rooted.add {nodes laidOut : Array Node} {sources : List Source}
    (rooted : Rooted nodes sources) (grown : nodes.size < laidOut.size) (name : String) :
    Rooted laidOut (sources ++ [⟨name, laidOut.size - 1⟩]) := by
  intro source member
  rcases List.mem_append.mp member with old | new
  · exact Nat.lt_trans (rooted source old) grown
  · rw [List.mem_singleton.mp new]
    exact Nat.sub_one_lt_of_lt grown

/-- The nodes of all sources, and the sources in the order in which they were added. -/
structure Program where
  nodes : Array Node
  sources : List Source
  ordered : Ordered nodes
  rooted : Rooted nodes sources

namespace Program

def empty : Program := ⟨#[], [], Ordered.empty, by simp [Rooted]⟩

instance : Inhabited Program := ⟨empty⟩

/-- Add a source.  Its root is the last of its nodes. -/
def addSource (program : Program) (name : String) (expr : Expr) : Program :=
  let nodes := expr.layOut none program.nodes
  have laidOut := expr.ordered_layOut none program.ordered
  ⟨nodes, program.sources ++ [⟨name, nodes.size - 1⟩], laidOut.1,
    program.rooted.add laidOut.2 name⟩

/-- A program with one source named `main`. -/
def ofExpr (expr : Expr) : Program :=
  empty.addSource "main" expr

def node? (program : Program) (id : NodeId) : Option Node :=
  program.nodes[id]?

def main? (program : Program) : Option Source :=
  program.sources.head?

def source? (program : Program) (name : String) : Option Source :=
  program.sources.find? (·.name = name)

def reactions (program : Program) : List NodeId :=
  (List.range program.nodes.size).filter fun id => (program.node? id).any Node.isReaction

/-- The number of nodes in the tree below a node, itself included. -/
def treeSize (program : Program) (id : NodeId) : Nat :=
  match present : program.nodes[id]? with
  | none => 1
  | some node =>
    1 + total (node.children.attach.map fun child => program.treeSize child.1)
termination_by id
decreasing_by exact program.ordered id node present child.1 child.2

theorem treeSize_of_node {program : Program} {id : NodeId} {node : Node}
    (present : program.nodes[id]? = some node) :
    program.treeSize id = 1 + total (node.children.map program.treeSize) := by
  rw [treeSize]
  split
  · simp_all
  · rename_i found equal
    rw [present] at equal
    cases equal
    simp only [List.map_attach_eq_pmap, List.pmap_eq_map]

theorem treeSize_pos (program : Program) (id : NodeId) : 0 < program.treeSize id := by
  rw [treeSize]
  split <;> omega

/-- Collect the streams below the pending nodes.  Each pending node is replaced by its children, so
nodes are met from left to right and every stream is noted where it occurs first. -/
def streamsBelow (program : Program) (found : List String) (pending : List NodeId) : List String :=
  match pending with
  | [] => found
  | id :: pending =>
    match present : program.nodes[id]? with
    | none => streamsBelow program found pending
    | some node =>
      let found :=
        match node with
        | .stream name => if name ∈ found then found else found ++ [name]
        | _ => found
      streamsBelow program found (node.children ++ pending)
termination_by total (pending.map program.treeSize)
decreasing_by
  · have := program.treeSize_pos id
    simp only [List.map_cons, total_cons]
    omega
  · simp only [List.map_cons, total_cons, List.map_append, total_append,
      treeSize_of_node present]
    omega

/-- The names of the streams that occur below a node, each once and in the order in which they occur
first. -/
def denotedStreams (program : Program) (id : NodeId) : List String :=
  program.streamsBelow [] [id]

end Program

end Reactor

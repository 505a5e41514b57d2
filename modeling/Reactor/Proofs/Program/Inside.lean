import Reactor.Program.Basic

/-!
# Numbers inside a program

The parts of a node and the roots of sources are numbers of nodes.
-/

namespace Reactor

/-- The bodies of the functions that a node makes. -/
def Node.bodies : Node → List NodeId
  | function _ _ body => [body]
  | record _ _ functions => functions.map (·.2)
  | _ => []

/-- Whether a node is evaluated by frames of a kind of its own. -/
def Node.ownsFrame : Node → Bool
  | reaction .. | borrow .. => true
  | _ => false

namespace Program

variable {program : Program} {id : NodeId} {node : Node}

theorem lt_size_of_node? (present : program.node? id = some node) :
    id < program.nodes.size :=
  (Array.getElem?_eq_some_iff.mp present).1

theorem exists_node?_of_lt_size (inside : id < program.nodes.size) :
    ∃ node, program.node? id = some node :=
  ⟨program.nodes[id], Array.getElem?_eq_getElem inside⟩

theorem child_lt_size (present : program.node? id = some node)
    {child : NodeId} (part : child ∈ node.children) :
    child < program.nodes.size :=
  Nat.lt_trans (program.ordered id node present child part) (lt_size_of_node? present)

theorem root_lt_size_of_main? {main : Source} (present : program.main? = some main) :
    main.root < program.nodes.size :=
  program.rooted main (List.mem_of_head? present)

theorem root_lt_size_of_source?
    {name : String} {source : Source} (present : program.source? name = some source) :
    source.root < program.nodes.size :=
  program.rooted source (List.mem_of_find?_eq_some present)

end Program

theorem Node.mem_children_of_mem_operands
    {node : Node} {child : NodeId} (operand : child ∈ node.operands) :
    child ∈ node.children := by
  cases node with
  | conditional condition yes no =>
    rw [Node.operands, List.mem_singleton] at operand
    simp [Node.children, operand]
  | list _ | set _ | block _ | map _ | call _ _ | binary _ _ _ | bind _ _ | unary _ _ | is _ _
  | access _ _ => exact operand
  | bool _ | num _ _ | text _ | name _ | previous | function _ _ _ | record _ _ _ | stream _
  | changed _ | reaction _ _ _ _ | borrow _ _ => cases operand

theorem Node.mem_children_of_mem_bodies
    {node : Node} {body : NodeId} (mem : body ∈ node.bodies) : body ∈ node.children := by
  cases node with
  | function _ _ _ | record _ _ _ => exact mem
  | _ => cases mem

end Reactor

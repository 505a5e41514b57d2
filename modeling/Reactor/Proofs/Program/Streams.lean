import Mathlib.Data.List.Nodup
import Reactor.Proofs.Program.Borrowing
import Reactor.Proofs.Program.Layout

/-!
# The streams that an expression names

A walk through an expression meets the expression first and then its parts, from left to right, down to
the bodies of functions and the reactions inside of reactions.  `Expr.streamNames` lists the streams
that it meets.  The nodes of a program are collected with a work list instead, in which every node is
replaced by its children, and a name that was found before is passed over.

The main result is that both come to the same: the work list gives every name once, in the order in
which the walk meets them first, and is done when every node below the first one was its head once.
-/

namespace Reactor

open List

/-! ### Names in the order in which they first occur -/

/-- A list has the members of another one, each once and in the order in which they first occur. -/
structure FirstOccurrences (names listed : List String) : Prop where
  nodup : listed.Nodup
  mem : ∀ name, name ∈ listed ↔ name ∈ names
  order : listed.Pairwise fun first second => names.idxOf first < names.idxOf second

/-- Note a name that was not found before. -/
def noteName (found : List String) (name : String) : List String :=
  if name ∈ found then found else found ++ [name]

section

variable {names listed : List String} (first : FirstOccurrences names listed)
include first

theorem FirstOccurrences.note (name : String) :
    FirstOccurrences (names ++ [name]) (noteName listed name) := by
  have kept : listed.Pairwise fun left right =>
      (names ++ [name]).idxOf left < (names ++ [name]).idxOf right := by
    refine first.order.imp_of_mem fun {left right} isLeft isRight before => ?_
    rwa [idxOf_append_of_mem ((first.mem left).mp isLeft),
      idxOf_append_of_mem ((first.mem right).mp isRight)]
  unfold noteName
  split
  · next known =>
    refine ⟨first.nodup, fun other => ?_, kept⟩
    rw [first.mem, mem_append, mem_singleton]
    exact ⟨.inl, fun found => found.elim id fun same => same ▸ (first.mem name).mp known⟩
  · next new =>
    have absent : name ∉ names := mt (first.mem name).mpr new
    refine ⟨nodup_append.mpr ⟨first.nodup, nodup_singleton name, ?_⟩, fun other => ?_,
      pairwise_append.mpr ⟨kept, pairwise_singleton _ _, ?_⟩⟩
    · rintro other isOld _ isNew rfl
      exact new (mem_singleton.mp isNew ▸ isOld)
    · rw [mem_append, mem_append, first.mem]
    · intro other isOld _ isNew
      obtain rfl := mem_singleton.mp isNew
      have isName := (first.mem other).mp isOld
      rw [idxOf_append_of_mem isName, idxOf_append_of_notMem absent, idxOf_cons_self]
      exact idxOf_lt_length_of_mem isName

/-- Noting names one after the other lists their first occurrences. -/
theorem FirstOccurrences.noteAll (more : List String) :
    FirstOccurrences (names ++ more) (more.foldl noteName listed) := by
  induction more generalizing names listed with
  | nil => rwa [append_nil]
  | cons name rest ih =>
    rw [append_cons]
    exact ih (first.note name)

end

/-! ### The walk through an expression -/

/-- The stream that an expression reads. -/
def Expr.stream? : Expr → Option String
  | stream word => some word
  | _ => none

/-- The stream that a node reads. -/
def Node.stream? : Node → Option String
  | stream word => some word
  | _ => none

/-- The names of streams in the order in which a walk meets them: the expression itself comes before its
parts, and these follow one another from left to right. -/
def Expr.streamNames (expr : Expr) : List String :=
  expr.stream?.toList ++ expr.parts.attach.flatMap fun part => part.1.streamNames
termination_by sizeOf expr
decreasing_by exact Expr.sizeOf_lt_of_mem_parts part.2

theorem Expr.streamNames_eq (expr : Expr) :
    expr.streamNames = expr.stream?.toList ++ expr.parts.flatMap Expr.streamNames := by
  rw [streamNames, flatMap_subtype, unattach_attach]
  exact fun _ _ => rfl

theorem Node.parts_toExpr (node : Node) (read : NodeId → Expr) :
    (node.toExpr read).parts = node.children.map read := by
  cases node with
  | map entries => simp [toExpr, Expr.parts, children, flatMap_map, map_flatMap]
  | record name fields functions => simp [toExpr, Expr.parts, children]
  | _ => rfl

theorem Node.stream?_toExpr (node : Node) (read : NodeId → Expr) :
    (node.toExpr read).stream? = node.stream? := by
  cases node <;> rfl

namespace Program

variable (program : Program)

/-- The names of streams that the walk through the expression at a node meets. -/
def streamNames (id : NodeId) : List String :=
  (exprAt program.nodes id).streamNames

variable {program} {id : NodeId} {node : Node}

theorem streamNames_of_none (missing : program.node? id = none) : program.streamNames id = [] := by
  have missing : program.nodes[id]? = none := missing
  rw [streamNames, exprAt]
  simp only [missing]
  rw [Expr.streamNames_eq]
  rfl

theorem streamNames_of_node (present : program.node? id = some node) :
    program.streamNames id = node.stream?.toList ++ node.children.flatMap program.streamNames := by
  rw [streamNames, exprAt_of_node present, Expr.streamNames_eq, Node.parts_toExpr,
    Node.stream?_toExpr, flatMap_map]
  congr 1
  refine flatMap_congr fun child isChild => ?_
  rw [if_pos (program.ordered id node present child isChild)]
  rfl

/-- A name comes up in the walk if a node below reads the stream. -/
theorem mem_streamNames_iff {name : String} :
    name ∈ program.streamNames id ↔
      ∃ part, program.Below part id ∧ program.node? part = some (.stream name) := by
  constructor
  · intro met
    induction id using Nat.strongRecOn with
    | ind id ih =>
      cases present : program.node? id with
      | none => simp [streamNames_of_none present] at met
      | some node =>
        rw [streamNames_of_node present, mem_append, mem_flatMap] at met
        rcases met with here | ⟨child, isChild, met⟩
        · cases node with
          | stream word =>
            obtain rfl := mem_singleton.mp here
            exact ⟨id, .self, present⟩
          | _ => cases here
        · obtain ⟨part, below, reads⟩ := ih child (program.ordered id node present child isChild) met
          exact ⟨part, .inside present isChild below, reads⟩
  · rintro ⟨part, below, reads⟩
    induction below with
    | self =>
      rw [streamNames_of_node reads]
      exact mem_append_left _ (mem_singleton_self name)
    | inside present isChild _ ih =>
      rw [streamNames_of_node present, mem_append, mem_flatMap]
      exact .inr ⟨_, isChild, ih⟩

/-! ### The work list -/

/-- Take turns with the work list as long as it is not empty.  Where the turns do not suffice, nothing is
given back. -/
def collectIn (program : Program) : Nat → List String → List NodeId → Option (List String)
  | _, found, [] => some found
  | 0, _, _ :: _ => none
  | turns + 1, found, id :: pending =>
    match program.node? id with
    | none => program.collectIn turns found pending
    | some node =>
      program.collectIn turns (node.stream?.toList.foldl noteName found) (node.children ++ pending)

/-- The work list notes the names that the walks from its nodes meet. -/
theorem streamsBelow_eq (found : List String) (pending : List NodeId) :
    program.streamsBelow found pending =
      (pending.flatMap program.streamNames).foldl noteName found := by
  fun_induction streamsBelow program found pending with
  | case1 found => rfl
  | case2 found id pending missing ih =>
    rw [ih, flatMap_cons, streamNames_of_none missing, nil_append]
  | case3 found id pending node present noted ih =>
    have same : noted = node.stream?.toList.foldl noteName found := by
      cases node <;> rfl
    rw [ih, same, flatMap_cons, streamNames_of_node present]
    simp only [flatMap_append, foldl_append]

/-- The work list is empty once there was a turn for every node below those that it began with. -/
theorem collectIn_of_le {turns : Nat} {found : List String} {pending : List NodeId}
    (enough : total (pending.map program.treeSize) ≤ turns) :
    program.collectIn turns found pending = some (program.streamsBelow found pending) := by
  induction turns generalizing found pending with
  | zero =>
    cases pending with
    | nil => simp [collectIn, streamsBelow]
    | cons id rest =>
      have := program.treeSize_pos id
      simp only [map_cons, total_cons] at enough
      omega
  | succ turns ih =>
    cases pending with
    | nil => simp [collectIn, streamsBelow]
    | cons id rest =>
      have := program.treeSize_pos id
      simp only [map_cons, total_cons] at enough
      rw [collectIn, streamsBelow_eq, flatMap_cons]
      cases present : program.node? id with
      | none =>
        rw [streamNames_of_none present, nil_append, ← streamsBelow_eq]
        exact ih (by omega)
      | some node =>
        have size := treeSize_of_node present
        rw [streamNames_of_node present, append_assoc, foldl_append, ← flatMap_append,
          ← streamsBelow_eq]
        refine ih ?_
        rw [map_append, total_append]
        omega

/-- The streams of a node are those that the nodes below it read, each listed once.  Their order is the
one in which a walk from the node to its parts meets them first, and the work list that collects them is
empty after as many turns as there are nodes below the node.  Where there is no node, there are no
streams. -/
theorem denotedStreams_lists_first_occurrences (id : NodeId) :
    FirstOccurrences (exprAt program.nodes id).streamNames (program.denotedStreams id) ∧
      (∀ name, name ∈ program.denotedStreams id ↔
        ∃ part, program.Below part id ∧ program.node? part = some (.stream name)) ∧
      program.collectIn (program.treeSize id) [] [id] = some (program.denotedStreams id) ∧
      (program.nodes.size ≤ id → program.denotedStreams id = []) := by
  have collected : program.denotedStreams id = (program.streamNames id).foldl noteName [] := by
    rw [denotedStreams, streamsBelow_eq, flatMap_singleton]
  have first : FirstOccurrences (program.streamNames id) (program.denotedStreams id) := by
    rw [collected]
    exact FirstOccurrences.noteAll ⟨nodup_nil, fun _ => Iff.rfl, .nil⟩ _
  refine ⟨first, fun name => (first.mem name).trans mem_streamNames_iff, collectIn_of_le ?_,
    fun outside => ?_⟩
  · simp [total]
  · rw [collected, streamNames_of_none (Array.getElem?_eq_none outside)]
    rfl

end Program

end Reactor

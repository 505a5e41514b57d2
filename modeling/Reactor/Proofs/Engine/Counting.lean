import Reactor.Proofs.Engine.Watching
import Reactor.Proofs.Reaction.Growth

/-!
# Counting the reactions under evaluation

A run counts the reactions whose initial value or condition is being evaluated, and a reaction that is
reached while there is one is not entered.  The count goes up in one step of a machine and down in
another, and much may happen between the two.

`Run.Counts` ties the count to the frames of the machines that are under way: there is at most one frame
that evaluates a reaction, and its reaction has not come into being.  `Run.Shifts` says what one step
makes of the count and of the table.
-/

namespace Reactor

open List

/-- The frame evaluates the initial value or the condition of a reaction. -/
def Frame.reacts (frame : Frame) : Bool :=
  frame.kind = .reaction .initial || frame.kind = .reaction .condition

/-- The frame of a reaction is over the node of a reaction. -/
def Frame.Based (program : Program) (frame : Frame) : Prop :=
  ∀ phase, frame.kind = .reaction phase →
    ∃ initial condition next binding,
      program.node? frame.node = some (.reaction initial condition next binding)

theorem Frame.based_of_kind
    {program : Program} {frame : Frame} (kind : ∀ phase, frame.kind ≠ .reaction phase) :
    frame.Based program :=
  fun phase same => absurd same (kind phase)

theorem Frame.based_fresh (program : Program) (id : NodeId) (env : Env) :
    (fresh program id env).Based program := by
  intro phase kind
  simp only [fresh, initialKind] at kind ⊢
  split at kind
  · next initial condition next binding present => exact ⟨initial, condition, next, binding, present⟩
  · cases kind
  · cases kind

theorem Frame.reacts_fresh (program : Program) (id : NodeId) (env : Env) :
    (fresh program id env).reacts = false := by
  unfold reacts fresh initialKind
  generalize program.node? id = found
  rcases found with _ | node
  · rfl
  · cases node <;> rfl

/-! ### The reactions that machines evaluate -/

namespace Machine

/-- The nodes of the reactions that some machines evaluate. -/
def reactingNodes (machines : List Machine) : List NodeId :=
  ((machines.flatMap (·.frames)).filter Frame.reacts).map (·.node)

theorem reactingNodes_push (machine : Machine) (frame : Frame) (others : List Machine) :
    reactingNodes (machine.push frame :: others) =
      if frame.reacts then frame.node :: reactingNodes (machine :: others)
      else reactingNodes (machine :: others) := by
  simp only [reactingNodes, push, flatMap_cons, cons_append, filter_cons]
  split
  · rfl
  · rfl

theorem reactingNodes_deliver (machine : Machine) (value : Val) (others : List Machine) :
    reactingNodes (machine.deliver value :: others) = reactingNodes (machine :: others) := by
  rcases machine with ⟨_ | ⟨top, rest⟩, depth, depth_eq, result⟩
  · rfl
  · have same : (top.receive value).reacts = top.reacts := rfl
    simp only [reactingNodes, deliver, flatMap_cons, cons_append, filter_cons, same]
    split
    · rfl
    · rfl

theorem reactingNodes_of_nil
    {machine : Machine} (empty : machine.frames = []) (others : List Machine) :
    reactingNodes (machine :: others) = reactingNodes others := by
  simp [reactingNodes, empty]

theorem reactingNodes_ne_nil {machines : List Machine} :
    reactingNodes machines ≠ [] ↔ ∃ frame ∈ machines.flatMap (·.frames), frame.reacts = true := by
  rw [reactingNodes, Ne, map_eq_nil_iff, filter_eq_nil_iff]
  simp only [Classical.not_forall, Classical.not_not, exists_prop]

end Machine

open Machine (reactingNodes)

/-! ### Counting them -/

/-- The run counts the reactions that the machines evaluate, and `base` others.  There is at most one
of them all, unless all are others, and it has not come into being yet. -/
structure Run.Counts
    (program : Program) (base : Nat) (machines : List Machine) (run : Run) : Prop where
  counted : run.reacting = base + (reactingNodes machines).length
  single : (reactingNodes machines).length ≤ 1
  apart : 0 < base → reactingNodes machines = []
  absent : ∀ node ∈ reactingNodes machines, run.reactions.get? node = none
  based : ∀ machine ∈ machines, ∀ frame ∈ machine.frames, frame.Based program

/-- What a step makes of the count and of the table, where `others` is what stays as it is under the
active frame. -/
structure Run.Shifts
    (program : Program) (base : Nat) (others machines : List Machine) (run after : Run) : Prop where
  counts : after.Counts program base machines
  grown : run.reactions.Grown after.reactions
  frozen : 0 < base + (reactingNodes others).length → after.reactions = run.reactions

namespace Run

variable {program : Program} {base : Nat} {machines others : List Machine} {run after last : Run}

theorem counts_nil (counted : run.reacting = base) : run.Counts program base [] where
  counted := counted
  single := Nat.zero_le 1
  apart _ := rfl
  absent := forall_mem_nil _
  based := forall_mem_nil _

theorem Counts.onto {machines' : List Machine} (counts : run.Counts program base machines)
    (same : reactingNodes machines' = reactingNodes machines)
    (based : ∀ machine ∈ machines', ∀ frame ∈ machine.frames, frame.Based program) :
    run.Counts program base machines' where
  counted := same ▸ counts.counted
  single := same ▸ counts.single
  apart active := same ▸ counts.apart active
  absent := same ▸ counts.absent
  based := based

theorem Counts.beside (counts : run.Counts program base machines)
    (reactions : after.reactions = run.reactions) (reacting : after.reacting = run.reacting) :
    after.Counts program base machines :=
  { counts with
    counted := reacting.trans counts.counted
    absent := reactions ▸ counts.absent }

end Run

namespace Machine

variable {program : Program} {base : Nat} {machine : Machine} {frame : Frame}
  {waiting : List Machine} {run : Run}

theorem based_lower (based : ∀ other ∈ machine.push frame :: waiting, ∀ frame ∈ other.frames,
      frame.Based program) :
    ∀ other ∈ machine :: waiting, ∀ frame ∈ other.frames, frame.Based program := by
  obtain ⟨here, rest⟩ := forall_mem_cons.mp based
  exact forall_mem_cons.mpr ⟨(forall_mem_cons.mp here).2, rest⟩

section

variable (based : ∀ other ∈ machine :: waiting, ∀ frame ∈ other.frames, frame.Based program)
include based

theorem based_push (here : frame.Based program) :
    ∀ other ∈ machine.push frame :: waiting, ∀ frame ∈ other.frames, frame.Based program := by
  obtain ⟨lower, rest⟩ := forall_mem_cons.mp based
  exact forall_mem_cons.mpr ⟨forall_mem_cons.mpr ⟨here, lower⟩, rest⟩

theorem based_deliver (value : Val) :
    ∀ other ∈ machine.deliver value :: waiting, ∀ frame ∈ other.frames, frame.Based program := by
  obtain ⟨here, rest⟩ := forall_mem_cons.mp based
  refine forall_mem_cons.mpr ⟨?_, rest⟩
  rcases machine with ⟨_ | ⟨top, lower⟩, depth, depth_eq, result⟩
  · exact here
  · obtain ⟨onTop, below⟩ := forall_mem_cons.mp here
    exact forall_mem_cons.mpr ⟨onTop, below⟩

end

theorem counts_deliver (counts : run.Counts program base (machine :: waiting)) (value : Val) :
    run.Counts program base (machine.deliver value :: waiting) :=
  counts.onto (reactingNodes_deliver machine value waiting) (based_deliver counts.based value)

theorem counts_push (counts : run.Counts program base (machine :: waiting))
    (idle : frame.reacts = false) (based : frame.Based program) :
    run.Counts program base (machine.push frame :: waiting) := by
  refine counts.onto ?_ (based_push counts.based based)
  rw [reactingNodes_push, idle]
  rfl

section

variable (counts : run.Counts program base (machine.push frame :: waiting))
include counts

theorem counts_lower (idle : frame.reacts = false) :
    run.Counts program base (machine :: waiting) := by
  refine counts.onto ?_ (based_lower counts.based)
  rw [reactingNodes_push, idle]
  rfl

theorem le_reacting_of_counts :
    base + (reactingNodes (machine :: waiting)).length ≤ run.reacting := by
  rw [counts.counted, reactingNodes_push]
  split
  · simp
  · exact Nat.le_refl _

end

theorem shifts_of_leads
    {program : Program} {others : List Machine} {between after : Run} {lower next : Machine}
    {advance : Advance program frame}
    (shifts : run.Shifts program base others (advance.onto lower :: waiting) between)
    (aside : between.Aside after) (leads : advance.LeadsTo lower next) :
    run.Shifts program base others (next :: waiting) after where
  counts := by
    have counts := shifts.counts.beside aside.reactions aside.reacting
    rcases leads with ⟨value, rfl⟩ | ⟨node, env, rfl⟩
    · exact counts_deliver counts value
    · exact counts_push counts (Frame.reacts_fresh _ _ _) (Frame.based_fresh _ _ _)
  grown := aside.reactions ▸ shifts.grown
  frozen active := aside.reactions.trans (shifts.frozen active)

end Machine

end Reactor

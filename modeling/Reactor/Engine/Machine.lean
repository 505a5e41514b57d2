import Reactor.Engine.Frame

/-!
# Machines

A machine evaluates a node by a stack of frames.  A frame that completes hands its value to the frame
below; the value of the lowest frame is the result.  The stack may grow up to a limit: a node that
would lie beyond it is not entered, and its value is an exception.

Every step makes a machine smaller in the measure `Machine.size`, so `Machine.finish` reaches the
result.  The measure weighs a frame by the number of steps it can still take, and a frame more than
all that can ever lie above it.
-/

namespace Reactor

/-- A stack of frames, and the result once it is known. -/
structure Machine where
  /-- The active frame comes first. -/
  frames : List Frame
  depth : Nat
  depth_eq : depth = frames.length
  result : Option Val

namespace Machine

/-- A machine without frames and without a result. -/
def empty : Machine := ⟨[], 0, rfl, none⟩

instance : Inhabited Machine := ⟨empty⟩

/-- A machine with the given frames. -/
def ofFrames (frames : List Frame) : Machine := ⟨frames, frames.length, rfl, none⟩

/-- Whether no frame is left. -/
def isDone (machine : Machine) : Bool := machine.frames.isEmpty

/-- Put a frame on top. -/
def push (machine : Machine) (frame : Frame) : Machine :=
  ⟨frame :: machine.frames, machine.depth + 1, by simp [machine.depth_eq], machine.result⟩

/-- Hand a value to the active frame.  Without frames it is the result. -/
def deliver (machine : Machine) (value : Val) : Machine :=
  match machine with
  | ⟨[], _, _, _⟩ => ⟨[], 0, rfl, some value⟩
  | ⟨top :: rest, depth, depth_eq, result⟩ =>
    ⟨top.receive value :: rest, depth, by simpa using depth_eq, result⟩

/-- Take the active frame away. -/
def pop (machine : Machine) : Machine :=
  ⟨machine.frames.tail, machine.depth - 1, by simp [machine.depth_eq], machine.result⟩

/-- Enter a node, unless the stack is full.  Whatever holds in both cases holds of the machine that
comes out. -/
def enterWith (setup : Setup) (machine : Machine) (node : NodeId) (env : Env)
    (Good : Machine → Prop)
    (entered : machine.depth < setup.limits.frames →
      ∀ env, Good (machine.push (.fresh setup.program node env)))
    (refused : Good (machine.deliver (.failure (.depthLimit setup.limits.frames) node))) :
    Action { next : Machine // Good next } := do
  if room : machine.depth < setup.limits.frames then
    let env ← Frame.openScope setup.program node env
    return ⟨machine.push (.fresh setup.program node env), entered room env⟩
  else return ⟨machine.deliver (.failure (.depthLimit setup.limits.frames) node), refused⟩

/-- A machine that enters a node. -/
def start (setup : Setup) (node : NodeId) (env : Env) : Action Machine := do
  return (← empty.enterWith setup node env (fun _ => True) (fun _ _ => trivial) trivial).1

/-! ### The size of a machine -/

end Machine

/-- More than the number of steps that any frame can take. -/
def Program.stepBound (program : Program) : Nat :=
  total (program.nodes.toList.map (·.operands.length)) + 4

theorem Program.operandCount_add_lt (program : Program) (id : NodeId) :
    program.operandCount id + 3 < program.stepBound := by
  simp only [operandCount, stepBound]
  split
  · rename_i node present
    have member : node.operands.length ∈ program.nodes.toList.map (·.operands.length) := by
      apply List.mem_map_of_mem
      rw [node?, Array.getElem?_eq_some_iff] at present
      obtain ⟨inside, rfl⟩ := present
      exact Array.mem_toList_iff.mpr (Array.getElem_mem inside)
    have := le_total member
    omega
  · omega

namespace Machine

/-- What a step of a frame with `below` others under it counts for.  One step counts for more than all
steps of a frame above. -/
def stepWeight (setup : Setup) (below : Nat) : Nat :=
  Nat.pow setup.program.stepBound (setup.limits.frames - below)

/-- The size of frames that wait for a value. -/
def waitingSize (setup : Setup) : List Frame → Nat
  | [] => 0
  | frame :: rest =>
    (frame.receive default).rank setup.program * stepWeight setup rest.length +
      waitingSize setup rest

/-- The size of a machine.  It bounds the number of steps to the result. -/
def size (setup : Setup) (machine : Machine) : Nat :=
  match machine.frames with
  | [] => 0
  | top :: rest =>
    top.rank setup.program * stepWeight setup rest.length + waitingSize setup rest

theorem stepWeight_pos (setup : Setup) (below : Nat) : 0 < stepWeight setup below :=
  Nat.pow_pos (by simp [Program.stepBound])

/-- Handing over a value makes a waiting frame active and changes the size no further. -/
theorem size_deliver (setup : Setup) (machine : Machine) (value : Val) :
    (machine.deliver value).size setup = waitingSize setup machine.frames := by
  rcases machine with ⟨_ | ⟨top, rest⟩, depth, depth_eq, result⟩
  · rfl
  · simp only [deliver, size, waitingSize, Frame.rank_receive setup.program top value default]

theorem size_pop_deliver_lt (setup : Setup) {machine : Machine} {top : Frame} {rest : List Frame}
    (shape : machine.frames = top :: rest) (value : Val) :
    (machine.pop.deliver value).size setup < machine.size setup := by
  rw [size_deliver]
  simp only [pop, size, shape, List.tail_cons]
  have := Nat.mul_pos (top.rank_pos setup.program) (stepWeight_pos setup rest.length)
  omega

/-- Put another frame in the place of the active one. -/
def replaceTop (machine : Machine) (next top : Frame) (rest : List Frame)
    (shape : machine.frames = top :: rest) : Machine :=
  ⟨next :: rest, machine.depth, by simp [machine.depth_eq, shape], machine.result⟩

/-- A machine whose active frame goes on after an exception gets smaller. -/
theorem size_replaceTop_deliver_lt (setup : Setup) {machine : Machine} {next top : Frame}
    {rest : List Frame} (shape : machine.frames = top :: rest)
    (lower : ∀ value, (next.receive value).rank setup.program < top.rank setup.program)
    (value : Val) :
    ((machine.replaceTop next top rest shape).deliver value).size setup < machine.size setup := by
  rw [size_deliver]
  simp only [replaceTop, size, shape, waitingSize]
  have := Nat.mul_lt_mul_of_pos_right (lower default) (stepWeight_pos setup rest.length)
  omega

theorem size_replaceTop_push_lt (setup : Setup) {machine : Machine} {next top : Frame}
    {rest : List Frame} (shape : machine.frames = top :: rest)
    (lower : ∀ value, (next.receive value).rank setup.program < top.rank setup.program)
    (room : machine.depth < setup.limits.frames) (child : NodeId) (env : Env) :
    ((machine.replaceTop next top rest shape).push (.fresh setup.program child env)).size setup <
      machine.size setup := by
  have depth : rest.length + 1 < setup.limits.frames := by
    simpa [machine.depth_eq, shape] using room
  have weight : stepWeight setup rest.length =
      setup.program.stepBound * stepWeight setup (rest.length + 1) := by
    have level : setup.limits.frames - rest.length =
        setup.limits.frames - (rest.length + 1) + 1 := by
      omega
    rw [stepWeight, level]
    exact Nat.pow_succ'
  have fresh : (Frame.fresh setup.program child env).rank setup.program <
      setup.program.stepBound :=
    Nat.lt_of_le_of_lt (Frame.rank_fresh_le ..) (Program.operandCount_add_lt ..)
  have above := Nat.mul_lt_mul_of_pos_right fresh (stepWeight_pos setup (rest.length + 1))
  rw [← weight] at above
  have here := Nat.mul_le_mul_right (stepWeight setup rest.length) (lower default)
  rw [Nat.succ_mul] at here
  simp only [push, replaceTop, size, shape, waitingSize, List.length_cons]
  omega

/-! ### Steps -/

/-- Take a step of the active frame.  It makes the machine smaller. -/
def advance (setup : Setup) (evaluate : NodeId → Env → Action Val) (machine : Machine) (top : Frame)
    (rest : List Frame) (shape : machine.frames = top :: rest) :
    Action { next : Machine // next.size setup < machine.size setup } := do
  match ← top.advance setup evaluate with
  | .complete value =>
    Action.record top.node value
    return ⟨machine.pop.deliver value, size_pop_deliver_lt setup shape value⟩
  | .descend next child env lower =>
    (machine.replaceTop next top rest shape).enterWith setup child env _
      (fun room env => size_replaceTop_push_lt setup shape lower room child env)
      (size_replaceTop_deliver_lt setup shape lower _)

/-- Take one step.  A machine that is done stays as it is. -/
def step (setup : Setup) (evaluate : NodeId → Env → Action Val) (machine : Machine) :
    Action Machine :=
  match shape : machine.frames with
  | [] => pure machine
  | top :: rest => do return (← machine.advance setup evaluate top rest shape).1

/-- Take steps until no frame is left. -/
def finish (setup : Setup) (evaluate : NodeId → Env → Action Val) (machine : Machine) :
    Action Machine :=
  match shape : machine.frames with
  | [] => pure machine
  | top :: rest => do
    let ⟨next, _⟩ ← machine.advance setup evaluate top rest shape
    next.finish setup evaluate
termination_by machine.size setup

/-- Take at most a number of steps, and none once the machine is done. -/
def runFor (setup : Setup) (evaluate : NodeId → Env → Action Val) : Nat → Machine → Action Machine
  | 0, machine => pure machine
  | budget + 1, machine => do
    let next ← machine.step setup evaluate
    if next.isDone then return next else next.runFor setup evaluate budget

end Machine

end Reactor

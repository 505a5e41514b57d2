import Reactor.Proofs.Engine.LogSafety
import Reactor.Proofs.Session.Keeping
import Reactor.Proofs.Value.Closed

/-!
# No defect is reachable

A session is sound if its run is sound and in step, if it has a sound machine while it is running and
a result when it is done, and if it was not halted.  Every call leads from a sound session to a sound
session, and it is refused with no fault that a defect would cause.
-/

namespace Reactor

open List

/-- What a session needs to go on, depending on how far its run is. -/
def Session.Lively (setup : Setup) (Good : Val → Prop) (session : Session) : Prop :=
  match session.state with
  | .idle | .stopped => True
  | .running => ∃ machine, session.machine = some machine ∧ machine.Sound setup.program Good
  | .done => session.latest.isSome
  | .halted _ => False

/-- A session that meets no defect. -/
structure Session.Sound (setup : Setup) (Good : Val → Prop) (session : Session) : Prop where
  same : session.setup = setup
  run : session.run.Sound Good
  inStep : session.run.InStep setup.program
  latest : ∀ value, session.latest = some value → Good value
  lively : session.Lively setup Good

namespace Session

variable {setup : Setup} {Good : Val → Prop} {session : Session}

theorem Sound.not_halted (sound : session.Sound setup Good) (defect : Defect) :
    session.state ≠ .halted defect := by
  intro halted
  have lively := sound.lively
  simp only [Lively, halted] at lively

theorem Sound.machine (sound : session.Sound setup Good) (running : session.state = .running)
    {machine : Machine} (held : session.machine = some machine) :
    machine.Sound setup.program Good := by
  have lively := sound.lively
  simp only [Lively, running] at lively
  obtain ⟨found, same, soundFound⟩ := lively
  rw [held] at same
  cases same
  exact soundFound

end Session

theorem Run.Sound.soilAll
    {Good : Val → Prop} {run : Run} (sound : run.Sound Good) {streams : Streams}
    (holds : streams.Holds Good) (nodes : List NodeId) :
    Sound Good { run with streams, reactions := run.reactions.soilAll nodes } :=
  ⟨{ sound.holds with
    streams := holds
    reactions := Reactions.forall_mem_soilAll (fun _ good => good) sound.holds.reactions nodes },
    sound.calm⟩

namespace Session

variable {setup : Setup} {Good : Val → Prop} {session after : Session} {call : HostCall}
  {record : List Entry}

theorem sound_settled
    {action : Action Machine} {run : Run} (inStep : (session.settled (action run)).InStep setup)
    (same : session.setup = setup) (latest : ∀ value, session.latest = some value → Good value)
    (ended : Ensures action run (fun machine last => last.Sound Good ∧
        (machine.frames = [] → ∃ value, machine.result = some value ∧ Good value) ∧
        (machine.isDone = false → session.state = .running ∧ machine.Sound setup.program Good))
      (fun _ _ => False)) :
    (session.settled (action run)).Sound setup Good := by
  refine @settled_of_ensures session action run
    (fun after => after.InStep setup → after.Sound setup Good) _ _ ended ?_ ?_ nofun inStep
  · rintro machine last ⟨sound, result, -⟩ empty inStep
    obtain ⟨value, result, good⟩ := result empty
    refine ⟨same, ?_, inStep.2, ?_, ?_⟩
    · simp only [finished, result]
      split
      · next taken _ =>
        cases taken
        exact ⟨{ sound.holds with results := sound.holds.results.define _ good }, sound.calm⟩
      · exact sound
    · intro latest isLatest
      rw [show machine.result = some latest from isLatest] at result
      cases result
      exact good
    · show machine.result.isSome
      rw [result]
      rfl
  · rintro machine last ⟨sound, -, goesOn⟩ underway inStep
    obtain ⟨running, soundMachine⟩ := goesOn underway
    refine ⟨same, sound, inStep.2, latest, ?_⟩
    simp only [Lively, running]
    exact ⟨machine, rfl, soundMachine⟩

section

variable (law : Val.Law setup.program.nodes.size Good) (sound : session.Sound setup Good)
include law sound

theorem Sound.updates :
    Ensures (Action.updateAll session.setup session.run.takenIn.reactions.dirty) session.run.takenIn
        (fun _ last => last.Sound Good ∧ last.InStep setup.program) (fun _ _ => False) ∧
      ∀ event ∈ Call.updatesLog session, event.Sound setup.program Good := by
  have taken : session.run.takenIn.Sound Good :=
    sound.run.soilAll (sound.run.holds.streams.drain law.toFabric).commit _
  have inStep : session.run.takenIn.InStep setup.program :=
    InStep.takenIn ⟨sound.same, sound.inStep⟩
  have known : ∀ id ∈ session.run.takenIn.reactions.dirty,
      (session.run.takenIn.reactions.get? id).isSome := by
    intro id mem
    obtain ⟨reaction, found, -⟩ := (Reactions.mem_dirty inStep.once id).mp mem
    simp [found]
  rw [Call.updatesLog, sound.same]
  exact ⟨Action.ensures_updateAll law taken inStep known,
    Action.sound_updateAllLog law taken inStep known⟩

theorem Sound.move (named : call = .step ∨ session.state = .idle ∨ setup.program.main?.isSome)
    (good : ∀ value ∈ call.values, Good value) (move : session.Move call record after) :
    after.Sound setup Good ∧
      ∀ event ∈ record.filterMap Entry.event?, event.Sound setup.program Good := by
  have inStep : after.InStep setup := InStep.move ⟨sound.same, sound.inStep⟩ move
  have lively := sound.lively
  have silent : ∀ event ∈ ([] : List Event), event.Sound setup.program Good := forall_mem_nil _
  obtain rfl := sound.same
  cases move with
  | aside => exact ⟨{ sound with }, silent⟩
  | prepared prepares =>
    have holds := sound.run.holds.streams
    refine ⟨{ sound with
      run := ⟨{ sound.run.holds with streams := ?_ }, sound.run.calm⟩, inStep := inStep.2 }, silent⟩
    cases prepares with
    | register name => exact holds.register name
    | registerWith registered =>
      exact holds.registerWith (fun value given => good value (by simp [HostCall.values, given]))
        registered
    | send name datum => exact holds
  | @handed name value isPush _ =>
    subst isPush
    have holds := sound.run.holds.streams.push law.toFabric name
      (good value (by simp [HostCall.values]))
    refine ⟨{ sound with run := ?_, inStep := inStep.2 }, silent⟩
    unfold Run.handed
    split
    · exact sound.run.soilAll holds _
    · exact ⟨{ sound.run.holds with streams := holds }, sound.run.calm⟩
  | @started machine _ starts begun =>
    have reset : (session.run.reset session.setup).Sound Good :=
      ⟨sound.run.holds.reset session.setup, rfl⟩
    have safe := Action.safe_mainMachine law (Action.isSome_of_mainMachine begun)
    have started := safe _ reset
    rw [Ensures, begun] at started
    obtain ⟨soundRun, soundMachine⟩ := started
    refine ⟨⟨rfl, soundRun, inStep.2, nofun, machine, rfl, soundMachine⟩, ?_⟩
    rw [filterMap_cons_none rfl, Entry.filterMap_events]
    exact Machine.sound_startLog safe [] _ reset
  | unstarted starts missing =>
    rcases named with rfl | idle | hasMain
    · simp [HostCall.Starts] at starts
    · refine ⟨⟨rfl, ⟨sound.run.holds.reset session.setup, rfl⟩, inStep.2, nofun, ?_⟩, silent⟩
      simp only [Lively, idle]
    · rw [missing] at hasMain
      cases hasMain
  | @stepped machine running held =>
    have soundMachine := sound.machine running held
    have stepped := Machine.safe_step law
      (fun _ env inside => Action.safe_evaluate law inside env) soundMachine session.run sound.run
    refine ⟨sound_settled inStep rfl sound.latest (stepped.map ?_), ?_⟩
    · rintro next last ⟨soundRun, soundNext⟩
      refine ⟨soundRun, fun empty => ?_, fun _ => ⟨running, soundNext⟩⟩
      simpa only [Machine.Sound, empty] using soundNext
    · rw [Entry.filterMap_events]
      simp only [Call.stepLog, running, held]
      exact Machine.sound_stepLog law (fun _ env inside => Action.safe_evaluate law inside env)
        (fun waiting _ env inside => Action.sound_evaluateLog law waiting inside env) []
        soundMachine session.run sound.run
  | lost running none =>
    simp only [Lively, running, none] at lively
    obtain ⟨_, ⟨⟩, _⟩ := lively
  | stopped isStop =>
    refine ⟨⟨rfl, ⟨sound.run.holds.release, sound.run.calm⟩, inStep.2, sound.latest, ?_⟩, silent⟩
    cases state : session.state with
    | idle | running | done | stopped => simp [Lively, RunState.isLive]
    | halted defect => exact absurd state (sound.not_halted defect)
  | flushed isFlush alive flushes =>
    obtain ⟨updates, logged⟩ := sound.updates law
    cases flushes with
    | failed failed =>
      rw [Ensures, failed] at updates
      exact updates.elim
    | updated ended fresh =>
      rw [Ensures, ended] at updates
      refine ⟨{ sound with run := updates.1, inStep := inStep.2 }, ?_⟩
      rwa [Entry.filterMap_events]
    | @passed run ended stale =>
      have hasMain := (named.resolve_left fun isStep => by cases isStep.symm.trans isFlush).resolve_left
        fun idle => by simp [isStale, idle, RunState.isLive] at stale
      rw [Ensures, ended] at updates
      have begun : (run.beginPass session.setup).Sound Good :=
        ⟨updates.1.holds.beginPass session.setup, updates.1.calm⟩
      have passed := (Action.safe_pass law hasMain _ begun).and
        (Call.ensures_pass_isDone session.setup (run.beginPass session.setup))
      refine ⟨{ sound_settled inStep rfl sound.latest
        (passed.imp ?_ fun _ _ impossible => impossible.1) with }, ?_⟩
      · rintro final last ⟨⟨soundRun, result⟩, done⟩
        refine ⟨soundRun, fun _ => result, fun underway => ?_⟩
        rw [done] at underway
        cases underway
      · rw [filterMap_append, filterMap_cons_none rfl, Entry.filterMap_events,
          Entry.filterMap_events]
        exact forall_mem_append.mpr ⟨logged, Action.sound_passLog law hasMain _ begun⟩

end

theorem Sound.not_stuck
    (sound : session.Sound setup Good) (hasMain : setup.program.main?.isSome) : ¬ session.Stuck := by
  have lively := sound.lively
  rintro (⟨defect, halted⟩ | missing | ⟨done, unknown⟩)
  · exact sound.not_halted defect halted
  · rw [sound.same] at missing
    rw [missing] at hasMain
    cases hasMain
  · simp [Lively, done, unknown] at lively

end Session

theorem Event.Sound.moment {program : Program} {Good : Val → Prop} {moment : Moment}
    (sound : Event.Sound program Good (.moved moment)) :
    (∀ top rest, moment.before.frames = top :: rest →
      top.Ready program ∧
        ∀ node, top.combines? program = some node →
          node.ownsFrame = false ∧ top.values.length = node.operands.length) ∧
      (moment.after.isDone → moment.after.result.isSome) := by
  obtain ⟨before, after⟩ := sound
  constructor
  · intro top rest shape
    have soundBefore := before (by simp [shape])
    simp only [Machine.Sound, shape] at soundBefore
    have ready := soundBefore.1.1
    refine ⟨ready, fun node combines => ?_⟩
    obtain ⟨kind, present, complete⟩ := Frame.of_combines? combines
    simp only [Frame.Ready, kind] at ready
    obtain ⟨_, same, plain, received⟩ := ready
    rw [present] at same
    cases same
    exact ⟨plain, Nat.le_antisymm received complete⟩
  · intro done
    simp only [Machine.Sound, List.isEmpty_iff.mp done] at after
    obtain ⟨value, result, -⟩ := after
    rw [result]
    rfl

/-- Natives read only what is there. -/
structure Native.ReadsInside : Prop where
  /-- A native is called with as many inputs as it takes. -/
  inputs : ∀ kind name (args : List Val) function,
    lookup kind name args.length = .ok function → args.length = function.arity
  /-- An item of a list is read at a place inside the list or not at all. -/
  items : ∀ node items index position, position? index = some position →
    if 1 ≤ position ∧ position ≤ items.length then
      ∃ place, position = Int.ofNat place + 1 ∧
        items[place]? = some (itemOfList node (.list items) index)
    else
      itemOfList node (.list items) index =
        .failure (.indexOutOfBounds index.render items.length) node

theorem Native.readsInside : ReadsInside where
  inputs _ _ _ _ found := (of_lookup found).2.symm
  items node items index position isPosition := by
    split
    · next inside =>
      refine ⟨position.toNat - 1, by simp only [Int.ofNat_eq_natCast]; omega, ?_⟩
      simp only [itemOfList, withItems, isPosition, dif_pos inside, List.get_eq_getElem]
      exact List.getElem?_eq_getElem _
    · next outside => simp only [itemOfList, withItems, isPosition, dif_neg outside]

/-! ### Whole courses -/

namespace Session

variable {setup : Setup} {Good : Val → Prop}

theorem sound_create (program : Program) (limits : Limits) :
    (create program limits).Sound ⟨program, limits⟩ Good where
  same := rfl
  run := ⟨Run.holds_initial, rfl⟩
  inStep := Run.inStep_of_empty rfl fun _ => rfl
  latest := by simp [create]
  lively := trivial

theorem sound_outcome
    (law : Val.Law setup.program.nodes.size Good) (hasMain : setup.program.main?.isSome)
    {session : Session} (sound : session.Sound setup Good)
    {call : HostCall} (good : ∀ value ∈ call.values, Good value) :
    (∀ fault, (call.outcome session).1 = .error fault → fault.isFatal = false) ∧
      (call.outcome session).2.Sound setup Good := by
  have inStep : session.InStep setup := ⟨sound.same, sound.inStep⟩
  have after : (call.outcome session).2.Sound setup Good :=
    (call.path inStep).keeps (fun sound move => (sound.move law (Or.inr (Or.inr hasMain)) good move).1) sound
  refine ⟨fun fault refused => Bool.eq_false_iff.mpr fun fatal => ?_, after⟩
  exact after.not_stuck hasMain (HostCall.stuck_of_refused inStep refused (Or.inr fatal))

section Certain

variable (law : Val.Law setup.program.nodes.size Good) (hasMain : setup.program.main?.isSome)
  {session : Session} (sound : session.Sound setup Good)
include law hasMain sound

theorem ok_of_sound {α : Type} {action : Call α} {answer : α → Answer} {call : HostCall}
    (same : call.perform = do return answer (← action)) (certain : call.isRefusable = false)
    (good : ∀ value ∈ call.values, Good value) : ∃ value after, action session = .ok value after := by
  cases ended : action session with
  | ok value after => exact ⟨value, after, rfl⟩
  | error fault after =>
    have refused : (call.outcome session).1 = .error fault := by
      simp only [HostCall.outcome, same, Bind.bind, EStateM.bind, ended]
    have stuck := HostCall.stuck_of_refused ⟨sound.same, sound.inStep⟩ refused (Or.inl certain)
    exact ((sound_outcome law hasMain sound good).2.not_stuck hasMain stuck).elim

theorem exists_run_eq : ∃ value after, Call.run session = .ok value after :=
  @ok_of_sound _ _ law hasMain _ sound _ _ _ .run rfl rfl (forall_mem_nil _)

theorem exists_flush_eq : ∃ after, Call.flush session = .ok () after := by
  obtain ⟨_, after, ended⟩ :=
    @ok_of_sound _ _ law hasMain _ sound _ _ _ .flush rfl rfl (forall_mem_nil _)
  exact ⟨after, ended⟩

end Certain

section

variable (law : Val.Law setup.program.nodes.size Good) (hasMain : setup.program.main?.isSome)
  {session : Session} (sound : session.Sound setup Good) (calls : List HostCall)
  (good : ∀ call ∈ calls, ∀ value ∈ call.values, Good value)
include law hasMain sound good

theorem sound_course :
    (∀ answer ∈ (session.course calls).1, ∀ fault, answer = .error fault → fault.isFatal = false) ∧
      (session.course calls).2.Sound setup Good :=
  course_keeps (Sound setup Good) (fun call => ∀ value ∈ call.values, Good value)
    (fun answer => ∀ fault, answer = .error fault → fault.isFatal = false)
    (fun _ _ goodValues soundSession => sound_outcome law hasMain soundSession goodValues)
    calls good session sound

theorem sound_courseLog : ∀ event ∈ session.courseLog calls, event.Sound setup.program Good := by
  have tracked := @course_tracks setup session
    (fun past session => session.Sound setup Good ∧
      ∀ event ∈ past.filterMap Entry.event?, event.Sound setup.program Good)
    (fun call => ∀ value ∈ call.values, Good value) ?_ ⟨sound.same, sound.inStep⟩ []
    ⟨sound, forall_mem_nil _⟩ calls good
  · rw [← filterMap_courseRecord]
    exact tracked.2
  · rintro call past session record after good - ⟨sound, events⟩ move
    obtain ⟨soundAfter, more⟩ := sound.move law (Or.inr (Or.inr hasMain)) good move
    rw [filterMap_append]
    exact ⟨soundAfter, forall_mem_append.mpr ⟨events, more⟩⟩

end

/-- No call of a course meets a defect, for reasons that lie in every step of every machine. -/
structure FreeOfDefects (program : Program) (limits : Limits) (calls : List HostCall) : Prop where
  /-- No call is refused because of a defect. -/
  answers : ∀ answer ∈ ((create program limits).course calls).1, ∀ defect,
    answer ≠ .error (.defect defect) ∧ answer ≠ .error (.halted defect)
  /-- The run is not halted. -/
  alive : ∀ defect, ((create program limits).course calls).2.state ≠ .halted defect
  /-- The active frame has the values that its kind and phase need, and a frame that combines has
  exactly the operands of its node. -/
  ready : ∀ moment, .moved moment ∈ (create program limits).courseLog calls →
    ∀ top rest, moment.before.frames = top :: rest →
      top.Ready program ∧
        ∀ node, top.combines? program = some node →
          node.ownsFrame = false ∧ top.values.length = node.operands.length
  /-- A machine that is done has a result. -/
  finished : ∀ moment, .moved moment ∈ (create program limits).courseLog calls →
    moment.after.isDone → moment.after.result.isSome

/--
No defect is reachable.  In a program with a main source, whatever the limits are and whatever calls a
host makes, no call is refused because of a defect and no run is halted, as long as the functions
inside the values that the host hands in have their bodies among the nodes of the program.  Natives are
called with as many inputs as they take, and read no item outside of a list.
-/
theorem no_defect_reachable (program : Program) (limits : Limits) (calls : List HostCall)
    (hasMain : program.main?.isSome)
    (closed : ∀ call ∈ calls, ∀ value ∈ call.values, value.Closed program.nodes.size) :
    FreeOfDefects program limits calls ∧ Native.ReadsInside := by
  have law := Val.closed_law program.nodes.size
  have sound : (create program limits).Sound ⟨program, limits⟩ (Val.Closed program.nodes.size) :=
    sound_create program limits
  obtain ⟨answers, last⟩ := sound_course law hasMain sound calls closed
  have moments := sound_courseLog law hasMain sound calls closed
  refine ⟨⟨?_, last.not_halted, fun moment member => (moments _ member).moment.1,
    fun moment member => (moments _ member).moment.2⟩, Native.readsInside⟩
  intro answer member defect
  constructor
  · intro refused
    cases answers answer member _ refused
  · intro refused
    cases answers answer member _ refused

/-- A host registers a stream with a function, which the program hands to a native. -/
theorem no_defect_reachable_through_function :
    let program :=
      Program.ofExpr (.call (.access (.list [.bool true, .previous]) "translate") [.stream "f"])
    let function : Val := .closure ⟨⟨.host, 0⟩, none, ["item"], 1, []⟩
    let calls : List HostCall :=
      [.registerWith "f" .any (some function), .run, .push "f" function, .flush, .stop]
    (program.main?.isSome ∧ function.Closed program.nodes.size) ∧
      ∀ answer ∈ ((create program ⟨8, 1⟩).course calls).1, ∀ defect,
        answer ≠ .error (.defect defect) ∧ answer ≠ .error (.halted defect) := by
  intro program function calls
  have hasMain : program.main?.isSome := rfl
  have inside : function.Closed program.nodes.size := by
    have size : program.nodes.size = 6 := rfl
    intro body member
    rw [size]
    simp only [function, Val.bodies, List.mem_singleton] at member
    rw [member]
    decide
  have closed : ∀ call ∈ calls, ∀ value ∈ call.values, value.Closed program.nodes.size := by
    simpa [calls, HostCall.values] using inside
  exact ⟨⟨hasMain, inside⟩, (no_defect_reachable program ⟨8, 1⟩ calls hasMain closed).1.answers⟩

end Session

end Reactor

import Mathlib
import Reactor.Proofs.Session.Safety

/-!
# Pooled updates

Values that are handed to streams are pooled until the next flush.  A `Ledger` keeps the books of a
host: which of its pushes were accepted and which data it sent since the last flush.  The books agree
with the streams at any time, and a reaction is dirty between calls only if a value waits at one of its
streams.

Hence a flush that succeeds updates a reaction exactly once if any of its streams received anything,
and leaves it alone otherwise, however many values there were and whatever the second evaluation of the
main source reaches.

A run that starts drops what was pushed before.  It does not drop what was sent.

The library is imported whole for the equations by which the runs at the end are evaluated.
-/

namespace Reactor

open List

/-! ### The books of a host -/

/-- What a host has handed over since streams were last committed or a run was started. -/
structure Ledger where
  /-- The values that were pushed and accepted, oldest first. -/
  pushed : List (String × Val)
  /-- The data that were sent, oldest first. -/
  sent : List (String × Datum)

namespace Ledger

/-- Nothing was handed over. -/
def empty : Ledger := ⟨[], []⟩

/-- The values that were pushed to a stream. -/
def pushedTo (ledger : Ledger) (name : String) : List Val :=
  (ledger.pushed.filter (·.1 = name)).map (·.2)

/-- What a stream receives: the values that were pushed to it, and then those that were sent to it and
that it accepts, each in their order. -/
def received (ledger : Ledger) (streams : Streams) (name : String) : List Val :=
  ledger.pushedTo name ++
    streams.admitted (ledger.sent.map fun message => (message.1, message.2.toVal)) name

/-- Without what was pushed. -/
def dropPushed (ledger : Ledger) : Ledger :=
  { ledger with pushed := [] }

/-- The books after a call. -/
def note (ledger : Ledger) (session : Session) (call : HostCall) : Ledger :=
  match call with
  | .push stream value =>
    match (call.outcome session).1 with
    | .ok _ => { ledger with pushed := ledger.pushed ++ [(stream, value)] }
    | .error _ => ledger
  | .send stream datum => { ledger with sent := ledger.sent ++ [(stream, datum)] }
  | .flush =>
    -- A session that is halted refuses the call before it takes anything in.
    match session.state with
    | .halted _ => ledger
    | _ => empty
  | .start => ledger.dropPushed
  | .run =>
    match session.state with
    | .idle | .stopped => ledger.dropPushed
    | _ => ledger
  | _ => ledger

theorem pushedTo_push (ledger : Ledger) (stream : String) (value : Val) (name : String) :
    ({ ledger with pushed := ledger.pushed ++ [(stream, value)] } : Ledger).pushedTo name =
      ledger.pushedTo name ++ if stream = name then [value] else [] := by
  by_cases here : stream = name <;> simp [pushedTo, here]

end Ledger

/-- The books at the end of a course of calls. -/
def Session.ledger (session : Session) (ledger : Ledger) : List HostCall → Ledger
  | [] => ledger
  | call :: rest => (call.outcome session).2.ledger (ledger.note session call) rest

namespace Run

/-- The books agree with the streams of a run, and dirty reactions are dirty for a reason. -/
structure Pooled (ledger : Ledger) (run : Run) : Prop where
  distinct : run.streams.names.Nodup
  inbox : run.streams.inbox = ledger.sent
  waiting : ∀ name, run.streams.waiting name = ledger.pushedTo name
  /-- Values wait at a stream of every dirty reaction. -/
  justified : ∀ reaction ∈ run.reactions.table, reaction.state = .dirty →
    ∃ name ∈ reaction.streams, run.streams.waiting name ≠ []

variable {ledger : Ledger} {run after : Run}

theorem Pooled.of_extends (pooled : Pooled ledger run) (streams : run.streams.Extends after.streams)
    (reactions : ∀ reaction ∈ after.reactions.table, reaction.state = .dirty →
      reaction ∈ run.reactions.table) :
    Pooled ledger after where
  distinct := streams.distinct pooled.distinct
  inbox := streams.inbox.trans pooled.inbox
  waiting name := (streams.waiting name).trans (pooled.waiting name)
  justified reaction mem dirty := by
    obtain ⟨name, named, waits⟩ :=
      pooled.justified reaction (reactions reaction mem dirty) dirty
    exact ⟨name, named, by rwa [streams.waiting name]⟩

theorem stable_pooled (program : Program) (ledger : Ledger) :
    Stable program (Pooled ledger) := by
  intro run after change pooled
  refine pooled.of_extends change.extends fun entry mem dirty => ?_
  cases change with
  | elsewhere streams reactions => rwa [reactions] at mem
  | provide ensured => exact mem
  | settle reaction _ _ _ _ settled _ =>
    rcases Reactions.mem_of_mem_insertInto mem with rfl | old
    · rw [settled] at dirty
      cases dirty
    · exact old

theorem Pooled.release (pooled : Pooled ledger run) : Pooled ledger run.release :=
  pooled.of_extends (Streams.extends_unsubscribeAll run.streams) fun _ mem _ => by cases mem

theorem Pooled.reset (pooled : Pooled ledger run) (setup : Setup) :
    Pooled ledger.dropPushed (run.reset setup) where
  distinct := Streams.nodup_names_reset pooled.distinct
  inbox := pooled.inbox
  waiting := Streams.waiting_reset run.streams
  justified _ mem := by cases mem

theorem Pooled.handed {program : Program} (inStep : InStep program run) (pooled : Pooled ledger run)
    (stream : String) (value : Val) :
    Pooled
      (match run.streams.refusal? stream value with
        | none => { ledger with pushed := ledger.pushed ++ [(stream, value)] }
        | some _ => ledger)
      (run.handed (stream, value)) := by
  have queued := Streams.waiting_hand run.streams (stream, value)
  have more : ∀ name, run.streams.waiting name ≠ [] →
      (run.streams.hand (stream, value)).waiting name ≠ [] := by
    intro name waits
    rw [queued]
    exact append_ne_nil_of_left_ne_nil waits _
  cases judged : run.streams.refusal? stream value with
  | some fault =>
    refine ⟨Streams.nodup_names_hand pooled.distinct _, ?_, ?_, ?_⟩
    · exact (Streams.inbox_hand _ _).trans pooled.inbox
    · intro name
      show (run.streams.hand (stream, value)).waiting name = ledger.pushedTo name
      simp [queued, pooled.waiting, Streams.admitted, judged]
    · simp only [Run.handed, judged]
      intro reaction mem dirty
      obtain ⟨name, named, waits⟩ := pooled.justified reaction mem dirty
      exact ⟨name, named, more name waits⟩
  | none =>
    have here : ∀ name, (run.streams.hand (stream, value)).waiting name =
        run.streams.waiting name ++ if stream = name then [value] else [] := by
      intro name
      rw [queued]
      by_cases same : stream = name
      · subst same
        simp [Streams.admitted, judged]
      · simp [Streams.admitted, same]
    refine ⟨Streams.nodup_names_hand pooled.distinct _, ?_, ?_, ?_⟩
    · exact (Streams.inbox_hand _ _).trans pooled.inbox
    · intro name
      rw [Ledger.pushedTo_push, ← pooled.waiting name]
      exact here name
    · simp only [Run.handed, judged]
      intro reaction mem dirty
      obtain ⟨old, present, rfl⟩ := mem_map.mp mem
      split at dirty
      · next subscriber =>
        -- A subscriber has the stream that has just received a value.
        obtain ⟨found, equal, named⟩ := (inStep.subscribed stream old.node).mp subscriber
        rw [Reactions.get?_of_mem_table inStep.once present] at equal
        cases equal
        refine ⟨stream, by rw [if_pos subscriber]; exact named, ?_⟩
        rw [here, if_pos rfl]
        simp
      · next other =>
        obtain ⟨name, named, waits⟩ := pooled.justified old present dirty
        exact ⟨name, by rw [if_neg other]; exact named, more name waits⟩

end Run

/-! ### Flushes -/

namespace Session

variable {setup : Setup} {session : Session} {ledger : Ledger}

theorem received_eq_waiting (pooled : session.run.Pooled ledger) (name : String) :
    ledger.received session.run.streams name = session.run.streams.drain.1.waiting name := by
  rw [Streams.waiting_drain, pooled.waiting, Streams.letters, pooled.inbox]
  rfl

theorem mem_changed_iff (pooled : session.run.Pooled ledger) (name : String) :
    name ∈ session.run.advancedStreams.changed ↔ ledger.received session.run.streams name ≠ [] := by
  rw [received_eq_waiting pooled]
  exact Streams.mem_changed_commit (Streams.nodup_names_drain pooled.distinct) name

theorem get?_takenIn (run : Run) (node : NodeId) :
    run.takenIn.reactions.get? node =
      (run.reactions.get? node).map fun reaction =>
        if node ∈ run.advancedStreams.changed.flatMap run.advancedStreams.subscribers
        then reaction.soil else reaction :=
  Reactions.get?_soilAll _ _ node

section

variable (inStep : session.InStep setup)
include inStep

theorem mem_subscribers_changed_iff (pooled : session.run.Pooled ledger) {node : NodeId}
    {reaction : Reaction} (found : session.run.reactions.get? node = some reaction) :
    node ∈ session.run.advancedStreams.changed.flatMap session.run.advancedStreams.subscribers ↔
      ∃ name ∈ reaction.streams, ledger.received session.run.streams name ≠ [] := by
  have subscribed := inStep.2.advancedStreams.subscribed
  rw [mem_flatMap]
  constructor
  · rintro ⟨name, changed, subscriber⟩
    obtain ⟨other, equal, named⟩ := (subscribed name node).mp subscriber
    rw [found] at equal
    cases equal
    exact ⟨name, named, (mem_changed_iff pooled name).mp changed⟩
  · rintro ⟨name, named, receives⟩
    exact ⟨name, (mem_changed_iff pooled name).mpr receives,
      (subscribed name node).mpr ⟨reaction, found, named⟩⟩

theorem nodup_nodes_takenIn : session.run.takenIn.reactions.nodes.Nodup := by
  show (session.run.reactions.soilAll _).nodes.Nodup
  rw [Reactions.nodes_soilAll]
  exact inStep.2.once

theorem mem_dirty_takenIn_iff (pooled : session.run.Pooled ledger) {node : NodeId}
    {reaction : Reaction} (found : session.run.reactions.get? node = some reaction) :
    node ∈ session.run.takenIn.reactions.dirty ↔
      ∃ name ∈ reaction.streams, ledger.received session.run.streams name ≠ [] := by
  have marked := mem_subscribers_changed_iff inStep pooled found
  have looked := get?_takenIn session.run node
  rw [found, Option.map_some] at looked
  rw [Reactions.mem_dirty (nodup_nodes_takenIn inStep)]
  constructor
  · rintro ⟨entry, equal, dirty⟩
    rw [looked] at equal
    cases equal
    split at dirty
    · next mem => exact marked.mp mem
    · -- One that was dirty before was dirty for a reason, and is marked for the same.
      obtain ⟨name, named, waits⟩ :=
        pooled.justified reaction (Reactions.mem_table_of_get? found) dirty
      refine ⟨name, named, ?_⟩
      rw [Ledger.received, ← pooled.waiting name]
      exact append_ne_nil_of_left_ne_nil waits _
  · intro receives
    exact ⟨_, looked, by rw [if_pos (marked.mpr receives)]; rfl⟩

end

/--
A flush that succeeds updates each reaction once if one of its streams receives anything, and leaves it
as it is otherwise; new reactions were never updated, and all reactions are settled.  The newest value
of a stream that receives anything is the last one that it receives.
-/
structure Flushed (ledger : Ledger) (session after : Session) : Prop where
  updated : ∀ {node : NodeId} {reaction : Reaction},
    session.run.reactions.get? node = some reaction →
    (∃ name ∈ reaction.streams, ledger.received session.run.streams name ≠ []) →
      ∃ value, after.run.reactions.get? node = some (reaction.settle value)
  untouched : ∀ {node : NodeId} {reaction : Reaction},
    session.run.reactions.get? node = some reaction →
    (∀ name ∈ reaction.streams, ledger.received session.run.streams name = []) →
      after.run.reactions.get? node = some reaction
  created : ∀ {node : NodeId} {reaction : Reaction},
    session.run.reactions.get? node = none →
    after.run.reactions.get? node = some reaction → reaction.updates = 0
  settled : ∀ reaction ∈ after.run.reactions.table, reaction.state = .settled
  latest : ∀ name, ledger.received session.run.streams name ≠ [] →
    after.run.streams.latest? name = (ledger.received session.run.streams name).getLast?

section Updating

variable {values : NodeId → Val} {updated : Reactions} {after : Run}

theorem settled_of_updated (inStep : session.InStep setup) (looked : ∀ node, updated.get? node =
      if node ∈ session.run.takenIn.reactions.dirty
      then (session.run.takenIn.reactions.get? node).map (·.settle (values node))
      else session.run.takenIn.reactions.get? node)
    {node : NodeId} {reaction : Reaction} (found : updated.get? node = some reaction) :
    reaction.state = .settled := by
  rw [looked node] at found
  split at found
  · obtain ⟨old, -, rfl⟩ := Option.map_eq_some_iff.mp found
    rfl
  · next clean =>
    rw [Reactions.mem_dirty (nodup_nodes_takenIn inStep)] at clean
    cases state : reaction.state with
    | settled => rfl
    | dirty => exact absurd ⟨reaction, found, state⟩ clean

end Updating

theorem flushed_of_refresh (inStep : session.InStep setup) (pooled : session.run.Pooled ledger)
    {after : Session} (afterInStep : after.InStep setup)
    (streams : session.run.advancedStreams.Extends after.run.streams)
    {values : NodeId → Val} {updated : Reactions}
    (looked : ∀ node, updated.get? node =
      if node ∈ session.run.takenIn.reactions.dirty
      then (session.run.takenIn.reactions.get? node).map (·.settle (values node))
      else session.run.takenIn.reactions.get? node)
    (grown : updated.Grown after.run.reactions) :
    Flushed ledger session after where
  updated {node reaction} found receives := by
    have dirty := (mem_dirty_takenIn_iff inStep pooled found).mpr receives
    have marked := (mem_subscribers_changed_iff inStep pooled found).mpr receives
    refine ⟨values node, grown.kept ?_⟩
    rw [looked node, if_pos dirty, get?_takenIn, found, Option.map_some, Option.map_some,
      if_pos marked]
    rfl
  untouched {node reaction} found quiet := by
    have nothing : ¬ ∃ name ∈ reaction.streams,
        ledger.received session.run.streams name ≠ [] := by
      rintro ⟨name, named, receives⟩
      exact receives (quiet name named)
    have clean := mt (mem_dirty_takenIn_iff inStep pooled found).mp nothing
    have unmarked := mt (mem_subscribers_changed_iff inStep pooled found).mp nothing
    apply grown.kept
    rw [looked node, if_neg clean, get?_takenIn, found, Option.map_some, if_neg unmarked]
  created {node reaction} absent found := by
    have missing : updated.get? node = none := by
      rw [looked node, get?_takenIn, absent]
      simp
    exact (grown.fresh missing found).2
  settled reaction mem := by
    have found := Reactions.get?_of_mem_table afterInStep.2.once mem
    cases before : updated.get? reaction.node with
    | none => exact (grown.fresh before found).1
    | some entry =>
      rw [grown.kept before] at found
      cases found
      exact settled_of_updated inStep looked before
  latest name receives := by
    rw [received_eq_waiting pooled] at receives ⊢
    have newest := Streams.latest?_commit_of_waiting receives
    have there : (session.run.advancedStreams.get? name).isSome := by
      cases found : session.run.streams.drain.1.get? name with
      | none => exact absurd (Streams.waiting_of_absent found) receives
      | some stream => simp [Run.advancedStreams, Streams.get?_commit, found]
    rw [streams.latest there]
    exact newest

theorem pooled_of_advanced (pooled : session.run.Pooled ledger)
    {after : Run} (streams : session.run.advancedStreams.Extends after.streams)
    (settled : ∀ reaction ∈ after.reactions.table, reaction.state = .settled) :
    after.Pooled .empty where
  distinct := streams.distinct
    (Streams.nodup_names_commit (Streams.nodup_names_drain pooled.distinct))
  inbox := streams.inbox.trans (Streams.inbox_drain session.run.streams)
  waiting name := (streams.waiting name).trans (Streams.waiting_commit _ name)
  justified reaction mem dirty := by
    rw [settled reaction mem] at dirty
    cases dirty

/-- All that happens to streams after they were committed is that some come into being and that
subscribers change. -/
theorem ensures_flush_extends (inStep : session.InStep setup) (alive : session.Alive) :
    Ensures Call.flush session
      (fun _ after => session.run.advancedStreams.Extends after.run.streams)
      (fun _ after => session.run.advancedStreams.Extends after.run.streams) := by
  have kept {record : List Entry} {after : Session} (flushes : session.Flushes record after) :
      session.run.advancedStreams.Extends after.run.streams :=
    (flushes.keeps (Run.stable_extends session.setup.program session.run.advancedStreams)
      (fun run streams => streams.trans (Streams.extends_unsubscribeAll run.streams))
      (fun _ _ _ streams => streams) (Streams.Extends.refl _)).2
  refine (Call.flushes_flush inStep alive).imp ?_ fun _ _ failed => kept failed.1
  rintro _ _ ⟨middle, notices, flushes, -, rfl⟩
  exact @kept _ middle flushes

section

variable (inStep : session.InStep setup) (pooled : session.run.Pooled ledger)
include inStep pooled

theorem ensures_flush_pooled (alive : session.Alive) :
    Ensures Call.flush session
      (fun _ after => Flushed ledger session after ∧ after.run.Pooled .empty)
      (fun _ after => after.run.Pooled .empty) := by
  have inStepAfter : Ensures Call.flush session (fun _ => InStep setup) (fun _ => InStep setup) :=
    Ensures.imp (Call.goes_flush inStep) (fun _ _ ended => ended.1.keeps InStep.move inStep)
      fun _ _ ended => ended.1.keeps InStep.move inStep
  have extended := ensures_flush_extends inStep alive
  have updated := Call.ensures_refresh_reactions
    (Reactions.nodup_dirty (nodup_nodes_takenIn inStep))
    session.run.advancedStreams.changed { session with run := session.run.takenIn }
  simp only [Ensures, Call.flush_of_alive inStep alive] at inStepAfter extended ⊢
  simp only [Ensures] at updated
  split
  · next _ after ended =>
    rw [ended] at inStepAfter extended updated
    obtain ⟨values, table, looked, grown⟩ := updated
    have flushed := flushed_of_refresh inStep pooled inStepAfter extended looked grown
    exact ⟨flushed, pooled_of_advanced pooled extended flushed.settled⟩
  · next fault after ended =>
    rw [ended] at extended updated
    refine pooled_of_advanced pooled extended fun reaction mem => ?_
    rw [updated] at mem
    cases mem

/-! ### Calls keep the books -/

theorem pooled_push (stream : String) (value : Val) :
    ((HostCall.push stream value).outcome session).2.run.Pooled
      (ledger.note session (.push stream value)) := by
  by_cases halted : ∃ defect, session.state = .halted defect
  · obtain ⟨defect, state⟩ := halted
    simpa only [Ledger.note, Call.outcome_push_of_halted state] using pooled
  · have alive : session.Alive :=
      fun defect state => halted ⟨defect, state⟩
    have handed := pooled.handed inStep.2 stream value
    have answered := Call.outcome_push inStep alive stream value
    unfold Call.pushAnswer at answered
    cases judged : session.run.streams.refusal? stream value with
    | none =>
      rw [judged] at answered handed
      simpa only [Ledger.note, answered] using handed
    | some fault =>
      rw [judged] at answered handed
      simpa only [Ledger.note, answered] using handed

theorem pooled_flush :
    (HostCall.flush.outcome session).2.run.Pooled (ledger.note session .flush) := by
  by_cases halted : ∃ defect, session.state = .halted defect
  · obtain ⟨defect, state⟩ := halted
    simpa only [Ledger.note, Call.outcome_flush_of_halted state, state] using pooled
  · have alive : session.Alive :=
      fun defect state => halted ⟨defect, state⟩
    have emptied : ledger.note session .flush = .empty := by
      simp only [Ledger.note]
    rw [emptied]
    refine HostCall.outcome_of_ensures (fun _ after => after.run.Pooled .empty) ?_
    simp only [HostCall.perform, ensures_bind]
    exact (ensures_flush_pooled inStep pooled alive).map (fun _ _ flushed => flushed.2)

end

/-- Calls that hand nothing over keep the books, but where a run begins, what was pushed is dropped. -/
theorem pooled_of_path (pooled : session.run.Pooled ledger) {call : HostCall}
    (quiet : call ≠ .flush ∧ (∀ stream value, call ≠ .push stream value) ∧
      ∀ stream datum, call ≠ .send stream datum)
    {record : List Entry} {last : Session} (path : session.Path call record last) :
    (.pass ∈ record → last.run.Pooled ledger.dropPushed) ∧
      (.pass ∉ record → last.run.Pooled ledger) := by
  refine @Path.tracks _ _ _ _ (fun past session =>
    (.pass ∈ past → session.run.Pooled ledger.dropPushed) ∧
      (.pass ∉ past → session.run.Pooled ledger)) ?_ path [] ⟨nofun, fun _ => pooled⟩
  rintro past session record after ⟨dropped, kept⟩ move
  have keeps {books : Ledger}
      (reset : .pass ∈ record → (session.run.reset session.setup).Pooled books)
      (holds : .pass ∉ record → session.run.Pooled books) : after.run.Pooled books := by
    refine (move.keeps (Run.stable_pooled session.setup.program books) (fun _ => Run.Pooled.release)
      (fun isFlush => absurd isFlush quiet.1) (fun _ => reset) ?_
      (fun name value isPush => absurd isPush (quiet.2.1 name value)) holds).2
    intro streams prepares pooled
    cases prepares with
    | register name =>
      exact pooled.of_extends (Streams.extends_register _ name) fun _ mem _ => mem
    | registerWith registered =>
      exact pooled.of_extends (Streams.extends_registerWith registered) fun _ mem _ => mem
    | send name datum => exact absurd rfl (quiet.2.2 name datum)
  by_cases begins : .pass ∈ record
  · have reset : (session.run.reset session.setup).Pooled ledger.dropPushed := by
      by_cases before : .pass ∈ past
      · exact (dropped before).reset session.setup
      · exact (kept before).reset session.setup
    exact ⟨fun _ => keeps (fun _ => reset) fun none => absurd begins none,
      fun none => absurd (mem_append_right _ begins) none⟩
  · simp only [mem_append, begins, or_false]
    exact ⟨fun before => keeps (fun begin_ => absurd begin_ begins) fun _ => dropped before,
      fun before => keeps (fun begin_ => absurd begin_ begins) fun _ => kept before⟩

theorem pooled_outcome
    (inStep : session.InStep setup) (pooled : session.run.Pooled ledger) (call : HostCall) :
    (call.outcome session).2.run.Pooled (ledger.note session call) := by
  have path := call.path inStep
  cases call with
  | start => exact (pooled_of_path pooled (by simp) path).1 mem_cons_self
  | run =>
    have followed := pooled_of_path pooled (by simp) path
    simp only [HostCall.record, Ledger.note] at followed ⊢
    cases state : session.state with
    | idle | stopped =>
      simp only [state] at followed
      exact followed.1 mem_cons_self
    | running | done | halted _ =>
      simp only [state] at followed
      exact followed.2 (by simp)
  | flush => exact pooled_flush inStep pooled
  | push stream value => exact pooled_push inStep pooled stream value
  | send stream datum =>
    exact ⟨pooled.distinct, congrArg (· ++ [(stream, datum)]) pooled.inbox, pooled.waiting,
      pooled.justified⟩
  | step | runFor _ | stop | register _ | registerWith _ _ _ | observe | ignore _ =>
    exact (pooled_of_path pooled (by simp) path).2 (by simp [HostCall.record])

theorem pooled_create (program : Program) (limits : Limits) :
    (create program limits).run.Pooled .empty where
  distinct := nodup_nil
  inbox := rfl
  waiting _ := rfl
  justified _ mem := by cases mem

theorem pooled_course
    (inStep : session.InStep setup) (pooled : session.run.Pooled ledger) (calls : List HostCall) :
    (session.course calls).2.run.Pooled (session.ledger ledger calls) := by
  induction calls generalizing session ledger with
  | nil => exact pooled
  | cons call rest ih =>
    exact ih (inStep.outcome call) (pooled_outcome inStep pooled call)

/-! ### Exactly once -/

/--
Pooled values update a reaction exactly once.  Whatever a host has called before, a flush that succeeds
raises the number of updates of a reaction by one if any of its streams received a value since streams
were last committed or a run was last started, and leaves its value and that number alone otherwise.
Reactions that come into being have not been updated, no reaction stays dirty, and the newest value of a
stream that received anything is the last that it received, pushes before accepted data.

Between calls a reaction is dirty only if a value waits at one of its streams.
-/
theorem flush_updates_once (program : Program) (limits : Limits) (calls : List HostCall) :
    let session := ((create program limits).course calls).2
    let received := ((create program limits).ledger .empty calls).received session.run.streams
    (∀ reaction ∈ session.run.reactions.table, reaction.state = .dirty →
        ∃ name ∈ reaction.streams, ∃ stream,
          session.run.streams.get? name = some stream ∧ stream.pending ≠ []) ∧
      ∀ after, Call.flush session = .ok () after →
        (∀ node reaction, session.run.reactions.get? node = some reaction →
          ((∃ name ∈ reaction.streams, received name ≠ []) →
            ∃ updated, after.run.reactions.get? node = some updated ∧
              updated.updates = reaction.updates + 1) ∧
          ((∀ name ∈ reaction.streams, received name = []) →
            ∃ kept, after.run.reactions.get? node = some kept ∧
              kept.value = reaction.value ∧ kept.updates = reaction.updates)) ∧
        (∀ node reaction, session.run.reactions.get? node = none →
          after.run.reactions.get? node = some reaction → reaction.updates = 0) ∧
        (∀ reaction ∈ after.run.reactions.table, reaction.state = .settled) ∧
        (∀ name, received name ≠ [] →
          after.run.streams.latest? name = (received name).getLast?) := by
  intro session received
  have inStep : session.InStep ⟨program, limits⟩ := inStep_course (inStep_create program limits) calls
  have pooled : session.run.Pooled ((create program limits).ledger .empty calls) :=
    pooled_course (inStep_create program limits) (pooled_create program limits) calls
  constructor
  · intro reaction member dirty
    obtain ⟨name, named, waits⟩ := pooled.justified reaction member dirty
    cases found : session.run.streams.get? name with
    | none => exact absurd (Streams.waiting_of_absent found) waits
    | some stream =>
      rw [Streams.waiting_of_get? found] at waits
      exact ⟨name, named, stream, found, waits⟩
  · intro after ended
    have alive : ∀ defect, session.state ≠ .halted defect := by
      intro defect state
      have refused : Call.flush session = .error (.halted defect) session := by
        simp only [Call.flush, Call.refuseHalted, bind, EStateM.bind, get_apply, state]
        rfl
      rw [refused] at ended
      cases ended
    have ensured := ensures_flush_pooled inStep pooled alive
    simp only [Ensures, ended] at ensured
    obtain ⟨flushed, -⟩ := ensured
    refine ⟨fun node reaction found => ⟨fun receives => ?_, fun quiet => ?_⟩,
      fun node reaction => flushed.created, flushed.settled, flushed.latest⟩
    · obtain ⟨value, later⟩ := flushed.updated found receives
      exact ⟨_, later, rfl⟩
    · exact ⟨reaction, flushed.untouched found quiet, rfl, rfl⟩

/-- Two pushes and a datum in between make one update, and the datum comes last. -/
theorem flush_updates_once_for_three_values :
    let program := Program.ofExpr (.reaction (.bool false) (.changed (.stream "s")) (.stream "s"))
    let calls : List HostCall :=
      [.register "s", .run, .push "s" (.bool true), .send "s" (.bool false), .push "s" (.bool true)]
    let session := ((create program ⟨8, 1⟩).course calls).2
    ∃ after, Call.flush session = .ok () after ∧
      (∃ updated, after.run.reactions.get? 4 = some updated ∧ updated.updates = 1) ∧
      after.run.streams.latest? "s" = some (.bool false) := by
  intro program calls session
  have received : ((create program ⟨8, 1⟩).ledger .empty calls).received session.run.streams "s" =
      [.bool true, .bool true, .bool false] := by
    unfold session
    cbv
  have reaction : (session.run.reactions.get? 4).map (fun entry => (entry.streams, entry.updates)) =
      some (["s"], 0) := by
    unfold session
    cbv
  have sound : session.Sound ⟨program, ⟨8, 1⟩⟩ (Val.Closed program.nodes.size) :=
    (sound_course (Val.closed_law program.nodes.size) rfl (sound_create program ⟨8, 1⟩) calls
      (by simp [calls, HostCall.values, Val.Closed, Val.bodies])).2
  obtain ⟨after, ended⟩ := Session.exists_flush_eq (Val.closed_law program.nodes.size) rfl sound
  obtain ⟨entry, found, parts⟩ := Option.map_eq_some_iff.mp reaction
  obtain ⟨streams, updates⟩ := Prod.mk.inj parts
  obtain ⟨-, flushed⟩ := flush_updates_once program ⟨8, 1⟩ calls
  obtain ⟨updated, -, -, latest⟩ := flushed after ended
  obtain ⟨later, there, raised⟩ := (updated 4 entry found).1
    ⟨"s", by rw [streams]; exact List.mem_singleton_self "s", by rw [received]; simp⟩
  refine ⟨after, ended, ⟨later, there, by rw [raised, updates]⟩, ?_⟩
  rw [latest "s" (by rw [received]; simp), received]
  rfl

/--
A value that is pushed before a run starts is accepted and never taken in: the flush after the run does
not update the reaction, although its stream received a value and nothing was committed in between.
-/
theorem push_before_start_updates_nothing :
    let program := Program.ofExpr (.reaction (.bool false) (.changed (.stream "s")) (.stream "s"))
    let calls : List HostCall := [.register "s", .push "s" (.bool true), .run]
    let session := ((create program ⟨8, 1⟩).course calls).2
    ((create program ⟨8, 1⟩).course calls).1 =
        [.ok .nothing, .ok .nothing, .ok (.value (.bool false))] ∧
      (session.run.reactions.get? 4).map (fun entry => (entry.streams, entry.updates)) =
        some (["s"], 0) ∧
      (match Call.flush session with
        | .ok _ after => (after.run.reactions.get? 4).map (·.updates)
        | .error _ _ => none) = some 0 := by
  refine ⟨by cbv, by cbv, by cbv⟩

end Session

end Reactor

import Reactor.Proofs.Run.Akin
import Reactor.Proofs.Session.Interleaving

/-!
# Only the last of pooled values matters

Suppose that a host pushes values to streams and flushes, and that another host pushes other values to
the same streams, with the same last value for each of them, and flushes as well.  The sessions of the
two then agree on everything but older entries of the histories of these streams, and no further call
can tell them apart or make them differ in anything else.

The argument has two parts.  Every call mirrors itself on sessions with akin runs, which is a matter of
going through the calls.  The flush that takes the pushed values in makes runs akin: the streams take in
different values with the same last ones, and the reactions that are marked are the same.
-/

namespace Reactor

open List

/-- Whether a call concerns observers. -/
def HostCall.concernsObservers : HostCall → Bool
  | observe | ignore _ => true
  | _ => false

namespace Call

open Run (Akin concord_akin)
open Session (LikeIf)

variable {watched : Prop} {touched : String → Prop}

/-! ### Calls on sessions with akin runs -/

theorem mirrors_modify_streams {change : Streams → Streams}
    (kept : ∀ streams twin, Streams.Akin touched streams twin →
      Streams.Akin touched (change streams) (change twin)) :
    Mirrors (LikeIf watched (Akin touched))
      (modify fun session => { session with run.streams := change session.run.streams } : Call PUnit)
      (modify fun session => { session with run.streams := change session.run.streams }) := by
  refine mirrors_modify fun session twin like => ?_
  rcases like.parts with ⟨run, _, _, _, rfl, watch, akin⟩
  rcases akin.parts with ⟨streams, rfl, same⟩
  exact ⟨rfl, watch, rfl, kept _ _ same⟩

theorem mirrors_commitStreams :
    Mirrors (LikeIf watched (Akin touched)) commitStreams commitStreams := by
  refine Mirrors.bind (mirrors_modify_streams
    (fun _ _ same => same.drain.commit : ∀ streams twin, Streams.Akin touched streams twin →
      Streams.Akin touched streams.drain.1.commit twin.drain.1.commit)) fun _ => ?_
  refine mirrors_of_get fun session twin like => ?_
  rw [like.related.streams.changed]
  exact ⟨rfl, like⟩

theorem mirrors_takeIn : Mirrors (LikeIf watched (Akin touched)) takeIn takeIn := by
  refine mirrors_commitStreams.bind fun changed => ?_
  refine mirrors_of_get fun session twin like => ?_
  have subscribers : twin.run.streams.subscribers = session.run.streams.subscribers := by
    funext name
    exact like.related.streams.subscribers name
  rw [subscribers]
  refine ((mirrors_perform (concord_akin touched)
    (Action.mirrors_markAllDirty _)).bind fun _ => ?_) session twin like
  refine mirrors_of_get fun session twin like => ?_
  rw [like.related.reactions]
  exact ⟨rfl, like⟩

theorem mirrors_refresh (changed : List String) (dirty : List NodeId) :
    Mirrors (LikeIf watched (Akin touched)) (refresh changed dirty) (refresh changed dirty) := by
  have concord := concord_akin touched
  refine mirrors_of_get fun session twin like => ?_
  rw [like.setup]
  refine ((mirrors_perform concord (Action.mirrors_updateAll dirty)).bind fun _ => ?_)
    session twin like
  refine mirrors_of_get fun session twin like => ?_
  have advanced : twin.advanced = session.advanced := by rw [like.rest]
  rw [like.state, advanced]
  refine Mirrors.bind (mirrors_aside ?_) (fun _ => ?_) session twin like
  · exact fun _ _ _ _ _ => rfl
  · split
    · refine (mirrors_rerun concord ?_).bind fun _ => mirrors_notify .flushed
      exact fun setup akin => akin.beginPass setup
    · exact mirrors_notify .flushed

theorem mirrors_flush : Mirrors (LikeIf watched (Akin touched)) flush flush := by
  rw [flush_eq]
  exact mirrors_refuseHalted.bind fun _ => mirrors_takeIn.bind fun _ => mirrors_refresh _ _

theorem mirrors_push (name : String) (value : Val) :
    Mirrors (LikeIf watched (Akin touched)) (push name value) (push name value) := by
  refine mirrors_refuseHalted.bind fun _ => ?_
  refine mirrors_of_get fun session twin like => ?_
  have refusal : twin.run.streams.refusal? name value = session.run.streams.refusal? name value :=
    Streams.refusal?_congr (like.related.streams.kind? name) value
  have handed := like.related.streams.hand (name, value)
  have after : LikeIf watched (Akin touched)
      { session with run.streams := session.run.streams.hand (name, value) }
      { twin with run.streams := twin.run.streams.hand (name, value) } := by
    rcases like.parts with ⟨run, _, _, _, rfl, watch, akin⟩
    rcases akin.parts with ⟨streams, rfl, -⟩
    exact ⟨rfl, watch, rfl, handed⟩
  cases judged : session.run.streams.refusal? name value with
  | some fault =>
    rw [judged] at refusal
    simp only [Streams.hand, Streams.push_of_refused judged, Streams.push_of_refused refusal] at after
    simp only [Streams.push_of_refused judged, Streams.push_of_refused refusal]
    exact ⟨rfl, after⟩
  | none =>
    rw [judged] at refusal
    simp only [Streams.hand, Streams.push_of_accepted judged,
      Streams.push_of_accepted refusal] at after
    simp only [Streams.push_of_accepted judged, Streams.push_of_accepted refusal,
      like.related.streams.subscribers]
    exact mirrors_perform (concord_akin touched) (Action.mirrors_markAllDirty _) _ _ after

theorem mirrors_send (name : String) (datum : Datum) :
    Mirrors (LikeIf watched (Akin touched)) (send name datum) (send name datum) := by
  refine mirrors_of_get fun session twin like => ?_
  rcases like.parts with ⟨run, _, _, _, rfl, watch, akin⟩
  rcases akin.parts with ⟨streams, rfl, same⟩
  refine ⟨rfl, rfl, watch, rfl, same.listed, same.changed, ?_⟩
  exact congrArg (· ++ [(name, datum)]) same.inbox

theorem mirrors_registerWith (name : String) (kind : StreamKind) (initial : Option Val) :
    Mirrors (LikeIf watched (Akin touched)) (registerWith name kind initial)
      (registerWith name kind initial) := by
  refine mirrors_of_get fun session twin like => ?_
  rcases like.related.streams.registerWith name kind initial with
    ⟨fault, refused, twinRefused⟩ | ⟨after, others, registered, twinRegistered, same⟩
  · rw [refused, twinRefused]
    exact ⟨rfl, like⟩
  · rw [registered, twinRegistered]
    rcases like.parts with ⟨run, _, _, _, rfl, watch, akin⟩
    rcases akin.parts with ⟨streams, rfl, -⟩
    exact ⟨rfl, rfl, watch, rfl, same⟩

/-- No call can tell sessions with akin runs apart, nor one that does not concern observers sessions with
other observers. -/
theorem mirrors_hostCall {call : HostCall} (seen : call.concernsObservers = true → watched) :
    Mirrors (LikeIf watched (Akin touched)) call.perform call.perform := by
  have concord := concord_akin touched
  have reset : ∀ {run twin : Run} (setup : Setup), Akin touched run twin →
      Akin touched (run.reset setup) (twin.reset setup) :=
    fun setup akin => akin.reset setup
  cases call with
  | start => exact (mirrors_start concord reset).bind fun _ => mirrors_pure _
  | step => exact (mirrors_step concord).bind fun _ => mirrors_pure _
  | run => exact (mirrors_run concord reset).bind fun _ => mirrors_pure _
  | runFor budget => exact (mirrors_runFor concord budget).bind fun _ => mirrors_pure _
  | stop => exact (mirrors_stop concord).bind fun _ => mirrors_pure _
  | flush => exact mirrors_flush.bind fun _ => mirrors_pure _
  | push stream value => exact (mirrors_push stream value).bind fun _ => mirrors_pure _
  | send stream datum => exact (mirrors_send stream datum).bind fun _ => mirrors_pure _
  | register stream =>
    exact (mirrors_modify_streams fun _ _ same => same.register stream).bind fun _ =>
      mirrors_pure _
  | registerWith stream kind initial =>
    exact (mirrors_registerWith stream kind initial).bind fun _ => mirrors_pure _
  | observe => exact (mirrors_observe (seen rfl)).bind fun _ => mirrors_pure _
  | ignore observer => exact (mirrors_ignore (seen rfl) observer).bind fun _ => mirrors_pure _

end Call

namespace Session

open Run (Akin)

variable {touched : String → Prop} {setup : Setup} {session twin : Session}

theorem likeIf_course {watched : Prop} (like : LikeIf watched (Akin touched) session twin)
    {calls : List HostCall} (seen : ∀ call ∈ calls, call.concernsObservers = true → watched) :
    (twin.course calls).1 = (session.course calls).1 ∧
      LikeIf watched (Akin touched) (session.course calls).2 (twin.course calls).2 := by
  induction calls generalizing session twin with
  | nil => exact ⟨rfl, like⟩
  | cons call rest ih =>
    obtain ⟨answer, after⟩ := HostCall.outcome_of_meets
      (Call.mirrors_hostCall (seen call mem_cons_self) session twin like)
    obtain ⟨answers, last⟩ :=
      ih after fun other mem => seen other (mem_cons_of_mem _ mem)
    rw [course_cons, course_cons, answer, answers]
    exact ⟨rfl, last⟩

theorem like_course (like : Like (Akin touched) session twin) (calls : List HostCall) :
    (twin.course calls).1 = (session.course calls).1 ∧
      Like (Akin touched) (session.course calls).2 (twin.course calls).2 := by
  rw [← likeIf_eq_like] at like ⊢
  exact likeIf_course like fun _ _ _ => trivial

/-! ### Pushes that coalesce -/

/-- The calls that push some values, one after the other. -/
def pushes (messages : List (String × Val)) : List HostCall :=
  messages.map fun message => .push message.1 message.2

/-- The values that go to one stream. -/
def addressed (messages : List (String × Val)) (name : String) : List Val :=
  (messages.filter (·.1 = name)).map (·.2)

theorem interleaves_pushes (messages : List (String × Val)) :
    Interleaves messages 0 (pushes messages) := by
  induction messages with
  | nil => exact .done
  | cons message rest ih => exact .push message.1 message.2 ih

theorem overlaid_pushes (inStep : session.InStep setup) (alive : session.Alive)
    (messages : List (String × Val)) :
    Like (Run.Overlaid messages) session (session.course (pushes messages)).2 ∧
      (session.course (pushes messages)).1 =
        messages.map (Call.pushAnswer session.run.streams) := by
  have start : Like (Run.Overlaid []) session session := ⟨rfl, Run.Overlaid.refl session.run⟩
  obtain ⟨like, answers, -⟩ :=
    overlaid_of_interleaves (interleaves_pushes messages) inStep.1 inStep start alive
  refine ⟨like, ?_⟩
  rw [← answers, answersTo_of_all]
  intro call mem
  obtain ⟨message, -, rfl⟩ := mem_map.mp mem
  rfl

theorem refusal?_of_pushAnswer {streams : Streams} {message : String × Val}
    (answered : Call.pushAnswer streams message = .ok .nothing) :
    streams.refusal? message.1 message.2 = none := by
  unfold Call.pushAnswer at answered
  cases judged : streams.refusal? message.1 message.2 with
  | none => rfl
  | some fault =>
    rw [judged] at answered
    cases answered

variable {messages : List (String × Val)}

theorem addressed_eq_nil_iff {name : String} :
    addressed messages name = [] ↔ name ∉ messages.map (·.1) := by
  simp only [addressed, map_eq_nil_iff, filter_eq_nil_iff, mem_map]
  constructor
  · rintro none ⟨message, mem, rfl⟩
    exact none message mem (by simp)
  · rintro absent message mem here
    exact absent ⟨message, mem, by simpa using here⟩

theorem capturesOfItems_addressed (plain : ∀ message ∈ messages, message.2.isPlain = true)
    (name : String) :
    Val.capturesOfItems (addressed messages name) = [] := by
  induction messages with
  | nil => rfl
  | cons message rest ih =>
    have later := ih fun other mem => plain other (mem_cons_of_mem _ mem)
    by_cases here : message.1 = name
    · simp only [addressed] at later
      simp [addressed, here, Val.capturesOfItems, later,
        Val.captures_of_isPlain _ (plain message mem_cons_self)]
    · simpa [addressed, here] using later

theorem admitted_eq_addressed {streams : Streams}
    (accepted : ∀ message ∈ messages, streams.refusal? message.1 message.2 = none) (name : String) :
    streams.admitted messages name = addressed messages name := by
  have chosen : messages.filter (fun message =>
        message.1 = name && (streams.refusal? message.1 message.2).isNone) =
      messages.filter (·.1 = name) := by
    apply filter_congr
    intro message mem
    simp [accepted message mem]
  rw [Streams.admitted, chosen, addressed]

theorem akin_drain_commit (streams : Streams) {first second : List (String × Val)}
    (accepted : ∀ message ∈ first ++ second, streams.refusal? message.1 message.2 = none)
    (plain : ∀ message ∈ first ++ second, message.2.isPlain = true)
    (newest : ∀ name, (addressed first name).getLast? = (addressed second name).getLast?) :
    Streams.Akin (· ∈ first.map (·.1)) (streams.handAll first).drain.1.commit
      (streams.handAll second).drain.1.commit := by
  have nothing : ∀ name, addressed first name = [] ↔ addressed second name = [] := by
    intro name
    rw [← getLast?_eq_none_iff, newest, getLast?_eq_none_iff]
  have named : ∀ name, name ∈ first.map (·.1) ↔ name ∈ second.map (·.1) := by
    intro name
    have absent := nothing name
    rw [addressed_eq_nil_iff, addressed_eq_nil_iff] at absent
    exact not_iff_not.mp absent
  have emptied : ∀ messages, ({ streams with inbox := [] } : Streams).admitted messages =
      streams.admitted messages :=
    Streams.admitted_congr fun _ => rfl
  have firstAdmitted := admitted_eq_addressed fun message mem =>
    accepted message (mem_append_left second mem)
  have secondAdmitted := admitted_eq_addressed fun message mem =>
    accepted message (mem_append_right first mem)
  have sameNames : ∀ name, name ∈ (first ++ streams.letters).map (·.1) ↔
      name ∈ (second ++ streams.letters).map (·.1) := by
    intro name
    rw [map_append, map_append, mem_append, mem_append, named]
  rw [Streams.drain_handAll, Streams.drain_handAll, Streams.handAll_eq, Streams.handAll_eq,
    Streams.ensuredAll_congr sameNames, emptied, emptied]
  apply Streams.akin_commit_queueAll
  · intro name
    simp only [Streams.admitted_append, firstAdmitted, secondAdmitted, getLast?_append, newest]
  · intro name alone
    have none := addressed_eq_nil_iff.mpr alone
    simp only [Streams.admitted_append, firstAdmitted, secondAdmitted, none, (nothing name).mp none]
  · intro name
    have firstHeld := capturesOfItems_addressed
      (fun message mem => plain message (mem_append_left second mem)) name
    have secondHeld := capturesOfItems_addressed
      (fun message mem => plain message (mem_append_right first mem)) name
    simp only [Streams.admitted_append, firstAdmitted, secondAdmitted, Val.capturesOfItems_append,
      firstHeld, secondHeld]

theorem meets_flush {one other : Session} {ledger others : Ledger}
    (inStep : one.InStep setup) (pooled : one.run.Pooled ledger)
    (otherInStep : other.InStep setup) (otherPooled : other.run.Pooled others)
    (alive : one.Alive)
    (rest : other = { one with run :=
      { one.run with streams := other.run.streams, reactions := other.run.reactions } })
    (marks : other.run.reactions.unmarked = one.run.reactions.unmarked)
    (akin : Streams.Akin touched one.run.advancedStreams other.run.advancedStreams) :
    Meets (Like (Akin touched)) (HostCall.flush.perform one) (HostCall.flush.perform other) := by
  have otherAlive : other.Alive := by
    rw [rest]
    exact alive
  have subscribers : other.run.advancedStreams.subscribers = one.run.advancedStreams.subscribers := by
    funext name
    exact akin.subscribers name
  have reactions := reactions_takenIn_congr inStep pooled otherInStep otherPooled marks
    (by rw [akin.changed, subscribers])
  have like : Like (Akin touched) { one with run := one.run.takenIn }
      { other with run := other.run.takenIn } := by
    refine ⟨?_, ?_, akin⟩
    · rw [rest]
    · calc other.run.takenIn
          = { other.run with
              streams := other.run.advancedStreams, reactions := other.run.takenIn.reactions } := rfl
        _ = { one.run.takenIn with streams := other.run.takenIn.streams } := by
            rw [reactions, rest]
            rfl
  refine Meets.bind ?_ fun _ => mirrors_pure _
  rw [Call.flush_of_alive inStep alive, Call.flush_of_alive otherInStep otherAlive, akin.changed,
    reactions]
  rw [← likeIf_eq_like] at like ⊢
  exact Call.mirrors_refresh _ _ _ _ like

/--
Only the last of pooled values matters.  Whatever a host has called before, take two sequences of
accepted pushes of values without functions and structures that touch the same streams and give each of
them the same last value.  After a flush the two sessions agree on everything but older entries in the
histories of these streams: the flush is answered alike, and whatever calls follow are answered alike and
leave the sessions in agreement.  What else waited for the flush does not matter.
-/
theorem pooled_values_coalesce (program : Program) (limits : Limits) (calls : List HostCall)
    (first second : List (String × Val)) :
    let session := ((create program limits).course calls).2
    let one := session.course (pushes first)
    let other := session.course (pushes second)
    session.state.isLive = true →
    (∀ answer ∈ one.1 ++ other.1, answer = .ok .nothing) →
    (∀ message ∈ first ++ second, message.2.isPlain = true) →
    (∀ name, (addressed first name).getLast? = (addressed second name).getLast?) →
      ∀ later : List HostCall,
        (other.2.course (.flush :: later)).1 = (one.2.course (.flush :: later)).1 ∧
          Like (Akin (· ∈ first.map (·.1))) (one.2.course (.flush :: later)).2
            (other.2.course (.flush :: later)).2 := by
  intro session one other live answered plain newest later
  have inStep : session.InStep ⟨program, limits⟩ := inStep_course (inStep_create program limits) calls
  have pooled : session.run.Pooled ((create program limits).ledger .empty calls) :=
    pooled_course (inStep_create program limits) (pooled_create program limits) calls
  have alive : ∀ defect, session.state ≠ .halted defect := by
    intro defect halted
    rw [halted] at live
    cases live
  obtain ⟨oneLike, oneAnswers⟩ := overlaid_pushes inStep alive first
  obtain ⟨otherLike, otherAnswers⟩ := overlaid_pushes inStep alive second
  have accepted : ∀ message ∈ first ++ second,
      session.run.streams.refusal? message.1 message.2 = none := by
    intro message member
    apply refusal?_of_pushAnswer
    apply answered
    rw [oneAnswers, otherAnswers, ← List.map_append]
    exact List.mem_map_of_mem member
  have akin : Streams.Akin (· ∈ first.map (·.1)) one.2.run.advancedStreams
      other.2.run.advancedStreams := by
    unfold Run.advancedStreams
    rw [oneLike.2.streams, otherLike.2.streams]
    exact akin_drain_commit session.run.streams accepted plain newest
  have rest : other.2 = { one.2 with run :=
      { one.2.run with streams := other.2.run.streams, reactions := other.2.run.reactions } } := by
    obtain ⟨run, oneIs, overlaid⟩ := oneLike.parts
    obtain ⟨twin, otherIs, twinOverlaid⟩ := otherLike.parts
    obtain ⟨reactions, rfl, -⟩ := overlaid.parts
    obtain ⟨others, rfl, -⟩ := twinOverlaid.parts
    show (session.course (pushes second)).2 = { (session.course (pushes first)).2 with run :=
      { (session.course (pushes first)).2.run with
        streams := (session.course (pushes second)).2.run.streams
        reactions := (session.course (pushes second)).2.run.reactions } }
    rw [oneIs, otherIs]
  have oneAlive : ∀ defect, one.2.state ≠ .halted defect := by
    rw [oneLike.state]
    exact alive
  have meets := meets_flush (inStep_course inStep (pushes first))
    (pooled_course inStep pooled (pushes first)) (inStep_course inStep (pushes second))
    (pooled_course inStep pooled (pushes second)) oneAlive rest
    (otherLike.2.reactions.trans oneLike.2.reactions.symm) akin
  obtain ⟨answer, like⟩ := HostCall.outcome_of_meets meets
  obtain ⟨answers, last⟩ := like_course like later
  rw [course_cons, course_cons, answer, answers]
  exact ⟨rfl, last⟩

/-- Three pushes come to the same as the last of them, also for a run that is started again. -/
theorem pooled_values_coalesce_for_three_pushes :
    let program := Program.ofExpr (.reaction (.bool false) (.changed (.stream "s")) (.stream "s"))
    let session := ((create program ⟨8, 1⟩).course [.register "s", .run]).2
    let first : List (String × Val) := [("s", .bool true), ("s", .list [.bool true]), ("s", .bool false)]
    let second : List (String × Val) := [("s", .bool false)]
    let later : List HostCall := [.push "s" (.bool true), .flush, .stop, .run]
    session.state.isLive = true ∧
      ((session.course (pushes second)).2.course (.flush :: later)).1 =
        ((session.course (pushes first)).2.course (.flush :: later)).1 ∧
      Like (Akin (· ∈ first.map (·.1))) ((session.course (pushes first)).2.course (.flush :: later)).2
        ((session.course (pushes second)).2.course (.flush :: later)).2 := by
  intro program session first second later
  have live : session.state.isLive = true := by
    unfold session
    cbv
  have answered : (session.course (pushes first)).1 ++ (session.course (pushes second)).1 =
      List.replicate 4 (.ok .nothing) := by
    unfold session first second
    cbv
  refine ⟨live, pooled_values_coalesce program ⟨8, 1⟩ [.register "s", .run] first second live ?_ ?_ ?_
    later⟩
  · intro answer member
    rw [answered] at member
    exact List.eq_of_mem_replicate member
  · decide
  · intro name
    by_cases here : "s" = name
    · simp [first, second, addressed, here]
    · simp [first, second, addressed, here]

end Session

end Reactor

import Reactor.Proofs.Session.Ending

/-!
# Calls that are rejected

A call can be rejected although nothing is wrong inside the engine: the run has not been started or was
halted before, a stream is not known, or a value or a kind does not fit.  Such a call leaves the session
as it was, so no observer is told of it either.  There is one exception.  `Time` is registered when it
is first named, and it stays registered if a value that is pushed to it does not fit.
-/

namespace Reactor

theorem Streams.ensured_eq (streams : Streams) (name : String) :
    streams.ensured name = streams ∨
      name = "Time" ∧ streams.get? "Time" = none ∧
        streams.ensured name =
          streams.add (.create "Time" (.only .number) (some (.measure 0 "ms"))) := by
  by_cases time : name = "Time"
  · subst time
    cases found : streams.get? "Time" with
    | some stream => exact .inl (ensured_of_get? found)
    | none => exact .inr ⟨rfl, rfl, ensured_of_provided? found rfl⟩
  · exact .inl (ensured_of_not_provided (by rw [provided?, if_neg time]))

namespace Call

variable {setup : Setup} {session : Session}

theorem outcome_push_of_refused (inStep : session.InStep setup)
    (alive : session.Alive) {name : String} {value : Val} {fault : Fault}
    (refused : session.run.streams.refusal? name value = some fault) :
    (HostCall.push name value).outcome session =
      (.error fault, { session with run.streams := session.run.streams.ensured name }) := by
  rw [outcome_push inStep alive, pushAnswer, Run.handed, Streams.hand,
    Streams.push_of_refused refused, refused]

theorem outcome_push_isError_iff (inStep : session.InStep setup) (name : String) (value : Val) :
    (∃ fault, ((HostCall.push name value).outcome session).1 = .error fault) ↔
      (∃ defect, session.state = .halted defect) ∨ session.run.streams.known? name = none ∨
        ∃ stream, session.run.streams.known? name = some stream ∧
          stream.kind.accepts value.kind = false := by
  by_cases halted : ∃ defect, session.state = .halted defect
  · obtain ⟨defect, state⟩ := halted
    rw [outcome_push_of_halted state]
    exact iff_of_true ⟨_, rfl⟩ (.inl ⟨defect, state⟩)
  · rw [outcome_push inStep (fun defect state => halted ⟨defect, state⟩), pushAnswer,
      Streams.refusal?_eq, Streams.kind?]
    cases session.run.streams.known? name with
    | none => simp
    | some stream => by_cases fits : stream.kind.accepts value.kind <;> simp [fits, halted]

theorem outcome_registerWith_isError_iff (session : Session) (name : String) (kind : StreamKind)
    (initial : Option Val) :
    (∃ fault, ((HostCall.registerWith name kind initial).outcome session).1 = .error fault) ↔
      (∃ value ∈ initial, kind.accepts value.kind = false) ∨
        ∃ stream, session.run.streams.get? name = some stream ∧ stream.kind ≠ kind := by
  rw [outcome_registerWith, Streams.registerWith]
  by_cases misfit : ∃ value ∈ initial, kind.accepts value.kind = false
  · obtain ⟨value, rfl, unfit⟩ := misfit
    simp [Option.filter, unfit]
  · have fits : initial.filter (fun value => !kind.accepts value.kind) = none := by
      simpa [Option.filter_eq_none_iff] using misfit
    rw [fits, or_iff_right misfit]
    cases session.run.streams.get? name with
    | none => simp
    | some existing => by_cases same : existing.kind = kind <;> simp [same]

/-- A rejection without a defect that leaves the session as it was. -/
def Spares (session : Session) (answer : Except Fault Answer) (after : Session) : Prop :=
  ∀ fault, answer = .error fault → (∀ defect, fault ≠ .defect defect) → after = session

theorem spares_ok {answer : Answer} {after : Session} : Spares session (.ok answer) after := by
  intro fault same
  cases same

theorem spares_step (session : Session) :
    Spares session (HostCall.step.outcome session).1 (HostCall.step.outcome session).2 := by
  refine HostCall.outcome_of_ensures (Spares session) ?_
  simp only [HostCall.perform, ensures_bind, ensures_pure]
  by_cases running : session.state = .running
  · refine (Session.ensures_step_of_running running).imp (fun _ _ _ => spares_ok) ?_
    rintro _ after ⟨defect, rfl, -⟩ _ ⟨⟩ intact
    exact absurd rfl (intact defect)
  · simp only [step, ensures_bind, ensures_get]
    cases state : session.state with
    | running => exact absurd state running
    | done => exact spares_ok
    | idle | stopped | halted _ => exact fun _ _ _ => rfl

theorem spares_flush (session : Session) :
    Spares session (HostCall.flush.outcome session).1 (HostCall.flush.outcome session).2 := by
  by_cases halted : ∃ defect, session.state = .halted defect
  · obtain ⟨defect, state⟩ := halted
    rw [outcome_flush_of_halted state]
    exact fun _ _ _ => rfl
  · refine HostCall.outcome_of_ensures (Spares session) ?_
    simp only [HostCall.perform, ensures_bind, ensures_pure]
    refine (ensures_flush_fault session).imp (fun _ _ _ => spares_ok) ?_
    rintro _ after (⟨defect, rfl⟩ | ⟨defect, state, -⟩) _ ⟨⟩ intact
    · exact absurd rfl (intact defect)
    · exact absurd ⟨defect, state⟩ halted

end Call

/-- Calls that advance a run or hand something to it. -/
def HostCall.isChecked : HostCall → Bool
  | step | flush | push .. | registerWith .. => true
  | _ => false

namespace Session

variable {setup : Setup} {session : Session}

/-- A push that is rejected changes nothing, unless it has let `Time` come into being. -/
theorem outcome_push_of_rejected (inStep : session.InStep setup) {name : String} {value : Val}
    {fault : Fault} (rejected : ((HostCall.push name value).outcome session).1 = .error fault) :
    ((HostCall.push name value).outcome session).2 = session ∨
      name = "Time" ∧ value.kind ≠ .number ∧ session.run.streams.get? "Time" = none ∧
        ((HostCall.push name value).outcome session).2 =
          { session with
            run.streams := session.run.streams.add
              (.create "Time" (.only .number) (some (.measure 0 "ms"))) } := by
  by_cases halted : ∃ defect, session.state = .halted defect
  · obtain ⟨defect, state⟩ := halted
    rw [Call.outcome_push_of_halted state]
    exact .inl rfl
  have alive : session.Alive := fun defect state => halted ⟨defect, state⟩
  cases judged : session.run.streams.refusal? name value with
  | none =>
    rw [Call.outcome_push inStep alive, Call.pushAnswer, judged] at rejected
    cases rejected
  | some refusal =>
    rw [Call.outcome_push_of_refused inStep alive judged]
    rcases session.run.streams.ensured_eq name with same | ⟨rfl, absent, added⟩
    · exact .inl (by rw [same])
    · refine .inr ⟨rfl, fun number => ?_, absent, by rw [added]⟩
      rw [Streams.refusal?_eq, Streams.kind?, Streams.known?, absent] at judged
      simp [Streams.provided?, Stream.create, StreamKind.accepts, number] at judged

/--
Rejected calls change nothing.  Whatever a host has called before: a step, a flush, a push or a
registration that is refused, but not because of a defect, leaves the session as it was, with its run,
its streams, its inbox and what observers were told.  The one exception is a push of a value that is no
number to `Time`, which may leave `Time` registered with its initial value.

A push is refused exactly if the run was halted, if the stream is neither registered nor provided, or if
it does not accept the kind of the value.  A registration is refused exactly if the initial value does
not fit the kind or the name is registered with another kind.
-/
theorem rejected_calls_change_nothing (program : Program) (limits : Limits) (calls : List HostCall) :
    let session := ((create program limits).course calls).2
    (∀ (call : HostCall) fault, call.isChecked = true → (call.outcome session).1 = .error fault →
      (∀ defect, fault ≠ .defect defect) →
        (call.outcome session).2 = session ∨
          ∃ value, call = .push "Time" value ∧ value.kind ≠ .number ∧
            session.run.streams.get? "Time" = none ∧
            (call.outcome session).2 =
              { session with
                run.streams := session.run.streams.add
                  (.create "Time" (.only .number) (some (.measure 0 "ms"))) }) ∧
      (∀ name value, (∃ fault, ((HostCall.push name value).outcome session).1 = .error fault) ↔
        (∃ defect, session.state = .halted defect) ∨
          (session.run.streams.get? name).or (Streams.provided? name) = none ∨
          ∃ stream, (session.run.streams.get? name).or (Streams.provided? name) = some stream ∧
            stream.kind.accepts value.kind = false) ∧
      ∀ name kind initial,
        (∃ fault, ((HostCall.registerWith name kind initial).outcome session).1 = .error fault) ↔
          (∃ value ∈ initial, kind.accepts value.kind = false) ∨
            ∃ stream, session.run.streams.get? name = some stream ∧ stream.kind ≠ kind := by
  intro session
  have inStep : session.InStep ⟨program, limits⟩ := inStep_course (inStep_create program limits) calls
  refine ⟨fun call fault checked rejected intact => ?_, Call.outcome_push_isError_iff inStep,
    Call.outcome_registerWith_isError_iff session⟩
  cases call with
  | step => exact .inl (Call.spares_step session fault rejected intact)
  | flush => exact .inl (Call.spares_flush session fault rejected intact)
  | push name value =>
    refine (outcome_push_of_rejected inStep rejected).imp_right ?_
    rintro ⟨rfl, number, absent, after⟩
    exact ⟨value, rfl, number, absent, after⟩
  | registerWith name kind initial =>
    rw [Call.outcome_registerWith] at rejected ⊢
    cases registered : session.run.streams.registerWith name kind initial with
    | error refusal => exact .inl rfl
    | ok streams =>
      rw [registered] at rejected
      cases rejected
  | start | run | runFor | stop | send | register | observe | ignore => cases checked

/-- A value that does not fit is pushed to a stream of the host, and then to `Time`. -/
theorem rejected_calls_change_nothing_for_misfits :
    let session := ((create (Program.ofExpr (.bool true)) ⟨8, 1⟩).course
      [.registerWith "s" (.only .number) none, .start]).2
    let first := (HostCall.push "s" (.bool true)).outcome session
    let second := (HostCall.push "Time" (.bool true)).outcome session
    (first.1 = .error (.streamKindMismatch "s" "Number" "Boolean") ∧ first.2 = session) ∧
      second.1 = .error (.streamKindMismatch "Time" "Number" "Boolean") ∧
      session.run.streams.get? "Time" = none ∧
      second.2.run.streams = session.run.streams.add
        (.create "Time" (.only .number) (some (.measure 0 "ms"))) := by
  intro session first second
  have firstAnswer : first.1 = .error (.streamKindMismatch "s" "Number" "Boolean") := rfl
  have secondAnswer : second.1 = .error (.streamKindMismatch "Time" "Number" "Boolean") := rfl
  have grown : second.2.run.streams.names.length = session.run.streams.names.length + 1 := rfl
  obtain ⟨rejected, -, -⟩ := rejected_calls_change_nothing (Program.ofExpr (.bool true)) ⟨8, 1⟩
    [.registerWith "s" (.only .number) none, .start]
  refine ⟨⟨firstAnswer, ?_⟩, secondAnswer, ?_⟩
  · rcases rejected (.push "s" (.bool true)) _ rfl firstAnswer (by simp) with
      same | ⟨value, isTime, -⟩
    · exact same
    · simp at isTime
  · rcases rejected (.push "Time" (.bool true)) _ rfl secondAnswer (by simp) with
      same | ⟨value, -, -, absent, after⟩
    · rw [show second.2 = session from same] at grown
      omega
    · exact ⟨absent, congrArg (·.run.streams) after⟩

end Session

end Reactor

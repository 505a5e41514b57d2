import Reactor.Proofs.Stream.Subscription

/-!
# Values on their way into streams

A value that is handed to a stream is refused, or it waits behind the history until it is committed.
Whether it is refused depends on the kind of the stream alone, and nothing that happens to streams
changes their kinds.  Hence a whole sequence of values can be judged beforehand: `Streams.admitted`
lists those that a stream will accept, and `Streams.handAll_eq` says that handing over the sequence
lets each stream queue just these, in their order.

The data of the inbox are handed over in the same way when they are delivered, so the equation also
tells what a flush takes in.
-/

namespace Reactor

open List

/-- Let values wait behind those that wait already. -/
def Stream.queue (stream : Stream) (values : List Val) : Stream :=
  { stream with pending := stream.pending ++ values }

namespace Streams

/-! ### The streams that names stand for -/

/-- The stream that a name stands for: the one that is registered, or else the one that is provided. -/
def known? (streams : Streams) (name : String) : Option Stream :=
  (streams.get? name).or (provided? name)

/-- The kind of the stream that a name stands for. -/
def kind? (streams : Streams) (name : String) : Option StreamKind :=
  (streams.known? name).map (·.kind)

/-- The registry in which a stream that is provided has come into being. -/
def ensured (streams : Streams) (name : String) : Streams :=
  (streams.ensure? name).getD streams

variable {streams : Streams} {name : String} {stream : Stream} {value : Val}

theorem name_of_get? (found : streams.get? name = some stream) :
    stream.name = name := by
  simpa using find?_some found

theorem ensured_of_get? (found : streams.get? name = some stream) :
    streams.ensured name = streams := by
  simp [ensured, ensure?, found]

theorem ensured_of_provided?
    (absent : streams.get? name = none) (provided : provided? name = some stream) :
    streams.ensured name = streams.add stream := by
  simp [ensured, ensure?, absent, provided]

theorem ensured_of_not_provided (unprovided : provided? name = none) :
    streams.ensured name = streams := by
  cases found : streams.get? name <;> simp [ensured, ensure?, found, unprovided]

section

variable (streams : Streams)

theorem ensure?_eq (name : String) :
    streams.ensure? name = (streams.known? name).map fun _ => streams.ensured name := by
  cases found : streams.get? name with
  | some stream => simp [ensure?, known?, ensured, found]
  | none =>
    cases provided : provided? name <;> simp [ensure?, known?, ensured, found, provided]

theorem get?_ensured (name other : String) :
    (streams.ensured name).get? other =
      if other = name then streams.known? name else streams.get? other := by
  cases found : streams.get? name with
  | some stream =>
    rw [ensured_of_get? found]
    split
    · next same => simp [known?, same, found]
    · rfl
  | none =>
    cases provided : provided? name with
    | some stream =>
      obtain ⟨named, -⟩ := name_of_provided? provided
      rw [ensured_of_provided? found provided, get?_add (by rw [named]; exact found), named]
      simp [known?, found, provided]
    | none =>
      rw [ensured_of_not_provided provided]
      split
      · next same => simp [known?, same, found, provided]
      · rfl

theorem known?_ensured (name other : String) :
    (streams.ensured name).known? other = streams.known? other := by
  unfold known?
  rw [get?_ensured]
  split
  · next same =>
    subst same
    cases found : streams.get? other <;> simp [known?, found]
  · rfl

@[simp]
theorem inbox_ensured (name : String) : (streams.ensured name).inbox = streams.inbox := by
  cases found : streams.get? name with
  | some stream => rw [ensured_of_get? found]
  | none =>
    cases provided : provided? name with
    | some stream => rw [ensured_of_provided? found provided]; rfl
    | none => rw [ensured_of_not_provided provided]

@[simp]
theorem changed_ensured (name : String) : (streams.ensured name).changed = streams.changed := by
  cases found : streams.get? name with
  | some stream => rw [ensured_of_get? found]
  | none =>
    cases provided : provided? name with
    | some stream => rw [ensured_of_provided? found provided]; rfl
    | none => rw [ensured_of_not_provided provided]

theorem ensured_ensured (name : String) :
    (streams.ensured name).ensured name = streams.ensured name := by
  cases provided : provided? name with
  | none => rw [ensured_of_not_provided provided]
  | some stream =>
    cases found : (streams.ensured name).get? name with
    | some other => exact ensured_of_get? found
    | none =>
      rw [get?_ensured, if_pos rfl, known?, provided, Option.or_eq_none_iff] at found
      cases found.2

end

theorem ensure?_of_kinds {others : Streams} (kinds : others.kind? name = streams.kind? name) :
    streams.ensure? name = none ∧ others.ensure? name = none ∨
      streams.ensure? name = some (streams.ensured name) ∧
        others.ensure? name = some (others.ensured name) ∧
        ((streams.ensured name).get? name).isSome := by
  simp only [ensure?_eq, get?_ensured, if_true]
  unfold kind? at kinds
  cases known : streams.known? name with
  | none =>
    rw [known, Option.map_none, Option.map_eq_none_iff] at kinds
    exact Or.inl ⟨rfl, by rw [kinds]; rfl⟩
  | some stream =>
    rw [known, Option.map_some] at kinds
    obtain ⟨other, found, -⟩ := Option.map_eq_some_iff.mp kinds
    exact Or.inr ⟨rfl, by rw [found]; rfl, rfl⟩

/-! ### Which values are refused -/

/-- Why a value would be refused by a stream, if it would. -/
def refusal? (streams : Streams) (name : String) (value : Val) : Option Fault :=
  match (streams.push name value).2 with
  | .ok _ => none
  | .error fault => some fault

theorem push_eq (streams : Streams) (name : String) (value : Val) :
    streams.push name value =
      match streams.known? name with
      | none => (streams.ensured name, .error (.unknownStream name))
      | some stream =>
        if stream.kind.accepts value.kind then
          ((streams.ensured name).change name (·.accept value), .ok stream.subscribers)
        else
          (streams.ensured name,
            .error (.streamKindMismatch name stream.kind.name value.kind.name)) := by
  have found := get?_ensured streams name name
  rw [if_pos rfl] at found
  unfold push
  rw [ensure?_eq]
  cases known : streams.known? name with
  | none =>
    have unprovided : provided? name = none := (Option.or_eq_none_iff.mp known).2
    rw [ensured_of_not_provided unprovided]
    rfl
  | some stream =>
    rw [known] at found
    simp only [Option.map_some, found]

theorem refusal?_eq (streams : Streams) (name : String) (value : Val) :
    streams.refusal? name value =
      match streams.kind? name with
      | none => some (.unknownStream name)
      | some kind =>
        if kind.accepts value.kind then none
        else some (.streamKindMismatch name kind.name value.kind.name) := by
  unfold refusal? kind?
  rw [push_eq]
  cases streams.known? name with
  | none => rfl
  | some stream =>
    dsimp only [Option.map_some]
    by_cases fit : stream.kind.accepts value.kind
    · rw [if_pos fit, if_pos fit]
    · rw [if_neg fit, if_neg fit]

theorem refusal?_congr {after : Streams}
    (kind : after.kind? name = streams.kind? name) (value : Val) :
    after.refusal? name value = streams.refusal? name value := by
  rw [refusal?_eq, refusal?_eq, kind]

theorem push_of_refused {fault : Fault} (refused : streams.refusal? name value = some fault) :
    streams.push name value = (streams.ensured name, .error fault) := by
  unfold refusal? at refused
  rw [push_eq] at refused ⊢
  cases known : streams.known? name with
  | none =>
    rw [known] at refused
    cases refused
    rfl
  | some stream =>
    simp only [known] at refused ⊢
    by_cases fit : stream.kind.accepts value.kind
    · rw [if_pos fit] at refused
      cases refused
    · rw [if_neg fit] at refused ⊢
      cases refused
      rfl

theorem push_of_accepted (accepted : streams.refusal? name value = none) :
    streams.push name value =
      ((streams.ensured name).change name (·.accept value), .ok (streams.subscribers name)) := by
  unfold refusal? at accepted
  rw [push_eq] at accepted ⊢
  cases known : streams.known? name with
  | none =>
    rw [known] at accepted
    cases accepted
  | some stream =>
    simp only [known] at accepted ⊢
    by_cases fit : stream.kind.accepts value.kind
    · rw [if_pos fit]
      cases found : streams.get? name with
      | some registered =>
        have same : registered = stream := by
          simpa [known?, found] using known
        simp [subscribers, found, same]
      | none =>
        have provided : provided? name = some stream := by
          simpa [known?, found] using known
        simp [subscribers, found, (name_of_provided? provided).2]
    · rw [if_neg fit] at accepted
      cases accepted

theorem isSome_known?_of_accepted (accepted : streams.refusal? name value = none) :
    (streams.known? name).isSome := by
  rw [refusal?_eq, kind?] at accepted
  cases known : streams.known? name with
  | none =>
    rw [known] at accepted
    cases accepted
  | some stream => rfl

/-! ### Queueing values at all streams at once -/

/-- Let values wait at every stream, as its name tells. -/
def queueAll (streams : Streams) (arriving : String → List Val) : Streams :=
  streams.changeAll fun stream => stream.queue (arriving stream.name)

theorem get?_queueAll (streams : Streams) (arriving : String → List Val) (name : String) :
    (streams.queueAll arriving).get? name = (streams.get? name).map (·.queue (arriving name)) := by
  have changed := streams.get?_changeAll name
    (show ∀ stream : Stream, (stream.queue (arriving stream.name)).name = stream.name from
      fun _ => rfl)
  rw [queueAll, changed]
  cases found : streams.get? name with
  | none => rfl
  | some stream => rw [Option.map_some, Option.map_some, name_of_get? found]

theorem queueAll_queueAll (streams : Streams) (first second : String → List Val) :
    (streams.queueAll first).queueAll second =
      streams.queueAll fun name => first name ++ second name := by
  simp [queueAll, changeAll, Stream.queue, Function.comp_def]

theorem queueAll_nothing (streams : Streams) (arriving : String → List Val)
    (nothing : ∀ stream ∈ streams.streams, arriving stream.name = []) :
    streams.queueAll arriving = streams := by
  have same : streams.streams.map (fun stream => stream.queue (arriving stream.name)) =
      streams.streams := by
    rw [map_congr_left (g := id), map_id]
    intro stream mem
    simp [Stream.queue, nothing stream mem]
  simp only [queueAll, changeAll, same]

theorem kind?_queueAll (streams : Streams) (arriving : String → List Val) (name : String) :
    (streams.queueAll arriving).kind? name = streams.kind? name := by
  unfold kind? known?
  rw [get?_queueAll]
  cases streams.get? name <;> rfl

theorem insertByName_map {update : Stream → Stream}
    (named : ∀ stream, (update stream).name = stream.name)
    (stream : Stream) (streams : List Stream) :
    insertByName (update stream) (streams.map update) =
      (insertByName stream streams).map update := by
  induction streams with
  | nil => rfl
  | cons other rest ih =>
    simp only [insertByName, map_cons, named]
    split
    · rfl
    · rw [ih, map_cons]

theorem ensured_queueAll {arriving : String → List Val}
    (there : ∀ name, streams.get? name = none → arriving name = []) (name : String) :
    (streams.queueAll arriving).ensured name = (streams.ensured name).queueAll arriving := by
  have queued := get?_queueAll streams arriving name
  cases found : streams.get? name with
  | some stream =>
    rw [found] at queued
    rw [ensured_of_get? found, ensured_of_get? queued]
  | none =>
    rw [found] at queued
    cases provided : provided? name with
    | none => rw [ensured_of_not_provided provided, ensured_of_not_provided provided]
    | some stream =>
      obtain ⟨named, -⟩ := name_of_provided? provided
      rw [ensured_of_provided? found provided, ensured_of_provided? queued provided]
      have untouched : stream.queue (arriving stream.name) = stream := by
        rw [named, there name found, Stream.queue, append_nil]
      have placed := insertByName_map
        (show ∀ stream : Stream, (stream.queue (arriving stream.name)).name = stream.name from
          fun _ => rfl)
        stream streams.streams
      rw [untouched] at placed
      simp only [add, queueAll, changeAll, placed]

/-! ### Handing over several values -/

/-- The registry after a value was handed to a stream, whether it was accepted or not. -/
def hand (streams : Streams) (message : String × Val) : Streams :=
  (streams.push message.1 message.2).1

/-- The registry after values were handed to streams one after the other. -/
def handAll (streams : Streams) (messages : List (String × Val)) : Streams :=
  messages.foldl hand streams

/-- The registry in which several streams have come into being, if they are provided. -/
def ensuredAll (streams : Streams) (names : List String) : Streams :=
  names.foldl ensured streams

/-- The order in which streams come into being does not matter, since one stream at most is
provided. -/
theorem ensuredAll_eq (streams : Streams) (names : List String) :
    streams.ensuredAll names = if "Time" ∈ names then streams.ensured "Time" else streams := by
  induction names generalizing streams with
  | nil => rfl
  | cons name rest ih =>
    show (streams.ensured name).ensuredAll rest = _
    rw [ih]
    by_cases here : name = "Time"
    · subst here
      simp [ensured_ensured]
    · have unprovided : provided? name = none := by simp [provided?, here]
      simp [ensured_of_not_provided unprovided, Ne.symm here]

theorem ensuredAll_congr {first second : List String} (same : ∀ name, name ∈ first ↔ name ∈ second)
    (streams : Streams) :
    streams.ensuredAll first = streams.ensuredAll second := by
  rw [ensuredAll_eq, ensuredAll_eq]
  simp only [same]

/-- The values among some messages that the stream with a name accepts. -/
def admitted (streams : Streams) (messages : List (String × Val)) (name : String) : List Val :=
  (messages.filter fun message =>
    message.1 = name && (streams.refusal? message.1 message.2).isNone).map (·.2)

theorem admitted_append (streams : Streams) (first second : List (String × Val)) (name : String) :
    streams.admitted (first ++ second) name =
      streams.admitted first name ++ streams.admitted second name := by
  simp [admitted]

theorem admitted_congr {after : Streams}
    (kinds : ∀ name, after.kind? name = streams.kind? name) (messages : List (String × Val)) :
    after.admitted messages = streams.admitted messages := by
  funext name
  simp only [admitted, fun message : String × Val => refusal?_congr (kinds message.1) message.2]

theorem admitted_of_unknown
    (unknown : streams.known? name = none) (messages : List (String × Val)) :
    streams.admitted messages name = [] := by
  simp only [admitted, map_eq_nil_iff, filter_eq_nil_iff]
  intro message _ fits
  simp only [Bool.and_eq_true, decide_eq_true_eq, Option.isNone_iff_eq_none] at fits
  have known := isSome_known?_of_accepted fits.2
  rw [fits.1, unknown] at known
  cases known

theorem admitted_of_absent {message : String × Val}
    (absent : (streams.ensured message.1).get? name = none) :
    streams.admitted [message] name = [] := by
  rw [get?_ensured] at absent
  split at absent
  · next same => exact admitted_of_unknown (same ▸ absent) _
  · next differs => simp [admitted, Ne.symm differs]

theorem hand_eq (streams : Streams) (message : String × Val) :
    streams.hand message = (streams.ensured message.1).queueAll (streams.admitted [message]) := by
  unfold hand
  cases judged : streams.refusal? message.1 message.2 with
  | some fault =>
    rw [push_of_refused judged, queueAll_nothing]
    intro stream _
    simp [admitted, judged]
  | none =>
    rw [push_of_accepted judged]
    simp only [change, queueAll, changeAll]
    congr 1
    apply map_congr_left
    intro stream _
    by_cases here : stream.name = message.1
    · simp [here, admitted, judged, Stream.accept, Stream.queue]
    · simp [here, Ne.symm here, admitted, Stream.queue]

theorem kind?_ensured (streams : Streams) (name other : String) :
    (streams.ensured name).kind? other = streams.kind? other := by
  rw [kind?, known?_ensured, kind?]

theorem kind?_hand (streams : Streams) (message : String × Val) (name : String) :
    (streams.hand message).kind? name = streams.kind? name := by
  rw [hand_eq, kind?_queueAll, kind?_ensured]

theorem ensuredAll_queueAll {arriving : String → List Val}
    (there : ∀ name, streams.get? name = none → arriving name = []) (names : List String) :
    (streams.queueAll arriving).ensuredAll names =
      (streams.ensuredAll names).queueAll arriving := by
  induction names generalizing streams with
  | nil => rfl
  | cons first rest ih =>
    have still : ∀ name, (streams.ensured first).get? name = none → arriving name = [] := by
      intro name absent
      rw [get?_ensured] at absent
      split at absent
      · next same =>
        exact there name (same ▸ (Option.or_eq_none_iff.mp absent).1)
      · exact there name absent
    show ((streams.queueAll arriving).ensured first).ensuredAll rest =
      ((streams.ensured first).ensuredAll rest).queueAll arriving
    rw [ensured_queueAll there, ih still]

/--
Handing over values one after the other lets each stream queue those that it accepts.  Streams that
are provided come into being as they are named.
-/
theorem handAll_eq (streams : Streams) (messages : List (String × Val)) :
    streams.handAll messages =
      (streams.ensuredAll (messages.map (·.1))).queueAll (streams.admitted messages) := by
  induction messages generalizing streams with
  | nil => exact (queueAll_nothing _ _ fun _ _ => rfl).symm
  | cons message rest ih =>
    calc streams.handAll (message :: rest)
        = (streams.hand message).handAll rest := rfl
      _ = ((streams.hand message).ensuredAll (rest.map (·.1))).queueAll
            (streams.admitted rest) := by
          rw [ih, admitted_congr (kind?_hand streams message)]
      _ = (((streams.ensured message.1).ensuredAll (rest.map (·.1))).queueAll
            (streams.admitted [message])).queueAll (streams.admitted rest) := by
          rw [hand_eq, ensuredAll_queueAll fun _ => admitted_of_absent]
      _ = (streams.ensuredAll ((message :: rest).map (·.1))).queueAll
            (streams.admitted (message :: rest)) := by
          rw [queueAll_queueAll]
          congr 1
          funext name
          exact (streams.admitted_append [message] rest name).symm

end Streams

end Reactor

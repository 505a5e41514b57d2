import Reactor.Proofs.Stream.Waiting

/-!
# Handing over values beside evaluation

Evaluation makes streams available, subscribes reactions to streams that are there, and reads the newest
values of streams.  None of this interferes with values that are handed over: it may happen before or
after, and what is read is the same.
-/

namespace Reactor.Streams

/-! ### Streams that come into being -/

variable {streams : Streams} {name : String} {stream : Stream}

theorem provided?_unique {first second : String} {other : Stream}
    (one : provided? first = some stream) (two : provided? second = some other) :
    first = second := by
  simp only [provided?] at one two
  split at one
  · next here =>
    split at two
    · next there => rw [here, there]
    · cases two
  · cases one

/-- Streams that are provided on demand may appear in either order. -/
theorem ensured_comm (streams : Streams) (first second : String) :
    (streams.ensured first).ensured second = (streams.ensured second).ensured first := by
  cases one : provided? first with
  | none => rw [ensured_of_not_provided one, ensured_of_not_provided one]
  | some stream =>
    cases two : provided? second with
    | none => rw [ensured_of_not_provided two, ensured_of_not_provided two]
    | some other => rw [provided?_unique one two]

theorem get?_hand_of_get? (found : streams.get? name = some stream) (message : String × Val) :
    (streams.hand message).get? name = some (stream.queue (streams.admitted [message] name)) := by
  have still : (streams.ensured message.1).get? name = some stream := by
    rw [get?_ensured]
    split
    · next same => rw [← same, known?, found, Option.some_or]
    · exact found
  rw [hand_eq, get?_queueAll, still, Option.map_some]

theorem get?_handAll_of_get?
    (found : streams.get? name = some stream) (messages : List (String × Val)) :
    (streams.handAll messages).get? name =
      some (stream.queue (streams.admitted messages name)) := by
  induction messages generalizing streams stream with
  | nil => exact found.trans (by simp [Stream.queue, admitted])
  | cons message rest ih =>
    have later := ih (get?_hand_of_get? found message)
    rw [admitted_congr (kind?_hand streams message)] at later
    calc (streams.handAll (message :: rest)).get? name
        = ((streams.hand message).handAll rest).get? name := rfl
      _ = some ((stream.queue (streams.admitted [message] name)).queue
            (streams.admitted rest name)) := later
      _ = some (stream.queue (streams.admitted (message :: rest) name)) := by
          rw [show message :: rest = [message] ++ rest from rfl, admitted_append]
          simp [Stream.queue]

theorem kind?_handAll (streams : Streams) (messages : List (String × Val)) (name : String) :
    (streams.handAll messages).kind? name = streams.kind? name := by
  induction messages generalizing streams with
  | nil => rfl
  | cons message rest ih =>
    exact (ih (streams.hand message)).trans (kind?_hand streams message name)

@[simp]
theorem changed_handAll (streams : Streams) (messages : List (String × Val)) :
    (streams.handAll messages).changed = streams.changed := by
  induction messages generalizing streams with
  | nil => rfl
  | cons message rest ih =>
    refine (ih (streams.hand message)).trans ?_
    rw [hand_eq]
    exact changed_ensured streams message.1

section

variable (there : (streams.get? name).isSome)
include there

theorem past_handAll (messages : List (String × Val)) :
    (streams.handAll messages).past name = streams.past name := by
  obtain ⟨stream, found⟩ := Option.isSome_iff_exists.mp there
  simp [past, get?_handAll_of_get? found, found, Stream.queue]

theorem latest?_handAll (messages : List (String × Val)) :
    (streams.handAll messages).latest? name = streams.latest? name := by
  rw [latest?_eq, latest?_eq, past_handAll there]

theorem past_drain : streams.drain.1.past name = streams.past name := by
  have delivered : (({ streams with inbox := [] } : Streams).get? name).isSome := there
  rw [drain_eq, past_handAll delivered]
  rfl

end

section

variable (streams : Streams)

theorem hand_ensured (name : String) (message : String × Val) :
    (streams.ensured name).hand message = (streams.hand message).ensured name := by
  rw [hand_eq, hand_eq, ensured_queueAll fun _ => admitted_of_absent, ensured_comm,
    admitted_congr (kind?_ensured streams name)]

theorem handAll_ensured (name : String) (messages : List (String × Val)) :
    (streams.ensured name).handAll messages = (streams.handAll messages).ensured name := by
  induction messages generalizing streams with
  | nil => rfl
  | cons message rest ih =>
    show ((streams.ensured name).hand message).handAll rest = _
    rw [hand_ensured, ih]
    rfl

/-! ### The inbox -/

theorem hand_inbox (inbox : List (String × Datum)) (message : String × Val) :
    ({ streams with inbox } : Streams).hand message = { streams.hand message with inbox } := by
  have ensured : ({ streams with inbox } : Streams).ensured message.1 =
      { streams.ensured message.1 with inbox } := by
    have same : ({ streams with inbox } : Streams).get? message.1 = streams.get? message.1 := rfl
    cases found : streams.get? message.1 with
    | some stream => rw [ensured_of_get? found, ensured_of_get? (same.trans found)]
    | none =>
      cases provided : provided? message.1 with
      | none => rw [ensured_of_not_provided provided, ensured_of_not_provided provided]
      | some stream =>
        rw [ensured_of_provided? found provided, ensured_of_provided? (same.trans found) provided]
        rfl
  have kinds : ∀ name, ({ streams with inbox } : Streams).kind? name = streams.kind? name :=
    fun _ => rfl
  rw [hand_eq, hand_eq, ensured, admitted_congr kinds]
  rfl

theorem handAll_inbox (inbox : List (String × Datum)) (messages : List (String × Val)) :
    ({ streams with inbox } : Streams).handAll messages = { streams.handAll messages with inbox } := by
  induction messages generalizing streams with
  | nil => rfl
  | cons message rest ih =>
    show (({ streams with inbox } : Streams).hand message).handAll rest = _
    rw [hand_inbox, ih]
    rfl

/-- Messages that are handed over come before those in the inbox. -/
theorem drain_handAll (messages : List (String × Val)) :
    (streams.handAll messages).drain.1 =
      ({ streams with inbox := [] } : Streams).handAll (messages ++ streams.letters) := by
  have letters : (streams.handAll messages).letters = streams.letters := by
    rw [Streams.letters, inbox_handAll]
    rfl
  rw [drain_eq, letters, ← handAll_inbox]
  exact List.foldl_append.symm

end

/-! ### Changes of subscribers -/

section Subscribers

variable {streams : Streams} {update : Stream → Stream}

theorem kind?_changeAll (named : ∀ stream, (update stream).name = stream.name)
    (same : ∀ stream, (update stream).kind = stream.kind) (name : String) :
    (streams.changeAll update).kind? name = streams.kind? name := by
  unfold kind? known?
  rw [get?_changeAll streams name named]
  cases streams.get? name <;> simp [same]

theorem kind?_subscribeAll (names : List String) (reaction : NodeId) (name : String) :
    (streams.subscribeAll names reaction).kind? name = streams.kind? name := by
  induction names generalizing streams with
  | nil => rfl
  | cons first rest ih =>
    refine ih.trans (kind?_changeAll ?_ ?_ name) <;>
    · intro stream
      dsimp only
      split
      · rfl
      · rfl

theorem kind?_unsubscribeAll (name : String) :
    streams.unsubscribeAll.kind? name = streams.kind? name := by
  apply kind?_changeAll
  · exact fun _ => rfl
  · exact fun _ => rfl

theorem ensured_changeAll (named : ∀ stream, (update stream).name = stream.name) {name : String}
    (fixed : ∀ stream, streams.get? name = none → provided? name = some stream →
      update stream = stream) :
    (streams.changeAll update).ensured name = (streams.ensured name).changeAll update := by
  have changed := get?_changeAll streams name named
  cases found : streams.get? name with
  | some stream =>
    rw [found] at changed
    rw [ensured_of_get? found, ensured_of_get? changed]
  | none =>
    rw [found] at changed
    cases provided : provided? name with
    | none => rw [ensured_of_not_provided provided, ensured_of_not_provided provided]
    | some stream =>
      have placed := insertByName_map named stream streams.streams
      rw [fixed stream found provided] at placed
      rw [ensured_of_provided? found provided, ensured_of_provided? changed provided]
      simp only [add, changeAll, placed]

theorem handAll_changeAll (named : ∀ stream, (update stream).name = stream.name)
    (kind : ∀ stream, (update stream).kind = stream.kind)
    (queued : ∀ stream values, update (stream.queue values) = (update stream).queue values)
    (fixed : ∀ name stream, streams.get? name = none → provided? name = some stream →
      update stream = stream)
    (messages : List (String × Val)) :
    (streams.changeAll update).handAll messages = (streams.handAll messages).changeAll update := by
  induction messages generalizing streams with
  | nil => rfl
  | cons message rest ih =>
    have first : (streams.changeAll update).hand message =
        (streams.hand message).changeAll update := by
      rw [hand_eq, hand_eq, ensured_changeAll named (fixed message.1),
        admitted_congr (kind?_changeAll named kind)]
      simp only [queueAll, changeAll, List.map_map, Function.comp_def, named, queued]
    have still : ∀ name stream, (streams.hand message).get? name = none →
        provided? name = some stream → update stream = stream := by
      intro name stream absent
      cases found : streams.get? name with
      | none => exact fixed name stream found
      | some other =>
        rw [get?_hand_of_get? found] at absent
        cases absent
    show ((streams.changeAll update).hand message).handAll rest = _
    rw [first, ih still]
    rfl

theorem handAll_subscribe
    {stream : String} (there : (streams.get? stream).isSome) (reaction : NodeId)
    (messages : List (String × Val)) :
    (streams.subscribe stream reaction).handAll messages =
      (streams.handAll messages).subscribe stream reaction := by
  refine handAll_changeAll ?_ ?_ ?_ ?_ messages
  · intro other
    split
    · rfl
    · rfl
  · intro other
    split
    · rfl
    · rfl
  · intro other values
    by_cases here : other.name = stream
    · simp [here, Stream.queue, Stream.subscribe]
    · simp [here, Stream.queue]
  · intro name other absent provided
    have differs : other.name ≠ stream := by
      rw [(name_of_provided? provided).1]
      rintro rfl
      rw [absent] at there
      cases there
    rw [if_neg differs]

theorem handAll_subscribeAll
    {names : List String} (there : ∀ name ∈ names, (streams.get? name).isSome)
    (reaction : NodeId) (messages : List (String × Val)) :
    (streams.subscribeAll names reaction).handAll messages =
      (streams.handAll messages).subscribeAll names reaction := by
  induction names generalizing streams with
  | nil => rfl
  | cons name rest ih =>
    have later : ∀ other ∈ rest, ((streams.subscribe name reaction).get? other).isSome := by
      intro other mem
      rw [registered_subscribe]
      exact there other (List.mem_cons_of_mem _ mem)
    show ((streams.subscribe name reaction).subscribeAll rest reaction).handAll messages = _
    rw [ih later, handAll_subscribe (there name List.mem_cons_self)]
    rfl

theorem handAll_unsubscribeAll (messages : List (String × Val)) :
    streams.unsubscribeAll.handAll messages = (streams.handAll messages).unsubscribeAll := by
  refine handAll_changeAll ?_ ?_ ?_ ?_ messages
  · exact fun _ => rfl
  · exact fun _ => rfl
  · exact fun _ _ => rfl
  · intro name stream _ provided
    rw [Stream.unsubscribeAll, ← (name_of_provided? provided).2]

end Subscribers

end Reactor.Streams

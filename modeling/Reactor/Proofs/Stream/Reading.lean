import Reactor.Proofs.Stream.Commuting

/-!
# What can be read of streams

All that a program learns of a stream is whether its name stands for one, its newest value, and whether
it has just advanced.  `Streams.reading` is the first two of these.  It does not matter for them whether
a stream that is provided has come into being, who has subscribed or what waits; only a commit changes
what can be read, and only of the streams that advance.
-/

namespace Reactor.Streams

/-- What the name of a stream gives: nothing if there is no such stream, and else its newest value. -/
def reading (streams : Streams) (name : String) : Option (Option Val) :=
  (streams.known? name).map Stream.latest?

theorem reading_eq (streams : Streams) (name : String) :
    streams.reading name =
      ((streams.get? name).map Stream.latest?).or ((provided? name).map Stream.latest?) := by
  unfold reading known?
  cases streams.get? name <;> rfl

theorem reading_ensured (streams : Streams) (name other : String) :
    (streams.ensured name).reading other = streams.reading other := by
  rw [reading, known?_ensured, reading]

variable {streams : Streams} {name : String}

theorem ensure?_of_reading {latest : Option Val} (reads : streams.reading name = some latest) :
    streams.ensure? name = some (streams.ensured name) ∧
      (streams.ensured name).latest? name = latest := by
  obtain ⟨stream, known, newest⟩ := Option.map_eq_some_iff.mp reads
  refine ⟨by rw [ensure?_eq, known]; rfl, ?_⟩
  rw [latest?, get?_ensured, if_pos rfl, known]
  exact newest

theorem ensure?_of_no_reading (nothing : streams.reading name = none) :
    streams.ensure? name = none := by
  rw [ensure?_eq, Option.map_eq_none_iff.mp nothing]
  rfl

theorem isSome_reading_of_get? (there : (streams.get? name).isSome) :
    (streams.reading name).isSome := by
  obtain ⟨stream, found⟩ := Option.isSome_iff_exists.mp there
  simp [reading, known?, found]

section

variable (streams : Streams)

theorem reading_changeAll {update : Stream → Stream}
    (named : ∀ stream, (update stream).name = stream.name)
    (latest : ∀ stream, (update stream).latest? = stream.latest?) (name : String) :
    (streams.changeAll update).reading name = streams.reading name := by
  rw [reading_eq, reading_eq, get?_changeAll streams name named, Option.map_map]
  congr 2
  funext stream
  exact latest stream

theorem reading_subscribe (stream name : String) (reaction : NodeId) :
    (streams.subscribe stream reaction).reading name = streams.reading name := by
  refine reading_changeAll streams ?_ ?_ name
  · intro other
    dsimp only
    split
    · rfl
    · rfl
  · intro other
    dsimp only
    split
    · rfl
    · rfl

theorem reading_subscribeAll (names : List String) (reaction : NodeId) (name : String) :
    (streams.subscribeAll names reaction).reading name = streams.reading name := by
  induction names generalizing streams with
  | nil => rfl
  | cons first rest ih =>
    exact (ih _).trans (reading_subscribe streams first name reaction)

theorem changed_subscribeAll (names : List String) (reaction : NodeId) :
    (streams.subscribeAll names reaction).changed = streams.changed := by
  induction names generalizing streams with
  | nil => rfl
  | cons first rest ih => exact ih _

theorem reading_unsubscribeAll (name : String) :
    streams.unsubscribeAll.reading name = streams.reading name := by
  apply reading_changeAll
  · exact fun _ => rfl
  · exact fun _ => rfl

theorem reading_hand (message : String × Val) (name : String) :
    (streams.hand message).reading name = streams.reading name := by
  rw [hand_eq, ← reading_ensured streams message.1]
  apply reading_changeAll
  · exact fun _ => rfl
  · exact fun _ => rfl

theorem reading_handAll (messages : List (String × Val)) (name : String) :
    (streams.handAll messages).reading name = streams.reading name := by
  induction messages generalizing streams with
  | nil => rfl
  | cons message rest ih =>
    exact (ih _).trans (reading_hand streams message name)

theorem reading_drain (name : String) : streams.drain.1.reading name = streams.reading name := by
  rw [drain_eq, reading_handAll]
  rfl

end

theorem reading_commit (nothing : streams.waiting name = []) :
    streams.commit.reading name = streams.reading name := by
  rw [reading_eq, reading_eq, get?_commit]
  cases found : streams.get? name with
  | none => rfl
  | some stream =>
    rw [waiting_of_get? found] at nothing
    simp [Stream.commit, Stream.latest?, nothing]

/-- A stream that a commit does not report reads what it read before. -/
theorem reading_drain_commit (distinct : streams.names.Nodup)
    (stays : name ∉ streams.drain.1.commit.changed) :
    streams.drain.1.commit.reading name = streams.reading name := by
  rw [mem_changed_commit (nodup_names_drain distinct), ne_eq, Classical.not_not] at stays
  rw [reading_commit stays, reading_drain]

end Reactor.Streams

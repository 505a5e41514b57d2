import Reactor.Proofs.Stream.Lookup

/-!
# Who is subscribed to a stream

Most operations on streams leave all subscriptions as they are and never lose a stream.  This is
`Streams.KeepsSubscribers`.  The exceptions are stated as equations for `Streams.subscribers`:
subscribing adds one subscriber to one stream, and letting go of a run empties all subscriptions.
-/

namespace Reactor.Streams

variable {streams : Streams} {name : String} {reaction : NodeId}

theorem subscribers_of_get? {stream : Stream} (found : streams.get? name = some stream) :
    streams.subscribers name = stream.subscribers := by
  simp [subscribers, found]

/-- Subscriptions are the same, and every stream that was there still is. -/
structure KeepsSubscribers (streams after : Streams) : Prop where
  subscribers : ∀ name, after.subscribers name = streams.subscribers name
  registered : ∀ name, (streams.get? name).isSome → (after.get? name).isSome

theorem KeepsSubscribers.refl (streams : Streams) :
    KeepsSubscribers streams streams :=
  ⟨fun _ => rfl, fun _ present => present⟩

theorem KeepsSubscribers.trans {first second third : Streams} (left : KeepsSubscribers first second)
    (right : KeepsSubscribers second third) :
    KeepsSubscribers first third :=
  ⟨fun name => (right.subscribers name).trans (left.subscribers name),
    fun name present => right.registered name (left.registered name present)⟩

theorem Grows.keepsSubscribers {after : Streams} (grows : Grows streams after) :
    KeepsSubscribers streams after := by
  constructor
  · intro name
    rcases grows name with same | ⟨absent, stream, found, alone⟩
    · simp [Streams.subscribers, same]
    · simp [Streams.subscribers, absent, found, alone]
  · intro name present
    rcases grows name with same | ⟨-, stream, found, -⟩
    · rwa [same]
    · simp [found]

theorem keepsSubscribers_change (streams : Streams) (changed : String) (update : Stream → Stream)
    (named : ∀ stream, (update stream).name = stream.name)
    (same : ∀ stream, (update stream).subscribers = stream.subscribers) :
    KeepsSubscribers streams (streams.change changed update) := by
  constructor
  · intro name
    simp only [Streams.subscribers, streams.get?_change changed name named]
    split
    · cases streams.get? name <;> simp [same]
    · rfl
  · intro name present
    rw [streams.get?_change changed name named]
    split
    · simpa using present
    · exact present

theorem keepsSubscribers_push (streams : Streams) (name : String) (value : Val) :
    KeepsSubscribers streams (streams.push name value).1 := by
  simp only [push]
  split
  · exact KeepsSubscribers.refl _
  · next ensured present =>
    have grown := (grows_ensure? present).keepsSubscribers
    split
    · exact grown
    · split
      · exact grown.trans
          (keepsSubscribers_change _ name (·.accept value) (fun _ => rfl) (fun _ => rfl))
      · exact grown

theorem subscribers_of_push {after : Streams} {value : Val} {nodes : List NodeId}
    (pushed : streams.push name value = (after, .ok nodes)) :
    nodes = after.subscribers name := by
  simp only [push] at pushed
  split at pushed
  · cases pushed
  · next ensured present =>
    split at pushed
    · cases pushed
    · next stream found =>
      split at pushed
      · cases pushed
        have kept := keepsSubscribers_change ensured name (·.accept value)
          (fun _ => rfl) (fun _ => rfl)
        rw [kept.subscribers name, subscribers_of_get? found]
      · cases pushed

theorem keepsSubscribers_deliver (state : Streams × Nat) (message : String × Datum) :
    KeepsSubscribers state.1 (deliver state message).1 := by
  have pushed := keepsSubscribers_push state.1 message.1 message.2.toVal
  simp only [deliver]
  split
  · next streams nodes equal =>
    rwa [equal] at pushed
  · next streams fault equal =>
    rwa [equal] at pushed

theorem keepsSubscribers_foldl_deliver (messages : List (String × Datum)) (state : Streams × Nat) :
    KeepsSubscribers state.1 (messages.foldl deliver state).1 := by
  induction messages generalizing state with
  | nil => exact KeepsSubscribers.refl _
  | cons message rest ih =>
    exact (keepsSubscribers_deliver state message).trans (ih (deliver state message))

theorem keepsSubscribers_drain (streams : Streams) :
    KeepsSubscribers streams streams.drain.1 :=
  -- Emptying the inbox changes no stream, so the fold may as well start from `streams`.
  have emptied : KeepsSubscribers streams { streams with inbox := [] } :=
    ⟨fun _ => rfl, fun _ present => present⟩
  emptied.trans (keepsSubscribers_foldl_deliver streams.inbox ({ streams with inbox := [] }, 0))

theorem keepsSubscribers_commit (streams : Streams) :
    KeepsSubscribers streams streams.commit := by
  constructor
  · intro name
    simp only [Streams.subscribers, get?_commit]
    cases streams.get? name <;> rfl
  · intro name present
    rw [get?_commit]
    simpa using present

/-! ### Subscribing and letting go -/

theorem mem_subscribers_subscribe {stream : String} {node : NodeId}
    (present : (streams.get? stream).isSome) :
    node ∈ (streams.subscribe stream reaction).subscribers name ↔
      name = stream ∧ node = reaction ∨ node ∈ streams.subscribers name := by
  simp only [subscribers, get?_subscribe]
  split
  · next same =>
    subst same
    obtain ⟨found, equal⟩ := Option.isSome_iff_exists.mp present
    simp [equal, Stream.subscribe]
  · next differs =>
    simp [differs]

theorem registered_subscribe {stream : String} :
    ((streams.subscribe stream reaction).get? name).isSome = (streams.get? name).isSome := by
  rw [get?_subscribe]
  split
  · cases streams.get? name <;> rfl
  · rfl

theorem registered_subscribeAll {names : List String} :
    ((streams.subscribeAll names reaction).get? name).isSome = (streams.get? name).isSome := by
  induction names generalizing streams with
  | nil => rfl
  | cons first rest ih =>
    exact ih.trans registered_subscribe

/-- A subscription adds one reaction to the streams it names. -/
theorem mem_subscribers_subscribeAll {names : List String} {node : NodeId}
    (present : ∀ name ∈ names, (streams.get? name).isSome) :
    node ∈ (streams.subscribeAll names reaction).subscribers name ↔
      name ∈ names ∧ node = reaction ∨ node ∈ streams.subscribers name := by
  induction names generalizing streams with
  | nil => simp [subscribeAll]
  | cons first rest ih =>
    have here := present first List.mem_cons_self
    have later : ∀ name ∈ rest, ((streams.subscribe first reaction).get? name).isSome := by
      intro name mem
      rw [registered_subscribe]
      exact present name (List.mem_cons_of_mem _ mem)
    rw [show streams.subscribeAll (first :: rest) reaction =
        (streams.subscribe first reaction).subscribeAll rest reaction from rfl,
      ih later, mem_subscribers_subscribe here, List.mem_cons]
    constructor
    · rintro (⟨mem, equal⟩ | ⟨same, equal⟩ | mem)
      · exact Or.inl ⟨Or.inr mem, equal⟩
      · exact Or.inl ⟨Or.inl same, equal⟩
      · exact Or.inr mem
    · rintro (⟨same | mem, equal⟩ | mem)
      · exact Or.inr (Or.inl ⟨same, equal⟩)
      · exact Or.inl ⟨mem, equal⟩
      · exact Or.inr (Or.inr mem)

@[simp]
theorem subscribers_unsubscribeAll (streams : Streams) (name : String) :
    streams.unsubscribeAll.subscribers name = [] := by
  simp only [subscribers, get?_unsubscribeAll]
  cases streams.get? name <;> rfl

@[simp]
theorem subscribers_reset (streams : Streams) (name : String) :
    streams.reset.subscribers name = [] := by
  simp only [subscribers, get?_reset]
  cases streams.get? name <;> rfl

end Reactor.Streams

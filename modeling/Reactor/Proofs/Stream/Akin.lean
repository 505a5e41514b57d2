import Mathlib.Data.List.Forall2
import Reactor.Proofs.Stream.Waiting
import Reactor.Scope.Reach

/-!
# Streams that agree on their newest values

Two streams are akin if they differ in older entries of their histories only, and these hold on to the
same scopes.  Registries are akin if their streams are, one by one.  Which streams may differ at all is
a parameter, so that akin registries are the same everywhere else.

Nothing that happens to streams tells akin registries apart, and nothing makes them less akin: the
operations on streams never look at a history except for its newest entry.  The scopes that are held on
to are part of the relation because of the one place that does, the search for scopes that can be
forgotten.
-/

namespace Reactor

open List

/-! ### Values that hold on to no scopes -/

namespace Val

mutual

/-- Whether a value contains neither functions nor instances of structures. -/
def isPlain : Val → Bool
  | bool _ | num _ | text _ | exception .. => true
  | list items | set items => arePlain items
  | map entries => arePlainEntries entries
  | record .. | closure _ | method .. | native .. | constructor _ | conversion _ => false

/-- Whether the values of a list contain neither functions nor instances of structures. -/
def arePlain : List Val → Bool
  | [] => true
  | item :: rest => isPlain item && arePlain rest

/-- Whether the keys and values of entries contain neither functions nor instances of structures. -/
def arePlainEntries : List (Val × Val) → Bool
  | [] => true
  | (key, value) :: rest => isPlain key && isPlain value && arePlainEntries rest

end

mutual

theorem captures_of_isPlain : (value : Val) → value.isPlain = true → value.captures = []
  | bool _, _ | num _, _ | text _, _ | exception .., _ => by rw [captures]
  | list items, plain | set items, plain => by
      rw [captures]
      exact capturesOfItems_of_arePlain items (by rwa [isPlain] at plain)
  | map entries, plain => by
      rw [captures]
      exact capturesOfEntries_of_arePlain entries (by rwa [isPlain] at plain)
  | record .., plain | closure _, plain | method .., plain | native .., plain
  | constructor _, plain | conversion _, plain => by
      rw [isPlain] at plain
      cases plain

theorem capturesOfItems_of_arePlain :
    (items : List Val) → arePlain items = true → capturesOfItems items = []
  | [], _ => by rw [capturesOfItems]
  | item :: rest, plain => by
      rw [arePlain, Bool.and_eq_true] at plain
      rw [capturesOfItems, captures_of_isPlain item plain.1,
        capturesOfItems_of_arePlain rest plain.2, append_nil]

theorem capturesOfEntries_of_arePlain :
    (entries : List (Val × Val)) → arePlainEntries entries = true → capturesOfEntries entries = []
  | [], _ => by rw [capturesOfEntries]
  | (key, value) :: rest, plain => by
      rw [arePlainEntries, Bool.and_eq_true, Bool.and_eq_true] at plain
      rw [capturesOfEntries, captures_of_isPlain key plain.1.1, captures_of_isPlain value plain.1.2,
        capturesOfEntries_of_arePlain rest plain.2, append_nil, append_nil]

end

theorem capturesOfItems_append (first second : List Val) :
    capturesOfItems (first ++ second) = capturesOfItems first ++ capturesOfItems second := by
  induction first with
  | nil => simp [capturesOfItems]
  | cons item rest ih => simp [capturesOfItems, ih]

end Val

/-! ### Single streams -/

namespace Stream

/-- Two streams differ in older entries of their histories only, and only under certain names. -/
structure Akin (touched : String → Prop) (stream twin : Stream) : Prop where
  rest : twin = { stream with history := twin.history }
  newest : twin.history.getLast? = stream.history.getLast?
  untouched : ¬ touched stream.name → twin.history = stream.history
  /-- The histories hold on to the same scopes. -/
  held : Val.capturesOfItems twin.history = Val.capturesOfItems stream.history

variable {touched : String → Prop} {stream twin : Stream}

theorem Akin.refl (stream : Stream) : Akin touched stream stream :=
  ⟨rfl, rfl, fun _ => rfl, rfl⟩

variable (akin : Akin touched stream twin)
include akin

theorem Akin.name : twin.name = stream.name := by
  rw [akin.rest]

theorem Akin.kind : twin.kind = stream.kind := by
  rw [akin.rest]

theorem Akin.pending : twin.pending = stream.pending := by
  rw [akin.rest]

theorem Akin.initial : twin.initial = stream.initial := by
  rw [akin.rest]

theorem Akin.subscribers : twin.subscribers = stream.subscribers := by
  rw [akin.rest]

theorem Akin.update {change : Stream → Stream}
    (named : ∀ stream, (change stream).name = stream.name)
    (apart : ∀ stream history, change { stream with history } = { change stream with history }) :
    Akin touched (change stream) (change twin) := by
  have fixed : change stream = { change stream with history := stream.history } :=
    apart stream stream.history
  have history : (change stream).history = stream.history := by rw [fixed]
  have moved : change twin = { change stream with history := twin.history } := by
    rw [akin.rest]
    exact apart stream twin.history
  constructor
  · rw [moved]
  · rw [moved, history]
    exact akin.newest
  · rw [moved, history, named]
    exact akin.untouched
  · rw [moved, history]
    exact akin.held

theorem Akin.commit : Akin touched stream.commit twin.commit := by
  have pending := akin.pending
  constructor
  · rw [akin.rest]
    rfl
  · simp only [Stream.commit, pending, getLast?_append, akin.newest]
  · intro alone
    simp only [Stream.commit, pending, akin.untouched alone]
  · simp only [Stream.commit, pending, Val.capturesOfItems_append, akin.held]

theorem Akin.reset : Akin touched stream.reset twin.reset := by
  have same : twin.reset = stream.reset := by
    rw [akin.rest]
    rfl
  rw [same]
  exact Akin.refl _

theorem Akin.captures : Val.capturesOfItems twin.values = Val.capturesOfItems stream.values := by
  simp only [Stream.values, Val.capturesOfItems_append, akin.held, akin.pending, akin.initial]

end Stream

/-! ### Registries -/

namespace Streams

/-- Two registries differ in older entries of histories only, and only under certain names. -/
structure Akin (touched : String → Prop) (streams twin : Streams) : Prop where
  listed : List.Forall₂ (Stream.Akin touched) streams.streams twin.streams
  changed : twin.changed = streams.changed
  inbox : twin.inbox = streams.inbox

variable {touched : String → Prop} {streams twin : Streams}

section

variable (akin : Akin touched streams twin) (name : String)
include akin

theorem Akin.get? :
    streams.get? name = none ∧ twin.get? name = none ∨
      ∃ stream other, streams.get? name = some stream ∧ twin.get? name = some other ∧
        Stream.Akin touched stream other := by
  have pairs := akin.listed
  simp only [Streams.get?]
  generalize streams.streams = listed at pairs ⊢
  generalize twin.streams = others at pairs ⊢
  induction pairs with
  | nil => exact Or.inl ⟨rfl, rfl⟩
  | @cons stream other rest others first _ ih =>
    by_cases here : stream.name = name
    · have twinHere : other.name = name := first.name.trans here
      exact Or.inr ⟨stream, other, by simp [here], by simp [twinHere], first⟩
    · have twinElsewhere : other.name ≠ name := by rwa [first.name]
      simpa [here, twinElsewhere] using ih

theorem Akin.latest? : twin.latest? name = streams.latest? name := by
  rcases akin.get? name with ⟨absent, twinAbsent⟩ | ⟨stream, other, found, twinFound, same⟩
  · simp [Streams.latest?, absent, twinAbsent]
  · simp [Streams.latest?, found, twinFound, Stream.latest?, same.newest]

theorem Akin.subscribers : twin.subscribers name = streams.subscribers name := by
  rcases akin.get? name with ⟨absent, twinAbsent⟩ | ⟨stream, other, found, twinFound, same⟩
  · simp [Streams.subscribers, absent, twinAbsent]
  · simp [Streams.subscribers, found, twinFound, same.subscribers]

theorem Akin.kind? : twin.kind? name = streams.kind? name := by
  rcases akin.get? name with ⟨absent, twinAbsent⟩ | ⟨stream, other, found, twinFound, same⟩
  · simp [Streams.kind?, known?, absent, twinAbsent]
  · simp [Streams.kind?, known?, found, twinFound, same.kind]

end

theorem Akin.captures (akin : Akin touched streams twin) :
    Val.capturesOfItems twin.values = Val.capturesOfItems streams.values := by
  have pairs := akin.listed
  simp only [Streams.values]
  generalize streams.streams = listed at pairs ⊢
  generalize twin.streams = others at pairs ⊢
  induction pairs with
  | nil => rfl
  | cons first _ ih =>
    simp only [flatMap_cons, Val.capturesOfItems_append, first.captures, ih]

theorem akin_commit_queueAll (streams : Streams) {first second : String → List Val}
    (newest : ∀ name, (second name).getLast? = (first name).getLast?)
    (untouched : ∀ name, ¬ touched name → second name = first name)
    (held : ∀ name, Val.capturesOfItems (second name) = Val.capturesOfItems (first name)) :
    Akin touched (streams.queueAll first).commit (streams.queueAll second).commit := by
  have nothing : ∀ name, second name = [] ↔ first name = [] := by
    intro name
    rw [← getLast?_eq_none_iff, newest, getLast?_eq_none_iff]
  constructor
  · simp only [Streams.commit, Streams.queueAll, Streams.changeAll, map_map,
      forall₂_map_left_iff, forall₂_map_right_iff, forall₂_same]
    intro stream _
    constructor
    · rfl
    · simp [Stream.commit, Stream.queue, getLast?_append, newest]
    · intro alone
      simp [Stream.commit, Stream.queue, untouched stream.name alone]
    · simp [Stream.commit, Stream.queue, Val.capturesOfItems_append, held]
  · simp only [Streams.commit, Streams.queueAll, Streams.changeAll, filter_map, map_map]
    have waits : (Stream.hasPending ∘ fun stream : Stream => stream.queue (second stream.name)) =
        Stream.hasPending ∘ fun stream : Stream => stream.queue (first stream.name) := by
      funext stream
      refine congrArg not (Bool.eq_iff_iff.mpr ?_)
      simp only [Stream.queue, List.isEmpty_iff, append_eq_nil_iff, nothing]
    rw [waits]
    rfl
  · rfl

/-! ### What happens to registries -/

variable (akin : Akin touched streams twin)
include akin

theorem Akin.add (stream : Stream) : Akin touched (streams.add stream) (twin.add stream) := by
  refine ⟨?_, akin.changed, akin.inbox⟩
  have pairs := akin.listed
  simp only [Streams.add]
  generalize streams.streams = listed at pairs ⊢
  generalize twin.streams = others at pairs ⊢
  induction pairs with
  | nil => exact .cons (Stream.Akin.refl stream) .nil
  | @cons other another rest others first later ih =>
    simp only [insertByName, first.name]
    split
    · exact .cons (Stream.Akin.refl stream) (.cons first later)
    · exact .cons first ih

theorem Akin.changeAll {change : Stream → Stream}
    (kept : ∀ stream other, Stream.Akin touched stream other →
      Stream.Akin touched (change stream) (change other)) :
    Akin touched (streams.changeAll change) (twin.changeAll change) := by
  refine ⟨?_, akin.changed, akin.inbox⟩
  rw [Streams.changeAll, Streams.changeAll, forall₂_map_left_iff, forall₂_map_right_iff]
  exact akin.listed.imp kept

theorem Akin.update {change : Stream → Stream}
    (named : ∀ stream, (change stream).name = stream.name)
    (apart : ∀ stream history, change { stream with history } = { change stream with history }) :
    Akin touched (streams.changeAll change) (twin.changeAll change) :=
  akin.changeAll fun _ _ same => same.update named apart

theorem Akin.unsubscribeAll : Akin touched streams.unsubscribeAll twin.unsubscribeAll := by
  apply akin.update
  · exact fun _ => rfl
  · exact fun _ _ => rfl

theorem Akin.subscribe (name : String) (reaction : NodeId) :
    Akin touched (streams.subscribe name reaction) (twin.subscribe name reaction) := by
  apply akin.update
  · intro stream
    split
    · rfl
    · rfl
  · intro stream history
    by_cases here : stream.name = name
    · simp [here, Stream.subscribe]
    · simp [here]

theorem Akin.subscribeAll (names : List String) (reaction : NodeId) :
    Akin touched (streams.subscribeAll names reaction) (twin.subscribeAll names reaction) := by
  induction names generalizing streams twin with
  | nil => exact akin
  | cons name rest ih => exact ih (akin.subscribe name reaction)

theorem Akin.queueAll (arriving : String → List Val) :
    Akin touched (streams.queueAll arriving) (twin.queueAll arriving) := by
  apply akin.update
  · exact fun _ => rfl
  · exact fun _ _ => rfl

theorem Akin.ensured (name : String) : Akin touched (streams.ensured name) (twin.ensured name) := by
  rcases akin.get? name with ⟨absent, twinAbsent⟩ | ⟨stream, other, found, twinFound, -⟩
  · cases provided : provided? name with
    | none =>
      rw [ensured_of_not_provided provided, ensured_of_not_provided provided]
      exact akin
    | some stream =>
      rw [ensured_of_provided? absent provided, ensured_of_provided? twinAbsent provided]
      exact akin.add stream
  · rw [ensured_of_get? found, ensured_of_get? twinFound]
    exact akin

theorem Akin.hand (message : String × Val) :
    Akin touched (streams.hand message) (twin.hand message) := by
  rw [hand_eq, hand_eq, admitted_congr akin.kind?]
  exact (akin.ensured message.1).queueAll _

theorem Akin.handAll (messages : List (String × Val)) :
    Akin touched (streams.handAll messages) (twin.handAll messages) := by
  induction messages generalizing streams twin with
  | nil => exact akin
  | cons message rest ih => exact ih (akin.hand message)

theorem Akin.drain : Akin touched streams.drain.1 twin.drain.1 := by
  have emptied : Akin touched { streams with inbox := [] } { twin with inbox := [] } :=
    ⟨akin.listed, akin.changed, rfl⟩
  rw [drain_eq, drain_eq, show twin.letters = streams.letters by rw [letters, letters, akin.inbox]]
  exact emptied.handAll _

theorem Akin.commit : Akin touched streams.commit twin.commit := by
  refine ⟨(akin.changeAll fun _ _ same => same.commit).listed, ?_, akin.inbox⟩
  have pairs := akin.listed
  simp only [Streams.commit]
  generalize streams.streams = listed at pairs ⊢
  generalize twin.streams = others at pairs ⊢
  induction pairs with
  | nil => rfl
  | @cons stream other rest others first _ ih =>
    have waits : other.hasPending = stream.hasPending := by
      rw [Stream.hasPending, Stream.hasPending, first.pending]
    simp only [filter_cons, waits]
    split
    · simp only [map_cons, first.name, ih]
    · exact ih

theorem Akin.reset : Akin touched streams.reset twin.reset :=
  ⟨(akin.changeAll fun _ _ same => same.reset).listed, rfl, akin.inbox⟩

theorem Akin.register (name : String) :
    Akin touched (streams.register name) (twin.register name) := by
  unfold Streams.register
  rcases akin.get? name with ⟨absent, twinAbsent⟩ | ⟨stream, other, found, twinFound, -⟩
  · rw [absent, twinAbsent]
    exact akin.add _
  · rw [found, twinFound]
    exact akin

/-- A registration is accepted on both sides or refused with the same fault. -/
theorem Akin.registerWith (name : String) (kind : StreamKind) (initial : Option Val) :
    (∃ fault, streams.registerWith name kind initial = .error fault ∧
        twin.registerWith name kind initial = .error fault) ∨
      ∃ after others, streams.registerWith name kind initial = .ok after ∧
        twin.registerWith name kind initial = .ok others ∧ Akin touched after others := by
  unfold Streams.registerWith
  split
  · exact Or.inl ⟨_, rfl, rfl⟩
  · rcases akin.get? name with ⟨absent, twinAbsent⟩ | ⟨stream, other, found, twinFound, same⟩
    · rw [absent, twinAbsent]
      exact Or.inr ⟨_, _, rfl, rfl, akin.add _⟩
    · simp only [found, twinFound, same.kind]
      split
      · exact Or.inr ⟨_, _, rfl, rfl, akin⟩
      · exact Or.inl ⟨_, rfl, rfl⟩

end Streams

end Reactor

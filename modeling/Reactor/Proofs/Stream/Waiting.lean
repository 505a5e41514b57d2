import Reactor.Proofs.Stream.Intake

/-!
# Values that wait to be committed

`Streams.waiting` lists the values that wait at a stream.  Handing over values adds those that are
admitted, delivering the inbox adds those of its data that are, and a commit turns them into the newest
part of the history.

Streams are looked up by their names, so this needs names to be distinct.  `Streams.Extends` says what
evaluation and all else that only makes streams available or changes subscribers leaves as it is.
-/

namespace Reactor.Streams

open List

/-- The values that wait at the stream with a name. -/
def waiting (streams : Streams) (name : String) : List Val :=
  ((streams.get? name).map (·.pending)).getD []

/-- The readable values of the stream with a name. -/
def past (streams : Streams) (name : String) : List Val :=
  ((streams.get? name).map (·.history)).getD []

/-- The names of all streams. -/
def names (streams : Streams) : List String :=
  streams.streams.map (·.name)

/-- What is in the inbox, as values for streams. -/
def letters (streams : Streams) : List (String × Val) :=
  streams.inbox.map fun message => (message.1, message.2.toVal)

variable {streams : Streams} {name : String} {stream : Stream}

theorem waiting_of_get? (found : streams.get? name = some stream) :
    streams.waiting name = stream.pending := by
  simp [waiting, found]

theorem waiting_of_absent (absent : streams.get? name = none) :
    streams.waiting name = [] := by
  simp [waiting, absent]

theorem latest?_eq (streams : Streams) (name : String) :
    streams.latest? name = (streams.past name).getLast? := by
  unfold latest? past
  cases streams.get? name <;> rfl

theorem pending_of_provided? (provided : provided? name = some stream) :
    stream.pending = [] := by
  simp only [provided?] at provided
  split at provided
  · cases provided
    rfl
  · cases provided

/-! ### Distinct names -/

theorem get?_of_mem (distinct : streams.names.Nodup) (mem : stream ∈ streams.streams) :
    streams.get? stream.name = some stream := by
  rcases streams with ⟨listed, changed, inbox⟩
  simp only [names, get?] at *
  induction listed with
  | nil => cases mem
  | cons first rest ih =>
    obtain ⟨absent, distinctInRest⟩ := nodup_cons.mp distinct
    rcases mem_cons.mp mem with rfl | later
    · simp
    · have differs : first.name ≠ stream.name := by
        intro equal
        exact absent (mem_map.mpr ⟨stream, later, equal.symm⟩)
      simpa [differs] using ih distinctInRest later

theorem perm_insertByName (stream : Stream) (streams : List Stream) :
    (insertByName stream streams).Perm (stream :: streams) := by
  induction streams with
  | nil => exact List.Perm.refl _
  | cons other rest ih =>
    simp only [insertByName]
    split
    · exact List.Perm.refl _
    · exact (ih.cons other).trans (List.Perm.swap stream other rest)

theorem nodup_names_add (distinct : streams.names.Nodup) (new : streams.get? stream.name = none) :
    (streams.add stream).names.Nodup := by
  have permuted : (streams.add stream).names.Perm (stream.name :: streams.names) :=
    (perm_insertByName stream streams.streams).map _
  rw [permuted.nodup_iff, nodup_cons]
  refine ⟨?_, distinct⟩
  intro mem
  obtain ⟨other, listed, same⟩ := mem_map.mp mem
  have absent := find?_eq_none.mp new other listed
  simp [same] at absent

theorem names_changeAll (streams : Streams) {update : Stream → Stream}
    (named : ∀ stream, (update stream).name = stream.name) :
    (streams.changeAll update).names = streams.names := by
  simp only [names, changeAll, map_map, Function.comp_def, named]

theorem names_queueAll (streams : Streams) (arriving : String → List Val) :
    (streams.queueAll arriving).names = streams.names :=
  names_changeAll streams fun _ => rfl

/-! ### What leaves alone all that was handed over -/

/-- Streams may come into being and subscribers may change, but all that was handed over stays. -/
structure Extends (streams after : Streams) : Prop where
  inbox : after.inbox = streams.inbox
  waiting : ∀ name, after.waiting name = streams.waiting name
  past : ∀ name, (streams.get? name).isSome → after.past name = streams.past name
  registered : ∀ name, (streams.get? name).isSome → (after.get? name).isSome
  distinct : streams.names.Nodup → after.names.Nodup

theorem Extends.refl (streams : Streams) : Extends streams streams :=
  ⟨rfl, fun _ => rfl, fun _ _ => rfl, fun _ present => present, fun distinct => distinct⟩

theorem Extends.latest {streams after : Streams} (extended : Extends streams after)
    {name : String} (there : (streams.get? name).isSome) :
    after.latest? name = streams.latest? name := by
  rw [latest?_eq, latest?_eq, extended.past name there]

theorem Extends.trans {first second third : Streams}
    (left : Extends first second) (right : Extends second third) :
    Extends first third where
  inbox := right.inbox.trans left.inbox
  waiting name := (right.waiting name).trans (left.waiting name)
  past name present :=
    (right.past name (left.registered name present)).trans (left.past name present)
  registered name present := right.registered name (left.registered name present)
  distinct distinct := right.distinct (left.distinct distinct)

theorem extends_add (new : streams.get? stream.name = none) (nothing : stream.pending = []) :
    Extends streams (streams.add stream) where
  inbox := rfl
  waiting name := by
    unfold Streams.waiting
    rw [get?_add new]
    split
    · next same => simp [same, new, nothing]
    · rfl
  past name present := by
    unfold Streams.past
    rw [get?_add new]
    split
    · next same =>
      rw [same, new] at present
      cases present
    · rfl
  registered name present := by
    rw [get?_add new]
    split
    · rfl
    · exact present
  distinct distinct := nodup_names_add distinct new

theorem extends_ensured (streams : Streams) (name : String) :
    Extends streams (streams.ensured name) := by
  cases found : streams.get? name with
  | some stream =>
    rw [ensured_of_get? found]
    exact Extends.refl streams
  | none =>
    cases provided : provided? name with
    | none =>
      rw [ensured_of_not_provided provided]
      exact Extends.refl streams
    | some stream =>
      rw [ensured_of_provided? found provided]
      exact extends_add (by rw [(name_of_provided? provided).1]; exact found)
        (pending_of_provided? provided)

theorem extends_ensure? {after : Streams} (ensured : streams.ensure? name = some after) :
    Extends streams after := by
  have same : streams.ensured name = after := by
    rw [Streams.ensured, ensured, Option.getD_some]
  exact same ▸ extends_ensured streams name

theorem extends_register (streams : Streams) (name : String) :
    Extends streams (streams.register name) := by
  unfold register
  split
  · exact Extends.refl streams
  · next absent => exact extends_add absent rfl

theorem extends_registerWith {after : Streams} {kind : StreamKind} {initial : Option Val}
    (registered : streams.registerWith name kind initial = .ok after) :
    Extends streams after := by
  simp only [registerWith] at registered
  split at registered
  · cases registered
  · split at registered
    · split at registered
      · cases registered
        exact Extends.refl streams
      · cases registered
    · next absent =>
      cases registered
      exact extends_add absent rfl

section

variable (streams : Streams)

theorem extends_changeAll {update : Stream → Stream}
    (named : ∀ stream, (update stream).name = stream.name)
    (pending : ∀ stream, (update stream).pending = stream.pending)
    (history : ∀ stream, (update stream).history = stream.history) :
    Extends streams (streams.changeAll update) where
  inbox := rfl
  waiting name := by
    unfold Streams.waiting
    rw [get?_changeAll streams name named]
    cases streams.get? name <;> simp [pending]
  past name _ := by
    unfold Streams.past
    rw [get?_changeAll streams name named]
    cases streams.get? name <;> simp [history]
  registered name present := by
    rw [get?_changeAll streams name named]
    simpa using present
  distinct distinct := by rwa [names_changeAll streams named]

theorem extends_subscribe (name : String) (reaction : NodeId) :
    Extends streams (streams.subscribe name reaction) := by
  refine extends_changeAll streams ?_ ?_ ?_ <;>
  · intro stream
    dsimp only
    split
    · rfl
    · rfl

theorem extends_subscribeAll (names : List String) (reaction : NodeId) :
    Extends streams (streams.subscribeAll names reaction) := by
  induction names generalizing streams with
  | nil => exact Extends.refl streams
  | cons name rest ih =>
    exact (extends_subscribe streams name reaction).trans (ih _)

theorem extends_unsubscribeAll : Extends streams streams.unsubscribeAll :=
  extends_changeAll streams (fun _ => rfl) (fun _ => rfl) (fun _ => rfl)

/-! ### Handing over values -/

theorem waiting_hand (message : String × Val) (name : String) :
    (streams.hand message).waiting name =
      streams.waiting name ++ streams.admitted [message] name := by
  rw [hand_eq, ← (extends_ensured streams message.1).waiting name]
  cases found : (streams.ensured message.1).get? name with
  | some stream => simp [waiting, get?_queueAll, found, Stream.queue]
  | none =>
    simp [waiting, get?_queueAll, found, admitted_of_absent found]

theorem waiting_handAll (messages : List (String × Val)) (name : String) :
    (streams.handAll messages).waiting name =
      streams.waiting name ++ streams.admitted messages name := by
  induction messages generalizing streams with
  | nil => exact (append_nil _).symm
  | cons message rest ih =>
    calc (streams.handAll (message :: rest)).waiting name
        = (streams.hand message).waiting name ++ (streams.hand message).admitted rest name :=
          ih (streams.hand message)
      _ = streams.waiting name ++ streams.admitted [message] name ++
            streams.admitted rest name := by
          rw [waiting_hand, admitted_congr (kind?_hand streams message)]
      _ = streams.waiting name ++ streams.admitted (message :: rest) name := by
          rw [append_assoc, ← admitted_append]
          rfl

end

/-! ### Delivering the inbox -/

theorem deliver_fst (state : Streams × Nat) (message : String × Datum) :
    (deliver state message).1 = state.1.hand (message.1, message.2.toVal) := by
  unfold deliver hand
  split
  · next pushed => simp only [pushed]
  · next pushed => simp only [pushed]

theorem foldl_deliver_fst (messages : List (String × Datum)) (state : Streams × Nat) :
    (messages.foldl deliver state).1 =
      state.1.handAll (messages.map fun message => (message.1, message.2.toVal)) := by
  induction messages generalizing state with
  | nil => rfl
  | cons message rest ih =>
    rw [foldl_cons, ih, deliver_fst]
    rfl

section

variable (streams : Streams)

theorem drain_eq :
    streams.drain.1 = ({ streams with inbox := [] } : Streams).handAll streams.letters :=
  foldl_deliver_fst streams.inbox _

theorem waiting_drain (name : String) :
    streams.drain.1.waiting name =
      streams.waiting name ++ streams.admitted streams.letters name := by
  have sameKinds : ∀ other, ({ streams with inbox := [] } : Streams).kind? other =
      streams.kind? other := fun _ => rfl
  rw [drain_eq, waiting_handAll, admitted_congr sameKinds]
  rfl

@[simp]
theorem inbox_hand (message : String × Val) : (streams.hand message).inbox = streams.inbox := by
  rw [hand_eq]
  exact inbox_ensured streams message.1

@[simp]
theorem inbox_handAll (messages : List (String × Val)) :
    (streams.handAll messages).inbox = streams.inbox := by
  induction messages generalizing streams with
  | nil => rfl
  | cons message rest ih => exact (ih _).trans (inbox_hand streams message)

theorem inbox_drain : streams.drain.1.inbox = [] := by
  rw [drain_eq, inbox_handAll]

end

section

variable (distinct : streams.names.Nodup)
include distinct

theorem nodup_names_hand (message : String × Val) : (streams.hand message).names.Nodup := by
  rw [hand_eq, names_queueAll]
  exact (extends_ensured streams message.1).distinct distinct

theorem nodup_names_handAll (messages : List (String × Val)) :
    (streams.handAll messages).names.Nodup := by
  induction messages generalizing streams with
  | nil => exact distinct
  | cons message rest ih => exact ih (nodup_names_hand distinct message)

theorem nodup_names_drain : streams.drain.1.names.Nodup := by
  have emptied : ({ streams with inbox := [] } : Streams).names.Nodup := distinct
  rw [drain_eq]
  exact nodup_names_handAll emptied _

/-! ### Commits -/

theorem mem_changed_commit (name : String) :
    name ∈ streams.commit.changed ↔ streams.waiting name ≠ [] := by
  constructor
  · intro mem
    obtain ⟨stream, waits, rfl⟩ := mem_map.mp mem
    obtain ⟨listed, pending⟩ := mem_filter.mp waits
    rw [waiting_of_get? (get?_of_mem distinct listed)]
    simpa [Stream.hasPending] using pending
  · intro waits
    cases found : streams.get? name with
    | none => exact absurd (waiting_of_absent found) waits
    | some stream =>
      rw [waiting_of_get? found] at waits
      refine mem_map.mpr ⟨stream, mem_filter.mpr ⟨mem_of_get? found, ?_⟩, name_of_get? found⟩
      simpa [Stream.hasPending] using waits

theorem nodup_names_commit : streams.commit.names.Nodup := by
  rwa [show streams.commit.names = streams.names from
    names_changeAll streams (show ∀ stream : Stream, stream.commit.name = stream.name from
      fun _ => rfl)]

end

theorem waiting_commit (streams : Streams) (name : String) :
    streams.commit.waiting name = [] := by
  unfold waiting
  rw [get?_commit]
  cases streams.get? name <;> rfl

/-- A commit moves what waits to the past. -/
theorem past_commit (streams : Streams) (name : String) :
    streams.commit.past name = streams.past name ++ streams.waiting name := by
  unfold past waiting
  rw [get?_commit]
  cases streams.get? name <;> rfl

theorem latest?_commit_of_waiting (waits : streams.waiting name ≠ []) :
    streams.commit.latest? name = (streams.waiting name).getLast? := by
  rw [latest?_eq, past_commit, getLast?_append, getLast?_eq_some_getLast waits, Option.some_or]

theorem nodup_names_reset (distinct : streams.names.Nodup) :
    streams.reset.names.Nodup := by
  rwa [show streams.reset.names = streams.names from
    names_changeAll streams (show ∀ stream : Stream, stream.reset.name = stream.name from
      fun _ => rfl)]

theorem waiting_reset (streams : Streams) (name : String) :
    streams.reset.waiting name = [] := by
  unfold waiting
  rw [get?_reset]
  cases streams.get? name <;> rfl

end Reactor.Streams

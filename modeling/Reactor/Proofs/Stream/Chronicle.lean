import Mathlib.Data.List.DropRight
import Reactor.Proofs.Stream.Commuting

/-!
# The chronicle of a registry

All that a registry knows of its streams can be read off a chronicle that only grows.  It has an entry
for each stream that was enrolled, for each datum that was sent, for each value that was accepted, and
marks for deliveries of the inbox, commits and resets.  `Chronicle.entries` says what a call adds to it,
and the views say how it is read: what was accepted up to the last commit mark can be read from a
stream, what was accepted behind it is pending, and what was sent behind the last delivery is in the
inbox.

The main result is that after every sequence of calls the registry agrees with its chronicle.
-/

namespace Reactor

open List

/-- An operation on a registry. -/
inductive StreamCall where
  | register (name : String)
  | registerWith (name : String) (kind : StreamKind) (initial : Option Val)
  | ensure (name : String)
  | push (name : String) (value : Val)
  | send (name : String) (datum : Datum)
  | drain
  | commit
  | subscribe (name : String) (reaction : NodeId)
  | unsubscribeAll
  | reset

/-- The registry after an operation.  One that is refused may have let a stream come into being. -/
def StreamCall.perform (streams : Streams) : StreamCall → Streams
  | register name => streams.register name
  | registerWith name kind initial =>
    match streams.registerWith name kind initial with
    | .ok after => after
    | .error _ => streams
  | ensure name => (streams.ensure? name).getD streams
  | push name value => (streams.push name value).1
  | send name datum =>
    match Streams.send (some streams) name datum with
    | .ok after => after
    | .error _ => streams
  | drain => streams.drain.1
  | commit => streams.commit
  | subscribe name reaction => streams.subscribe name reaction
  | unsubscribeAll => streams.unsubscribeAll
  | reset => streams.reset

/-- The registry after operations on an empty one. -/
def Streams.after (calls : List StreamCall) : Streams :=
  calls.foldl StreamCall.perform .empty

/-! ### Chronicles and how they are read -/

/-- An entry of a chronicle. -/
inductive StreamEntry where
  | enrolled (name : String) (kind : StreamKind) (initial : Option Val)
  | sent (name : String) (datum : Datum)
  | accepted (name : String) (value : Val)
  /-- The inbox was delivered. -/
  | delivered
  | committed
  | reset

namespace StreamEntry

/-- The kind and the initial value with which a stream is enrolled. -/
def enrolment? (name : String) : StreamEntry → Option (StreamKind × Option Val)
  | enrolled other kind initial => if other = name then some (kind, initial) else none
  | _ => none

/-- The value that a stream accepts. -/
def value? (name : String) : StreamEntry → Option Val
  | accepted other value => if other = name then some value else none
  | _ => none

/-- The datum that was sent, with the name of its stream. -/
def message? : StreamEntry → Option (String × Datum)
  | sent name datum => some (name, datum)
  | _ => none

/-- Whether the values of a stream are counted anew from here. -/
def begins (name : String) : StreamEntry → Bool
  | enrolled other _ _ => other = name
  | reset => true
  | _ => false

def isCommit : StreamEntry → Bool
  | committed => true
  | _ => false

def isDelivery : StreamEntry → Bool
  | delivered => true
  | _ => false

end StreamEntry

/-- What has happened to a registry, the oldest first. -/
abbrev Chronicle := List StreamEntry

namespace Chronicle

/-- The kind and the initial value with which a stream was enrolled. -/
def enrolment? (chronicle : Chronicle) (name : String) : Option (StreamKind × Option Val) :=
  chronicle.findSome? (·.enrolment? name)

/-- The kind of the stream that a name stands for.  `Time` stands for a stream of numbers before it is
enrolled. -/
def kind? (chronicle : Chronicle) (name : String) : Option StreamKind :=
  ((chronicle.enrolment? name).map (·.1)).or (if name = "Time" then some (.only .number) else none)

/-- Whether a value would be accepted under a name. -/
def takes (chronicle : Chronicle) (name : String) (value : Val) : Bool :=
  (chronicle.kind? name).any (·.accepts value.kind)

/-- The values that a stream accepts in some entries. -/
def values (name : String) (entries : List StreamEntry) : List Val :=
  entries.filterMap (·.value? name)

/-- The entries since a stream was enrolled or the registry was reset, whichever is later. -/
def recent (chronicle : Chronicle) (name : String) : Chronicle :=
  chronicle.rtakeWhile fun entry => !entry.begins name

/-- The entries up to the last commit. -/
def upToCommit (chronicle : Chronicle) : Chronicle :=
  chronicle.rdropWhile fun entry => !entry.isCommit

/-- The entries behind the last commit. -/
def sinceCommit (chronicle : Chronicle) : Chronicle :=
  chronicle.rtakeWhile fun entry => !entry.isCommit

/-- The values that a stream has accepted up to the last commit. -/
def committed (chronicle : Chronicle) (name : String) : List Val :=
  values name (chronicle.recent name).upToCommit

/-- The values that a stream has accepted behind the last commit. -/
def pending (chronicle : Chronicle) (name : String) : List Val :=
  values name (chronicle.recent name).sinceCommit

/-- The values that were pending when the last commit was made.  There are none if the stream is younger
or the registry was reset since. -/
def advancing (chronicle : Chronicle) (name : String) : List Val :=
  values name (sinceCommit (chronicle.recent name).upToCommit.dropLast)

/-- The data that were sent since the inbox was delivered, in the order in which they were sent. -/
def waiting (chronicle : Chronicle) : List (String × Datum) :=
  (chronicle.rtakeWhile fun entry => !entry.isDelivery).filterMap StreamEntry.message?

/-! ### How chronicles grow -/

/-- `Time` is enrolled when it is first named. -/
def provision (chronicle : Chronicle) (names : List String) : List StreamEntry :=
  if "Time" ∈ names ∧ chronicle.enrolment? "Time" = none then
    [.enrolled "Time" (.only .number) (some (.measure 0 "ms"))]
  else []

/-- Values that are handed over are accepted or dropped, each by itself. -/
def handOver (chronicle : Chronicle) (messages : List (String × Val)) : List StreamEntry :=
  chronicle.provision (messages.map (·.1)) ++
    (messages.filter fun message => chronicle.takes message.1 message.2).map
      fun message => .accepted message.1 message.2

/-- What an operation adds to the chronicle. -/
def entries (chronicle : Chronicle) : StreamCall → List StreamEntry
  | .register name =>
    if chronicle.enrolment? name = none then [.enrolled name .any none] else []
  | .registerWith name kind initial =>
    if chronicle.enrolment? name = none ∧ initial.all (fun value => kind.accepts value.kind) then
      [.enrolled name kind initial]
    else []
  | .ensure name => chronicle.provision [name]
  | .push name value => chronicle.handOver [(name, value)]
  | .send name datum => [.sent name datum]
  | .drain => .delivered ::
      chronicle.handOver (chronicle.waiting.map fun message => (message.1, message.2.toVal))
  | .commit => [.committed]
  | .subscribe _ _ | .unsubscribeAll => []
  | .reset => [.reset]

/-- The chronicle of operations on an empty registry. -/
def after (calls : List StreamCall) : Chronicle :=
  calls.foldl (fun chronicle call => chronicle ++ chronicle.entries call) []

end Chronicle

/-! ### Reading a chronicle that has grown -/

section Suffixes

variable {α : Type} {keeps : α → Bool}

variable (earlier : List α) {later : List α} (all : ∀ item ∈ later, keeps item = true)
include earlier all

theorem rtakeWhile_append_of_all :
    (earlier ++ later).rtakeWhile keeps = earlier.rtakeWhile keeps ++ later := by
  rw [List.rtakeWhile, reverse_append, takeWhile_append_of_pos (by simpa using all),
    reverse_append, reverse_reverse]
  rfl

theorem rdropWhile_append_of_all :
    (earlier ++ later).rdropWhile keeps = earlier.rdropWhile keeps := by
  rw [List.rdropWhile, reverse_append, dropWhile_append_of_pos (by simpa using all)]
  rfl

end Suffixes

namespace Chronicle

variable {chronicle : Chronicle} {name : String}

theorem enrolment?_append (chronicle : Chronicle) (later : List StreamEntry) (name : String) :
    enrolment? (chronicle ++ later) name =
      (chronicle.enrolment? name).or (enrolment? later name) := by
  simp [enrolment?, findSome?_append]

variable {later : List StreamEntry}

theorem enrolment?_append_of_none (unenrolled : ∀ entry ∈ later, entry.enrolment? name = none) :
    enrolment? (chronicle ++ later) name = chronicle.enrolment? name := by
  have none : enrolment? later name = none := findSome?_eq_none_iff.mpr unenrolled
  rw [enrolment?_append, none, Option.or_none]

@[simp]
theorem values_append (name : String) (first second : List StreamEntry) :
    values name (first ++ second) = values name first ++ values name second :=
  filterMap_append

/-- Entries that neither commit anything nor count a stream anew. -/
def Quiet (name : String) (later : List StreamEntry) : Prop :=
  ∀ entry ∈ later, entry.begins name = false ∧ entry.isCommit = false

theorem recent_of_quiet (quiet : Quiet name later) :
    recent (chronicle ++ later) name = chronicle.recent name ++ later :=
  rtakeWhile_append_of_all _ fun entry mem => by simp [(quiet entry mem).1]

theorem upToCommit_of_quiet (earlier : Chronicle) (quiet : Quiet name later) :
    upToCommit (earlier ++ later) = earlier.upToCommit :=
  rdropWhile_append_of_all _ fun entry mem => by simp [(quiet entry mem).2]

theorem committed_of_quiet (quiet : Quiet name later) :
    committed (chronicle ++ later) name = chronicle.committed name := by
  rw [committed, recent_of_quiet quiet, upToCommit_of_quiet _ quiet, committed]

theorem pending_of_quiet (quiet : Quiet name later) :
    pending (chronicle ++ later) name = chronicle.pending name ++ values name later := by
  have behind : sinceCommit (chronicle.recent name ++ later) =
      (chronicle.recent name).sinceCommit ++ later :=
    rtakeWhile_append_of_all _ fun entry mem => by simp [(quiet entry mem).2]
  rw [pending, recent_of_quiet quiet, behind, values_append, pending]

theorem advancing_of_quiet (quiet : Quiet name later) :
    advancing (chronicle ++ later) name = chronicle.advancing name := by
  rw [advancing, recent_of_quiet quiet, upToCommit_of_quiet _ quiet, advancing]

theorem recent_of_begins {entry : StreamEntry} (begins : entry.begins name = true) :
    recent (chronicle ++ [entry]) name = [] :=
  rtakeWhile_concat_neg _ _ _ (by simp [begins])

theorem recent_committed :
    recent (chronicle ++ [.committed]) name = chronicle.recent name ++ [.committed] :=
  rtakeWhile_concat_pos _ _ _ rfl

theorem committed_committed :
    committed (chronicle ++ [.committed]) name =
      chronicle.committed name ++ chronicle.pending name := by
  have all : values name (chronicle.recent name) =
      chronicle.committed name ++ chronicle.pending name := by
    rw [committed, pending, ← values_append, upToCommit, sinceCommit, rdropWhile_append_rtakeWhile]
  rw [committed, recent_committed, upToCommit,
    rdropWhile_concat_neg _ _ _ (by simp [StreamEntry.isCommit]), values_append, all]
  exact append_nil _

theorem pending_committed : pending (chronicle ++ [.committed]) name = [] := by
  rw [pending, recent_committed, sinceCommit,
    rtakeWhile_concat_neg _ _ _ (by simp [StreamEntry.isCommit])]
  rfl

theorem advancing_committed :
    advancing (chronicle ++ [.committed]) name = chronicle.pending name := by
  rw [advancing, recent_committed, upToCommit,
    rdropWhile_concat_neg _ _ _ (by simp [StreamEntry.isCommit]), dropLast_concat, pending]

theorem waiting_append_of_silent
    (silent : ∀ entry ∈ later, entry.isDelivery = false ∧ entry.message? = none) :
    waiting (chronicle ++ later) = chronicle.waiting := by
  have nothing : later.filterMap StreamEntry.message? = [] :=
    filterMap_eq_nil_iff.mpr fun entry mem => (silent entry mem).2
  rw [waiting, rtakeWhile_append_of_all _ fun entry mem => by simp [(silent entry mem).1],
    filterMap_append, nothing, append_nil, waiting]

/-! ### What a chronicle tells of a registry -/

end Chronicle

/-- What there is to say of a stream, its subscribers apart. -/
structure StreamAccount where
  kind : StreamKind
  initial : Option Val
  history : List Val
  pending : List Val

def Stream.account (stream : Stream) : StreamAccount :=
  ⟨stream.kind, stream.initial, stream.history, stream.pending⟩

namespace Chronicle

/-- What a chronicle says of a stream. -/
def account? (chronicle : Chronicle) (name : String) : Option StreamAccount :=
  (chronicle.enrolment? name).map fun (kind, initial) =>
    ⟨kind, initial, initial.toList ++ chronicle.committed name, chronicle.pending name⟩

/-- A chronicle and a registry agree. -/
structure Tells (chronicle : Chronicle) (streams : Streams) : Prop where
  accounts : ∀ name, (streams.get? name).map Stream.account = chronicle.account? name
  inbox : streams.inbox = chronicle.waiting
  changed : ∀ name, name ∈ streams.changed ↔ chronicle.advancing name ≠ []
  registered : ∀ name ∈ streams.changed, (streams.get? name).isSome
  unknown : ∀ name, streams.get? name = none → chronicle.pending name = []
  fitting : ∀ name stream, streams.get? name = some stream →
    ∀ value ∈ stream.values, stream.kind.accepts value.kind = true
  distinct : streams.names.Nodup

variable {chronicle : Chronicle} {streams : Streams} {name : String}

theorem account?_of_enrolment? {kind : StreamKind} {initial : Option Val}
    (enrolled : chronicle.enrolment? name = some (kind, initial)) :
    chronicle.account? name =
      some ⟨kind, initial, initial.toList ++ chronicle.committed name, chronicle.pending name⟩ := by
  rw [account?, enrolled, Option.map_some]

section

variable (tells : Tells chronicle streams)
include tells

theorem Tells.of_get? {stream : Stream} (found : streams.get? name = some stream) :
    chronicle.enrolment? name = some (stream.kind, stream.initial) ∧
      stream.history = stream.initial.toList ++ chronicle.committed name ∧
      stream.pending = chronicle.pending name := by
  have account := tells.accounts name
  unfold account? at account
  rw [found, Option.map_some, eq_comm, Option.map_eq_some_iff] at account
  obtain ⟨⟨kind, initial⟩, enrolled, same⟩ := account
  simp only [Stream.account, StreamAccount.mk.injEq] at same
  obtain ⟨rfl, rfl, history, pending⟩ := same
  exact ⟨enrolled, history.symm, pending.symm⟩

theorem Tells.enrolment?_eq (name : String) :
    chronicle.enrolment? name =
      (streams.get? name).map fun stream => (stream.kind, stream.initial) := by
  cases found : streams.get? name with
  | some stream => exact (tells.of_get? found).1
  | none =>
    have account := tells.accounts name
    unfold account? at account
    rw [found, Option.map_none, eq_comm, Option.map_eq_none_iff] at account
    exact account

theorem Tells.enrolment?_eq_none : chronicle.enrolment? name = none ↔ streams.get? name = none := by
  rw [tells.enrolment?_eq, Option.map_eq_none_iff]

theorem Tells.kind?_eq (name : String) : streams.kind? name = chronicle.kind? name := by
  rw [kind?, tells.enrolment?_eq, Streams.kind?, Streams.known?]
  cases found : streams.get? name with
  | some stream => rfl
  | none =>
    simp only [Option.none_or, Option.map_none, Streams.provided?]
    split
    · rfl
    · rfl

theorem Tells.isNone_refusal? (name : String) (value : Val) :
    (streams.refusal? name value).isNone = chronicle.takes name value := by
  rw [Streams.refusal?_eq, tells.kind?_eq, takes]
  cases chronicle.kind? name with
  | none => rfl
  | some kind => by_cases fit : kind.accepts value.kind <;> simp [fit]

theorem Tells.admitted_eq (messages : List (String × Val)) (name : String) :
    streams.admitted messages name =
      values name ((messages.filter fun message => chronicle.takes message.1 message.2).map
        fun message => .accepted message.1 message.2) := by
  simp only [Streams.admitted, tells.isNone_refusal?, values, filterMap_map]
  induction messages with
  | nil => rfl
  | cons message rest ih =>
    by_cases here : message.1 = name <;>
      by_cases taken : chronicle.takes message.1 message.2 <;>
        simp_all [StreamEntry.value?, Function.comp_def]

/-! ### One operation after the other -/

theorem Tells.of_accounts {after : Streams}
    (accounts : ∀ name, (after.get? name).map Stream.account =
      (streams.get? name).map Stream.account) (inbox : after.inbox = streams.inbox)
    (changed : after.changed = streams.changed) (distinct : after.names.Nodup) :
    Tells chronicle after where
  accounts name := (accounts name).trans (tells.accounts name)
  inbox := inbox.trans tells.inbox
  changed name := by rw [changed, tells.changed]
  registered name mem := by
    have there := tells.registered name (changed ▸ mem)
    rw [← @Option.isSome_map _ _ Stream.account] at there ⊢
    rwa [accounts]
  unknown name absent := by
    have account := accounts name
    rw [absent, Option.map_none, eq_comm, Option.map_eq_none_iff] at account
    exact tells.unknown name account
  fitting name stream found value mem := by
    have account := accounts name
    rw [found, Option.map_some, eq_comm, Option.map_eq_some_iff] at account
    obtain ⟨before, foundBefore, same⟩ := account
    simp only [Stream.account, StreamAccount.mk.injEq] at same
    obtain ⟨kind, initial, history, pending⟩ := same
    rw [← kind]
    refine tells.fitting name before foundBefore value ?_
    rwa [Stream.values, history, pending, initial]
  distinct := distinct

theorem Tells.enrol {kind : StreamKind} {initial : Option Val} (absent : streams.get? name = none)
    (fits : ∀ value, initial = some value → kind.accepts value.kind = true) :
    Tells (chronicle ++ [.enrolled name kind initial])
      (streams.add (.create name kind initial)) := by
  have looked : ∀ other, (streams.add (.create name kind initial)).get? other =
      if other = name then some (.create name kind initial) else streams.get? other :=
    Streams.get?_add absent
  have enrolledHere : enrolment? (chronicle ++ [.enrolled name kind initial]) name =
      some (kind, initial) := by
    rw [enrolment?_append, tells.enrolment?_eq_none.mpr absent]
    simp [enrolment?, StreamEntry.enrolment?]
  have begun : recent (chronicle ++ [.enrolled name kind initial]) name = [] :=
    recent_of_begins (by simp [StreamEntry.begins])
  have quiet : ∀ other, other ≠ name → Quiet other [.enrolled name kind initial] := by
    intro other differs entry mem
    cases mem_singleton.mp mem
    exact ⟨by simp [StreamEntry.begins, Ne.symm differs], rfl⟩
  constructor
  · intro other
    rw [looked]
    by_cases here : other = name
    · subst here
      rw [if_pos rfl, account?, enrolledHere, committed, pending, begun]
      simp [Stream.account, Stream.create, upToCommit, sinceCommit, values]
    · have elsewhere : enrolment? (chronicle ++ [.enrolled name kind initial]) other =
          chronicle.enrolment? other :=
        enrolment?_append_of_none (by simp [StreamEntry.enrolment?, Ne.symm here])
      rw [if_neg here, tells.accounts, account?, account?, elsewhere,
        committed_of_quiet (quiet other here), pending_of_quiet (quiet other here)]
      simp [values, StreamEntry.value?]
  · rw [waiting_append_of_silent (by simp [StreamEntry.isDelivery, StreamEntry.message?])]
    exact tells.inbox
  · intro other
    by_cases here : other = name
    · subst here
      rw [advancing, begun]
      refine iff_of_false (fun mem => ?_) (by simp [upToCommit, sinceCommit, values])
      have there := tells.registered other mem
      rw [absent] at there
      cases there
    · rw [advancing_of_quiet (quiet other here)]
      exact tells.changed other
  · intro other mem
    rw [looked]
    split
    · rfl
    · exact tells.registered other mem
  · intro other unknown
    rw [looked] at unknown
    split at unknown
    · cases unknown
    · next elsewhere =>
      rw [pending_of_quiet (quiet other elsewhere), tells.unknown other unknown]
      rfl
  · intro other stream found value mem
    rw [looked] at found
    split at found
    · cases found
      simp only [Stream.values, Stream.create, append_nil, mem_append, or_self,
        Option.mem_toList] at mem
      exact fits value mem
    · exact tells.fitting other stream found value mem
  · exact Streams.nodup_names_add tells.distinct absent

theorem Tells.provide (names : List String) :
    Tells (chronicle ++ chronicle.provision names) (streams.ensuredAll names) := by
  rw [Streams.ensuredAll_eq, provision]
  by_cases named : "Time" ∈ names
  · cases found : streams.get? "Time" with
    | some stream =>
      have enrolled : chronicle.enrolment? "Time" ≠ none := by
        rw [Ne, tells.enrolment?_eq_none, found]
        exact nofun
      rw [if_pos named, if_neg (fun both => enrolled both.2), append_nil,
        Streams.ensured_of_get? found]
      exact tells
    | none =>
      have provided : Streams.provided? "Time" =
          some (.create "Time" (.only .number) (some (.measure 0 "ms"))) := rfl
      rw [if_pos named, if_pos ⟨named, tells.enrolment?_eq_none.mpr found⟩,
        Streams.ensured_of_provided? found provided]
      exact tells.enrol found fun value same => by cases same; rfl
  · rw [if_neg named, if_neg (fun both => named both.1), append_nil]
    exact tells

theorem Tells.accept {arriving : String → List Val} {later : List StreamEntry}
    (plain : ∀ entry ∈ later, entry.isCommit = false ∧
      ∀ name, entry.begins name = false ∧ entry.enrolment? name = none)
    (arrive : ∀ name, arriving name = values name later)
    (there : ∀ name, streams.get? name = none → arriving name = [])
    (fits : ∀ name stream, streams.get? name = some stream →
      ∀ value ∈ arriving name, stream.kind.accepts value.kind = true)
    {inbox : List (String × Datum)} (waits : inbox = waiting (chronicle ++ later)) :
    Tells (chronicle ++ later) { streams.queueAll arriving with inbox } := by
  have quiet : ∀ name, Quiet name later :=
    fun name entry mem => ⟨((plain entry mem).2 name).1, (plain entry mem).1⟩
  have enrolments : ∀ name, enrolment? (chronicle ++ later) name = chronicle.enrolment? name :=
    fun name => enrolment?_append_of_none fun entry mem => ((plain entry mem).2 name).2
  have looked : ∀ name, ({ streams.queueAll arriving with inbox } : Streams).get? name =
      (streams.get? name).map (·.queue (arriving name)) := Streams.get?_queueAll streams arriving
  constructor
  · intro name
    rw [looked]
    cases found : streams.get? name with
    | none =>
      rw [account?, enrolments, tells.enrolment?_eq_none.mpr found]
      rfl
    | some stream =>
      obtain ⟨enrolled, history, pending⟩ := tells.of_get? found
      rw [account?_of_enrolment? ((enrolments name).trans enrolled),
        committed_of_quiet (quiet name), pending_of_quiet (quiet name), ← arrive, ← history,
        ← pending]
      rfl
  · exact waits
  · intro name
    rw [advancing_of_quiet (quiet name)]
    exact tells.changed name
  · intro name mem
    rw [looked, Option.isSome_map]
    exact tells.registered name mem
  · intro name absent
    rw [looked, Option.map_eq_none_iff] at absent
    rw [pending_of_quiet (quiet name), tells.unknown name absent, ← arrive, there name absent]
    rfl
  · intro name stream found value mem
    rw [looked, Option.map_eq_some_iff] at found
    obtain ⟨before, found, rfl⟩ := found
    simp only [Stream.values, Stream.queue, mem_append] at mem
    have kept := tells.fitting name before found value
    simp only [Stream.values, mem_append] at kept
    rcases mem with (inHistory | (waited | arrived)) | isInitial
    · exact kept (Or.inl (Or.inl inHistory))
    · exact kept (Or.inl (Or.inr waited))
    · exact fits name before found value arrived
    · exact kept (Or.inr isInitial)
  · exact (Streams.names_queueAll streams arriving).symm ▸ tells.distinct

theorem Tells.withInbox {entry : StreamEntry}
    (plain : entry.isCommit = false ∧ ∀ name, entry.begins name = false ∧ entry.enrolment? name = none)
    (unvalued : ∀ name, entry.value? name = none) {inbox : List (String × Datum)}
    (waits : inbox = waiting (chronicle ++ [entry])) :
    Tells (chronicle ++ [entry]) { streams with inbox } := by
  have nothing : ∀ name, values name [entry] = [] := fun name => by simp [values, unvalued]
  have told := tells.accept (by simpa using plain) (fun name => (nothing name).symm) (fun _ _ => rfl)
    (fun _ _ _ _ mem => absurd mem not_mem_nil) waits
  rwa [Streams.queueAll_nothing streams _ fun _ _ => rfl] at told

end

theorem takes_provision (chronicle : Chronicle) (names : List String) :
    takes (chronicle ++ chronicle.provision names) = chronicle.takes := by
  funext name value
  have same : kind? (chronicle ++ chronicle.provision names) name = chronicle.kind? name := by
    unfold kind? provision
    rw [enrolment?_append]
    split
    · next unenrolled =>
      by_cases time : name = "Time"
      · subst time
        rw [unenrolled.2]
        rfl
      · simp [enrolment?, StreamEntry.enrolment?, Ne.symm time]
    · exact congrArg (fun found => Option.or (Option.map Prod.fst found) _) (Option.or_none)
  rw [takes, same, takes]

theorem get?_ensuredAll_of_kind? {names : List String} (named : name ∈ names)
    (known : ((streams.ensuredAll names).kind? name).isSome) :
    ((streams.ensuredAll names).get? name).isSome := by
  rw [Streams.ensuredAll_eq] at known ⊢
  by_cases time : name = "Time"
  · subst time
    rw [if_pos named, Streams.get?_ensured, if_pos rfl, Streams.known?]
    cases streams.get? "Time" <;> rfl
  · rw [Streams.kind?, Streams.known?, Streams.provided?, if_neg time, Option.or_none,
      Option.isSome_map] at known
    exact known

section

variable (tells : Tells chronicle streams)
include tells

theorem Tells.handOver (messages : List (String × Val)) :
    Tells (chronicle ++ chronicle.handOver messages) (streams.handAll messages) := by
  have provided := tells.provide (messages.map (·.1))
  have admitted : ∀ name, ∀ value ∈ streams.admitted messages name,
      name ∈ messages.map (·.1) ∧ ∃ kind,
        (streams.ensuredAll (messages.map (·.1))).kind? name = some kind ∧
          kind.accepts value.kind = true := by
    intro name value mem
    obtain ⟨message, taken, rfl⟩ := mem_map.mp mem
    obtain ⟨listed, fits⟩ := mem_filter.mp taken
    simp only [Bool.and_eq_true, decide_eq_true_eq] at fits
    obtain ⟨rfl, accepted⟩ := fits
    rw [tells.isNone_refusal?, ← takes_provision chronicle (messages.map (·.1)), takes,
      ← provided.kind?_eq, Option.any_eq_true] at accepted
    exact ⟨mem_map_of_mem listed, accepted⟩
  rw [Streams.handAll_eq, Chronicle.handOver, ← append_assoc]
  refine provided.accept ?_ (tells.admitted_eq messages) ?_ ?_ ?_
  · intro entry mem
    obtain ⟨message, -, rfl⟩ := mem_map.mp mem
    exact ⟨rfl, fun _ => ⟨rfl, rfl⟩⟩
  · intro name absent
    rw [eq_nil_iff_forall_not_mem]
    intro value mem
    obtain ⟨named, kind, known, -⟩ := admitted name value mem
    have there := get?_ensuredAll_of_kind? named (by rw [known]; rfl)
    rw [absent] at there
    cases there
  · intro name stream found value mem
    obtain ⟨-, kind, known, accepted⟩ := admitted name value mem
    rw [Streams.kind?, Streams.known?, found] at known
    cases known
    exact accepted
  · refine provided.inbox.trans (waiting_append_of_silent fun entry mem => ?_).symm
    obtain ⟨message, -, rfl⟩ := mem_map.mp mem
    exact ⟨rfl, rfl⟩

theorem Tells.send (name : String) (datum : Datum) :
    Tells (chronicle ++ [.sent name datum])
      { streams with inbox := streams.inbox ++ [(name, datum)] } := by
  refine tells.withInbox ⟨rfl, fun _ => ⟨rfl, rfl⟩⟩ (fun _ => rfl) ?_
  rw [waiting, rtakeWhile_concat_pos _ _ _ rfl, filterMap_append, ← waiting, tells.inbox]
  rfl

theorem Tells.drain : Tells (chronicle ++ chronicle.entries .drain) streams.drain.1 := by
  have emptied : Tells (chronicle ++ [.delivered]) { streams with inbox := [] } := by
    refine tells.withInbox ⟨rfl, fun _ => ⟨rfl, rfl⟩⟩ (fun _ => rfl) ?_
    rw [waiting, rtakeWhile_concat_neg _ _ _ (by simp [StreamEntry.isDelivery])]
    rfl
  have enrolments : ∀ name, enrolment? (chronicle ++ [.delivered]) name =
      chronicle.enrolment? name :=
    fun name => enrolment?_append_of_none (by simp [StreamEntry.enrolment?])
  have same : Chronicle.handOver (chronicle ++ [.delivered]) streams.letters =
      chronicle.handOver (chronicle.waiting.map fun message => (message.1, message.2.toVal)) := by
    unfold Chronicle.handOver provision takes kind?
    simp only [enrolments, Streams.letters, tells.inbox]
  rw [Streams.drain_eq, entries, ← singleton_append, ← append_assoc, ← same]
  exact emptied.handOver streams.letters

theorem Tells.commit : Tells (chronicle ++ [.committed]) streams.commit := by
  have enrolments : ∀ name, enrolment? (chronicle ++ [.committed]) name =
      chronicle.enrolment? name :=
    fun name => enrolment?_append_of_none (by simp [StreamEntry.enrolment?])
  have waited : ∀ name, streams.waiting name = chronicle.pending name := by
    intro name
    cases found : streams.get? name with
    | none => rw [Streams.waiting_of_absent found, tells.unknown name found]
    | some stream => rw [Streams.waiting_of_get? found, (tells.of_get? found).2.2]
  constructor
  · intro name
    rw [Streams.get?_commit]
    cases found : streams.get? name with
    | none =>
      rw [account?, enrolments, tells.enrolment?_eq_none.mpr found]
      rfl
    | some stream =>
      obtain ⟨enrolled, history, pending⟩ := tells.of_get? found
      rw [account?_of_enrolment? ((enrolments name).trans enrolled), committed_committed,
        pending_committed, ← append_assoc, ← history, ← pending]
      rfl
  · rw [waiting_append_of_silent (by simp [StreamEntry.isDelivery, StreamEntry.message?])]
    exact tells.inbox
  · intro name
    rw [Streams.mem_changed_commit tells.distinct, advancing_committed, waited]
  · intro name mem
    rw [Streams.mem_changed_commit tells.distinct] at mem
    rw [Streams.get?_commit, Option.isSome_map, Option.isSome_iff_ne_none]
    exact fun absent => mem (Streams.waiting_of_absent absent)
  · exact fun _ _ => pending_committed
  · intro name stream found value mem
    rw [Streams.get?_commit, Option.map_eq_some_iff] at found
    obtain ⟨before, found, rfl⟩ := found
    refine tells.fitting name before found value ?_
    simpa [Stream.values, Stream.commit, or_assoc] using mem
  · exact Streams.nodup_names_commit tells.distinct

theorem Tells.reset : Tells (chronicle ++ [.reset]) streams.reset := by
  have enrolments : ∀ name, enrolment? (chronicle ++ [.reset]) name =
      chronicle.enrolment? name :=
    fun name => enrolment?_append_of_none (by simp [StreamEntry.enrolment?])
  have begun : ∀ name, recent (chronicle ++ [.reset]) name = [] := fun _ => recent_of_begins rfl
  constructor
  · intro name
    rw [Streams.get?_reset]
    cases found : streams.get? name with
    | none =>
      rw [account?, enrolments, tells.enrolment?_eq_none.mpr found]
      rfl
    | some stream =>
      rw [account?_of_enrolment? ((enrolments name).trans (tells.of_get? found).1), committed,
        pending, begun]
      exact congrArg (fun history => some (StreamAccount.mk _ _ history _)) (append_nil _).symm
  · rw [waiting_append_of_silent (by simp [StreamEntry.isDelivery, StreamEntry.message?])]
    exact tells.inbox
  · intro name
    rw [advancing, begun]
    exact iff_of_false not_mem_nil fun absurdity => absurdity rfl
  · exact fun _ mem => absurd mem not_mem_nil
  · intro name _
    rw [pending, begun]
    rfl
  · intro name stream found value mem
    rw [Streams.get?_reset, Option.map_eq_some_iff] at found
    obtain ⟨before, found, rfl⟩ := found
    refine tells.fitting name before found value (mem_append_right _ ?_)
    simpa [Stream.values, Stream.reset] using mem
  · exact Streams.nodup_names_reset tells.distinct

theorem Tells.perform (call : StreamCall) :
    Tells (chronicle ++ chronicle.entries call) (call.perform streams) := by
  cases call with
  | register name =>
    simp only [entries, StreamCall.perform, Streams.register, tells.enrolment?_eq_none]
    cases found : streams.get? name with
    | some stream =>
      simp only [reduceCtorEq, if_false, append_nil]
      exact tells
    | none =>
      rw [if_pos rfl]
      exact tells.enrol found (by simp)
  | registerWith name kind initial =>
    have refused : initial.all (fun value => kind.accepts value.kind) = false →
        ∃ value, initial.filter (fun value => !kind.accepts value.kind) = some value := by
      cases initial with
      | none => simp
      | some value => exact fun misfit => ⟨value, by simpa [Option.filter] using misfit⟩
    have allowed : initial.all (fun value => kind.accepts value.kind) = true →
        initial.filter (fun value => !kind.accepts value.kind) = none := by
      cases initial with
      | none => exact fun _ => rfl
      | some value => exact fun fits => by simpa [Option.filter] using fits
    simp only [entries, StreamCall.perform, Streams.registerWith, tells.enrolment?_eq_none]
    cases fits : initial.all (fun value => kind.accepts value.kind) with
    | false =>
      obtain ⟨value, misfit⟩ := refused fits
      simp only [misfit, Bool.false_eq_true, and_false, if_false, append_nil]
      exact tells
    | true =>
      simp only [allowed fits]
      cases found : streams.get? name with
      | none =>
        rw [if_pos (by simp)]
        exact tells.enrol found fun value same => by simpa [same] using fits
      | some existing =>
        simp only [reduceCtorEq, false_and, if_false, append_nil]
        by_cases same : existing.kind = kind
        · rw [if_pos same]
          exact tells
        · rw [if_neg same]
          exact tells
  | ensure name => exact tells.provide [name]
  | push name value => exact tells.handOver [(name, value)]
  | send name datum => exact tells.send name datum
  | drain => exact tells.drain
  | commit => exact tells.commit
  | subscribe name reaction =>
    rw [entries, append_nil]
    refine tells.of_accounts (fun other => ?_) rfl rfl
      ((Streams.extends_subscribe streams name reaction).distinct tells.distinct)
    rw [StreamCall.perform, Streams.get?_subscribe]
    split
    · exact Option.map_map ..
    · rfl
  | unsubscribeAll =>
    rw [entries, append_nil]
    refine tells.of_accounts (fun other => ?_) rfl rfl
      ((Streams.extends_unsubscribeAll streams).distinct tells.distinct)
    rw [StreamCall.perform, Streams.get?_unsubscribeAll]
    exact Option.map_map ..
  | reset => exact tells.reset

end

theorem tells_after (calls : List StreamCall) : Tells (after calls) (Streams.after calls) := by
  have goesOn : ∀ (calls : List StreamCall) (chronicle : Chronicle) (streams : Streams),
      Tells chronicle streams →
        Tells (calls.foldl (fun chronicle call => chronicle ++ chronicle.entries call) chronicle)
          (calls.foldl StreamCall.perform streams) := by
    intro calls
    induction calls with
    | nil => exact fun _ _ tells => tells
    | cons call rest ih =>
      exact fun chronicle streams tells => ih _ _ (tells.perform call)
  refine goesOn calls [] .empty ⟨fun _ => rfl, rfl, fun _ => ?_, nofun, fun _ _ => rfl, nofun,
    nodup_nil⟩
  exact iff_of_false not_mem_nil fun absurdity => absurdity rfl

/-- Only commits and resets concern what can be read of a stream that is enrolled. -/
theorem quiet_entries (enrolled : chronicle.enrolment? name ≠ none) {call : StreamCall}
    (uncommitted : call ≠ .commit) (continued : call ≠ .reset) :
    Quiet name (chronicle.entries call) := by
  have other : ∀ {entry : StreamEntry} {other : String} {kind : StreamKind} {initial : Option Val},
      chronicle.enrolment? other = none → entry = .enrolled other kind initial →
        entry.begins name = false ∧ entry.isCommit = false := by
    rintro _ other kind initial unenrolled rfl
    refine ⟨?_, rfl⟩
    simp only [StreamEntry.begins, decide_eq_false_iff_not]
    rintro rfl
    exact enrolled unenrolled
  have provided : ∀ names, Quiet name (chronicle.provision names) := by
    intro names entry mem
    unfold provision at mem
    split at mem
    · next unenrolled => exact other unenrolled.2 (mem_singleton.mp mem)
    · cases mem
  have handed : ∀ messages, Quiet name (chronicle.handOver messages) := by
    intro messages entry mem
    rcases mem_append.mp mem with provision | accepted
    · exact provided _ entry provision
    · obtain ⟨message, -, rfl⟩ := mem_map.mp accepted
      exact ⟨rfl, rfl⟩
  intro entry mem
  cases call with
  | register =>
    simp only [entries] at mem
    split at mem
    · next unenrolled => exact other unenrolled (mem_singleton.mp mem)
    · cases mem
  | registerWith =>
    simp only [entries] at mem
    split at mem
    · next unenrolled => exact other unenrolled.1 (mem_singleton.mp mem)
    · cases mem
  | ensure => exact provided _ entry mem
  | push => exact handed _ entry mem
  | send =>
    cases mem_singleton.mp mem
    exact ⟨rfl, rfl⟩
  | drain =>
    rcases mem_cons.mp mem with rfl | later
    · exact ⟨rfl, rfl⟩
    · exact handed _ entry later
  | commit => exact absurd rfl uncommitted
  | subscribe | unsubscribeAll => cases mem
  | reset => exact absurd rfl continued

end Chronicle

namespace Streams

/-- A delivery counts the data that are accepted.  Whether one is accepted does not depend on those
delivered before it. -/
theorem foldl_deliver_snd (messages : List (String × Datum)) (streams : Streams) (count : Nat) :
    (messages.foldl deliver (streams, count)).2 =
      count + (messages.filter fun message =>
        (streams.refusal? message.1 message.2.toVal).isNone).length := by
  induction messages generalizing streams count with
  | nil => rfl
  | cons message rest ih =>
    have later : ∀ other : String × Datum,
        (streams.hand (message.1, message.2.toVal)).refusal? other.1 other.2.toVal =
          streams.refusal? other.1 other.2.toVal :=
      fun other => refusal?_congr (kind?_hand streams _ other.1) other.2.toVal
    rw [foldl_cons]
    cases judged : streams.refusal? message.1 message.2.toVal with
    | none =>
      have accepted : deliver (streams, count) message =
          (streams.hand (message.1, message.2.toVal), count + 1) := by
        simp only [deliver, hand, push_of_accepted judged]
      rw [accepted, ih]
      simp only [later, filter_cons, judged, Option.isNone_none, if_true, length_cons]
      omega
    | some fault =>
      have dropped : deliver (streams, count) message =
          (streams.hand (message.1, message.2.toVal), count) := by
        simp only [deliver, hand, push_of_refused judged]
      rw [dropped, ih]
      simp only [later, filter_cons, judged, Option.isNone_some, Bool.false_eq_true, if_false]

/--
The registry is a chronicle with a commit mark.  After every sequence of operations on an empty registry
it has the streams that the chronicle enrols, each with the kind and the initial value with which it was
enrolled; what can be read of a stream is its initial value and what it has accepted, since it was
enrolled or the registry was reset, up to the last commit; what it has accepted behind the commit is
pending; the inbox holds what was sent since the last delivery; and a stream has changed if it had
pending values at the last commit and no reset came since.

What the chronicle says is accepted is what the registry says it accepts, one value at a time and in
deliveries, and whatever is read has a kind that its stream accepts.  No operation changes the kind or
the initial value of a stream, and none but a commit or a reset changes what can be read of it.
-/
theorem registry_agrees_with_chronicle (calls : List StreamCall) :
    let streams := Streams.after calls
    let chronicle := Chronicle.after calls
    (∀ name, chronicle.enrolment? name =
        (streams.get? name).map fun stream => (stream.kind, stream.initial)) ∧
      (∀ name stream, streams.get? name = some stream →
        stream.history = stream.initial.toList ++ chronicle.committed name ∧
          stream.pending = chronicle.pending name ∧
          ∀ value ∈ stream.history, stream.kind.accepts value.kind = true) ∧
      streams.inbox = chronicle.waiting ∧
      (∀ name, streams.hasChanged name = true ↔ chronicle.advancing name ≠ []) ∧
      (∀ name value, (∃ subscribers, (streams.push name value).2 = .ok subscribers) ↔
        chronicle.takes name value = true) ∧
      streams.drain.2 = (chronicle.waiting.filter fun message =>
        chronicle.takes message.1 message.2.toVal).length ∧
      ∀ (call : StreamCall) name stream, streams.get? name = some stream →
        ∃ after, (call.perform streams).get? name = some after ∧
          after.kind = stream.kind ∧ after.initial = stream.initial ∧
          (call ≠ .commit → call ≠ .reset →
            after.history = stream.history ∧
              (call.perform streams).latest? name = streams.latest? name) := by
  intro streams chronicle
  have tells : chronicle.Tells streams := Chronicle.tells_after calls
  refine ⟨tells.enrolment?_eq, ?_, tells.inbox, ?_, ?_, ?_, ?_⟩
  · intro name stream found
    obtain ⟨-, history, pending⟩ := tells.of_get? found
    refine ⟨history, pending, fun value member => tells.fitting name stream found value ?_⟩
    exact List.mem_append_left _ (List.mem_append_left _ member)
  · intro name
    rw [hasChanged, decide_eq_true_eq, tells.changed]
  · intro name value
    rw [← tells.isNone_refusal?, refusal?]
    cases (streams.push name value).2 <;> simp
  · have judged : ∀ name value, ({ streams with inbox := [] } : Streams).refusal? name value =
        streams.refusal? name value := by
      intro name value
      have kinds : ({ streams with inbox := [] } : Streams).kind? name = streams.kind? name := rfl
      exact refusal?_congr kinds value
    rw [drain, foldl_deliver_snd, Nat.zero_add, tells.inbox]
    simp only [judged, tells.isNone_refusal?]
  · intro call name stream found
    have told := tells.perform call
    obtain ⟨enrolled, history, -⟩ := tells.of_get? found
    have still : (chronicle ++ chronicle.entries call).enrolment? name =
        some (stream.kind, stream.initial) := by
      rw [Chronicle.enrolment?_append, enrolled, Option.some_or]
    rw [told.enrolment?_eq, Option.map_eq_some_iff] at still
    obtain ⟨after, foundAfter, same⟩ := still
    obtain ⟨kind, initial⟩ := Prod.mk.inj same
    refine ⟨after, foundAfter, kind, initial, fun uncommitted continued => ?_⟩
    have read : after.history = stream.history := by
      rw [(told.of_get? foundAfter).2.1, initial, history, Chronicle.committed_of_quiet]
      exact Chronicle.quiet_entries (by rw [enrolled]; exact nofun) uncommitted continued
    refine ⟨read, ?_⟩
    simp only [latest?, foundAfter, found, Option.bind_some, Stream.latest?, read]

end Streams

end Reactor

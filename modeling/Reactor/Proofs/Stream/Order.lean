import Reactor.Proofs.Stream.Waiting

/-!
# The order of streams

A registry lists its streams in the order of their names.  No operation disturbs that order, and an
ordered registry is determined by what is found under each name: two of them that answer every lookup
alike list the same streams.
-/

namespace Reactor.Streams

open List

/-- The streams are listed in the order of their names, each name once. -/
def Ordered (streams : Streams) : Prop :=
  streams.names.Pairwise (· < ·)

variable {streams : Streams}

theorem Ordered.nodup (ordered : streams.Ordered) : streams.names.Nodup :=
  List.Pairwise.imp (fun less => by rintro rfl; exact String.lt_irrefl _ less) ordered

theorem pairwise_insertByName {stream : Stream} {listed : List Stream}
    (ordered : (listed.map (·.name)).Pairwise (· < ·))
    (new : ∀ other ∈ listed, other.name ≠ stream.name) :
    ((insertByName stream listed).map (·.name)).Pairwise (· < ·) := by
  induction listed with
  | nil => simp [insertByName]
  | cons first rest ih =>
    obtain ⟨least, orderedRest⟩ := pairwise_cons.mp ordered
    simp only [insertByName]
    split
    · next before =>
      refine pairwise_cons.mpr ⟨fun name mem => ?_, ordered⟩
      rcases mem_cons.mp mem with rfl | later
      · exact before
      · exact String.lt_trans before (least name later)
    · next behind =>
      have firstLess : first.name < stream.name :=
        Std.lt_of_le_of_ne (String.not_lt.mp behind) (new first mem_cons_self)
      refine pairwise_cons.mpr ⟨fun name mem => ?_,
        ih orderedRest fun other later => new other (mem_cons_of_mem _ later)⟩
      obtain ⟨other, listedOther, rfl⟩ := mem_map.mp mem
      rcases mem_cons.mp ((perm_insertByName stream rest).mem_iff.mp listedOther) with rfl | later
      · exact firstLess
      · exact least _ (mem_map_of_mem later)

section

variable (ordered : streams.Ordered)
include ordered

theorem Ordered.add {stream : Stream} (new : streams.get? stream.name = none) :
    (streams.add stream).Ordered := by
  refine pairwise_insertByName ordered fun other listed same => ?_
  have absent := find?_eq_none.mp new other listed
  simp [same] at absent

theorem Ordered.of_names {after : Streams} (same : after.names = streams.names) :
    after.Ordered := by
  rwa [Ordered, same]

theorem Ordered.changeAll {update : Stream → Stream}
    (named : ∀ stream, (update stream).name = stream.name) :
    (streams.changeAll update).Ordered :=
  ordered.of_names (names_changeAll streams named)

theorem Ordered.subscribeAll (names : List String) (reaction : NodeId) :
    (streams.subscribeAll names reaction).Ordered := by
  induction names generalizing streams with
  | nil => exact ordered
  | cons name rest ih =>
    refine ih (ordered.changeAll fun stream => ?_)
    dsimp only
    split
    · rfl
    · rfl

theorem Ordered.ensured (name : String) : (streams.ensured name).Ordered := by
  cases found : streams.get? name with
  | some stream => rwa [ensured_of_get? found]
  | none =>
    cases provided : provided? name with
    | none => rwa [ensured_of_not_provided provided]
    | some stream =>
      rw [ensured_of_provided? found provided]
      exact ordered.add (by rw [(name_of_provided? provided).1]; exact found)

theorem Ordered.ensure? {after : Streams} {name : String}
    (ensured : streams.ensure? name = some after) :
    after.Ordered := by
  have same : streams.ensured name = after := by
    rw [Streams.ensured, ensured, Option.getD_some]
  exact same ▸ ordered.ensured name

theorem Ordered.register (name : String) : (streams.register name).Ordered := by
  unfold Streams.register
  split
  · exact ordered
  · next absent => exact ordered.add absent

theorem Ordered.registerWith {after : Streams} {name : String} {kind : StreamKind}
    {initial : Option Val} (registered : streams.registerWith name kind initial = .ok after) :
    after.Ordered := by
  simp only [Streams.registerWith] at registered
  split at registered
  · cases registered
  · split at registered
    · split at registered
      · cases registered
        exact ordered
      · cases registered
    · next absent =>
      cases registered
      exact ordered.add absent

end

section

variable (ordered : streams.Ordered)
include ordered

theorem Ordered.hand (message : String × Val) : (streams.hand message).Ordered := by
  rw [hand_eq]
  exact (ordered.ensured message.1).of_names (names_queueAll _ _)

theorem Ordered.handAll (messages : List (String × Val)) : (streams.handAll messages).Ordered := by
  induction messages generalizing streams with
  | nil => exact ordered
  | cons message rest ih => exact ih (ordered.hand message)

theorem Ordered.advance : streams.drain.1.commit.Ordered := by
  have emptied : ({ streams with inbox := [] } : Streams).Ordered := ordered
  rw [drain_eq]
  exact (emptied.handAll _).changeAll fun _ => rfl

/-! ### What an ordered registry is determined by -/

theorem Ordered.nodup_streams : streams.streams.Nodup :=
  (pairwise_map.mp ordered).imp fun less => by rintro rfl; exact String.lt_irrefl _ less

theorem mem_iff_get? (stream : Stream) :
    stream ∈ streams.streams ↔ streams.get? stream.name = some stream :=
  ⟨get?_of_mem ordered.nodup, mem_of_get?⟩

end

/-- Lists in order are the same when lookups are. -/
theorem streams_eq_of_get?
    {other : Streams} (ordered : streams.Ordered) (otherOrdered : other.Ordered)
    (alike : ∀ name, other.get? name = streams.get? name) :
    other.streams = streams.streams := by
  have members : ∀ stream, stream ∈ other.streams ↔ stream ∈ streams.streams := by
    intro stream
    rw [mem_iff_get? otherOrdered, mem_iff_get? ordered, alike]
  refine List.Perm.eq_of_pairwise (fun first second _ _ less greater => ?_)
    (pairwise_map.mp otherOrdered) (pairwise_map.mp ordered)
    ((perm_ext_iff_of_nodup otherOrdered.nodup_streams ordered.nodup_streams).mpr members)
  exact absurd greater (String.lt_asymm less)

end Reactor.Streams

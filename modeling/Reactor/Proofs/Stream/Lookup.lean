import Reactor.Stream.Registry

/-!
# Looking up streams after changes

The registry is a list of streams in the order of their names.  This module says once what each
operation does to the stream that is found under a name.  Everything else about registries is stated
through `Streams.get?`, so the order of the list is used nowhere else.
-/

namespace Reactor.Streams

variable {streams after : Streams} {name : String} {stream : Stream}

theorem mem_of_get? (found : streams.get? name = some stream) :
    stream ∈ streams.streams :=
  List.mem_of_find?_eq_some found

theorem find?_insertByName (stream : Stream) (streams : List Stream)
    (new : streams.find? (·.name = stream.name) = none) (name : String) :
    (insertByName stream streams).find? (·.name = name) =
      if name = stream.name then some stream
      else streams.find? (·.name = name) := by
  induction streams with
  | nil =>
    by_cases same : name = stream.name
    · simp [insertByName, same]
    · simp [insertByName, same, Ne.symm same]
  | cons other rest ih =>
    have differs : other.name ≠ stream.name := by
      intro equal
      simp [equal] at new
    have newToRest : rest.find? (·.name = stream.name) = none := by
      simpa [differs] using new
    by_cases same : name = stream.name
    · subst same
      simp only [insertByName]
      split
      · simp
      · simp [differs, ih newToRest]
    · simp only [insertByName]
      split
      · simp [Ne.symm same]
      · by_cases here : other.name = name
        · simp [here]
        · simp [here, same, ih newToRest]

theorem get?_add (new : streams.get? stream.name = none) (name : String) :
    (streams.add stream).get? name =
      if name = stream.name then some stream else streams.get? name :=
  find?_insertByName stream streams.streams new name

theorem get?_change (streams : Streams) (changed name : String) {update : Stream → Stream}
    (named : ∀ stream, (update stream).name = stream.name) :
    (streams.change changed update).get? name =
      if name = changed then (streams.get? name).map update
      else streams.get? name := by
  have sameName : ∀ stream : Stream,
      (if stream.name = changed then update stream else stream).name = stream.name := by
    intro stream
    split
    · exact named stream
    · rfl
  simp only [get?, change, List.find?_map, Function.comp_def, sameName]
  cases found : streams.streams.find? (·.name = name) with
  | none => simp
  | some stream =>
    have here : stream.name = name := by
      simpa using List.find?_some found
    by_cases same : name = changed
    · simp [here, same]
    · simp [here, same]

section

variable (streams : Streams) (name : String)

/-- An update of all streams that keeps their names is seen under each name. -/
theorem get?_changeAll {update : Stream → Stream}
    (named : ∀ stream, (update stream).name = stream.name) :
    (streams.changeAll update).get? name = (streams.get? name).map update := by
  simp only [get?, changeAll, List.find?_map, Function.comp_def, named]

theorem get?_commit : streams.commit.get? name = (streams.get? name).map Stream.commit :=
  streams.get?_changeAll name fun _ => rfl

theorem get?_reset : streams.reset.get? name = (streams.get? name).map Stream.reset :=
  streams.get?_changeAll name fun _ => rfl

theorem get?_unsubscribeAll :
    streams.unsubscribeAll.get? name = (streams.get? name).map Stream.unsubscribeAll :=
  streams.get?_changeAll name fun _ => rfl

end

theorem get?_subscribe (streams : Streams) (stream name : String) (reaction : NodeId) :
    (streams.subscribe stream reaction).get? name =
      if name = stream then (streams.get? name).map (·.subscribe reaction)
      else streams.get? name :=
  streams.get?_change stream name fun _ => rfl

/-! ### Streams that come into being -/

/--
One registry grows into another when streams that are there stay as they are and new ones have no
subscribers yet.
-/
def Grows (streams after : Streams) : Prop :=
  ∀ name,
    after.get? name = streams.get? name ∨
      streams.get? name = none ∧ ∃ stream, after.get? name = some stream ∧ stream.subscribers = []

theorem Grows.refl (streams : Streams) : Grows streams streams :=
  fun _ => Or.inl rfl

theorem grows_add (new : streams.get? stream.name = none) (alone : stream.subscribers = []) :
    Grows streams (streams.add stream) := by
  intro name
  rw [get?_add new]
  split
  · next same =>
    subst same
    exact Or.inr ⟨new, stream, rfl, alone⟩
  · exact Or.inl rfl

theorem name_of_provided? (provided : provided? name = some stream) :
    stream.name = name ∧ stream.subscribers = [] := by
  simp only [provided?] at provided
  split at provided
  · cases provided
    exact ⟨rfl, rfl⟩
  · cases provided

theorem grows_ensure? (ensured : streams.ensure? name = some after) :
    Grows streams after := by
  simp only [ensure?] at ensured
  split at ensured
  · cases ensured
    exact Grows.refl _
  · next absent =>
    obtain ⟨stream, provided, rfl⟩ := Option.map_eq_some_iff.mp ensured
    obtain ⟨named, alone⟩ := name_of_provided? provided
    exact grows_add (by rw [named]; exact absent) alone

theorem isSome_get?_of_ensure? (ensured : streams.ensure? name = some after) :
    (after.get? name).isSome := by
  simp only [ensure?] at ensured
  split at ensured
  · next stream found =>
    cases ensured
    simp [found]
  · next absent =>
    obtain ⟨stream, provided, rfl⟩ := Option.map_eq_some_iff.mp ensured
    obtain ⟨named, -⟩ := name_of_provided? provided
    rw [get?_add (by rw [named]; exact absent)]
    simp [named]

theorem get?_eq_none_of_ensure? (missing : streams.ensure? name = none) :
    streams.get? name = none := by
  simp only [ensure?] at missing
  split at missing
  · cases missing
  · assumption

theorem provided?_eq_none_of_ensure? (missing : streams.ensure? name = none) :
    provided? name = none := by
  simp only [ensure?] at missing
  split at missing
  · cases missing
  · simpa using missing

theorem ensure?_eq_none_of_ensure? {other : String}
    (ensured : streams.ensure? other = some after) (missing : streams.ensure? name = none) :
    after.ensure? name = none := by
  have absent := get?_eq_none_of_ensure? missing
  have unprovided := provided?_eq_none_of_ensure? missing
  have still : after.get? name = none := by
    simp only [ensure?] at ensured
    split at ensured
    · cases ensured
      exact absent
    · next new =>
      obtain ⟨stream, provided, rfl⟩ := Option.map_eq_some_iff.mp ensured
      obtain ⟨named, -⟩ := name_of_provided? provided
      have differs : name ≠ stream.name := by
        intro same
        rw [same, named, provided] at unprovided
        cases unprovided
      rw [get?_add (by rw [named]; exact new), if_neg differs]
      exact absent
  simp [ensure?, still, unprovided]

theorem grows_register (streams : Streams) (name : String) :
    Grows streams (streams.register name) := by
  simp only [register]
  split
  · exact Grows.refl _
  · next absent => exact grows_add absent rfl

theorem grows_registerWith {kind : StreamKind}
    {initial : Option Val} (registered : streams.registerWith name kind initial = .ok after) :
    Grows streams after := by
  simp only [registerWith] at registered
  split at registered
  · cases registered
  · split at registered
    · split at registered
      · cases registered
        exact Grows.refl _
      · cases registered
    · next absent =>
      cases registered
      exact grows_add absent rfl

end Reactor.Streams

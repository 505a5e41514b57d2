import Reactor.Proofs.Value.Equality
import Reactor.Proofs.Value.Law

/-!
# Well-formed values

A value is well formed if, everywhere inside it, sets have no equal members and maps no equal keys,
an instance has a value for each field of its structure, functions have their bodies among the nodes
of the program, and exceptions come from them.  `Val.Traced` adds that an exception which names no
node is a foreign one: evaluation never makes such an exception.

Both are laws of evaluation.  Extending a set compares the new member with the old ones from one side
only, so the law rests on the symmetry of equality.
-/

namespace Reactor

open List

namespace Val

/-- What makes a value well formed, apart from its parts. -/
def WellFormedHere (size : Nat) : Val → Prop
  | set members => members.Pairwise Apart
  | map entries => (entries.map (·.1)).Pairwise Apart
  | record definition fields =>
    fields.length = definition.fields.length ∧
      ∀ function ∈ definition.functions, function.body < size
  | constructor definition => ∀ function ∈ definition.functions, function.body < size
  | closure function | method _ function => function.body < size
  | exception _ (some node) => node < size
  | _ => True

/-- A value that is well formed everywhere inside, in a program with `size` nodes. -/
def WellFormed (size : Nat) (value : Val) : Prop :=
  value.Everywhere (WellFormedHere size)

/-- An exception that names no node. -/
def Rootless : Val → Prop
  | exception _ none => True
  | _ => False

/-- A well-formed value in which exceptions that name no node are foreign ones. -/
def Traced (size : Nat) (Foreign : Val → Prop) (value : Val) : Prop :=
  value.Everywhere fun part => part.WellFormedHere size ∧ (part.Rootless → Foreign part)

variable {size : Nat} {Foreign : Val → Prop}

variable {value : Val}

theorem WellFormedHere.tidyHere (here : value.WellFormedHere size) :
    value.TidyHere := by
  cases value <;> first | exact here | trivial

theorem Traced.wellFormed (traced : value.Traced size Foreign) :
    value.WellFormed size :=
  fun part inside => (traced part inside).1

theorem Traced.tidy (traced : value.Traced size Foreign) : value.Tidy :=
  fun part inside => (traced part inside).1.tidyHere

theorem Traced.foreign {part : Val} (traced : value.Traced size Foreign)
    (inside : Part part value) (rootless : part.Rootless) : Foreign part :=
  (traced part inside).2 rootless

theorem WellFormed.traced (wellFormed : value.WellFormed size)
    (foreign : ∀ part, Part part value → part.Rootless → Foreign part) :
    value.Traced size Foreign :=
  fun part inside => ⟨wellFormed part inside, foreign part inside⟩

/-! ### Traced values by parts -/

theorem traced_of_no_parts (whole : value.parts = []) (here : value.WellFormedHere size)
    (rooted : ¬ value.Rootless) : value.Traced size Foreign :=
  everywhere_iff.mpr ⟨⟨here, fun rootless => absurd rootless rooted⟩, by simp [whole]⟩

theorem traced_set_iff {members : List Val} :
    (set members).Traced size Foreign ↔
      members.Pairwise Apart ∧ ∀ mem ∈ members, mem.Traced size Foreign := by
  simp only [Traced]
  rw [everywhere_iff]
  simp [WellFormedHere, Rootless, parts]

theorem traced_map_iff {entries : List (Val × Val)} :
    (map entries).Traced size Foreign ↔ (entries.map (·.1)).Pairwise Apart ∧
        ∀ entry ∈ entries, entry.1.Traced size Foreign ∧ entry.2.Traced size Foreign := by
  simp only [Traced]
  rw [everywhere_iff]
  simp only [WellFormedHere, Rootless, false_implies, and_true, mem_parts_map]
  refine and_congr_right fun _ => ⟨fun all entry mem => ⟨?_, ?_⟩, ?_⟩
  · exact all _ ⟨entry, mem, Or.inl rfl⟩
  · exact all _ ⟨entry, mem, Or.inr rfl⟩
  · rintro all part ⟨entry, mem, rfl | rfl⟩
    · exact (all entry mem).1
    · exact (all entry mem).2

theorem traced_record_iff {definition : Definition} {fields : List Val} :
    (record definition fields).Traced size Foreign ↔ (fields.length = definition.fields.length ∧
        ∀ function ∈ definition.functions, function.body < size) ∧
        ∀ field ∈ fields, field.Traced size Foreign := by
  simp only [Traced]
  rw [everywhere_iff]
  simp [WellFormedHere, Rootless, parts]

theorem traced_constructor_iff {definition : Definition} :
    (constructor definition).Traced size Foreign ↔
      ∀ function ∈ definition.functions, function.body < size := by
  simp only [Traced]
  rw [everywhere_iff]
  simp [WellFormedHere, Rootless, parts]

/-! ### Growing sets and maps -/

theorem pairwise_insertMember {members : List Val} {item : Val} (distinct : members.Pairwise Apart)
    (tidy : ∀ mem ∈ members, mem.Tidy) (tidyItem : item.Tidy) :
    (insertMember members item).Pairwise Apart := by
  unfold insertMember
  split
  · exact distinct
  · next new =>
    simp only [memberOf, any_eq_true, not_exists, not_and, Bool.not_eq_true] at new
    refine pairwise_append.mpr ⟨distinct, pairwise_singleton _ _, ?_⟩
    intro mem isMember _ isItem
    cases mem_singleton.mp isItem
    exact ⟨new mem isMember, same_comm (tidy mem isMember) tidyItem ▸ new mem isMember⟩

theorem keys_insertEntry (key value : Val) (entries : List (Val × Val)) :
    (insertEntry key value entries).map (·.1) = entries.map (·.1) ∨
      (insertEntry key value entries).map (·.1) = entries.map (·.1) ++ [key] ∧
        ∀ entry ∈ entries, same entry.1 key = false := by
  induction entries with
  | nil => exact Or.inr ⟨rfl, nofun⟩
  | cons entry rest ih =>
    simp only [insertEntry]
    split
    · exact Or.inl rfl
    · next new =>
      rcases ih with kept | ⟨extended, others⟩
      · exact Or.inl (congrArg (entry.1 :: ·) kept)
      · exact Or.inr ⟨congrArg (entry.1 :: ·) extended,
          forall_mem_cons.mpr ⟨Bool.eq_false_iff.mpr new, others⟩⟩

theorem pairwise_insertEntry {entries : List (Val × Val)} {key : Val}
    (distinct : (entries.map (·.1)).Pairwise Apart)
    (tidy : ∀ entry ∈ entries, entry.1.Tidy) (tidyKey : key.Tidy) :
    ((insertEntry key value entries).map (·.1)).Pairwise Apart := by
  rcases keys_insertEntry key value entries with kept | ⟨extended, new⟩
  · rwa [kept]
  · rw [extended]
    refine pairwise_append.mpr ⟨distinct, pairwise_singleton _ _, ?_⟩
    intro old isOld _ isKey
    cases mem_singleton.mp isKey
    obtain ⟨entry, mem, rfl⟩ := mem_map.mp isOld
    exact ⟨new entry mem, same_comm (tidy entry mem) tidyKey ▸ new entry mem⟩

theorem traced_law (size : Nat) (Foreign : Val → Prop) : Law size (Traced size Foreign) where
  bool _ := traced_of_no_parts rfl trivial id
  num _ := traced_of_no_parts rfl trivial id
  text _ := traced_of_no_parts rfl trivial id
  conversion _ := traced_of_no_parts rfl trivial id
  ordinary _ _ _ inside := traced_of_no_parts rfl inside id
  cycle _ _ inside := traced_of_no_parts rfl inside id
  list_iff items := by
    simp only [Traced]
    rw [everywhere_iff]
    simp [WellFormedHere, Rootless, parts]
  member _ traced := (traced_set_iff.mp traced).2
  noMembers := traced_set_iff.mpr ⟨.nil, nofun⟩
  fewerMembers sublist traced := by
    rw [traced_set_iff] at traced ⊢
    exact ⟨traced.1.sublist sublist, fun mem kept => traced.2 mem (sublist.subset kept)⟩
  moreMembers traced tracedItem := by
    rw [traced_set_iff] at traced ⊢
    refine ⟨pairwise_insertMember traced.1 (fun mem old => (traced.2 mem old).tidy)
      tracedItem.tidy, fun mem present => ?_⟩
    rcases mem_of_mem_insertMember present with old | rfl
    · exact traced.2 mem old
    · exact tracedItem
  entry _ traced := (traced_map_iff.mp traced).2
  noEntries := traced_map_iff.mpr ⟨.nil, nofun⟩
  fewerEntries sublist traced := by
    rw [traced_map_iff] at traced ⊢
    exact ⟨traced.1.sublist (sublist.map _), fun entry kept => traced.2 entry (sublist.subset kept)⟩
  moreEntries traced tracedKey tracedValue := by
    rw [traced_map_iff] at traced ⊢
    refine ⟨pairwise_insertEntry traced.1 (fun entry old => (traced.2 entry old).1.tidy)
      tracedKey.tidy, fun entry present => ?_⟩
    rcases mem_of_mem_insertEntry present with rfl | old | ⟨replaced, old, rfl⟩
    · exact ⟨tracedKey, tracedValue⟩
    · exact traced.2 entry old
    · exact ⟨(traced.2 replaced old).1, tracedValue⟩
  newValues {entries values} traced tracedValues := by
    rw [traced_map_iff] at traced ⊢
    constructor
    · have fewer : (((entries.map (·.1)).zip values).map (·.1)).Sublist (entries.map (·.1)) := by
        rw [zip_eq_zip_take_min, map_fst_zip (by simp)]
        exact take_sublist _ _
      exact traced.1.sublist fewer
    · intro entry mem
      obtain ⟨isKey, isValue⟩ := of_mem_zip (show (entry.1, entry.2) ∈ _ from mem)
      obtain ⟨old, present, equal⟩ := mem_map.mp isKey
      exact ⟨equal ▸ (traced.2 old present).1, tracedValues entry.2 isValue⟩
  keys traced := by
    rw [traced_map_iff] at traced
    refine traced_set_iff.mpr ⟨traced.1, fun key mem => ?_⟩
    obtain ⟨entry, present, rfl⟩ := mem_map.mp mem
    exact (traced.2 entry present).1
  closure_iff function := by
    simp only [Traced]
    rw [everywhere_iff]
    simp [WellFormedHere, Rootless, parts]
  constructor_iff _ := traced_constructor_iff
  parts traced := by
    rw [traced_record_iff] at traced
    exact ⟨traced_constructor_iff.mpr traced.1.2, traced.2⟩
  construct traced complete tracedArgs :=
    traced_record_iff.mpr ⟨⟨complete.symm, traced_constructor_iff.mp traced⟩, tracedArgs⟩
  method_iff receiver function := by
    simp only [Traced]
    rw [everywhere_iff]
    simp [WellFormedHere, Rootless, parts, and_comm]
  native_iff receiver name := by
    simp only [Traced]
    rw [everywhere_iff]
    simp [WellFormedHere, Rootless, parts]

end Val

end Reactor

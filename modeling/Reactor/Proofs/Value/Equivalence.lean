import Reactor.Proofs.Value.Equality

/-!
# Equality of values is an equivalence

Every value equals itself, and on tidy values equality can be turned around and passed on.  What counts
for sets and maps is what they contain: where each of two sets contains the other, they have as many
members, since no two members of one set are matched by the same member of the other.
-/

namespace Reactor

open List

theorem length_le_of_matched {α : Type} {Matches : α → α → Prop} {left right : List α}
    (matched : ∀ item ∈ left, ∃ other ∈ right, Matches item other)
    (once : left.Pairwise fun item next => ∀ other, Matches item other → ¬ Matches next other) :
    left.length ≤ right.length := by
  by_contra more
  have less : right.length < left.length := Nat.lt_of_not_le more
  rw [← take_append_drop right.length left, pairwise_append] at once
  -- The first items take up all that is on the right, and nothing is left for the next one.
  have taken := exists_of_matched (length_take_of_le less.le)
    (fun item mem => matched item (mem_of_mem_take mem)) once.1
  obtain ⟨other, present, isMatch⟩ := matched left[right.length] (getElem_mem less)
  obtain ⟨item, mem, first⟩ := taken other present
  have isNext : left[right.length] ∈ left.drop right.length := by
    rw [drop_eq_getElem_cons less]
    exact mem_cons_self
  exact once.2.2 item mem _ isNext other first isMatch

theorem Number.same_refl (number : Number) : number.same number = true :=
  same_iff.mpr ⟨Or.inl rfl, rfl⟩

namespace Val

theorem same_refl (value : Val) : same value value = true := by
  induction value using induct_parts with
  | whole value ih =>
    rw [same_iff_equal]
    cases value with
    | num number => exact .num number.same_refl
    | list members => exact .list (forall₂_same.mpr ih)
    | set members =>
      exact .set (same_set_iff.mpr ⟨rfl, fun mem isMember => ⟨mem, isMember, ih mem isMember⟩⟩)
    | map entries =>
      refine .map (same_map_iff.mpr ⟨rfl, fun entry isEntry => ⟨entry, isEntry, ?_, ?_⟩⟩)
      · exact ih _ (mem_parts_map.mpr ⟨entry, isEntry, Or.inl rfl⟩)
      · exact ih _ (mem_parts_map.mpr ⟨entry, isEntry, Or.inr rfl⟩)
    | record definition fields => exact .record rfl (forall₂_same.mpr ih)
    | closure function => exact .closure rfl
    | method receiver function => exact .method rfl (ih receiver mem_cons_self)
    | native receiver name => exact .native name (ih receiver mem_cons_self)
    | constructor definition => exact .constructor rfl
    | bool | text | conversion | exception => constructor

theorem same_symm {left right : Val} (tidyLeft : left.Tidy) (tidyRight : right.Tidy)
    (equal : same left right = true) : same right left = true :=
  same_comm tidyLeft tidyRight ▸ equal

theorem kind_eq_of_same {left right : Val} (equal : same left right = true) :
    left.kind = right.kind := by
  cases same_iff_equal.mp equal <;> rfl

theorem tidy_of_no_parts {value : Val} (whole : value.parts = []) (here : value.TidyHere) :
    value.Tidy :=
  everywhere_iff.mpr ⟨here, by simp [whole]⟩

theorem tidy_set_iff {members : List Val} :
    (set members).Tidy ↔ members.Pairwise Apart ∧ ∀ mem ∈ members, mem.Tidy :=
  everywhere_iff

theorem tidy_map_iff {entries : List (Val × Val)} :
    (map entries).Tidy ↔
      (entries.map (·.1)).Pairwise Apart ∧ ∀ entry ∈ entries, entry.1.Tidy ∧ entry.2.Tidy := by
  constructor
  · exact fun tidy => ⟨(everywhere_iff.mp tidy).1, tidy.keys_and_values⟩
  · rintro ⟨distinct, tidy⟩
    refine everywhere_iff.mpr ⟨distinct, fun part inside => ?_⟩
    obtain ⟨entry, mem, rfl | rfl⟩ := mem_parts_map.mp inside
    · exact (tidy entry mem).1
    · exact (tidy entry mem).2

theorem length_le_of_contained {members others : List Val} (distinct : members.Pairwise Apart)
    (tidy : ∀ mem ∈ members, mem.Tidy) (tidyOthers : ∀ other ∈ others, other.Tidy)
    (contained : ∀ mem ∈ members, ∃ other ∈ others, same mem other = true) :
    members.length ≤ others.length := by
  have once := equivalenceOn_tidy.matched_once distinct tidy
  refine @length_le_of_matched Val (fun mem other => other ∈ others ∧ same other mem = true)
    members others ?_ ?_
  · intro mem isMember
    obtain ⟨other, present, equal⟩ := contained mem isMember
    exact ⟨other, present, present, same_symm (tidy mem isMember) (tidyOthers other present) equal⟩
  · refine once.imp fun apart other first second => ?_
    rw [apart other (tidyOthers other first.1) first.2] at second
    cases second.2

/-- Sets are the same when each is contained in the other. -/
theorem same_set_iff_contained
    {left right : List Val} (tidyLeft : (set left).Tidy) (tidyRight : (set right).Tidy) :
    same (set left) (set right) = true ↔
      (∀ mem ∈ left, ∃ other ∈ right, same mem other = true) ∧
        ∀ other ∈ right, ∃ mem ∈ left, same other mem = true := by
  constructor
  · have turned : ∀ {left right : List Val}, (set left).Tidy → (set right).Tidy →
        same (set left) (set right) = true → ∀ mem ∈ left, ∃ other ∈ right, same mem other = true := by
      intro left right tidyLeft tidyRight equal mem isMember
      obtain ⟨other, present, found⟩ := (same_set_iff.mp equal).2 mem isMember
      exact ⟨other, present, same_symm (tidyRight.part present) (tidyLeft.part isMember) found⟩
    intro equal
    exact ⟨turned tidyLeft tidyRight equal,
      turned tidyRight tidyLeft (same_symm tidyLeft tidyRight equal)⟩
  · rintro ⟨contained, containing⟩
    refine same_set_iff.mpr ⟨Nat.le_antisymm ?_ ?_, fun mem isMember => ?_⟩
    · exact length_le_of_contained (tidy_set_iff.mp tidyLeft).1 (fun _ => tidyLeft.part)
        (fun _ => tidyRight.part) contained
    · exact length_le_of_contained (tidy_set_iff.mp tidyRight).1 (fun _ => tidyRight.part)
        (fun _ => tidyLeft.part) containing
    · obtain ⟨other, present, found⟩ := contained mem isMember
      exact ⟨other, present, same_symm (tidyLeft.part isMember) (tidyRight.part present) found⟩

section

variable {left right : List (Val × Val)} (tidyLeft : (map left).Tidy) (tidyRight : (map right).Tidy)
include tidyLeft tidyRight

theorem length_le_of_entries (contained : ∀ entry ∈ left, ∃ other ∈ right,
      same entry.1 other.1 = true ∧ same entry.2 other.2 = true) :
    left.length ≤ right.length := by
  have keys := @length_le_of_contained (left.map (·.1)) (right.map (·.1))
    (tidy_map_iff.mp tidyLeft).1
    (forall_mem_map.mpr fun entry mem => (tidyLeft.keys_and_values entry mem).1)
    (forall_mem_map.mpr fun entry mem => (tidyRight.keys_and_values entry mem).1)
    (forall_mem_map.mpr fun entry mem => by
      obtain ⟨other, present, sameKey, -⟩ := contained entry mem
      exact ⟨other.1, mem_map_of_mem present, sameKey⟩)
  simpa only [length_map] using keys

theorem same_map_iff_contained :
    same (map left) (map right) = true ↔
      (∀ entry ∈ left, ∃ other ∈ right,
        same entry.1 other.1 = true ∧ same entry.2 other.2 = true) ∧
        ∀ other ∈ right, ∃ entry ∈ left,
          same other.1 entry.1 = true ∧ same other.2 entry.2 = true := by
  constructor
  · intro equal
    exact ⟨(same_map_iff.mp equal).2, (same_map_iff.mp (same_symm tidyLeft tidyRight equal)).2⟩
  · rintro ⟨contained, containing⟩
    exact same_map_iff.mpr ⟨Nat.le_antisymm (length_le_of_entries tidyLeft tidyRight contained)
      (length_le_of_entries tidyRight tidyLeft containing), contained⟩

end

/--
Equality is an equivalence on values in which, everywhere, no two members of a set and no two keys of a
map are equal, and equal values are of the same kind.  Two sets are equal if and only if each contains
every member of the other, and two maps if and only if each has every key of the other with an equal
value.  So the order of insertion does not count.  Numbers are no exception: two that are not a number
equal one another.
-/
theorem equality_is_equivalence_on_tidy_values :
    (∀ value : Val, same value value = true) ∧ (∀ left right : Val, left.Tidy → right.Tidy →
        same left right = true → same right left = true) ∧
      (∀ left middle right : Val, left.Tidy → middle.Tidy → right.Tidy →
        same left middle = true → same middle right = true → same left right = true) ∧
      (∀ left right : Val, same left right = true → left.kind = right.kind) ∧
      (∀ left right : List Val, (set left).Tidy → (set right).Tidy →
        (same (set left) (set right) = true ↔
          (∀ member ∈ left, ∃ other ∈ right, same member other = true) ∧
            ∀ other ∈ right, ∃ member ∈ left, same other member = true)) ∧
      (∀ left right : List (Val × Val), (map left).Tidy → (map right).Tidy →
        (same (map left) (map right) = true ↔
          (∀ entry ∈ left, ∃ other ∈ right,
            same entry.1 other.1 = true ∧ same entry.2 other.2 = true) ∧
            ∀ other ∈ right, ∃ entry ∈ left,
              same other.1 entry.1 = true ∧ same other.2 entry.2 = true)) ∧
      (∀ left right : List Val, left.Perm right → same (set left) (set right) = true) ∧
      ∀ left right : List (Val × Val), left.Perm right → same (map left) (map right) = true := by
  refine ⟨same_refl, fun _ _ => same_symm, fun _ _ _ => same_trans, fun _ _ => kind_eq_of_same,
    fun _ _ => same_set_iff_contained, fun _ _ => same_map_iff_contained, ?_, ?_⟩
  · intro left right reordered
    exact same_set_iff.mpr ⟨reordered.length_eq, fun member isMember =>
      ⟨member, reordered.mem_iff.mp isMember, same_refl member⟩⟩
  · intro left right reordered
    exact same_map_iff.mpr ⟨reordered.length_eq, fun entry isEntry =>
      ⟨entry, reordered.mem_iff.mp isEntry, same_refl entry.1, same_refl entry.2⟩⟩

/-- Two maps with sets for keys, in different orders, and the two zeros. -/
theorem equality_turned_around_for_maps_of_sets :
    let left := map [(set [text "a", plain 0], bool true), (text "b", list [])]
    let right := map [(text "b", list []), (set [plain (-0), text "a"], bool true)]
    left.Tidy ∧ right.Tidy ∧ same left right = true ∧ same right left = true := by
  intro left right
  have word (letters : String) : (text letters).Tidy := tidy_of_no_parts rfl trivial
  have number (value : Number) : (num value).Tidy := tidy_of_no_parts rfl trivial
  have answer : (bool true).Tidy ∧ (list []).Tidy :=
    ⟨tidy_of_no_parts rfl trivial, tidy_of_no_parts rfl trivial⟩
  have tidyLeft : left.Tidy := by
    simp [left, tidy_map_iff, tidy_set_iff, Apart, same, equals, plain, word, number, answer]
  have tidyRight : right.Tidy := by
    simp [right, tidy_map_iff, tidy_set_iff, Apart, same, equals, plain, word, number, answer]
  have equal : same left right = true := by
    simp [left, right, same, equals, equalItems, membersIn, entriesIn, plain, Number.same_iff]
  exact ⟨tidyLeft, tidyRight, equal,
    equality_is_equivalence_on_tidy_values.2.1 left right tidyLeft tidyRight equal⟩

end Val

end Reactor

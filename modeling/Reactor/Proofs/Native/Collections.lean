import Reactor.Proofs.Value.Equivalence
import Reactor.Proofs.Value.WellFormed

/-!
# Sets and maps up to equality

The natives of sets and maps work on lists.  Up to equality they work on sets and on finite maps: what
is a member, and what value a key has, changes as it should, and is all that counts.  Equal sets are
those with the same members, and equal maps those that give equal values to all keys, so natives that
can be described by members and values give equal results for equal arguments.
-/

namespace Reactor

open List

namespace Val

/-! ### Equality on either side -/

theorem same_congr_left
    {left other third : Val} (tidyLeft : left.Tidy) (tidyOther : other.Tidy) (tidyThird : third.Tidy)
    (equal : same left other = true) : same left third = same other third :=
  Bool.eq_iff_iff.mpr
    ⟨same_trans tidyOther tidyLeft tidyThird (same_symm tidyLeft tidyOther equal),
      same_trans tidyLeft tidyOther tidyThird equal⟩

theorem same_congr_right
    {left right other : Val} (tidyLeft : left.Tidy) (tidyRight : right.Tidy) (tidyOther : other.Tidy)
    (equal : same right other = true) : same left right = same left other := by
  rw [same_comm tidyLeft tidyRight, same_comm tidyLeft tidyOther]
  exact same_congr_left tidyRight tidyOther tidyLeft equal

/-! ### Members -/

section Members

variable {members others : List Val} {item other : Val}

theorem memberOf_iff : memberOf item members = true ↔ ∃ member ∈ members, same member item = true :=
  any_eq_true

section

variable (tidy : ∀ mem ∈ members, mem.Tidy) (tidyItem : item.Tidy) (tidyOther : other.Tidy)
include tidy tidyItem tidyOther

theorem memberOf_congr (equal : same item other = true) :
    memberOf item members = memberOf other members := by
  rw [Bool.eq_iff_iff, memberOf_iff, memberOf_iff]
  refine exists_congr fun mem => and_congr_right fun isMember => ?_
  rw [same_congr_right (tidy mem isMember) tidyItem tidyOther equal]

theorem memberOf_insertMember :
    memberOf other (insertMember members item) = (memberOf other members || same other item) := by
  unfold insertMember
  split
  · next there =>
    cases equal : same other item with
    | false => rw [Bool.or_false]
    | true =>
      rw [memberOf_congr tidy tidyOther tidyItem equal, there]
      rfl
  · rw [same_comm tidyOther tidyItem]
    simp [memberOf]

end

theorem foldl_insertMember_of_apart (distinct : members.Pairwise Apart) :
    members.foldl insertMember [] = members := by
  induction members using List.reverseRecOn with
  | nil => rfl
  | append_singleton init last ih =>
    obtain ⟨distinctInit, -, apart⟩ := pairwise_append.mp distinct
    have new : memberOf last init = false :=
      any_eq_false.mpr fun mem isMember =>
        Bool.eq_false_iff.mp (apart mem isMember last mem_cons_self).1
    rw [foldl_append, ih distinctInit, foldl_cons, foldl_nil, insertMember, new]
    rfl

/-- To a set whose members are apart the others are added one after the other. -/
theorem ofMembers_append (distinct : members.Pairwise Apart) :
    ofMembers (members ++ others) = set (others.foldl insertMember members) := by
  rw [ofMembers, foldl_append, foldl_insertMember_of_apart distinct]

theorem tidy_insertMember (tidy : (set members).Tidy) (tidyItem : item.Tidy) :
    (set (insertMember members item)).Tidy := by
  rw [tidy_set_iff] at tidy ⊢
  refine ⟨pairwise_insertMember tidy.1 tidy.2 tidyItem, fun mem present => ?_⟩
  rcases mem_of_mem_insertMember present with old | rfl
  · exact tidy.2 mem old
  · exact tidyItem

theorem tidy_and_memberOf_foldl
    (tidy : (set members).Tidy) (tidyOthers : ∀ other ∈ others, other.Tidy) :
    (set (others.foldl insertMember members)).Tidy ∧
      ∀ item : Val, item.Tidy →
        memberOf item (others.foldl insertMember members) =
          (memberOf item members || memberOf item others) := by
  induction others generalizing members with
  | nil => exact ⟨tidy, fun item _ => by simp [memberOf]⟩
  | cons other rest ih =>
    obtain ⟨tidyOther, tidyRest⟩ := forall_mem_cons.mp tidyOthers
    obtain ⟨tidyAll, within⟩ := ih (tidy_insertMember tidy tidyOther) tidyRest
    refine ⟨tidyAll, fun item tidyItem => ?_⟩
    rw [foldl_cons, within item tidyItem,
      memberOf_insertMember (tidy_set_iff.mp tidy).2 tidyOther tidyItem, Bool.or_assoc,
      same_comm tidyItem tidyOther]
    rfl

theorem tidy_sublist (tidy : (set members).Tidy) (fewer : others.Sublist members) :
    (set others).Tidy := by
  rw [tidy_set_iff] at tidy ⊢
  exact ⟨tidy.1.sublist fewer, fun mem kept => tidy.2 mem (fewer.subset kept)⟩

theorem memberOf_filter
    (tidy : ∀ mem ∈ members, mem.Tidy) (tidyItem : item.Tidy) (tidyOther : other.Tidy) :
    memberOf other (members.filter fun mem => !mem.same item) =
      (memberOf other members && !same other item) := by
  rw [Bool.eq_iff_iff, Bool.and_eq_true, memberOf_iff, memberOf_iff, ← exists_and_right]
  refine exists_congr fun mem => ?_
  rw [mem_filter, and_assoc, and_assoc]
  refine and_congr_right fun isMember => ?_
  rw [and_comm]
  refine and_congr_right fun equal => ?_
  rw [same_congr_left (tidy mem isMember) tidyOther tidyItem equal]

theorem same_set_iff_memberOf (tidy : (set members).Tidy) (tidyOthers : (set others).Tidy) :
    same (set members) (set others) = true ↔
      ∀ item : Val, item.Tidy → memberOf item members = memberOf item others := by
  rw [same_set_iff_contained tidy tidyOthers]
  constructor
  · rintro ⟨contained, containing⟩ item tidyItem
    have passes : ∀ {first second : List Val}, (set first).Tidy → (set second).Tidy →
        (∀ mem ∈ first, ∃ other ∈ second, same mem other = true) →
        memberOf item first = true → memberOf item second = true := by
      intro first second tidyFirst tidySecond inside within
      obtain ⟨mem, isMember, equal⟩ := memberOf_iff.mp within
      obtain ⟨other, isOther, next⟩ := inside mem isMember
      have tidyMem := tidyFirst.part isMember
      have tidyFound := tidySecond.part isOther
      exact memberOf_iff.mpr ⟨other, isOther,
        same_trans tidyFound tidyMem tidyItem (same_symm tidyMem tidyFound next) equal⟩
    exact Bool.eq_iff_iff.mpr ⟨passes tidy tidyOthers contained, passes tidyOthers tidy containing⟩
  · intro agree
    have finds : ∀ {first second : List Val}, (set first).Tidy → (set second).Tidy →
        (∀ item : Val, item.Tidy → memberOf item first = memberOf item second) →
        ∀ mem ∈ first, ∃ other ∈ second, same mem other = true := by
      intro first second tidyFirst tidySecond alike mem isMember
      have tidyMem := tidyFirst.part isMember
      have within : memberOf mem first = true := memberOf_iff.mpr ⟨mem, isMember, same_refl mem⟩
      obtain ⟨other, isOther, equal⟩ := memberOf_iff.mp (alike mem tidyMem ▸ within)
      exact ⟨other, isOther, same_symm (tidySecond.part isOther) tidyMem equal⟩
    exact ⟨finds tidy tidyOthers agree,
      finds tidyOthers tidy fun item tidyItem => (agree item tidyItem).symm⟩

end Members

/-! ### Values of keys -/

section Entries

variable {entries others : List (Val × Val)} {key value other : Val}

/-- The value of a key. -/
def valueOf? (entries : List (Val × Val)) (key : Val) : Option Val :=
  (entries.find? fun entry => entry.1.same key).map (·.2)

theorem valueOf?_cons (entry : Val × Val) :
    valueOf? (entry :: entries) key =
      if entry.1.same key = true then some entry.2 else valueOf? entries key := by
  simp only [valueOf?, find?_cons]
  cases entry.1.same key <;> rfl

theorem isSome_valueOf? :
    (valueOf? entries key).isSome = entries.any fun entry => entry.1.same key := by
  rw [Bool.eq_iff_iff, valueOf?, Option.isSome_map, find?_isSome, any_eq_true]

theorem valueOf?_eq_some_iff (tidy : (map entries).Tidy) (tidyKey : key.Tidy) :
    valueOf? entries key = some value ↔
      ∃ entry ∈ entries, same entry.1 key = true ∧ entry.2 = value := by
  induction entries with
  | nil => simp [valueOf?]
  | cons entry rest ih =>
    rw [tidy_map_iff, map_cons, pairwise_cons, forall_mem_cons] at tidy
    obtain ⟨⟨apart, distinct⟩, tidyEntry, tidyRest⟩ := tidy
    rw [valueOf?_cons, exists_mem_cons_iff]
    split
    · next here =>
      have alone : ¬ ∃ later ∈ rest, same later.1 key = true ∧ later.2 = value := by
        rintro ⟨later, mem, there, -⟩
        have unequal := (apart later.1 (mem_map_of_mem mem)).1
        rw [same_congr_left tidyEntry.1 tidyKey (tidyRest later mem).1 here,
          same_comm tidyKey (tidyRest later mem).1, there] at unequal
        cases unequal
      simp [here, alone]
    · next elsewhere =>
      rw [ih (tidy_map_iff.mpr ⟨distinct, tidyRest⟩)]
      simp [elsewhere]

theorem tidy_of_valueOf? (tidy : (map entries).Tidy) (found : valueOf? entries key = some value) :
    value.Tidy := by
  obtain ⟨entry, there, rfl⟩ := Option.map_eq_some_iff.mp found
  exact (tidy.keys_and_values entry (mem_of_find?_eq_some there)).2

section

variable (tidy : ∀ entry ∈ entries, entry.1.Tidy) (tidyKey : key.Tidy) (tidyOther : other.Tidy)
include tidy tidyKey tidyOther

theorem valueOf?_congr (equal : same key other = true) :
    valueOf? entries key = valueOf? entries other := by
  unfold valueOf?
  congr 1
  refine find?_congr fun entry mem => ?_
  exact same_congr_right (tidy entry mem) tidyKey tidyOther equal

theorem valueOf?_insertEntry :
    valueOf? (insertEntry key value entries) other =
      if same key other = true then some value else valueOf? entries other := by
  induction entries with
  | nil => exact valueOf?_cons _
  | cons entry rest ih =>
    obtain ⟨tidyEntry, tidyRest⟩ := forall_mem_cons.mp tidy
    simp only [insertEntry]
    split
    · next here =>
      rw [valueOf?_cons, valueOf?_cons, same_congr_left tidyEntry tidyKey tidyOther here]
      split
      · rfl
      · rfl
    · next elsewhere =>
      rw [valueOf?_cons, valueOf?_cons, ih tidyRest]
      split
      · next there =>
        rw [if_neg]
        intro equal
        exact elsewhere (same_trans tidyEntry tidyOther tidyKey there
          (same_symm tidyKey tidyOther equal))
      · rfl

end

theorem tidy_insertEntry (tidy : (map entries).Tidy) (tidyKey : key.Tidy) (tidyValue : value.Tidy) :
    (map (insertEntry key value entries)).Tidy := by
  rw [tidy_map_iff] at tidy ⊢
  refine ⟨pairwise_insertEntry tidy.1 (fun entry old => (tidy.2 entry old).1) tidyKey,
    fun entry present => ?_⟩
  rcases mem_of_mem_insertEntry present with rfl | old | ⟨replaced, old, rfl⟩
  · exact ⟨tidyKey, tidyValue⟩
  · exact tidy.2 entry old
  · exact ⟨(tidy.2 replaced old).1, tidyValue⟩

theorem tidy_keys_insertEntry (tidy : ∀ entry ∈ entries, entry.1.Tidy) (tidyKey : key.Tidy) :
    ∀ entry ∈ insertEntry key value entries, entry.1.Tidy := by
  intro entry present
  rcases mem_of_mem_insertEntry present with rfl | old | ⟨replaced, old, rfl⟩
  · exact tidyKey
  · exact tidy entry old
  · exact tidy replaced old

theorem filter_insertEntry (entries : List (Val × Val)) (key value : Val) :
    ((insertEntry key value entries).filter fun entry => !entry.1.same key) =
      entries.filter fun entry => !entry.1.same key := by
  induction entries with
  | nil => simp [insertEntry, same_refl]
  | cons entry rest ih =>
    simp only [insertEntry]
    split
    · next here => simp [here]
    · next elsewhere => simp [elsewhere, ih]

section

variable (tidy : (map entries).Tidy)
include tidy

theorem tidy_filter (keep : Val × Val → Bool) : (map (entries.filter keep)).Tidy := by
  rw [tidy_map_iff] at tidy ⊢
  exact ⟨tidy.1.sublist (filter_sublist.map _), fun entry kept =>
    tidy.2 entry (mem_of_mem_filter kept)⟩

theorem valueOf?_filter_key (tidyKey : key.Tidy) (tidyOther : other.Tidy) :
    valueOf? (entries.filter fun entry => !entry.1.same key) other =
      if same key other = true then none else valueOf? entries other := by
  refine Option.ext fun value => ?_
  rw [valueOf?_eq_some_iff (tidy_filter tidy _) tidyOther]
  have turned : ∀ entry ∈ entries, same entry.1 other = true →
      same entry.1 key = same key other := by
    intro entry mem there
    have tidyEntry := (tidy.keys_and_values entry mem).1
    rw [same_congr_left tidyEntry tidyOther tidyKey there, same_comm tidyOther tidyKey]
  split
  · next equal =>
    refine iff_of_false ?_ nofun
    rintro ⟨entry, mem, there, -⟩
    obtain ⟨present, kept⟩ := mem_filter.mp mem
    rw [turned entry present there, equal] at kept
    cases kept
  · next unequal =>
    rw [valueOf?_eq_some_iff tidy tidyOther]
    refine exists_congr fun entry => ?_
    rw [mem_filter, and_assoc]
    refine and_congr_right fun mem => and_iff_right_of_imp fun there => ?_
    rw [turned entry mem there.1, Bool.eq_false_iff.mpr unequal]
    rfl

theorem valueOf?_filter_value (tidyOther : other.Tidy) :
    valueOf? (entries.filter fun entry => !entry.2.same value) other =
      (valueOf? entries other).filter fun found => !found.same value := by
  refine Option.ext fun found => ?_
  rw [valueOf?_eq_some_iff (tidy_filter tidy _) tidyOther, Option.filter_eq_some_iff,
    valueOf?_eq_some_iff tidy tidyOther, ← exists_and_right]
  refine exists_congr fun entry => ?_
  rw [mem_filter, and_assoc, and_assoc]
  refine and_congr_right fun _ => ?_
  constructor
  · rintro ⟨kept, there, rfl⟩
    exact ⟨⟨there, rfl⟩, kept⟩
  · rintro ⟨⟨there, rfl⟩, kept⟩
    exact ⟨kept, there, rfl⟩

theorem same_map_iff_valueOf? (tidyOthers : (map others).Tidy) :
    same (map entries) (map others) = true ↔
      ∀ key : Val, key.Tidy → Option.Rel (fun value found => same value found = true)
        (valueOf? entries key) (valueOf? others key) := by
  rw [same_map_iff_contained tidy tidyOthers]
  constructor
  · rintro ⟨contained, containing⟩ key tidyKey
    have passes : ∀ {first second : List (Val × Val)}, (map first).Tidy → (map second).Tidy →
        (∀ entry ∈ first, ∃ other ∈ second,
          same entry.1 other.1 = true ∧ same entry.2 other.2 = true) →
        ∀ value, valueOf? first key = some value →
          ∃ found, valueOf? second key = some found ∧ same value found = true := by
      intro first second tidyFirst tidySecond inside value known
      obtain ⟨entry, mem, here, rfl⟩ := (valueOf?_eq_some_iff tidyFirst tidyKey).mp known
      obtain ⟨other, present, sameKey, sameValue⟩ := inside entry mem
      have tidyEntry := (tidyFirst.keys_and_values entry mem).1
      have tidyOther := (tidySecond.keys_and_values other present).1
      refine ⟨other.2, (valueOf?_eq_some_iff tidySecond tidyKey).mpr ⟨other, present, ?_, rfl⟩,
        sameValue⟩
      rw [← same_congr_left tidyEntry tidyOther tidyKey sameKey]
      exact here
    cases known : valueOf? entries key with
    | some value =>
      obtain ⟨found, there, equal⟩ := passes tidy tidyOthers contained value known
      rw [there]
      exact .some equal
    | none =>
      cases there : valueOf? others key with
      | none => exact .none
      | some found =>
        obtain ⟨value, here, -⟩ := passes tidyOthers tidy containing found there
        rw [known] at here
        cases here
  · intro agree
    have stands : ∀ {all : List (Val × Val)}, (map all).Tidy → ∀ entry ∈ all,
        valueOf? all entry.1 = some entry.2 := fun tidyAll entry mem =>
      (valueOf?_eq_some_iff tidyAll (tidyAll.keys_and_values entry mem).1).mpr
        ⟨entry, mem, same_refl _, rfl⟩
    constructor
    · intro entry mem
      have tidyEntry := (tidy.keys_and_values entry mem).1
      have related := agree entry.1 tidyEntry
      rw [stands tidy entry mem] at related
      generalize known : valueOf? others entry.1 = found at related
      cases related with
      | some equal =>
        obtain ⟨other, present, there, rfl⟩ :=
          (valueOf?_eq_some_iff tidyOthers tidyEntry).mp known
        have tidyOther := (tidyOthers.keys_and_values other present).1
        exact ⟨other, present, same_symm tidyOther tidyEntry there, equal⟩
    · intro entry mem
      obtain ⟨tidyEntry, tidyValue⟩ := tidyOthers.keys_and_values entry mem
      have related := agree entry.1 tidyEntry
      rw [stands tidyOthers entry mem] at related
      generalize known : valueOf? entries entry.1 = found at related
      cases related with
      | some equal =>
        obtain ⟨other, present, there, rfl⟩ := (valueOf?_eq_some_iff tidy tidyEntry).mp known
        obtain ⟨tidyOther, tidyFound⟩ := tidy.keys_and_values other present
        exact ⟨other, present, same_symm tidyOther tidyEntry there,
          same_symm tidyFound tidyValue equal⟩

end

/-! ### Places -/

theorem insertEntry_of_any
    (there : (entries.any fun entry => entry.1.same key) = true) (value : Val) :
    ∃ before stored old after,
      entries = before ++ (stored, old) :: after ∧ same stored key = true ∧
        (∀ entry ∈ before, same entry.1 key = false) ∧
        insertEntry key value entries = before ++ (stored, value) :: after := by
  induction entries with
  | nil => cases there
  | cons entry rest ih =>
    simp only [insertEntry]
    split
    · next here => exact ⟨[], entry.1, entry.2, rest, rfl, here, forall_mem_nil _, rfl⟩
    · next elsewhere =>
      rw [any_cons, Bool.or_eq_true, or_iff_right elsewhere] at there
      obtain ⟨before, stored, old, after, rfl, equal, different, inserted⟩ := ih there
      refine ⟨entry :: before, stored, old, after, rfl, equal, ?_, ?_⟩
      · exact forall_mem_cons.mpr ⟨Bool.eq_false_iff.mpr elsewhere, different⟩
      · rw [inserted]
        rfl

theorem insertEntry_of_not_any
    (new : (entries.any fun entry => entry.1.same key) = false) (value : Val) :
    insertEntry key value entries = entries ++ [(key, value)] := by
  induction entries with
  | nil => rfl
  | cons entry rest ih =>
    rw [any_cons, Bool.or_eq_false_iff] at new
    simp only [insertEntry, new.1, Bool.false_eq_true, if_false]
    rw [ih new.2]
    rfl

theorem foldl_insertEntry_of_apart (distinct : (entries.map (·.1)).Pairwise Apart) :
    entries.foldl (fun entries entry => insertEntry entry.1 entry.2 entries) [] = entries := by
  induction entries using List.reverseRecOn with
  | nil => rfl
  | append_singleton init last ih =>
    rw [map_append] at distinct
    obtain ⟨distinctInit, -, apart⟩ := pairwise_append.mp distinct
    have new : (init.any fun entry => entry.1.same last.1) = false :=
      any_eq_false.mpr fun entry mem => Bool.eq_false_iff.mp
        (apart entry.1 (mem_map_of_mem mem) last.1 mem_cons_self).1
    rw [foldl_append, ih distinctInit]
    exact insertEntry_of_not_any new last.2

/-- A map whose keys are apart gets one more entry. -/
theorem ofEntries_concat (distinct : (entries.map (·.1)).Pairwise Apart) (key value : Val) :
    ofEntries (entries ++ [(key, value)]) = map (insertEntry key value entries) := by
  rw [ofEntries, foldl_append, foldl_insertEntry_of_apart distinct]
  rfl

theorem filter_key_of_split {before after : List (Val × Val)} {stored old : Val}
    (tidy : (map (before ++ (stored, old) :: after)).Tidy) (tidyKey : key.Tidy)
    (here : same stored key = true) (different : ∀ entry ∈ before, same entry.1 key = false) :
    ((before ++ (stored, old) :: after).filter fun entry => !entry.1.same key) = before ++ after := by
  rw [tidy_map_iff, map_append, pairwise_append, map_cons, pairwise_cons] at tidy
  obtain ⟨⟨-, ⟨apart, -⟩, -⟩, tidyEntries⟩ := tidy
  have tidyStored : stored.Tidy := (tidyEntries (stored, old) (by simp)).1
  have behind : ∀ entry ∈ after, same entry.1 key = false := by
    intro entry mem
    have tidyEntry : entry.1.Tidy := (tidyEntries entry (by simp [mem])).1
    rw [← same_congr_right tidyEntry tidyStored tidyKey here]
    exact (apart entry.1 (mem_map_of_mem mem)).2
  rw [filter_append, filter_cons_of_neg (by simp [here]),
    filter_eq_self.mpr fun entry mem => by simp [different entry mem],
    filter_eq_self.mpr fun entry mem => by simp [behind entry mem]]

end Entries

/-! ### Maps made of entries -/

/-- Values without those that equal an earlier one. -/
def firsts : List Val → List Val
  | [] => []
  | item :: rest => item :: (firsts rest).filter fun other => !item.same other

theorem firsts_sublist (items : List Val) : (firsts items).Sublist items := by
  induction items with
  | nil => exact .slnil
  | cons item rest ih => exact (filter_sublist.trans ih).cons_cons item

theorem firsts_concat
    {items : List Val} {last : Val} (tidy : ∀ item ∈ items, item.Tidy) (tidyLast : last.Tidy) :
    firsts (items ++ [last]) =
      if (firsts items).any (·.same last) = true then firsts items else firsts items ++ [last] := by
  induction items with
  | nil => rfl
  | cons item rest ih =>
    obtain ⟨tidyItem, tidyRest⟩ := forall_mem_cons.mp tidy
    rw [cons_append, firsts, ih tidyRest, firsts, any_cons]
    cases here : item.same last with
    | true =>
      rw [Bool.true_or, if_pos rfl]
      split
      · rfl
      · simp [here]
    | false =>
      -- Whoever equals the last value does not equal this one, and so stays.
      have stays : ((firsts rest).filter fun other => !item.same other).any (·.same last) =
          (firsts rest).any (·.same last) := by
        rw [Bool.eq_iff_iff, any_eq_true, any_eq_true]
        refine exists_congr fun other => ?_
        rw [mem_filter, and_assoc]
        refine and_congr_right fun mem => and_iff_right_of_imp fun equal => ?_
        have tidyOther := tidyRest other ((firsts_sublist rest).subset mem)
        rw [same_congr_right tidyItem tidyOther tidyLast equal, here]
        rfl
      rw [stays, Bool.false_or]
      split
      · rfl
      · simp [here]

/-- A map made of entries has each key at its first place with its last value. -/
theorem exists_ofEntries_eq
    {entries : List (Val × Val)} (tidy : ∀ entry ∈ entries, entry.1.Tidy ∧ entry.2.Tidy) :
    ∃ kept, ofEntries entries = map kept ∧ (map kept).Tidy ∧
      kept.map (·.1) = firsts (entries.map (·.1)) ∧
      ∀ key : Val, key.Tidy → valueOf? kept key = valueOf? entries.reverse key := by
  induction entries using List.reverseRecOn with
  | nil => exact ⟨[], rfl, tidy_map_iff.mpr ⟨.nil, nofun⟩, rfl, fun _ _ => rfl⟩
  | append_singleton init last ih =>
    obtain ⟨tidyInit, tidyLast⟩ := forall_mem_append.mp tidy
    obtain ⟨tidyKey, tidyValue⟩ := tidyLast last mem_cons_self
    obtain ⟨kept, made, tidyKept, keys, values⟩ := ih tidyInit
    have tidyKeys := fun entry mem => (tidyKept.keys_and_values entry mem).1
    refine ⟨insertEntry last.1 last.2 kept, ?_, tidy_insertEntry tidyKept tidyKey tidyValue, ?_, ?_⟩
    · rw [ofEntries, map.injEq] at made
      rw [ofEntries, foldl_append, made]
      rfl
    · rw [map_append, map_singleton, firsts_concat
        (forall_mem_map.mpr fun entry mem => (tidyInit entry mem).1) tidyKey, ← keys,
        any_map]
      split
      · next there =>
        obtain ⟨before, stored, old, after, split, -, -, inserted⟩ :=
          insertEntry_of_any there last.2
        rw [inserted, split, map_append, map_append]
        rfl
      · next new =>
        rw [insertEntry_of_not_any (Bool.eq_false_iff.mpr new), map_append]
        rfl
    · intro key tidyOther
      rw [valueOf?_insertEntry tidyKeys tidyKey tidyOther, values key tidyOther, reverse_append,
        reverse_singleton, singleton_append, valueOf?_cons]

end Val

namespace Native

open Val (valueOf? firsts)

variable {entries others : List (Val × Val)} {members theirs : List Val} {key value : Val}

theorem mapHas_eq (node : NodeId) (entries : List (Val × Val)) (key : Val) :
    mapHas node (.map entries) key = .bool (valueOf? entries key).isSome := by
  rw [Val.isSome_valueOf?]
  rfl

theorem valueInMap_eq (node : NodeId) (entries : List (Val × Val)) (key : Val) :
    valueInMap node (.map entries) key =
      (valueOf? entries key).getD (.failure (.missingKey key.render) node) := by
  simp only [valueInMap, withEntries, valueOf?]
  cases entries.find? fun entry => entry.1.same key <;> rfl

section

variable (node : NodeId)

/-- A map without equal keys is made again with one more entry. -/
theorem setInMap_of_tidy (tidy : (Val.map entries).Tidy) (key value : Val) :
    setInMap node (.map entries) key value = .map (Val.insertEntry key value entries) :=
  Val.ofEntries_concat (Val.tidy_map_iff.mp tidy).1 key value

/-- A set without equal members is made again with one more member. -/
theorem addToSet_of_tidy (tidy : (Val.set members).Tidy) (item : Val) :
    addToSet node (.set members) item = .set (Val.insertMember members item) :=
  Val.ofMembers_append (Val.tidy_set_iff.mp tidy).1

theorem uniteSets_of_tidy (tidy : (Val.set members).Tidy) (theirs : List Val) :
    uniteSets node (.set members) (.set theirs) = .set (theirs.foldl Val.insertMember members) :=
  Val.ofMembers_append (Val.tidy_set_iff.mp tidy).1

end

/-- The natives work on a map as on a finite map whose entries keep their places. -/
structure ActsAsMap (node : NodeId) (entries : List (Val × Val)) : Prop where
  valueInMap_set : ∀ key value other : Val, key.Tidy → other.Tidy →
    valueInMap node (setInMap node (.map entries) key value) other =
      if key.same other = true then value else valueInMap node (.map entries) other
  has_set : ∀ key value other : Val, key.Tidy → other.Tidy →
    mapHas node (setInMap node (.map entries) key value) other =
      if key.same other = true then .bool true else mapHas node (.map entries) other
  valueInMap_unset : ∀ key other : Val, key.Tidy → other.Tidy →
    valueInMap node (unsetInMap node (.map entries) key) other =
      if key.same other = true then .failure (.missingKey other.render) node
      else valueInMap node (.map entries) other
  has_unset : ∀ key other : Val, key.Tidy → other.Tidy →
    mapHas node (unsetInMap node (.map entries) key) other =
      if key.same other = true then .bool false else mapHas node (.map entries) other
  unset_set : ∀ key value other : Val, key.Tidy → other.Tidy → key.same other = true →
    unsetInMap node (setInMap node (.map entries) key value) other =
      unsetInMap node (.map entries) other
  /-- A key that is there keeps its place and stays as it was stored. -/
  present : ∀ key value : Val, key.Tidy → mapHas node (.map entries) key = .bool true →
    ∃ before stored old after,
      entries = before ++ (stored, old) :: after ∧ stored.same key = true ∧
        setInMap node (.map entries) key value = .map (before ++ (stored, value) :: after) ∧
        unsetInMap node (.map entries) key = .map (before ++ after)
  /-- A new key comes at the end. -/
  absent : ∀ key value : Val, mapHas node (.map entries) key = .bool false →
    setInMap node (.map entries) key value = .map (entries ++ [(key, value)]) ∧
      unsetInMap node (.map entries) key = .map entries
  size : sizeOfMap node (.map entries) = .plain entries.length.toFloat

theorem actsAsMap (node : NodeId) (tidy : (Val.map entries).Tidy) : ActsAsMap node entries := by
  have tidyKeys := fun entry mem => (tidy.keys_and_values entry mem).1
  refine ⟨?_, ?_, ?_, ?_, ?_, ?_, ?_, rfl⟩
  · intro key value other tidyKey tidyOther
    simp only [setInMap_of_tidy node tidy, valueInMap_eq,
      Val.valueOf?_insertEntry tidyKeys tidyKey tidyOther]
    split
    · rfl
    · rfl
  · intro key value other tidyKey tidyOther
    simp only [setInMap_of_tidy node tidy, mapHas_eq,
      Val.valueOf?_insertEntry tidyKeys tidyKey tidyOther]
    split
    · rfl
    · rfl
  · intro key other tidyKey tidyOther
    simp only [unsetInMap, withEntries, valueInMap_eq,
      Val.valueOf?_filter_key tidy tidyKey tidyOther]
    split
    · rfl
    · rfl
  · intro key other tidyKey tidyOther
    simp only [unsetInMap, withEntries, mapHas_eq, Val.valueOf?_filter_key tidy tidyKey tidyOther]
    split
    · rfl
    · rfl
  · intro key value other tidyKey tidyOther equal
    have turned : ∀ {list : List (Val × Val)}, (∀ entry ∈ list, entry.1.Tidy) →
        (list.filter fun entry => !entry.1.same other) =
          list.filter fun entry => !entry.1.same key :=
      fun tidyList => filter_congr fun entry mem => by
        rw [Val.same_congr_right (tidyList entry mem) tidyKey tidyOther equal]
    rw [setInMap_of_tidy node tidy]
    simp only [unsetInMap, withEntries]
    rw [turned tidyKeys, turned (Val.tidy_keys_insertEntry tidyKeys tidyKey),
      Val.filter_insertEntry]
  · intro key value tidyKey there
    simp only [mapHas, withEntries, Val.bool.injEq] at there
    obtain ⟨before, stored, old, after, rfl, equal, different, inserted⟩ :=
      Val.insertEntry_of_any there value
    rw [setInMap_of_tidy node tidy]
    exact ⟨before, stored, old, after, rfl, equal, congrArg Val.map inserted,
      congrArg Val.map (Val.filter_key_of_split tidy tidyKey equal different)⟩
  · intro key value new
    simp only [mapHas, withEntries, Val.bool.injEq] at new
    rw [setInMap_of_tidy node tidy]
    refine ⟨congrArg Val.map (Val.insertEntry_of_not_any new value), congrArg Val.map ?_⟩
    rw [any_eq_false] at new
    exact filter_eq_self.mpr fun entry mem => by simpa using new entry mem

/-- The natives work on sets as on sets of values up to equality. -/
structure ActsAsSet (node : NodeId) (members : List Val) : Prop where
  has_add : ∀ item other : Val, item.Tidy → other.Tidy →
    setHas node (addToSet node (.set members) item) other =
      .bool (other.memberOf members || other.same item)
  has_remove : ∀ item other : Val, item.Tidy → other.Tidy →
    setHas node (removeFromSet node (.set members) item) other =
      .bool (other.memberOf members && !other.same item)
  has_unite : ∀ (theirs : List Val) (other : Val), (Val.set theirs).Tidy → other.Tidy →
    setHas node (uniteSets node (.set members) (.set theirs)) other =
      .bool (other.memberOf members || other.memberOf theirs)

theorem actsAsSet (node : NodeId) (tidy : (Val.set members).Tidy) : ActsAsSet node members := by
  have tidyMembers := (Val.tidy_set_iff.mp tidy).2
  refine ⟨?_, ?_, ?_⟩
  · intro item other tidyItem tidyOther
    rw [addToSet_of_tidy node tidy]
    exact congrArg Val.bool (Val.memberOf_insertMember tidyMembers tidyItem tidyOther)
  · intro item other tidyItem tidyOther
    exact congrArg Val.bool (Val.memberOf_filter tidyMembers tidyItem tidyOther)
  · intro theirs other tidyTheirs tidyOther
    rw [uniteSets_of_tidy node tidy]
    exact congrArg Val.bool
      ((Val.tidy_and_memberOf_foldl tidy (Val.tidy_set_iff.mp tidyTheirs).2).2 other tidyOther)

/-! ### Equal arguments -/

/-- The natives give equal results for two maps, two keys and two values. -/
structure MapsAgree
    (node : NodeId) (entries others : List (Val × Val)) (key otherKey value otherValue : Val) :
    Prop where
  has : mapHas node (.map entries) key = mapHas node (.map others) otherKey
  size : sizeOfMap node (.map entries) = sizeOfMap node (.map others)
  set : (setInMap node (.map entries) key value).same
    (setInMap node (.map others) otherKey otherValue) = true
  unset : (unsetInMap node (.map entries) key).same (unsetInMap node (.map others) otherKey) = true
  remove : (removeFromMap node (.map entries) value).same
    (removeFromMap node (.map others) otherValue) = true
  value : mapHas node (.map entries) key = .bool true →
    (valueInMap node (.map entries) key).same (valueInMap node (.map others) otherKey) = true

theorem mapsAgree (node : NodeId) {otherKey otherValue : Val}
    (tidy : (Val.map entries).Tidy) (tidyOthers : (Val.map others).Tidy)
    (tidyKey : key.Tidy) (tidyOtherKey : otherKey.Tidy)
    (tidyValue : value.Tidy) (tidyOtherValue : otherValue.Tidy)
    (sameMap : (Val.map entries).same (.map others) = true) (sameKey : key.same otherKey = true)
    (sameValue : value.same otherValue = true) :
    MapsAgree node entries others key otherKey value otherValue := by
  have agree := (Val.same_map_iff_valueOf? tidy tidyOthers).mp sameMap
  have tidyKeys := fun entry mem => (tidy.keys_and_values entry mem).1
  have tidyOtherKeys := fun entry mem => (tidyOthers.keys_and_values entry mem).1
  have here := agree key tidyKey
  rw [Val.valueOf?_congr tidyOtherKeys tidyKey tidyOtherKey sameKey] at here
  refine ⟨?_, ?_, ?_, ?_, ?_, ?_⟩
  · rw [mapHas_eq, mapHas_eq]
    generalize valueOf? entries key = first at here ⊢
    generalize valueOf? others otherKey = second at here ⊢
    cases here with
    | none => rfl
    | some => rfl
  · simp only [sizeOfMap, withEntries, (Val.same_map_iff.mp sameMap).1]
  · rw [setInMap_of_tidy node tidy, setInMap_of_tidy node tidyOthers]
    refine (Val.same_map_iff_valueOf? (Val.tidy_insertEntry tidy tidyKey tidyValue)
      (Val.tidy_insertEntry tidyOthers tidyOtherKey tidyOtherValue)).mpr fun third tidyThird => ?_
    rw [Val.valueOf?_insertEntry tidyKeys tidyKey tidyThird,
      Val.valueOf?_insertEntry tidyOtherKeys tidyOtherKey tidyThird,
      Val.same_congr_left tidyKey tidyOtherKey tidyThird sameKey]
    split
    · exact .some sameValue
    · exact agree third tidyThird
  · refine (Val.same_map_iff_valueOf? (Val.tidy_filter tidy _)
      (Val.tidy_filter tidyOthers _)).mpr fun third tidyThird => ?_
    rw [Val.valueOf?_filter_key tidy tidyKey tidyThird,
      Val.valueOf?_filter_key tidyOthers tidyOtherKey tidyThird,
      Val.same_congr_left tidyKey tidyOtherKey tidyThird sameKey]
    split
    · exact .none
    · exact agree third tidyThird
  · refine (Val.same_map_iff_valueOf? (Val.tidy_filter tidy _)
      (Val.tidy_filter tidyOthers _)).mpr fun third tidyThird => ?_
    rw [Val.valueOf?_filter_value tidy tidyThird, Val.valueOf?_filter_value tidyOthers tidyThird]
    have related := agree third tidyThird
    generalize found : valueOf? entries third = first at related
    generalize known : valueOf? others third = second at related
    cases related with
    | none => exact .none
    | some equal =>
      have tidyFirst := Val.tidy_of_valueOf? tidy found
      have tidySecond := Val.tidy_of_valueOf? tidyOthers known
      simp only [Option.filter_some, Val.same_congr_left tidyFirst tidySecond tidyValue equal,
        Val.same_congr_right tidySecond tidyValue tidyOtherValue sameValue]
      split
      · exact .some equal
      · exact .none
  · rw [mapHas_eq, valueInMap_eq, valueInMap_eq]
    generalize valueOf? entries key = first at here ⊢
    generalize valueOf? others otherKey = second at here ⊢
    intro there
    cases here with
    | none => cases there
    | some equal => exact equal

/-- The natives give equal results for two pairs of sets and two values. -/
structure SetsAgree
    (node : NodeId) (members others theirs otherTheirs : List Val) (item other : Val) : Prop where
  has : setHas node (.set members) item = setHas node (.set others) other
  size : sizeOfSet node (.set members) = sizeOfSet node (.set others)
  add : (addToSet node (.set members) item).same (addToSet node (.set others) other) = true
  remove : (removeFromSet node (.set members) item).same
    (removeFromSet node (.set others) other) = true
  unite : (uniteSets node (.set members) (.set theirs)).same
    (uniteSets node (.set others) (.set otherTheirs)) = true

theorem setsAgree (node : NodeId) {item other : Val} {otherMembers otherTheirs : List Val}
    (tidy : (Val.set members).Tidy) (tidyOthers : (Val.set otherMembers).Tidy)
    (tidyTheirs : (Val.set theirs).Tidy) (tidyOtherTheirs : (Val.set otherTheirs).Tidy)
    (tidyItem : item.Tidy) (tidyOther : other.Tidy)
    (sameSet : (Val.set members).same (.set otherMembers) = true)
    (sameTheirs : (Val.set theirs).same (.set otherTheirs) = true)
    (sameItem : item.same other = true) :
    SetsAgree node members otherMembers theirs otherTheirs item other := by
  have agree := (Val.same_set_iff_memberOf tidy tidyOthers).mp sameSet
  have agreeTheirs := (Val.same_set_iff_memberOf tidyTheirs tidyOtherTheirs).mp sameTheirs
  have tidyMembers := (Val.tidy_set_iff.mp tidy).2
  have tidyOtherMembers := (Val.tidy_set_iff.mp tidyOthers).2
  refine ⟨congrArg Val.bool ?_, ?_, ?_, ?_, ?_⟩
  · rw [agree item tidyItem]
    exact Val.memberOf_congr tidyOtherMembers tidyItem tidyOther sameItem
  · simp only [sizeOfSet, withMembers, (Val.same_set_iff.mp sameSet).1]
  · rw [addToSet_of_tidy node tidy, addToSet_of_tidy node tidyOthers]
    refine (Val.same_set_iff_memberOf (Val.tidy_insertMember tidy tidyItem)
      (Val.tidy_insertMember tidyOthers tidyOther)).mpr fun third tidyThird => ?_
    rw [Val.memberOf_insertMember tidyMembers tidyItem tidyThird,
      Val.memberOf_insertMember tidyOtherMembers tidyOther tidyThird, agree third tidyThird,
      Val.same_congr_right tidyThird tidyItem tidyOther sameItem]
  · refine (Val.same_set_iff_memberOf (Val.tidy_sublist tidy filter_sublist)
      (Val.tidy_sublist tidyOthers filter_sublist)).mpr fun third tidyThird => ?_
    rw [Val.memberOf_filter tidyMembers tidyItem tidyThird,
      Val.memberOf_filter tidyOtherMembers tidyOther tidyThird, agree third tidyThird,
      Val.same_congr_right tidyThird tidyItem tidyOther sameItem]
  · obtain ⟨tidyUnion, within⟩ :=
      Val.tidy_and_memberOf_foldl tidy (Val.tidy_set_iff.mp tidyTheirs).2
    obtain ⟨tidyOtherUnion, withinOther⟩ :=
      Val.tidy_and_memberOf_foldl tidyOthers (Val.tidy_set_iff.mp tidyOtherTheirs).2
    rw [uniteSets_of_tidy node tidy, uniteSets_of_tidy node tidyOthers]
    refine (Val.same_set_iff_memberOf tidyUnion tidyOtherUnion).mpr fun third tidyThird => ?_
    rw [within third tidyThird, withinOther third tidyThird, agree third tidyThird,
      agreeTheirs third tidyThird]

/--
The natives of maps and sets implement finite maps and sets up to equality, on well-formed values.  A
key that is set has its new value under every equal key, and nothing else changes; it keeps its place
if it is there, and comes at the end otherwise.  A map made of entries has each key at its first place
and, since a reversed list is searched from its end, with its last value.  Members are added, removed
and united as in sets.  Equal arguments give equal results.
-/
theorem collections_are_finite_maps_and_sets (node : NodeId) :
    (∀ entries, (Val.map entries).Tidy → ActsAsMap node entries) ∧
      (∀ entries : List (Val × Val), (∀ entry ∈ entries, entry.1.Tidy ∧ entry.2.Tidy) →
        keysOfMap node (.ofEntries entries) = .set (firsts (entries.map (·.1))) ∧
          ∀ key : Val, key.Tidy →
            valueInMap node (.ofEntries entries) key = valueInMap node (.map entries.reverse) key) ∧
      (∀ members, (Val.set members).Tidy → ActsAsSet node members) ∧
      (∀ entries others key otherKey value otherValue,
        (Val.map entries).Tidy → (Val.map others).Tidy → Val.Tidy key → Val.Tidy otherKey →
        Val.Tidy value → Val.Tidy otherValue → (Val.map entries).same (.map others) = true →
        key.same otherKey = true → value.same otherValue = true →
          MapsAgree node entries others key otherKey value otherValue) ∧
      ∀ members others theirs otherTheirs item other,
        (Val.set members).Tidy → (Val.set others).Tidy → (Val.set theirs).Tidy →
        (Val.set otherTheirs).Tidy → Val.Tidy item → Val.Tidy other →
        (Val.set members).same (.set others) = true → (Val.set theirs).same (.set otherTheirs) = true →
        item.same other = true → SetsAgree node members others theirs otherTheirs item other := by
  refine ⟨fun _ => actsAsMap node, ?_, fun _ => actsAsSet node, fun _ _ _ _ _ _ => mapsAgree node,
    fun _ _ _ _ _ _ => setsAgree node⟩
  intro entries tidy
  obtain ⟨kept, made, -, keys, values⟩ := Val.exists_ofEntries_eq tidy
  rw [made]
  refine ⟨congrArg Val.set keys, fun key tidyKey => ?_⟩
  rw [valueInMap_eq, valueInMap_eq, values key tidyKey]

/-- A key that is a set is found again by a set with its members in another order. -/
theorem reordered_key_finds_new_value :
    let stored := Val.set [.text "a", .text "b"]
    let key := Val.set [.text "b", .text "a"]
    (Val.map [(stored, .bool false)]).Tidy ∧ key.same stored = true ∧
      valueInMap 0 (setInMap 0 (.map [(stored, .bool false)]) key (.bool true)) stored =
        .bool true := by
  intro stored key
  have word (letters : String) : (Val.text letters).Tidy := Val.tidy_of_no_parts rfl trivial
  have answer : (Val.bool false).Tidy := Val.tidy_of_no_parts rfl trivial
  have tidyStored : stored.Tidy := by
    simp [stored, Val.tidy_set_iff, Val.Apart, Val.same, Val.equals, word]
  have tidyKey : key.Tidy := by simp [key, Val.tidy_set_iff, Val.Apart, Val.same, Val.equals, word]
  have tidy : (Val.map [(stored, .bool false)]).Tidy := by
    simp [Val.tidy_map_iff, tidyStored, answer]
  have equal : key.same stored = true := by simp [key, stored, Val.same, Val.equals, Val.membersIn]
  refine ⟨tidy, equal, ?_⟩
  rw [((collections_are_finite_maps_and_sets 0).1 _ tidy).valueInMap_set key _ stored tidyKey
    tidyStored, if_pos equal]

end Native

end Reactor

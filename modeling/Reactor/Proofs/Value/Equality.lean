import Mathlib
import Reactor.Value.Basic

/-!
# Equality of values

Sets and maps are kept as lists and compared without regard to order: two sets are equal if they have
as many members and every member of the one equals some member of the other.  This is symmetric only
because no two members of a set are equal, and that no two members are equal makes sense only because
equality is symmetric and transitive on the members.  So both are proved together, from smaller values
to larger ones.

`Val.Everywhere` says that something holds of a value and of everything inside it.  `Val.Tidy` values
are those in which, everywhere, sets have no equal members and maps no equal keys.  On them equality is
an equivalence.

What is known of doubles and their equality is in no smaller part of the library than the whole.
-/

namespace Reactor

open List

namespace Val

/-! ### The inside of a value -/

/-- What a value is directly made of. -/
def parts : Val → List Val
  | list items | set items => items
  | map entries => entries.flatMap fun entry => [entry.1, entry.2]
  | record _ fields => fields
  | method receiver _ | native receiver _ => [receiver]
  | bool _ | num _ | text _ | closure _ | constructor _ | conversion _ | exception .. => []

theorem mem_parts_map {entries : List (Val × Val)} {part : Val} :
    part ∈ (map entries).parts ↔ ∃ entry ∈ entries, part = entry.1 ∨ part = entry.2 := by
  simp [parts]

theorem sizeOf_lt_of_mem_parts {part whole : Val} (inside : part ∈ whole.parts) :
    sizeOf part < sizeOf whole := by
  cases whole with
  | list items | set items =>
    have smaller : sizeOf part < sizeOf items := sizeOf_lt_of_mem inside
    simp only [list.sizeOf_spec, set.sizeOf_spec]
    omega
  | map entries =>
    obtain ⟨⟨key, value⟩, mem, isPart⟩ := mem_parts_map.mp inside
    have smaller : sizeOf (key, value) < sizeOf entries := sizeOf_lt_of_mem mem
    simp only [Prod.mk.sizeOf_spec] at smaller
    simp only [map.sizeOf_spec]
    rcases isPart with rfl | rfl <;> omega
  | record definition fields =>
    have smaller : sizeOf part < sizeOf fields := sizeOf_lt_of_mem inside
    simp only [record.sizeOf_spec]
    omega
  | method receiver function =>
    cases mem_singleton.mp inside
    simp only [method.sizeOf_spec]
    omega
  | native receiver name =>
    cases mem_singleton.mp inside
    simp only [native.sizeOf_spec]
    omega
  | _ => cases inside

/-- What holds of a value whenever it holds of its parts holds of all values. -/
theorem induct_parts {motive : Val → Prop}
    (whole : ∀ value, (∀ part ∈ value.parts, motive part) → motive value) (value : Val) :
    motive value :=
  whole value fun part inside =>
    have := sizeOf_lt_of_mem_parts inside
    induct_parts whole part
termination_by sizeOf value

/-- A value that is another or lies inside it. -/
inductive Part (part : Val) : Val → Prop where
  | self : Part part part
  | inside {between whole : Val} (member : between ∈ whole.parts) (rest : Part part between) :
      Part part whole

/-- A property of a value and of everything inside it. -/
def Everywhere (P : Val → Prop) (value : Val) : Prop :=
  ∀ part, Part part value → P part

theorem everywhere_iff {P : Val → Prop} {value : Val} :
    value.Everywhere P ↔ P value ∧ ∀ part ∈ value.parts, part.Everywhere P := by
  constructor
  · intro everywhere
    exact ⟨everywhere value .self, fun part mem inner inside =>
      everywhere inner (.inside mem inside)⟩
  · rintro ⟨here, inside⟩ part isPart
    cases isPart with
    | self => exact here
    | inside mem rest => exact inside _ mem part rest

/-- Two values that are not equal, whichever stands on the left. -/
def Apart (left right : Val) : Prop :=
  same left right = false ∧ same right left = false

/-- No two members of a set and no two keys of a map are equal. -/
def TidyHere : Val → Prop
  | set members => members.Pairwise Apart
  | map entries => (entries.map (·.1)).Pairwise Apart
  | _ => True

/-- A value in which, everywhere, no two members of a set and no two keys of a map are equal. -/
def Tidy (value : Val) : Prop :=
  value.Everywhere TidyHere

theorem Tidy.part {value part : Val} (tidy : value.Tidy) (inside : part ∈ value.parts) :
    part.Tidy :=
  (everywhere_iff.mp tidy).2 part inside

/-! ### Equality by parts -/

theorem equalItems_iff {turned : Bool} {left right : List Val} :
    equalItems turned left right = true ↔
      List.Forall₂ (fun item other => equals turned item other = true) left right := by
  induction left generalizing right with
  | nil => cases right <;> simp [equalItems]
  | cons item rest ih => cases right <;> simp [equalItems, ih]

theorem equalItems_comm {turned : Bool} {left right : List Val}
    (swaps : ∀ item ∈ left, ∀ other, equals turned item other = equals (!turned) other item) :
    equalItems turned left right = equalItems (!turned) right left := by
  induction left generalizing right with
  | nil => cases right <;> simp only [equalItems]
  | cons item rest ih =>
    rw [forall_mem_cons] at swaps
    cases right with
    | nil => simp only [equalItems]
    | cons other others => simp only [equalItems, swaps.1, ih swaps.2]

theorem hasMember_eq (members : List Val) (item : Val) :
    hasMember members item = item.memberOf members := by
  induction members with
  | nil => rfl
  | cons mem rest ih =>
    rw [hasMember, ih]
    rfl

theorem membersIn_eq_all {left right : List Val}
    (swaps : ∀ mem ∈ left, ∀ other ∈ right, equals true mem other = same other mem) :
    membersIn left right = left.all fun mem => mem.memberOf right := by
  induction left with
  | nil => rfl
  | cons mem rest ih =>
    rw [forall_mem_cons] at swaps
    rw [membersIn, all_cons, ih swaps.2, memberOf, Bool.eq_iff_iff]
    simp only [Bool.and_eq_true, any_eq_true]
    refine and_congr_left fun _ => exists_congr fun other => and_congr_right fun present => ?_
    rw [swaps.1 other present]

theorem hasEntry_eq (entries : List (Val × Val)) (entry : Val × Val) :
    hasEntry entries entry =
      entries.any fun other => equals true other.1 entry.1 && equals true other.2 entry.2 := by
  induction entries with
  | nil => rfl
  | cons other rest ih => rw [hasEntry, ih, any_cons]

theorem entriesIn_eq_all {left right : List (Val × Val)}
    (swaps : ∀ entry ∈ left, ∀ other ∈ right, equals true other.1 entry.1 = same entry.1 other.1 ∧
      equals true other.2 entry.2 = same entry.2 other.2) :
    entriesIn left right = left.all fun entry => hasEntry right entry := by
  induction left with
  | nil => rfl
  | cons entry rest ih =>
    rw [forall_mem_cons] at swaps
    rw [entriesIn, all_cons, ih swaps.2, hasEntry_eq, Bool.eq_iff_iff]
    simp only [Bool.and_eq_true, any_eq_true]
    refine and_congr_left fun _ => exists_congr fun other => and_congr_right fun present => ?_
    rw [(swaps.1 other present).1, (swaps.1 other present).2]
    rfl

/-- With the sides turned the other value stands on the left. -/
theorem equals_comm (value : Val) :
    ∀ (turned : Bool) (other : Val), equals turned value other = equals (!turned) other value := by
  induction value using induct_parts with
  | whole value ih =>
    intro turned other
    cases value with
    | num left => cases turned <;> cases other <;> rfl
    | list left =>
      cases other with
      | list right => exact equalItems_comm fun item inside => ih item inside turned
      | _ => simp only [equals]
    | set left =>
      cases other with
      | set right =>
        cases turned with
        | false =>
          have each := @membersIn_eq_all left right fun mem isMember other _ => ih mem isMember true other
          simp only [equals, each, hasMember_eq, cond_false, cond_true, Bool.not_false]
          rw [BEq.comm]
        | true =>
          have each := @membersIn_eq_all right left fun other _ mem isMember =>
            (ih mem isMember false other).symm
          simp only [equals, each, hasMember_eq, cond_false, cond_true, Bool.not_true]
          rw [BEq.comm]
      | _ => simp only [equals]
    | map left =>
      have swaps : ∀ turned, ∀ entry ∈ left, ∀ other : Val × Val,
          equals turned entry.1 other.1 = equals (!turned) other.1 entry.1 ∧
            equals turned entry.2 other.2 = equals (!turned) other.2 entry.2 :=
        fun turned entry mem other =>
          ⟨ih entry.1 (mem_parts_map.mpr ⟨entry, mem, .inl rfl⟩) turned other.1,
            ih entry.2 (mem_parts_map.mpr ⟨entry, mem, .inr rfl⟩) turned other.2⟩
      cases other with
      | map right =>
        cases turned with
        | false =>
          have each := @entriesIn_eq_all left right fun entry mem other _ =>
            ⟨(swaps false entry mem other).1.symm, (swaps false entry mem other).2.symm⟩
          simp only [equals, each, cond_false, cond_true, Bool.not_false]
          rw [BEq.comm]
        | true =>
          have each := @entriesIn_eq_all right left fun other _ entry mem => swaps true entry mem other
          simp only [equals, each, cond_false, cond_true, Bool.not_true]
          rw [BEq.comm]
      | _ => simp only [equals]
    | record definition left =>
      cases other with
      | record otherDefinition right =>
        have fields := @equalItems_comm turned left right fun item inside => ih item inside turned
        simp only [equals, fields]
        rw [BEq.comm]
      | _ => simp only [equals]
    | method receiver function =>
      cases other with
      | method otherReceiver otherFunction =>
        simp only [equals, ih receiver mem_cons_self turned otherReceiver]
        rw [BEq.comm]
      | _ => simp only [equals]
    | native receiver name =>
      cases other with
      | native otherReceiver otherName =>
        simp only [equals, ih receiver mem_cons_self turned otherReceiver]
        rw [BEq.comm]
      | _ => simp only [equals]
    | bool | text | closure | constructor | conversion | exception =>
      cases other with
      | bool | text | closure | constructor | conversion | exception => first | exact BEq.comm | rfl
      | _ => simp only [equals]

theorem membersIn_iff {left right : List Val} :
    membersIn left right = true ↔ ∀ mem ∈ left, ∃ other ∈ right, same other mem = true := by
  rw [membersIn_eq_all fun mem _ other _ => equals_comm mem true other]
  simp only [all_eq_true, memberOf, any_eq_true]

theorem entriesIn_iff {left right : List (Val × Val)} :
    entriesIn left right = true ↔ ∀ entry ∈ left, ∃ other ∈ right,
      same entry.1 other.1 = true ∧ same entry.2 other.2 = true := by
  induction left with
  | nil => simp [entriesIn]
  | cons entry rest ih =>
    simp only [entriesIn, Bool.and_eq_true, any_eq_true, ih, forall_mem_cons, same]

theorem same_set_iff {left right : List Val} :
    same (set left) (set right) = true ↔
      left.length = right.length ∧ ∀ mem ∈ left, ∃ other ∈ right, same other mem = true := by
  rw [same, equals, cond_false, Bool.and_eq_true, beq_iff_eq, membersIn_iff]

theorem same_map_iff {left right : List (Val × Val)} :
    same (map left) (map right) = true ↔
      left.length = right.length ∧ ∀ entry ∈ left, ∃ other ∈ right,
        same entry.1 other.1 = true ∧ same entry.2 other.2 = true := by
  rw [same, equals, cond_false, Bool.and_eq_true, beq_iff_eq, entriesIn_iff]

end Val

/-- Where as many things are on the left as on the right, each is matched, and no two of them by the
same thing, all that is on the right is matched too. -/
theorem exists_of_matched {α : Type} {Matches : α → α → Prop} {left right : List α}
    (many : left.length = right.length)
    (matched : ∀ item ∈ left, ∃ other ∈ right, Matches item other)
    (once : left.Pairwise fun item next => ∀ other, Matches item other → ¬ Matches next other) :
    ∀ other ∈ right, ∃ item ∈ left, Matches item other := by
  induction left generalizing right with
  | nil =>
    rw [length_nil, eq_comm, length_eq_zero_iff] at many
    subst many
    exact nofun
  | cons item rest ih =>
    obtain ⟨alone, onceRest⟩ := pairwise_cons.mp once
    obtain ⟨other, mem, isMatch⟩ := matched item mem_cons_self
    obtain ⟨before, behind, rfl⟩ := append_of_mem mem
    -- What matches the other items is not the one that matches this item.
    have later : ∀ next ∈ rest, ∃ found ∈ before ++ behind, Matches next found := by
      intro next isLater
      obtain ⟨found, present, nextMatch⟩ := matched next (mem_cons_of_mem _ isLater)
      refine ⟨found, ?_, nextMatch⟩
      rcases mem_append.mp present with first | second
      · exact mem_append_left _ first
      · rcases mem_cons.mp second with rfl | last
        · exact absurd nextMatch (alone next isLater found isMatch)
        · exact mem_append_right _ last
    have manyLeft : rest.length = (before ++ behind).length := by
      simp only [length_cons, length_append] at many ⊢
      omega
    have others := ih manyLeft later onceRest
    intro found present
    have place : found = other ∨ found ∈ before ++ behind := by
      simpa [or_left_comm] using present
    rcases place with rfl | elsewhere
    · exact ⟨item, mem_cons_self, isMatch⟩
    · obtain ⟨next, isLater, nextMatch⟩ := others found elsewhere
      exact ⟨next, mem_cons_of_mem _ isLater, nextMatch⟩

/-! ### Numbers -/

namespace Number

variable {left right : Number}

theorem same_iff :
    left.same right = true ↔
      (left.value = right.value ∨ left.value = 0 ∧ right.value = -0 ∨
        left.value = -0 ∧ right.value = 0) ∧ left.units = right.units := by
  simp only [same, Bool.and_eq_true, Bool.or_eq_true, Float.beq_iff_ne_nan_and_eq,
    Float.isNaN_eq_decide_eq_nan, decide_eq_true_eq, beq_iff_eq]
  have zero : (0 : Float) ≠ Float.nan := by decide
  have negative : (-0 : Float) ≠ Float.nan := by decide
  grind

theorem same_symm (equal : left.same right = true) :
    right.same left = true := by
  rw [same_iff] at equal ⊢
  grind

theorem same_trans {middle : Number}
    (first : left.same middle = true) (second : middle.same right = true) :
    left.same right = true := by
  rw [same_iff] at first second ⊢
  grind

end Number

namespace Val

/-! ### Equality as an equivalence -/

/-- Among some values equality can be turned around and passed on. -/
structure EquivalenceOn (Good : Val → Prop) : Prop where
  symm : ∀ {left right : Val}, Good left → Good right → same left right = true →
    same right left = true
  trans : ∀ {left middle right : Val}, Good left → Good middle → Good right →
    same left middle = true → same middle right = true → same left right = true

/-- What two equal values have in common. -/
inductive Equal : Val → Val → Prop where
  | bool (truth : Bool) : Equal (bool truth) (bool truth)
  | num {left right : Number} (numbers : left.same right = true) : Equal (num left) (num right)
  | text (letters : String) : Equal (text letters) (text letters)
  | list {left right : List Val}
      (items : List.Forall₂ (fun item other => same item other = true) left right) :
      Equal (list left) (list right)
  | set {left right : List Val} (members : same (.set left) (.set right) = true) :
      Equal (set left) (set right)
  | map {left right : List (Val × Val)} (entries : same (.map left) (.map right) = true) :
      Equal (map left) (map right)
  | record {definition other : Definition} {left right : List Val}
      (identity : definition.identity = other.identity)
      (fields : List.Forall₂ (fun item other => same item other = true) left right) :
      Equal (record definition left) (record other right)
  | closure {function other : Closure} (identity : function.identity = other.identity) :
      Equal (closure function) (closure other)
  | method {left right : Val} {function other : Closure}
      (identity : function.identity = other.identity) (receivers : same left right = true) :
      Equal (method left function) (method right other)
  | native {left right : Val} (name : String) (receivers : same left right = true) :
      Equal (native left name) (native right name)
  | constructor {definition other : Definition} (identity : definition.identity = other.identity) :
      Equal (constructor definition) (constructor other)
  | conversion (kind : Kind) : Equal (conversion kind) (conversion kind)
  | exception (cause : Cause) (node other : Option NodeId) :
      Equal (exception cause node) (exception cause other)

theorem same_iff_equal {left right : Val} : same left right = true ↔ Equal left right := by
  constructor
  · intro equal
    unfold same at equal
    fun_cases equals false left right with
    | case1 left right | case4 left right | case13 left right | case14 left _ right _ =>
      rw [equals, beq_iff_eq] at equal
      subst equal
      constructor
    | case2 left right impossible => cases impossible
    | case3 left right | case9 left right | case12 left right =>
      rw [equals] at equal
      constructor
      simpa only [beq_iff_eq, cond_false] using equal
    | case5 left right => exact .list (equalItems_iff.mp equal)
    | case6 left right => exact .set equal
    | case7 left right => exact .map equal
    | case8 definition left other right =>
      rw [equals, Bool.and_eq_true, beq_iff_eq] at equal
      exact .record equal.1 (equalItems_iff.mp equal.2)
    | case10 left function right other =>
      rw [equals, Bool.and_eq_true, beq_iff_eq] at equal
      exact .method equal.1 equal.2
    | case11 left name right other =>
      rw [equals, Bool.and_eq_true, beq_iff_eq] at equal
      obtain ⟨rfl, receivers⟩ := equal
      exact .native name receivers
    | case15 => simp_all [equals]
  · intro equal
    cases equal with
    | set members => exact members
    | map entries => exact entries
    | list items => exact equalItems_iff.mpr items
    | record identity fields =>
      rw [same, equals, Bool.and_eq_true, beq_iff_eq]
      exact ⟨identity, equalItems_iff.mpr fields⟩
    | _ => simp_all [same, equals]

theorem Tidy.keys_and_values {entries : List (Val × Val)} (tidy : (map entries).Tidy) :
    ∀ entry ∈ entries, entry.1.Tidy ∧ entry.2.Tidy := fun entry mem =>
  ⟨tidy.part (mem_parts_map.mpr ⟨entry, mem, Or.inl rfl⟩),
    tidy.part (mem_parts_map.mpr ⟨entry, mem, Or.inr rfl⟩)⟩

namespace EquivalenceOn

variable {Good : Val → Prop} (law : EquivalenceOn Good)
include law

section

variable {left right : List Val}
  (goodLeft : ∀ item ∈ left, Good item) (goodRight : ∀ other ∈ right, Good other)
include goodLeft goodRight

theorem items_symm (equal : List.Forall₂ (fun item other => same item other = true) left right) :
    List.Forall₂ (fun item other => same item other = true) right left := by
  induction equal with
  | nil => exact .nil
  | cons first _ ih =>
    rw [forall_mem_cons] at goodLeft goodRight
    exact .cons (law.symm goodLeft.1 goodRight.1 first) (ih goodLeft.2 goodRight.2)

theorem items_trans {middle : List Val} (goodMiddle : ∀ between ∈ middle, Good between)
    (first : List.Forall₂ (fun item other => same item other = true) left middle)
    (second : List.Forall₂ (fun item other => same item other = true) middle right) :
    List.Forall₂ (fun item other => same item other = true) left right := by
  induction first generalizing right with
  | nil => exact second
  | cons here _ ih =>
    cases second with
    | cons there rest =>
      rw [forall_mem_cons] at goodLeft goodRight goodMiddle
      exact .cons (law.trans goodLeft.1 goodMiddle.1 goodRight.1 here there)
        (ih goodLeft.2 goodRight.2 goodMiddle.2 rest)

end

/-- No value equals two members of a set. -/
theorem matched_once
    {members : List Val} (distinct : members.Pairwise Apart) (good : ∀ mem ∈ members, Good mem) :
    members.Pairwise fun mem next =>
      ∀ other, Good other → same other mem = true → same other next = false := by
  refine distinct.imp_of_mem ?_
  intro mem next isMember isNext apart other found first
  rw [← Bool.not_eq_true]
  intro second
  have back := law.symm found (good mem isMember) first
  have both := law.trans (good mem isMember) found (good next isNext) back second
  rw [apart.1] at both
  cases both

theorem set_symm {left right : List Val} (distinct : left.Pairwise Apart)
    (goodLeft : ∀ mem ∈ left, Good mem) (goodRight : ∀ other ∈ right, Good other)
    (equal : same (set left) (set right) = true) : same (set right) (set left) = true := by
  rw [same_set_iff] at equal ⊢
  obtain ⟨many, matched⟩ := equal
  have found := @exists_of_matched Val (fun mem other => other ∈ right ∧ same other mem = true)
    left right many
    (fun mem isMember => by
      obtain ⟨other, present, isMatch⟩ := matched mem isMember
      exact ⟨other, present, present, isMatch⟩)
    ((law.matched_once distinct goodLeft).imp fun apart other first second => by
      rw [apart other (goodRight other first.1) first.2] at second
      cases second.2)
  refine ⟨many.symm, fun other present => ?_⟩
  obtain ⟨mem, isMember, -, isMatch⟩ := found other present
  exact ⟨mem, isMember, law.symm (goodRight other present) (goodLeft mem isMember) isMatch⟩

theorem map_symm {left right : List (Val × Val)} (distinct : (left.map (·.1)).Pairwise Apart)
    (goodLeft : ∀ entry ∈ left, Good entry.1 ∧ Good entry.2)
    (goodRight : ∀ other ∈ right, Good other.1 ∧ Good other.2)
    (equal : same (map left) (map right) = true) : same (map right) (map left) = true := by
  rw [same_map_iff] at equal ⊢
  obtain ⟨many, matched⟩ := equal
  have once := law.matched_once distinct (forall_mem_map.mpr fun entry mem => (goodLeft entry mem).1)
  -- Equal entries are turned around one by one, since only those of the left have to be apart.
  have found := @exists_of_matched (Val × Val)
    (fun entry other => other ∈ right ∧ same other.1 entry.1 = true ∧ same other.2 entry.2 = true)
    left right many
    (fun entry isEntry => by
      obtain ⟨other, present, sameKey, sameValue⟩ := matched entry isEntry
      exact ⟨other, present, present,
        law.symm (goodLeft entry isEntry).1 (goodRight other present).1 sameKey,
        law.symm (goodLeft entry isEntry).2 (goodRight other present).2 sameValue⟩)
    ((pairwise_map.mp once).imp fun apart other first second => by
      rw [apart other.1 (goodRight other first.1).1 first.2.1] at second
      cases second.2.1)
  refine ⟨many.symm, fun other present => ?_⟩
  obtain ⟨entry, isEntry, -, isMatch⟩ := found other present
  exact ⟨entry, isEntry, isMatch⟩

section

variable {left right : Val}
  (goodLeft : ∀ part ∈ left.parts, Good part) (goodRight : ∀ part ∈ right.parts, Good part)
include goodLeft goodRight

theorem symm_of_parts (here : left.TidyHere) (equal : same left right = true) :
    same right left = true := by
  rw [same_iff_equal] at equal ⊢
  have entries : ∀ {entries : List (Val × Val)}, (∀ part ∈ (map entries).parts, Good part) →
      ∀ entry ∈ entries, Good entry.1 ∧ Good entry.2 :=
    fun good entry mem => ⟨good _ (mem_parts_map.mpr ⟨entry, mem, .inl rfl⟩),
      good _ (mem_parts_map.mpr ⟨entry, mem, .inr rfl⟩)⟩
  cases equal with
  | num numbers => exact .num (Number.same_symm numbers)
  | list items => exact .list (law.items_symm goodLeft goodRight items)
  | set members => exact .set (law.set_symm here goodLeft goodRight members)
  | map equal => exact .map (law.map_symm here (entries goodLeft) (entries goodRight) equal)
  | record identity fields =>
    exact .record identity.symm (law.items_symm goodLeft goodRight fields)
  | closure identity => exact .closure identity.symm
  | method identity receivers =>
    exact .method identity.symm
      (law.symm (goodLeft _ mem_cons_self) (goodRight _ mem_cons_self) receivers)
  | native name receivers =>
    exact .native name (law.symm (goodLeft _ mem_cons_self) (goodRight _ mem_cons_self) receivers)
  | constructor identity => exact .constructor identity.symm
  | bool | text | conversion | exception => constructor

theorem trans_of_parts {middle : Val} (goodMiddle : ∀ part ∈ middle.parts, Good part)
    (first : same left middle = true) (second : same middle right = true) :
    same left right = true := by
  rw [same_iff_equal] at first second ⊢
  cases first with
  | num numbers =>
    cases second with
    | num others => exact .num (Number.same_trans numbers others)
  | list items =>
    cases second with
    | list others => exact .list (law.items_trans goodLeft goodRight goodMiddle items others)
  | set members =>
    cases second with
    | set others =>
      rw [same_set_iff] at members others
      refine .set (same_set_iff.mpr ⟨members.1.trans others.1, fun mem isMember => ?_⟩)
      obtain ⟨between, present, equal⟩ := members.2 mem isMember
      obtain ⟨last, isLast, equalLast⟩ := others.2 between present
      exact ⟨last, isLast, law.trans (goodRight last isLast) (goodMiddle between present)
        (goodLeft mem isMember) equalLast equal⟩
  | map entries =>
    cases second with
    | map others =>
      rw [same_map_iff] at entries others
      refine .map (same_map_iff.mpr ⟨entries.1.trans others.1, fun entry isEntry => ?_⟩)
      obtain ⟨between, present, sameKey, sameValue⟩ := entries.2 entry isEntry
      obtain ⟨last, isLast, lastKey, lastValue⟩ := others.2 between present
      refine ⟨last, isLast, ?_, ?_⟩
      · exact law.trans (goodLeft _ (mem_parts_map.mpr ⟨entry, isEntry, .inl rfl⟩))
          (goodMiddle _ (mem_parts_map.mpr ⟨between, present, .inl rfl⟩))
          (goodRight _ (mem_parts_map.mpr ⟨last, isLast, .inl rfl⟩)) sameKey lastKey
      · exact law.trans (goodLeft _ (mem_parts_map.mpr ⟨entry, isEntry, .inr rfl⟩))
          (goodMiddle _ (mem_parts_map.mpr ⟨between, present, .inr rfl⟩))
          (goodRight _ (mem_parts_map.mpr ⟨last, isLast, .inr rfl⟩)) sameValue lastValue
  | record identity fields =>
    cases second with
    | record otherIdentity others =>
      exact .record (identity.trans otherIdentity)
        (law.items_trans goodLeft goodRight goodMiddle fields others)
  | closure identity =>
    cases second with
    | closure otherIdentity => exact .closure (identity.trans otherIdentity)
  | method identity receivers =>
    cases second with
    | method otherIdentity others =>
      exact .method (identity.trans otherIdentity) (law.trans (goodLeft _ mem_cons_self)
        (goodMiddle _ mem_cons_self) (goodRight _ mem_cons_self) receivers others)
  | native name receivers =>
    cases second with
    | native _ others =>
      exact .native name (law.trans (goodLeft _ mem_cons_self) (goodMiddle _ mem_cons_self)
        (goodRight _ mem_cons_self) receivers others)
  | constructor identity =>
    cases second with
    | constructor otherIdentity => exact .constructor (identity.trans otherIdentity)
  | bool | text | conversion => exact second
  | exception =>
    cases second
    constructor

end

end EquivalenceOn

theorem equivalenceOn_below (size : Nat) :
    EquivalenceOn fun value => value.Tidy ∧ sizeOf value < size := by
  induction size with
  | zero => exact ⟨fun good => absurd good.2 (Nat.not_lt_zero _),
      fun good => absurd good.2 (Nat.not_lt_zero _)⟩
  | succ size ih =>
    have parts : ∀ {whole : Val}, whole.Tidy ∧ sizeOf whole < size + 1 →
        ∀ part ∈ whole.parts, part.Tidy ∧ sizeOf part < size := by
      intro whole good part inside
      have smaller := sizeOf_lt_of_mem_parts inside
      exact ⟨good.1.part inside, by omega⟩
    refine ⟨fun left right equal => ?_, fun left middle right first second => ?_⟩
    · exact ih.symm_of_parts (parts left) (parts right) (everywhere_iff.mp left.1).1 equal
    · exact ih.trans_of_parts (parts left) (parts right) (parts middle) first second

theorem equivalenceOn_tidy : EquivalenceOn Tidy where
  symm {left right} tidyLeft tidyRight equal :=
    (equivalenceOn_below (sizeOf left + sizeOf right + 1)).symm ⟨tidyLeft, by omega⟩
      ⟨tidyRight, by omega⟩ equal
  trans {left middle right} tidyLeft tidyMiddle tidyRight first second :=
    (equivalenceOn_below (sizeOf left + sizeOf middle + sizeOf right + 1)).trans
      ⟨tidyLeft, by omega⟩ ⟨tidyMiddle, by omega⟩ ⟨tidyRight, by omega⟩ first second

theorem same_comm {left right : Val} (tidyLeft : left.Tidy) (tidyRight : right.Tidy) :
    same left right = same right left :=
  Bool.eq_iff_iff.mpr ⟨equivalenceOn_tidy.symm tidyLeft tidyRight,
    equivalenceOn_tidy.symm tidyRight tidyLeft⟩

theorem same_trans {left middle right : Val} (tidyLeft : left.Tidy) (tidyMiddle : middle.Tidy)
    (tidyRight : right.Tidy) (first : same left middle = true) (second : same middle right = true) :
    same left right = true :=
  equivalenceOn_tidy.trans tidyLeft tidyMiddle tidyRight first second

end Val

end Reactor

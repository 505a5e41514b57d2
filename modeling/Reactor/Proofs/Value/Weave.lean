import Mathlib.Data.List.Forall2
import Reactor.Proofs.Value.Law

/-!
# Values that belong together

Two evaluations may be compared by saying which values of the one belong to which values of the other.
A weave is such a relation that putting data together and taking them apart cannot break.  It may get
larger in the course of the evaluations, so it depends on a world.

A property of values is a weave in which every value belongs to itself if it has the property.  So
whatever holds of weaves holds of lawful properties, and there is no need to prove it twice.
-/

namespace Reactor

open List

/-! ### Items at the same places -/

section

variable {α β : Type} {R : α → β → Prop} {items : List α} {others : List β}
  (related : List.Forall₂ R items others)
include related

theorem rel_getElem? (place : Nat) : Option.Rel R items[place]? others[place]? := by
  induction related generalizing place with
  | nil => exact .none
  | cons first _ ih =>
    cases place with
    | zero => exact .some first
    | succ place => simpa using ih place

theorem rel_getLast? : Option.Rel R items.getLast? others.getLast? := by
  rw [getLast?_eq_getElem?, getLast?_eq_getElem?, ← related.length_eq]
  exact rel_getElem? related _

end

/-- What is chosen from two lists at the same places. -/
inductive Chosen {α β : Type} : List α → List β → List α → List β → Prop where
  | nil : Chosen [] [] [] []
  | keep (item : α) (other : β) {items others kept twins} :
      Chosen items others kept twins →
        Chosen (item :: items) (other :: others) (item :: kept) (other :: twins)
  | drop (item : α) (other : β) {items others kept twins} :
      Chosen items others kept twins → Chosen (item :: items) (other :: others) kept twins

namespace Chosen

variable {α β : Type} {R : α → β → Prop} {items kept : List α} {others twins : List β}

theorem forall₂ (chosen : Chosen items others kept twins) (related : List.Forall₂ R items others) :
    List.Forall₂ R kept twins := by
  induction chosen with
  | nil => exact .nil
  | keep _ _ _ ih =>
    obtain ⟨first, rest⟩ := forall₂_cons.mp related
    exact .cons first (ih rest)
  | drop _ _ _ ih => exact ih (forall₂_cons.mp related).2

theorem sublist {items others kept twins : List α} (chosen : Chosen items others kept twins)
    (same : items = others) : kept = twins ∧ kept.Sublist items := by
  induction chosen with
  | nil => exact ⟨rfl, .slnil⟩
  | keep _ _ _ ih =>
    obtain ⟨rfl, rest⟩ := List.cons.inj same
    obtain ⟨rfl, part⟩ := ih rest
    exact ⟨rfl, part.cons_cons _⟩
  | drop _ _ _ ih =>
    obtain ⟨rfl, rest⟩ := List.cons.inj same
    obtain ⟨equal, part⟩ := ih rest
    exact ⟨equal, part.cons _⟩

theorem filter {keep : α → Bool} {keepTwin : β → Bool}
    (agree : ∀ {item other}, R item other → keepTwin other = keep item)
    (related : List.Forall₂ R items others) :
    Chosen items others (items.filter keep) (others.filter keepTwin) := by
  induction related with
  | nil => exact .nil
  | cons first _ ih =>
    simp only [filter_cons, agree first]
    split
    · exact .keep _ _ ih
    · exact .drop _ _ ih

end Chosen

/-! ### Weaves -/

/-- Keys that belong together, with values that do. -/
def Val.EntryAlike (Alike : Val → Val → Prop) (entry other : Val × Val) : Prop :=
  Alike entry.1 other.1 ∧ Alike entry.2 other.2

/-- Values of one kind.  What belongs together inside of data does so. -/
inductive Val.Built (Alike : Val → Val → Prop) : Val → Val → Prop where
  | bool (truth : Bool) : Built Alike (.bool truth) (.bool truth)
  | num (number : Number) : Built Alike (.num number) (.num number)
  | text (characters : String) : Built Alike (.text characters) (.text characters)
  | list {items others : List Val} :
      List.Forall₂ Alike items others → Built Alike (.list items) (.list others)
  | set {members others : List Val} :
      List.Forall₂ Alike members others → Built Alike (.set members) (.set others)
  | map {entries others : List (Val × Val)} :
      List.Forall₂ (EntryAlike Alike) entries others → Built Alike (.map entries) (.map others)
  | record {definition other : Definition} {fields others : List Val} :
      Built Alike (.record definition fields) (.record other others)
  | closure {function other : Closure} : Built Alike (.closure function) (.closure other)
  | method {receiver twin : Val} {function other : Closure} :
      Built Alike (.method receiver function) (.method twin other)
  | native {receiver twin : Val} {name other : String} :
      Built Alike (.native receiver name) (.native twin other)
  | constructor {definition other : Definition} :
      Built Alike (.constructor definition) (.constructor other)
  | conversion {kind other : Kind} : Built Alike (.conversion kind) (.conversion other)
  | exception (cause : Cause) (node : Option NodeId) :
      Built Alike (.exception cause node) (.exception cause node)

/-- A relation between values that putting data together and taking them apart keeps.  Exceptions belong
to themselves if they come from one of `size` nodes and tell of no cycle among sources. -/
structure Val.Weave
    (size : Nat) {World : Type} (Later : World → World → Prop) (Alike : World → Val → Val → Prop) :
    Prop where
  now : ∀ world, Later world world
  after : ∀ {first second third}, Later first second → Later second third → Later first third
  stays : ∀ {world later value twin}, Later world later → Alike world value twin →
    Alike later value twin
  built : ∀ {world value twin}, Alike world value twin → value.Built (Alike world) twin
  render_eq : ∀ {world value twin}, Alike world value twin → twin.render = value.render
  same_eq : ∀ {world value twin other otherTwin}, Alike world value twin →
    Alike world other otherTwin → twin.same otherTwin = value.same other
  bool : ∀ world truth, Alike world (.bool truth) (.bool truth)
  num : ∀ world number, Alike world (.num number) (.num number)
  text : ∀ world characters, Alike world (.text characters) (.text characters)
  ordinary : ∀ world cause node, cause.tellsCycle = false → node < size →
    Alike world (.failure cause node) (.failure cause node)
  list : ∀ {world items others}, List.Forall₂ (Alike world) items others →
    Alike world (.list items) (.list others)
  noMembers : ∀ world, Alike world (.set []) (.set [])
  fewerMembers : ∀ {world members others kept twins}, Chosen members others kept twins →
    Alike world (.set members) (.set others) → Alike world (.set kept) (.set twins)
  moreMembers : ∀ {world members others value twin}, Alike world (.set members) (.set others) →
    Alike world value twin →
      Alike world (.set (insertMember members value)) (.set (insertMember others twin))
  noEntries : ∀ world, Alike world (.map []) (.map [])
  fewerEntries : ∀ {world entries others kept twins}, Chosen entries others kept twins →
    Alike world (.map entries) (.map others) → Alike world (.map kept) (.map twins)
  moreEntries : ∀ {world entries others key keyTwin value twin},
    Alike world (.map entries) (.map others) → Alike world key keyTwin → Alike world value twin →
      Alike world (.map (insertEntry key value entries)) (.map (insertEntry keyTwin twin others))
  newValues : ∀ {world entries others values twins}, Alike world (.map entries) (.map others) →
    List.Forall₂ (Alike world) values twins →
      Alike world (.map ((entries.map (·.1)).zip values)) (.map ((others.map (·.1)).zip twins))
  keys : ∀ {world entries others}, Alike world (.map entries) (.map others) →
    Alike world (.set (entries.map (·.1))) (.set (others.map (·.1)))

namespace Val

/-- Values of which each belongs to itself, if it has a property. -/
def Selves (Good : Val → Prop) (value twin : Val) : Prop :=
  twin = value ∧ Good value

theorem forall₂_selves {Good : Val → Prop} {items others : List Val} :
    List.Forall₂ (Selves Good) items others ↔ others = items ∧ ∀ item ∈ items, Good item := by
  constructor
  · intro selves
    induction selves with
    | nil => simp
    | cons first _ ih =>
      obtain ⟨rfl, good⟩ := first
      obtain ⟨rfl, rest⟩ := ih
      exact ⟨rfl, forall_mem_cons.mpr ⟨good, rest⟩⟩
  · rintro ⟨rfl, good⟩
    exact forall₂_same.mpr fun item mem => ⟨rfl, good item mem⟩

theorem Fabric.weave
    {size : Nat} {World : Type} {Later : World → World → Prop} {Good : World → Val → Prop}
    (now : ∀ world, Later world world)
    (after : ∀ {first second third}, Later first second → Later second third → Later first third)
    (stays : ∀ {world later value}, Later world later → Good world value → Good later value)
    (fabric : ∀ world, Fabric size (Good world)) :
    Weave size Later fun world => Selves (Good world) where
  now := now
  after := after
  stays grown alike := ⟨alike.1, stays grown alike.2⟩
  built := by
    rintro world _ value ⟨rfl, good⟩
    cases value with
    | bool truth => exact .bool truth
    | num number => exact .num number
    | text characters => exact .text characters
    | list items => exact .list (forall₂_selves.mpr ⟨rfl, ((fabric world).list_iff items).mp good⟩)
    | set members => exact .set (forall₂_selves.mpr ⟨rfl, (fabric world).member members good⟩)
    | map entries =>
      refine .map (forall₂_same.mpr fun entry mem => ?_)
      obtain ⟨key, value⟩ := (fabric world).entry entries good entry mem
      exact ⟨⟨rfl, key⟩, rfl, value⟩
    | record definition fields => exact .record
    | closure function => exact .closure
    | method receiver function => exact .method
    | native receiver name => exact .native
    | «constructor» definition => exact .constructor
    | conversion kind => exact .conversion
    | exception cause node => exact .exception cause node
  render_eq alike := by rw [alike.1]
  same_eq alike other := by rw [alike.1, other.1]
  bool world truth := ⟨rfl, (fabric world).bool truth⟩
  num world number := ⟨rfl, (fabric world).num number⟩
  text world characters := ⟨rfl, (fabric world).text characters⟩
  ordinary world cause node ordinary inside :=
    ⟨rfl, (fabric world).ordinary cause node ordinary inside⟩
  list alike := by
    obtain ⟨rfl, good⟩ := forall₂_selves.mp alike
    exact ⟨rfl, ((fabric _).list_iff _).mpr good⟩
  noMembers world := ⟨rfl, (fabric world).noMembers⟩
  fewerMembers := by
    rintro world members _ kept twins chosen ⟨⟨⟩, good⟩
    obtain ⟨rfl, part⟩ := chosen.sublist rfl
    exact ⟨rfl, (fabric world).fewerMembers part good⟩
  moreMembers := by
    rintro world members _ value _ ⟨⟨⟩, good⟩ ⟨rfl, goodItem⟩
    exact ⟨rfl, (fabric world).moreMembers good goodItem⟩
  noEntries world := ⟨rfl, (fabric world).noEntries⟩
  fewerEntries := by
    rintro world entries _ kept twins chosen ⟨⟨⟩, good⟩
    obtain ⟨rfl, part⟩ := chosen.sublist rfl
    exact ⟨rfl, (fabric world).fewerEntries part good⟩
  moreEntries := by
    rintro world entries _ key _ value _ ⟨⟨⟩, good⟩ ⟨rfl, goodKey⟩ ⟨rfl, goodValue⟩
    exact ⟨rfl, (fabric world).moreEntries good goodKey goodValue⟩
  newValues := by
    rintro world entries _ values _ ⟨⟨⟩, good⟩ alike
    obtain ⟨rfl, goodValues⟩ := forall₂_selves.mp alike
    exact ⟨rfl, (fabric world).newValues good goodValues⟩
  keys := by
    rintro world entries _ ⟨⟨⟩, good⟩
    exact ⟨rfl, (fabric world).keys good⟩

end Val

end Reactor

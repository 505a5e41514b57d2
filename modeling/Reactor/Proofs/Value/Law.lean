import Reactor.Engine.Call

/-!
# Laws that values obey

Some properties of values cannot get lost in evaluation: whatever the engine makes out of values
that have the property has it too.  `Val.Law` collects what such a property has to satisfy, one small
fact for each way in which values are put together or taken apart.  The rest of the theory speaks of
an arbitrary lawful property, so it is developed once.  `Val.Fabric` is the part that concerns data
alone; it is all that native functions ask for.
-/

namespace Reactor

open List

/-- Whether an exception tells that a source borrows itself. -/
def Cause.tellsCycle : Cause → Bool
  | cyclicBorrow _ => true
  | _ => false

/--
A property of values that putting data together and taking them apart keeps.  Exceptions have it if
they come from one of `size` nodes and tell of no cycle among sources: data alone give rise to no such
exception.
-/
structure Val.Fabric (size : Nat) (Good : Val → Prop) : Prop where
  bool : ∀ truth, Good (.bool truth)
  num : ∀ number, Good (.num number)
  text : ∀ characters, Good (.text characters)
  conversion : ∀ kind, Good (.conversion kind)
  ordinary : ∀ cause node, cause.tellsCycle = false → node < size → Good (.failure cause node)
  list_iff : ∀ items, Good (.list items) ↔ ∀ item ∈ items, Good item
  /-- Sets are taken apart, made smaller and extended. -/
  member : ∀ members, Good (.set members) → ∀ item ∈ members, Good item
  noMembers : Good (.set [])
  fewerMembers : ∀ {kept members : List Val},
    kept.Sublist members → Good (.set members) → Good (.set kept)
  moreMembers : ∀ {members item},
    Good (.set members) → Good item → Good (.set (Val.insertMember members item))
  /-- Maps are taken apart, made smaller and extended, and their values replaced. -/
  entry : ∀ entries, Good (.map entries) → ∀ entry ∈ entries, Good entry.1 ∧ Good entry.2
  noEntries : Good (.map [])
  fewerEntries : ∀ {kept entries : List (Val × Val)},
    kept.Sublist entries → Good (.map entries) → Good (.map kept)
  moreEntries : ∀ {entries key value},
    Good (.map entries) → Good key → Good value → Good (.map (Val.insertEntry key value entries))
  newValues : ∀ {entries : List (Val × Val)} {values : List Val},
    Good (.map entries) → (∀ value ∈ values, Good value) →
      Good (.map ((entries.map (·.1)).zip values))
  keys : ∀ {entries : List (Val × Val)}, Good (.map entries) → Good (.set (entries.map (·.1)))

/--
A property of values that evaluation keeps, in a program with `size` nodes.  Functions that have it
have their bodies among the nodes.
-/
structure Val.Law (size : Nat) (Good : Val → Prop) : Prop extends Val.Fabric size Good where
  cycle : ∀ name node, node < size → Good (.failure (.cyclicBorrow name) node)
  closure_iff : ∀ function, Good (.closure function) ↔ function.body < size
  constructor_iff : ∀ definition,
    Good (.constructor definition) ↔ ∀ function ∈ definition.functions, function.body < size
  /-- An instance comes from a constructor and has one value for each field. -/
  parts : ∀ {definition fields}, Good (.record definition fields) →
    Good (.constructor definition) ∧ ∀ field ∈ fields, Good field
  construct : ∀ {definition} {args : List Val}, Good (.constructor definition) →
    definition.fields.length = args.length → (∀ arg ∈ args, Good arg) →
      Good (.record definition args)
  method_iff : ∀ receiver function,
    Good (.method receiver function) ↔ Good receiver ∧ function.body < size
  native_iff : ∀ receiver name, Good (.native receiver name) ↔ Good receiver

namespace Val

theorem mem_of_mem_insertMember {members : List Val} {item other : Val}
    (present : other ∈ insertMember members item) :
    other ∈ members ∨ other = item := by
  simp only [insertMember] at present
  split at present
  · exact Or.inl present
  · simpa using present

theorem mem_of_mem_insertEntry {entries : List (Val × Val)} {key value : Val} {entry : Val × Val}
    (present : entry ∈ insertEntry key value entries) :
    entry = (key, value) ∨ entry ∈ entries ∨ ∃ old ∈ entries, entry = (old.1, value) := by
  induction entries with
  | nil => exact Or.inl (mem_singleton.mp present)
  | cons first rest ih =>
    obtain ⟨other, old⟩ := first
    simp only [insertEntry] at present
    split at present
    · rcases mem_cons.mp present with equal | later
      · exact Or.inr (Or.inr ⟨(other, old), mem_cons_self, equal⟩)
      · exact Or.inr (Or.inl (mem_cons_of_mem _ later))
    · rcases mem_cons.mp present with equal | later
      · exact Or.inr (Or.inl (equal ▸ mem_cons_self))
      · rcases ih later with equal | within | ⟨replaced, within, equal⟩
        · exact Or.inl equal
        · exact Or.inr (Or.inl (mem_cons_of_mem _ within))
        · exact Or.inr (Or.inr ⟨replaced, mem_cons_of_mem _ within, equal⟩)

end Val

namespace Val.Fabric

variable {size : Nat} {Good : Val → Prop}

theorem ofParts (bool : ∀ truth, Good (.bool truth)) (num : ∀ number, Good (.num number))
    (text : ∀ characters, Good (.text characters)) (conversion : ∀ kind, Good (.conversion kind))
    (ordinary : ∀ cause node, cause.tellsCycle = false → node < size → Good (.failure cause node))
    (list_iff : ∀ items, Good (.list items) ↔ ∀ item ∈ items, Good item)
    (set_iff : ∀ members, Good (.set members) ↔ ∀ item ∈ members, Good item)
    (map_iff : ∀ entries, Good (.map entries) ↔ ∀ entry ∈ entries, Good entry.1 ∧ Good entry.2) :
    Fabric size Good where
  bool := bool
  num := num
  text := text
  conversion := conversion
  ordinary := ordinary
  list_iff := list_iff
  member _ := (set_iff _).mp
  noMembers := (set_iff _).mpr (by simp)
  fewerMembers sublist good :=
    (set_iff _).mpr fun item mem => (set_iff _).mp good item (sublist.subset mem)
  moreMembers good goodItem := by
    rw [set_iff] at good ⊢
    intro other present
    rcases mem_of_mem_insertMember present with old | equal
    · exact good other old
    · rwa [equal]
  entry _ := (map_iff _).mp
  noEntries := (map_iff _).mpr (by simp)
  fewerEntries sublist good :=
    (map_iff _).mpr fun entry mem => (map_iff _).mp good entry (sublist.subset mem)
  moreEntries good goodKey goodValue := by
    rw [map_iff] at good ⊢
    intro entry present
    rcases mem_of_mem_insertEntry present with equal | old | ⟨replaced, old, equal⟩
    · rw [equal]
      exact ⟨goodKey, goodValue⟩
    · exact good entry old
    · rw [equal]
      exact ⟨(good replaced old).1, goodValue⟩
  newValues good goodValues := by
    rw [map_iff] at good ⊢
    intro entry mem
    obtain ⟨isKey, isValue⟩ := of_mem_zip (show (entry.1, entry.2) ∈ _ from mem)
    obtain ⟨old, present, equal⟩ := mem_map.mp isKey
    exact ⟨equal ▸ (good old present).1, goodValues entry.2 isValue⟩
  keys good := by
    rw [set_iff]
    intro key mem
    obtain ⟨entry, present, rfl⟩ := mem_map.mp mem
    exact ((map_iff _).mp good entry present).1

theorem ofTrue (size : Nat) : Fabric size fun _ => True :=
  .ofParts (fun _ => trivial) (fun _ => trivial) (fun _ => trivial) (fun _ => trivial)
    (fun _ _ _ _ => trivial) (by simp) (by simp) (by simp)

section

variable (law : Fabric size Good)
include law

theorem smaller {fewer : Nat} (le : fewer ≤ size) : Fabric fewer Good :=
  { law with
    ordinary := fun cause node ordinary inside =>
      law.ordinary cause node ordinary (Nat.lt_of_lt_of_le inside le) }

theorem foldl_insertMember {items members : List Val} (good : ∀ item ∈ items, Good item)
    (start : Good (.set members)) :
    Good (.set (items.foldl Val.insertMember members)) := by
  induction items generalizing members with
  | nil => exact start
  | cons item rest ih =>
    exact ih
      (fun other later => good other (mem_cons_of_mem _ later))
      (law.moreMembers start (good item mem_cons_self))

theorem ofMembers {items : List Val} (good : ∀ item ∈ items, Good item) : Good (.ofMembers items) :=
  law.foldl_insertMember good law.noMembers

theorem ofEntries {entries : List (Val × Val)}
    (good : ∀ entry ∈ entries, Good entry.1 ∧ Good entry.2) :
    Good (.ofEntries entries) := by
  have extended : ∀ (entries start : List (Val × Val)),
      (∀ entry ∈ entries, Good entry.1 ∧ Good entry.2) → Good (.map start) →
        Good (.map (entries.foldl
          (fun entries entry => Val.insertEntry entry.1 entry.2 entries) start)) := by
    intro entries
    induction entries with
    | nil => exact fun _ _ startGood => startGood
    | cons entry rest ih =>
      intro start allGood startGood
      have here := allGood entry mem_cons_self
      exact ih _
        (fun other later => allGood other (mem_cons_of_mem _ later))
        (law.moreEntries startGood here.1 here.2)
  exact extended entries [] good law.noEntries

end

mutual

theorem datum (law : Fabric size Good) (datum : Datum) : Good datum.toVal := by
  cases datum with
  | bool truth => simpa only [Datum.toVal] using law.bool truth
  | num value units =>
    rw [Datum.toVal]
    exact law.num _
  | text characters => simpa only [Datum.toVal] using law.text characters
  | list items =>
    rw [Datum.toVal, law.list_iff]
    exact law.data items
  | set members =>
    rw [Datum.toVal]
    exact law.ofMembers (law.data members)
  | map entries =>
    rw [Datum.toVal]
    exact law.ofEntries (law.dataEntries entries)

theorem data (law : Fabric size Good) (items : List Datum) :
    ∀ item ∈ Datum.toVals items, Good item := by
  cases items with
  | nil => simp [Datum.toVals]
  | cons first rest =>
    intro item mem
    rw [Datum.toVals] at mem
    rcases mem_cons.mp mem with rfl | later
    · exact law.datum first
    · exact law.data rest item later

theorem dataEntries (law : Fabric size Good) (entries : List (Datum × Datum)) :
    ∀ entry ∈ Datum.toEntries entries, Good entry.1 ∧ Good entry.2 := by
  match entries with
  | [] => simp [Datum.toEntries]
  | (key, value) :: rest =>
    intro entry mem
    rw [Datum.toEntries] at mem
    rcases mem_cons.mp mem with rfl | later
    · exact ⟨law.datum key, law.datum value⟩
    · exact law.dataEntries rest entry later

end

end Val.Fabric

namespace Val.Law

variable {size : Nat} {Good : Val → Prop}

variable (law : Law size Good)
include law

theorem failure (cause : Cause) (node : NodeId) (inside : node < size) :
    Good (.failure cause node) := by
  cases cause with
  | cyclicBorrow name => exact law.cycle name node inside
  | _ => exact law.ordinary _ node rfl inside

theorem body_lt_of_function? {definition : Definition} {fields : List Val} {name : String}
    {function : Closure} (good : Good (.record definition fields))
    (found : definition.function? name = some function) :
    function.body < size := by
  have functions := (law.constructor_iff definition).mp (law.parts good).1
  exact functions function (mem_of_find?_eq_some found)

theorem visibleFields {receiver : Val} (good : Good receiver) :
    ∀ entry ∈ receiver.visibleFields, Good entry.2 := by
  cases receiver with
  | record definition fields =>
    intro entry mem
    exact (law.parts good).2 entry.2 (of_mem_zip mem).2
  | _ => simp [Val.visibleFields]

theorem access {subject : Val} (good : Good subject) (name : String) {node : NodeId}
    (inside : node < size) :
    Good (subject.access name node) := by
  have native : Good
      (if Native.has subject.kind name then .native subject name
        else .failure (.unknownField subject.ownerName name) node) := by
    split
    · exact (law.native_iff subject name).mpr good
    · exact law.failure _ node inside
  cases subject with
  | record definition fields =>
    simp only [Val.access]
    split
    · next value found =>
      obtain ⟨place, -, present⟩ := Option.bind_eq_some_iff.mp found
      exact (law.parts good).2 value (mem_of_getElem? present)
    · next function _ found =>
      exact (law.method_iff _ _).mpr ⟨good, law.body_lt_of_function? good found⟩
    · exact native
  | _ => exact native

end Val.Law

end Reactor

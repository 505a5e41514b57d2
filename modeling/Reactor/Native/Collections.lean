import Reactor.Native.Plan

/-!
# Native functions of lists, sets and maps

Positions in lists count from one.  Functions given to a map receive the key and the value.  Where
functions are called for one item after the other, the first exception is the value of the whole.
-/

namespace Reactor.Native

/-! ### Lists -/

/-- Go on with the items of a list. -/
def withItems (next : List Val → Val) (node : NodeId) : Val → Val
  | .list items => next items
  | other => other.mismatch "List" node

/-- The number of items. -/
def lengthOfList : NodeId → Val → Val :=
  withItems fun items => .plain items.length.toFloat

/-- The first item, or an exception if there is none. -/
def firstOfList (node : NodeId) : Val → Val :=
  withItems (fun items => items.head?.getD (.failure (.indexOutOfBounds "1" 0) node)) node

/-- The last item, or an exception if there is none. -/
def lastOfList (node : NodeId) : Val → Val :=
  withItems (fun items => items.getLast?.getD (.failure (.indexOutOfBounds "-1" 0) node)) node

/-- Whether an item equals the value. -/
def listHas (node : NodeId) (receiver item : Val) : Val :=
  withItems (fun items => .bool (item.memberOf items)) node receiver

/-- The list with an item more, at the end. -/
def addToList (node : NodeId) (receiver item : Val) : Val :=
  withItems (fun items => .list (items ++ [item])) node receiver

/-- The position that a whole number without unit gives. -/
def position? : Val → Option Int
  | .num number => if number.units.isPlain then Decimal.whole? number.value else none
  | _ => none

/-- The item at a position.  It is read only after the position was found to lie inside the list. -/
def itemOfList (node : NodeId) (receiver index : Val) : Val :=
  withItems
    (fun items =>
      match position? index with
      | none => index.mismatch "whole Number" node
      | some position =>
        if inside : 1 ≤ position ∧ position ≤ items.length then
          items.get ⟨position.toNat - 1, by omega⟩
        else .failure (.indexOutOfBounds index.render items.length) node)
    node receiver

/-- The items in reverse order. -/
def reverseList : NodeId → Val → Val :=
  withItems fun items => .list items.reverse

/-- The list without the items that equal the value. -/
def listWithout (node : NodeId) (receiver item : Val) : Val :=
  withItems (fun items => .list (items.filter fun other => !other.same item)) node receiver

/-- The list with each item replaced by what a function gives for it. -/
def translateList (node : NodeId) (receiver function : Val) : Plan (receiver.Within [function]) :=
  match receiver with
  | .list items =>
    .collect function .list [] (items.map fun item => [item]) fun args member => by
      obtain ⟨item, present, rfl⟩ := List.mem_map.mp member
      have := (Val.sizeOf_item_lt present).1
      simp only [Val.Within, Val.weight, Val.lastSize]
      omega
  | other => .done (other.mismatch "List" node)

/-- The items for which a function holds. -/
def filterList (node : NodeId) (receiver function : Val) : Plan (receiver.Within [function]) :=
  match receiver with
  | .list items =>
    .select node function (fun item => [item]) .list [] items fun item member => by
      have := (Val.sizeOf_item_lt member).1
      simp only [Val.Within, Val.weight, Val.lastSize]
      omega
  | other => .done (other.mismatch "List" node)

/-- Whether a function holds for all items. -/
def everyItem (node : NodeId) (receiver function : Val) : Plan (receiver.Within [function]) :=
  match receiver with
  | .list items =>
    .every node function items fun item member => by
      have := (Val.sizeOf_item_lt member).1
      simp only [Val.Within, Val.weight, Val.lastSize]
      omega
  | other => .done (other.mismatch "List" node)

/-- What a function makes of an initial value and the items, one after the other. -/
def combineList (node : NodeId) (receiver initial function : Val) :
    Plan (receiver.Within [initial, function]) :=
  match receiver with
  | .list items =>
    .fold function initial items fun total item member => by
      have := (Val.sizeOf_item_lt member).1
      simp only [Val.Within, Val.weight, Val.lastSize]
      omega
  | other => .done (other.mismatch "List" node)

/-- The members of a set or the values of a map, in their order. -/
def convertToList (value : Val) (node : NodeId) : Val :=
  match value with
  | .list _ => value
  | .set members => .list members
  | .map entries => .list (entries.map (·.2))
  | _ => value.mismatch "List" node

/-! ### Sets -/

/-- Go on with the members of a set. -/
def withMembers (next : List Val → Val) (node : NodeId) : Val → Val
  | .set members => next members
  | other => other.mismatch "Set" node

/-- The number of members. -/
def sizeOfSet : NodeId → Val → Val :=
  withMembers fun members => .plain members.length.toFloat

/-- Whether a member equals the value. -/
def setHas (node : NodeId) (receiver item : Val) : Val :=
  withMembers (fun members => .bool (item.memberOf members)) node receiver

/-- The set of the members and the item, which stays out when an equal one is there. -/
def addToSet (node : NodeId) (receiver item : Val) : Val :=
  withMembers (fun members => .ofMembers (members ++ [item])) node receiver

/-- The set without the members that equal the value. -/
def removeFromSet (node : NodeId) (receiver item : Val) : Val :=
  withMembers (fun members => .set (members.filter fun other => !other.same item)) node receiver

/-- The members of two sets, those of the first one before the others. -/
def uniteSets (node : NodeId) (receiver other : Val) : Val :=
  withMembers
    (fun mine => withMembers (fun theirs => .ofMembers (mine ++ theirs)) node other)
    node receiver

/-- The members for which a function holds. -/
def filterSet (node : NodeId) (receiver function : Val) : Plan (receiver.Within [function]) :=
  match receiver with
  | .set members =>
    .select node function (fun item => [item]) .set [] members fun item member => by
      have := (Val.sizeOf_item_lt member).2
      simp only [Val.Within, Val.weight, Val.lastSize]
      omega
  | other => .done (other.mismatch "Set" node)

/-- The items of a list, each at its first place. -/
def convertToSet (value : Val) (node : NodeId) : Val :=
  match value with
  | .set _ => value
  | .list items => .ofMembers items
  | _ => value.mismatch "Set" node

/-! ### Maps -/

/-- Go on with the entries of a map. -/
def withEntries (next : List (Val × Val) → Val) (node : NodeId) : Val → Val
  | .map entries => next entries
  | other => other.mismatch "Map" node

/-- The number of entries. -/
def sizeOfMap : NodeId → Val → Val :=
  withEntries fun entries => .plain entries.length.toFloat

/-- Whether a key equals the value. -/
def mapHas (node : NodeId) (receiver key : Val) : Val :=
  withEntries (fun entries => .bool (entries.any fun entry => entry.1.same key)) node receiver

/-- The value of a key, or an exception if the key is missing. -/
def valueInMap (node : NodeId) (receiver key : Val) : Val :=
  withEntries
    (fun entries =>
      match entries.find? fun entry => entry.1.same key with
      | some entry => entry.2
      | none => .failure (.missingKey key.render) node)
    node receiver

/-- The map in which a key has the value. -/
def setInMap (node : NodeId) (receiver key value : Val) : Val :=
  withEntries (fun entries => .ofEntries (entries ++ [(key, value)])) node receiver

/-- The map without a key. -/
def unsetInMap (node : NodeId) (receiver key : Val) : Val :=
  withEntries (fun entries => .map (entries.filter fun entry => !entry.1.same key)) node receiver

/-- The map without the entries whose value equals the given one. -/
def removeFromMap (node : NodeId) (receiver value : Val) : Val :=
  withEntries (fun entries => .map (entries.filter fun entry => !entry.2.same value)) node receiver

/-- The entries for which a function holds. -/
def filterMap (node : NodeId) (receiver function : Val) : Plan (receiver.Within [function]) :=
  match receiver with
  | .map entries =>
    .select node function (fun entry => [entry.1, entry.2]) .map [] entries fun entry member => by
      have := Val.sizeOf_entry_lt member
      simp only [Val.Within, Val.weight, Val.lastSize]
      omega
  | other => .done (other.mismatch "Map" node)

/-- The map with each value replaced by what a function gives for its entry. -/
def translateMap (node : NodeId) (receiver function : Val) : Plan (receiver.Within [function]) :=
  match receiver with
  | .map entries =>
    .collect function (fun values => .map ((entries.map (·.1)).zip values)) []
      (entries.map fun entry => [entry.1, entry.2]) fun args member => by
        obtain ⟨entry, present, rfl⟩ := List.mem_map.mp member
        have := Val.sizeOf_entry_lt present
        simp only [Val.Within, Val.weight, Val.lastSize]
        omega
  | other => .done (other.mismatch "Map" node)

/-- The keys, as a set. -/
def keysOfMap : NodeId → Val → Val :=
  withEntries fun entries => .set (entries.map (·.1))

/-- The values, as a list. -/
def valuesOfMap : NodeId → Val → Val :=
  withEntries fun entries => .list (entries.map (·.2))

/-- The key and the value that a list of two items stands for. -/
def pair? : Val → Option (Val × Val)
  | .list [key, value] => some (key, value)
  | _ => none

/-- The map that a list of pairs stands for. -/
def convertToMap (value : Val) (node : NodeId) : Val :=
  match value with
  | .map _ => value
  | .list items =>
    match items.mapM pair? with
    | some entries => .ofEntries entries
    | none => value.mismatch "Map" node
  | _ => value.mismatch "Map" node

end Reactor.Native

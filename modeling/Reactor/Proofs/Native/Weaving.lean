import Reactor.Proofs.Value.Weave

/-!
# Native functions keep together what belongs together

Native functions see of a value what programs see of it.  On inputs that belong together they follow
plans that do so too: they call functions that belong together on such inputs, and come to such values
as long as the calls do.  Calls may lead to later worlds, so a plan has to go on in all of them.

This is shown once for every weave.  Properties of single values are the weaves in which each value
belongs to itself, so every function of the catalogue and every conversion also keeps them.
-/

namespace Reactor

open List

/-- Plans that belong together. -/
inductive Plan.Woven
    {World : Type} (Later : World → World → Prop) (Alike : World → Val → Val → Prop)
    {Allowed Permitted : Val → List Val → Prop} : World → Plan Allowed → Plan Permitted → Prop where
  | done {world : World} {value other : Val} :
      Alike world value other → Woven Later Alike world (.done value) (.done other)
  | call {world : World} {function twin : Val} {args inputs : List Val}
      {allowed : Allowed function args} {permitted : Permitted twin inputs}
      {resume : Val → Plan Allowed} {proceed : Val → Plan Permitted} :
      Alike world function twin → List.Forall₂ (Alike world) args inputs →
      (∀ later, Later world later → ∀ value other, Alike later value other →
        Woven Later Alike later (resume value) (proceed other)) →
        Woven Later Alike world (.call function args allowed resume)
          (.call twin inputs permitted proceed)

variable {size : Nat} {World : Type} {Later : World → World → Prop}
  {Alike : World → Val → Val → Prop} {world : World}

namespace Val.Weave

variable (weave : Weave size Later Alike) {value twin : Val}
include weave

theorem stays_all {later : World} (grown : Later world later) {items others : List Val}
    (alike : List.Forall₂ (Alike world) items others) : List.Forall₂ (Alike later) items others :=
  alike.imp fun _ _ => weave.stays grown

theorem mismatch
    (alike : Alike world value twin) (expected : String) {node : NodeId} (inside : node < size) :
    Alike world (value.mismatch expected node) (twin.mismatch expected node) := by
  simp only [Val.mismatch, weave.render_eq alike]
  exact weave.ordinary world _ node rfl inside

theorem isException_eq (alike : Alike world value twin) : twin.isException = value.isException := by
  cases weave.built alike <;> rfl

theorem memberOf_eq {items others : List Val} (first : Alike world value twin)
    (alike : List.Forall₂ (Alike world) items others) :
    twin.memberOf others = value.memberOf items := by
  unfold memberOf
  induction alike with
  | nil => rfl
  | cons head _ ih => simp only [any_cons, weave.same_eq head first, ih]

theorem any_key_eq {entries others : List (Val × Val)} (key : Alike world value twin)
    (alike : List.Forall₂ (EntryAlike (Alike world)) entries others) :
    (others.any fun entry => entry.1.same twin) = entries.any fun entry => entry.1.same value := by
  induction alike with
  | nil => rfl
  | cons head _ ih => simp only [any_cons, weave.same_eq head.1 key, ih]

theorem ofMembers {items others : List Val} (alike : List.Forall₂ (Alike world) items others) :
    Alike world (.ofMembers items) (.ofMembers others) := by
  have extended : ∀ {start startTwin : List Val}, Alike world (.set start) (.set startTwin) →
      Alike world (.set (items.foldl insertMember start)) (.set (others.foldl insertMember startTwin)) := by
    induction alike with
    | nil => exact fun started => started
    | cons head _ ih => exact fun started => ih (weave.moreMembers started head)
  exact extended (weave.noMembers world)

theorem ofEntries {entries others : List (Val × Val)}
    (alike : List.Forall₂ (EntryAlike (Alike world)) entries others) :
    Alike world (.ofEntries entries) (.ofEntries others) := by
  have extended : ∀ {start startTwin : List (Val × Val)}, Alike world (.map start) (.map startTwin) →
      Alike world
        (.map (entries.foldl (fun entries entry => insertEntry entry.1 entry.2 entries) start))
        (.map (others.foldl (fun entries entry => insertEntry entry.1 entry.2 entries) startTwin)) := by
    induction alike with
    | nil => exact fun started => started
    | cons head _ ih =>
      exact fun started => ih (weave.moreEntries started head.1 head.2)
  exact extended (weave.noEntries world)

end Val.Weave

namespace Plan

variable {Allowed Permitted : Val → List Val → Prop} {function twin : Val} {node : NodeId}
  (weave : Val.Weave size Later Alike) (inside : node < size)

include weave inside in
theorem woven_decide {next : Bool → Plan Allowed} {proceed : Bool → Plan Permitted}
    (alike : ∀ truth, Woven Later Alike world (next truth) (proceed truth))
    {value other : Val} (answers : Alike world value other) :
    Woven Later Alike world (decide node next value) (decide node proceed other) := by
  have refused := weave.mismatch answers "Boolean" inside
  cases weave.built answers with
  | bool truth => exact alike truth
  | exception cause origin => exact .done answers
  | _ => exact .done refused

include weave in
theorem woven_collect {finish finishTwin : List Val → Val} (callable : Alike world function twin)
    (finished : ∀ later, Later world later → ∀ values others,
      List.Forall₂ (Alike later) values others → Alike later (finish values) (finishTwin others))
    {calls twins : List (List Val)} (allowed : ∀ args ∈ calls, Allowed function args)
    (permitted : ∀ args ∈ twins, Permitted twin args)
    (inputs : List.Forall₂ (List.Forall₂ (Alike world)) calls twins)
    {found others : List Val} (sofar : List.Forall₂ (Alike world) found others) :
    Woven Later Alike world (collect function finish found calls allowed)
      (collect twin finishTwin others twins permitted) := by
  induction calls generalizing world twins found others with
  | nil =>
    cases inputs
    exact .done (finished world (weave.now world) _ _ (rel_reverse sofar))
  | cons args rest ih =>
    cases inputs with | cons first remaining => ?_
    refine .call callable first fun later grown value other answers => ?_
    simp only [weave.isException_eq answers]
    split
    · exact .done answers
    · exact ih (weave.stays grown callable)
        (fun last more => finished last (weave.after grown more)) _ _
        (remaining.imp fun _ _ => weave.stays_all grown)
        (.cons answers (weave.stays_all grown sofar))

include weave inside in
theorem woven_select
    {α : Type} {args : α → List Val} {finish : List α → Val} (callable : Alike world function twin)
    {items others : List α} (allowed : ∀ item ∈ items, Allowed function (args item))
    (permitted : ∀ item ∈ others, Permitted twin (args item))
    (inputs : List.Forall₂ (fun item other => List.Forall₂ (Alike world) (args item) (args other))
      items others)
    {kept keptTwin : List α}
    (finished : ∀ later, Later world later → ∀ chosen twins, Chosen items others chosen twins →
      Alike later (finish (kept.reverse ++ chosen)) (finish (keptTwin.reverse ++ twins))) :
    Woven Later Alike world (select node function args finish kept items allowed)
      (select node twin args finish keptTwin others permitted) := by
  induction items generalizing world others kept keptTwin with
  | nil =>
    cases inputs
    have last := finished world (weave.now world) [] [] .nil
    rw [append_nil, append_nil] at last
    exact .done last
  | cons item rest ih =>
    cases inputs with | cons first remaining => ?_
    refine .call callable first fun later grown value other answers => ?_
    refine woven_decide weave inside (fun truth => ?_) answers
    refine ih (weave.stays grown callable) _ _
      (remaining.imp fun _ _ => weave.stays_all grown) fun last more chosen twins part => ?_
    cases truth with
    | true => simpa using finished last (weave.after grown more) _ _ (.keep item _ part)
    | false => exact finished last (weave.after grown more) _ _ (.drop item _ part)

include weave inside in
theorem woven_every (callable : Alike world function twin) {items others : List Val}
    (allowed : ∀ item ∈ items, Allowed function [item])
    (permitted : ∀ item ∈ others, Permitted twin [item])
    (alike : List.Forall₂ (Alike world) items others) :
    Woven Later Alike world (every node function items allowed)
      (every node twin others permitted) := by
  induction items generalizing world others with
  | nil =>
    cases alike
    exact .done (weave.bool world true)
  | cons item rest ih =>
    cases alike with | cons first remaining => ?_
    refine .call callable (.cons first .nil) fun later grown value other answers => ?_
    refine woven_decide weave inside (fun truth => ?_) answers
    split
    · exact ih (weave.stays grown callable) _ _ (weave.stays_all grown remaining)
    · exact .done (weave.bool later false)

include weave in
theorem woven_fold (callable : Alike world function twin) {items others : List Val}
    (allowed : ∀ total, ∀ item ∈ items, Allowed function [total, item])
    (permitted : ∀ total, ∀ item ∈ others, Permitted twin [total, item])
    (alike : List.Forall₂ (Alike world) items others)
    {total totalTwin : Val} (sofar : Alike world total totalTwin) :
    Woven Later Alike world (fold function total items allowed)
      (fold twin totalTwin others permitted) := by
  induction items generalizing world others total totalTwin with
  | nil =>
    cases alike
    exact .done sofar
  | cons item rest ih =>
    cases alike with | cons first remaining => ?_
    refine .call callable (.cons sofar (.cons first .nil)) fun later grown value other answers => ?_
    simp only [weave.isException_eq answers]
    split
    · exact .done answers
    · exact ih (weave.stays grown callable) _ _ (weave.stays_all grown remaining) answers

end Plan

namespace Native

section Functions

variable {node : NodeId} {receiver twin other otherTwin function functionTwin : Val}
  (weave : Val.Weave size Later Alike) (inside : node < size)
  (first : Alike world receiver twin) (second : Alike world other otherTwin)
  (callable : Alike world function functionTwin)
include weave inside first

/-! ### Truths, numbers and texts -/

theorem woven_negateTruth : Alike world (negateTruth node receiver) (negateTruth node twin) := by
  have refused := weave.mismatch first "Boolean" inside
  cases weave.built first with
  | bool truth => exact weave.bool world _
  | _ => exact refused

theorem woven_changeNumber (change : Float → Float) :
    Alike world (changeNumber change node receiver) (changeNumber change node twin) := by
  have refused := weave.mismatch first "Number" inside
  cases weave.built first with
  | num number => exact weave.num world _
  | _ => exact refused

theorem woven_withText {next nextTwin : String → Val}
    (alike : ∀ characters, Alike world (next characters) (nextTwin characters)) :
    Alike world (withText next node receiver) (withText nextTwin node twin) := by
  have refused := weave.mismatch first "Text" inside
  cases weave.built first with
  | text characters => exact alike characters
  | _ => exact refused

include second

theorem woven_combineTruths (combine : Bool → Bool → Bool) :
    Alike world (combineTruths combine node receiver other)
      (combineTruths combine node twin otherTwin) := by
  have refusedFirst := weave.mismatch first "Boolean" inside
  have refusedSecond := weave.mismatch second "Boolean" inside
  cases weave.built first with
  | bool left =>
    cases weave.built second with
    | bool right => exact weave.bool world _
    | _ => exact refusedSecond
  | _ => exact refusedFirst

theorem woven_withNumbers {combine combineTwin : Number → Number → Val}
    (combined : ∀ left right, Alike world (combine left right) (combineTwin left right)) :
    Alike world (withNumbers combine node receiver other)
      (withNumbers combineTwin node twin otherTwin) := by
  have refusedFirst := weave.mismatch first "Number" inside
  have refusedSecond := weave.mismatch second "Number" inside
  cases weave.built first with
  | num left =>
    cases weave.built second with
    | num right => exact combined left right
    | _ => exact refusedSecond
  | _ => exact refusedFirst

theorem woven_withLikeNumbers {combine : Number → Number → Val}
    (combined : ∀ left right, Alike world (combine left right) (combine left right)) :
    Alike world (withLikeNumbers combine node receiver other)
      (withLikeNumbers combine node twin otherTwin) := by
  refine woven_withNumbers weave inside first second fun left right => ?_
  split
  · exact combined left right
  · exact weave.ordinary world _ node rfl inside

theorem woven_divideNumbers :
    Alike world (divideNumbers node receiver other) (divideNumbers node twin otherTwin) := by
  refine woven_withNumbers weave inside first second fun left right => ?_
  split
  · exact weave.ordinary world _ node rfl inside
  · exact weave.num world _

theorem woven_remainderOfNumbers :
    Alike world (remainderOfNumbers node receiver other) (remainderOfNumbers node twin otherTwin) := by
  refine woven_withLikeNumbers weave inside first second fun left right => ?_
  split
  · exact weave.ordinary world _ node rfl inside
  · exact weave.num world _

theorem woven_powerOfNumbers :
    Alike world (powerOfNumbers node receiver other) (powerOfNumbers node twin otherTwin) := by
  refine woven_withNumbers weave inside first second fun left right => ?_
  split
  · exact weave.mismatch second _ inside
  · split
    · exact weave.num world _
    · exact weave.ordinary world _ node rfl inside

theorem woven_withTexts {combine : String → String → Val}
    (combined : ∀ left right, Alike world (combine left right) (combine left right)) :
    Alike world (withTexts combine node receiver other) (withTexts combine node twin otherTwin) :=
  woven_withText weave inside first fun left => woven_withText weave inside second (combined left)

theorem woven_repeatText :
    Alike world (repeatText node receiver other) (repeatText node twin otherTwin) := by
  have counted : count? otherTwin = count? other := by cases weave.built second <;> rfl
  refine woven_withText weave inside first fun characters => ?_
  rw [counted]
  split
  · exact weave.mismatch second _ inside
  · split
    · split
      · exact weave.text world _
      · exact weave.text world _
    · exact weave.ordinary world _ node rfl inside

theorem woven_segmentText :
    Alike world (segmentText node receiver other) (segmentText node twin otherTwin) := by
  have texts : ∀ {α : Type} (parts : List α) (text : α → String),
      Alike world (.list (parts.map fun part => .text (text part)))
        (.list (parts.map fun part => .text (text part))) := by
    intro α parts text
    refine weave.list ?_
    rw [forall₂_map_left_iff, forall₂_map_right_iff, forall₂_same]
    exact fun part _ => weave.text world _
  refine woven_withTexts weave inside first second fun characters delimiter => ?_
  split
  · exact texts _ _
  · exact texts _ _

/-! ### Lists, sets and maps -/

omit second

theorem woven_withItems {next nextTwin : List Val → Val}
    (alike : ∀ items others, List.Forall₂ (Alike world) items others →
      Alike world (next items) (nextTwin others)) :
    Alike world (withItems next node receiver) (withItems nextTwin node twin) := by
  have refused := weave.mismatch first "List" inside
  cases weave.built first with
  | list items => exact alike _ _ items
  | _ => exact refused

theorem woven_withMembers {next nextTwin : List Val → Val}
    (alike : ∀ members others, Alike world (.set members) (.set others) →
      List.Forall₂ (Alike world) members others → Alike world (next members) (nextTwin others)) :
    Alike world (withMembers next node receiver) (withMembers nextTwin node twin) := by
  have refused := weave.mismatch first "Set" inside
  cases weave.built first with
  | set members => exact alike _ _ first members
  | _ => exact refused

theorem woven_withEntries {next nextTwin : List (Val × Val) → Val}
    (alike : ∀ entries others, Alike world (.map entries) (.map others) →
      List.Forall₂ (Val.EntryAlike (Alike world)) entries others →
        Alike world (next entries) (nextTwin others)) :
    Alike world (withEntries next node receiver) (withEntries nextTwin node twin) := by
  have refused := weave.mismatch first "Map" inside
  cases weave.built first with
  | map entries => exact alike _ _ first entries
  | _ => exact refused

omit weave inside first in
theorem woven_getD {found foundTwin : Option Val} (alike : Option.Rel (Alike world) found foundTwin)
    {absent absentTwin : Val} (otherwise : Alike world absent absentTwin) :
    Alike world (found.getD absent) (foundTwin.getD absentTwin) := by
  cases alike with
  | some item => exact item
  | none => exact otherwise

theorem woven_firstOfList : Alike world (firstOfList node receiver) (firstOfList node twin) := by
  refine woven_withItems weave inside first fun items others alike =>
    woven_getD ?_ (weave.ordinary world _ node rfl inside)
  rw [head?_eq_getElem?, head?_eq_getElem?]
  exact rel_getElem? alike 0

theorem woven_lastOfList : Alike world (lastOfList node receiver) (lastOfList node twin) :=
  woven_withItems weave inside first fun _ _ alike =>
    woven_getD (rel_getLast? alike) (weave.ordinary world _ node rfl inside)

theorem woven_valuesOfMap : Alike world (valuesOfMap node receiver) (valuesOfMap node twin) := by
  refine woven_withEntries weave inside first fun entries others _ alike => weave.list ?_
  rw [forall₂_map_left_iff, forall₂_map_right_iff]
  exact alike.imp fun _ _ entry => entry.2

include second

theorem woven_itemOfList :
    Alike world (itemOfList node receiver other) (itemOfList node twin otherTwin) := by
  have placed : position? otherTwin = position? other := by cases weave.built second <;> rfl
  refine woven_withItems weave inside first fun items others alike => ?_
  rw [placed]
  split
  · exact weave.mismatch second _ inside
  · next position _ =>
    have many : items.length = others.length := alike.length_eq
    by_cases within : 1 ≤ position ∧ position ≤ items.length
    · rw [dif_pos within, dif_pos (many ▸ within)]
      exact alike.get _ _
    · rw [dif_neg within, dif_neg (many ▸ within), weave.render_eq second, many]
      exact weave.ordinary world _ node rfl inside

theorem woven_valueInMap :
    Alike world (valueInMap node receiver other) (valueInMap node twin otherTwin) := by
  refine woven_withEntries weave inside first fun entries others maps alike => ?_
  have found : Option.Rel (Val.EntryAlike (Alike world))
      (entries.find? fun entry => entry.1.same other)
      (others.find? fun entry => entry.1.same otherTwin) := by
    clear maps
    induction alike with
    | nil => exact .none
    | cons entry _ ih =>
      simp only [find?_cons, weave.same_eq entry.1 second]
      split
      · exact .some entry
      · exact ih
  simp only [weave.render_eq second]
  generalize (entries.find? fun entry => entry.1.same other) = left,
    (others.find? fun entry => entry.1.same otherTwin) = right at found
  cases found with
  | some entry => exact entry.2
  | none => exact weave.ordinary world _ node rfl inside

/-! ### Functions that call functions -/

omit second
include callable

theorem woven_translateList :
    Plan.Woven Later Alike world (translateList node receiver function)
      (translateList node twin functionTwin) := by
  have refused := weave.mismatch first "List" inside
  cases weave.built first with
  | list items =>
    refine Plan.woven_collect weave callable (fun _ _ _ _ => weave.list) _ _ ?_ .nil
    rw [forall₂_map_left_iff, forall₂_map_right_iff]
    exact items.imp fun _ _ item => .cons item .nil
  | _ => exact .done refused

theorem woven_filterList :
    Plan.Woven Later Alike world (filterList node receiver function)
      (filterList node twin functionTwin) := by
  have refused := weave.mismatch first "List" inside
  cases weave.built first with
  | list items =>
    refine Plan.woven_select weave inside callable _ _ (items.imp fun _ _ item => .cons item .nil)
      fun later grown chosen twins part => weave.list ?_
    exact part.forall₂ (weave.stays_all grown items)
  | _ => exact .done refused

theorem woven_everyItem :
    Plan.Woven Later Alike world (everyItem node receiver function)
      (everyItem node twin functionTwin) := by
  have refused := weave.mismatch first "List" inside
  cases weave.built first with
  | list items => exact Plan.woven_every weave inside callable _ _ items
  | _ => exact .done refused

include second in
theorem woven_combineList :
    Plan.Woven Later Alike world (combineList node receiver other function)
      (combineList node twin otherTwin functionTwin) := by
  have refused := weave.mismatch first "List" inside
  cases weave.built first with
  | list items => exact Plan.woven_fold weave callable _ _ items second
  | _ => exact .done refused

theorem woven_filterSet :
    Plan.Woven Later Alike world (filterSet node receiver function)
      (filterSet node twin functionTwin) := by
  have refused := weave.mismatch first "Set" inside
  cases weave.built first with
  | set members =>
    exact Plan.woven_select weave inside callable _ _ (members.imp fun _ _ item => .cons item .nil)
      fun later grown chosen twins part => weave.fewerMembers part (weave.stays grown first)
  | _ => exact .done refused

theorem woven_filterMap :
    Plan.Woven Later Alike world (filterMap node receiver function)
      (filterMap node twin functionTwin) := by
  have refused := weave.mismatch first "Map" inside
  cases weave.built first with
  | map entries =>
    exact Plan.woven_select weave inside callable _ _
      (entries.imp fun _ _ entry => .cons entry.1 (.cons entry.2 .nil))
      fun later grown chosen twins part => weave.fewerEntries part (weave.stays grown first)
  | _ => exact .done refused

theorem woven_translateMap :
    Plan.Woven Later Alike world (translateMap node receiver function)
      (translateMap node twin functionTwin) := by
  have refused := weave.mismatch first "Map" inside
  cases weave.built first with
  | map entries =>
    refine Plan.woven_collect weave callable
      (fun later grown _ _ => weave.newValues (weave.stays grown first)) _ _ ?_ .nil
    rw [forall₂_map_left_iff, forall₂_map_right_iff]
    exact entries.imp fun _ _ entry => .cons entry.1 (.cons entry.2 .nil)
  | _ => exact .done refused

end Functions

/-! ### The catalogue -/

/-- A native function whose plans for inputs that belong together do so too. -/
def Function.Woven (size : Nat) (Later : World → World → Prop) (Alike : World → Val → Val → Prop)
    (function : Function) : Prop :=
  ∀ (world : World) (node : NodeId) (receiver twin : Val) (args inputs : List Val),
    node < size → Alike world receiver twin → List.Forall₂ (Alike world) args inputs →
      Plan.Woven Later Alike world (function.body.plan node receiver args)
        (function.body.plan node twin inputs)

section Catalogue

variable (weave : Val.Weave size Later Alike)
include weave

section

variable {name : String}

theorem woven_simple {compute : NodeId → Val → Val}
    (woven : ∀ {world node receiver twin}, node < size → Alike world receiver twin →
      Alike world (compute node receiver) (compute node twin)) :
    (simple name compute).Woven size Later Alike := by
  intro world node receiver twin args inputs inside alike given
  cases given with
  | nil => exact .done (woven inside alike)
  | cons first rest =>
    simp only [simple, Body.plan, length_cons, rest.length_eq]
    exact .done (weave.ordinary world _ node rfl inside)

theorem woven_unary
    {plan : (node : NodeId) → (receiver input : Val) → Plan (receiver.Within [input])}
    (woven : ∀ {world node receiver twin input other}, node < size → Alike world receiver twin →
      Alike world input other →
        Plan.Woven Later Alike world (plan node receiver input) (plan node twin other)) :
    Function.Woven size Later Alike ⟨name, .unary plan⟩ := by
  intro world node receiver twin args inputs inside alike given
  match args, inputs, given with
  | [_], [_], .cons input .nil => exact woven inside alike input
  | [], [], .nil => exact .done (weave.ordinary world _ node rfl inside)
  | _ :: _ :: _, _ :: _ :: _, .cons _ (.cons _ rest) =>
    simp only [Body.plan, length_cons, rest.length_eq]
    exact .done (weave.ordinary world _ node rfl inside)

theorem woven_operator {compute : NodeId → Val → Val → Val}
    (woven : ∀ {world node receiver twin input other}, node < size → Alike world receiver twin →
      Alike world input other → Alike world (compute node receiver input) (compute node twin other)) :
    (operator name compute).Woven size Later Alike :=
  woven_unary weave fun inside alike input => .done (woven inside alike input)

theorem woven_binary
    {plan : (node : NodeId) → (receiver first second : Val) →
      Plan (receiver.Within [first, second])}
    (woven : ∀ {world node receiver twin first firstTwin second secondTwin}, node < size →
      Alike world receiver twin → Alike world first firstTwin → Alike world second secondTwin →
        Plan.Woven Later Alike world (plan node receiver first second)
          (plan node twin firstTwin secondTwin)) :
    Function.Woven size Later Alike ⟨name, .binary plan⟩ := by
  intro world node receiver twin args inputs inside alike given
  match args, inputs, given with
  | [_, _], [_, _], .cons first (.cons second .nil) => exact woven inside alike first second
  | [], [], .nil => exact .done (weave.ordinary world _ node rfl inside)
  | [_], [_], .cons _ .nil => exact .done (weave.ordinary world _ node rfl inside)
  | _ :: _ :: _ :: _, _ :: _ :: _ :: _, .cons _ (.cons _ (.cons _ rest)) =>
    simp only [Body.plan, length_cons, rest.length_eq]
    exact .done (weave.ordinary world _ node rfl inside)

end

theorem woven_equality : ∀ function ∈ equality, function.Woven size Later Alike := by
  simp only [equality, forall_mem_cons]
  refine ⟨woven_operator weave fun _ first second => ?_,
    woven_operator weave fun _ first second => ?_, by simp⟩
  · rw [weave.same_eq first second]
    exact weave.bool _ _
  · rw [weave.same_eq first second]
    exact weave.bool _ _

theorem woven_truthFunctions : ∀ function ∈ truthFunctions, function.Woven size Later Alike := by
  simp only [truthFunctions, forall_mem_cons]
  exact ⟨woven_operator weave fun inside first second => woven_combineTruths weave inside first second _,
    woven_operator weave fun inside first second => woven_combineTruths weave inside first second _,
    woven_simple weave fun inside first => woven_negateTruth weave inside first, by simp⟩

theorem woven_numberFunctions : ∀ function ∈ numberFunctions, function.Woven size Later Alike := by
  have arithmetic : ∀ name combine,
      (operator name (combineNumbers combine)).Woven size Later Alike :=
    fun _ _ => woven_operator weave fun inside first second =>
      woven_withLikeNumbers weave inside first second fun _ _ => weave.num _ _
  have comparison : ∀ name compare,
      (operator name (compareNumbers compare)).Woven size Later Alike :=
    fun _ _ => woven_operator weave fun inside first second =>
      woven_withLikeNumbers weave inside first second fun _ _ => weave.bool _ _
  have change : ∀ name change, (simple name (changeNumber change)).Woven size Later Alike :=
    fun _ _ => woven_simple weave fun inside first => woven_changeNumber weave inside first _
  simp only [numberFunctions, forall_mem_cons]
  exact ⟨arithmetic _ _, arithmetic _ _, change _ _,
    woven_operator weave fun inside first second =>
      woven_withNumbers weave inside first second fun _ _ => weave.num _ _,
    woven_operator weave (woven_divideNumbers weave),
    woven_operator weave (woven_remainderOfNumbers weave),
    woven_operator weave (woven_powerOfNumbers weave),
    comparison _ _, comparison _ _, comparison _ _, comparison _ _,
    change _ _, change _ _, change _ _, by simp⟩

theorem woven_textFunctions : ∀ function ∈ textFunctions, function.Woven size Later Alike := by
  have append : ∀ name, (operator name appendTexts).Woven size Later Alike :=
    fun _ => woven_operator weave fun inside first second =>
      woven_withTexts weave inside first second fun _ _ => weave.text _ _
  simp only [textFunctions, forall_mem_cons]
  exact ⟨append _, append _,
    woven_simple weave fun inside first => woven_withText weave inside first fun _ => weave.num _ _,
    woven_operator weave (woven_repeatText weave), woven_operator weave (woven_segmentText weave),
    woven_operator weave fun inside first second =>
      woven_withTexts weave inside first second fun _ _ => weave.bool _ _, by simp⟩

theorem woven_listFunctions : ∀ function ∈ listFunctions, function.Woven size Later Alike := by
  simp only [listFunctions, forall_mem_cons]
  refine ⟨woven_simple weave fun inside first =>
      woven_withItems weave inside first fun _ _ alike => ?length,
    woven_simple weave (woven_firstOfList weave), woven_simple weave (woven_lastOfList weave),
    woven_operator weave fun inside first second =>
      woven_withItems weave inside first fun _ _ alike => ?has,
    woven_operator weave fun inside first second => woven_withItems weave inside first fun _ _ alike =>
      weave.list (rel_append alike (.cons second .nil)),
    woven_operator weave (woven_itemOfList weave),
    woven_simple weave fun inside first => woven_withItems weave inside first fun _ _ alike =>
      weave.list (rel_reverse alike),
    woven_operator weave fun inside first second => woven_withItems weave inside first fun _ _ alike =>
      weave.list ((Chosen.filter (fun item => by rw [weave.same_eq item second]) alike).forall₂ alike),
    woven_unary weave (woven_translateList weave), woven_unary weave (woven_filterList weave),
    woven_unary weave (woven_everyItem weave), woven_binary weave (woven_combineList weave),
    by simp⟩
  case length =>
    rw [alike.length_eq]
    exact weave.num _ _
  case has =>
    rw [weave.memberOf_eq second alike]
    exact weave.bool _ _

theorem woven_setFunctions : ∀ function ∈ setFunctions, function.Woven size Later Alike := by
  simp only [setFunctions, forall_mem_cons]
  refine ⟨woven_simple weave fun inside first =>
      woven_withMembers weave inside first fun _ _ _ alike => ?size,
    woven_operator weave fun inside first second =>
      woven_withMembers weave inside first fun _ _ _ alike => ?has,
    woven_operator weave fun inside first second =>
      woven_withMembers weave inside first fun _ _ _ alike =>
        weave.ofMembers (rel_append alike (.cons second .nil)),
    woven_operator weave fun inside first second =>
      woven_withMembers weave inside first fun _ _ sets alike => weave.fewerMembers
        (Chosen.filter (fun item => by rw [weave.same_eq item second]) alike) sets,
    woven_operator weave fun inside first second =>
      woven_withMembers weave inside first fun _ _ _ mine => woven_withMembers weave inside second
        fun _ _ _ theirs => weave.ofMembers (rel_append mine theirs),
    woven_unary weave (woven_filterSet weave), by simp⟩
  case size =>
    rw [alike.length_eq]
    exact weave.num _ _
  case has =>
    rw [weave.memberOf_eq second alike]
    exact weave.bool _ _

theorem woven_mapFunctions : ∀ function ∈ mapFunctions, function.Woven size Later Alike := by
  simp only [mapFunctions, forall_mem_cons]
  refine ⟨woven_simple weave fun inside first =>
      woven_withEntries weave inside first fun _ _ _ alike => ?size,
    woven_operator weave fun inside first second =>
      woven_withEntries weave inside first fun _ _ _ alike => ?has,
    woven_operator weave (woven_valueInMap weave),
    woven_binary weave fun inside first key value => .done (woven_withEntries weave inside first
      fun _ _ _ alike => weave.ofEntries (rel_append alike (.cons ⟨key, value⟩ .nil))),
    woven_operator weave fun inside first second => woven_withEntries weave inside first
      fun _ _ maps alike => weave.fewerEntries
        (Chosen.filter (fun entry => by rw [weave.same_eq entry.1 second]) alike) maps,
    woven_operator weave fun inside first second => woven_withEntries weave inside first
      fun _ _ maps alike => weave.fewerEntries
        (Chosen.filter (fun entry => by rw [weave.same_eq entry.2 second]) alike) maps,
    woven_unary weave (woven_filterMap weave), woven_unary weave (woven_translateMap weave),
    woven_simple weave fun inside first => woven_withEntries weave inside first
      fun _ _ maps _ => weave.keys maps,
    woven_simple weave (woven_valuesOfMap weave), by simp⟩
  case size =>
    rw [alike.length_eq]
    exact weave.num _ _
  case has =>
    rw [weave.any_key_eq second alike]
    exact weave.bool _ _

/-- Every native function maps alike arguments to alike results. -/
theorem woven_functions (kind : Kind) :
    ∀ function ∈ (suite kind).functions, function.Woven size Later Alike := by
  have extended : ∀ {functions : List Function},
      (∀ function ∈ functions, function.Woven size Later Alike) →
        ∀ function ∈ equality ++ functions, function.Woven size Later Alike :=
    fun woven => forall_mem_append.mpr ⟨woven_equality weave, woven⟩
  cases kind with
  | boolean => exact extended (woven_truthFunctions weave)
  | number => exact extended (woven_numberFunctions weave)
  | text => exact extended (woven_textFunctions weave)
  | list => exact extended (woven_listFunctions weave)
  | set => exact extended (woven_setFunctions weave)
  | map => exact extended (woven_mapFunctions weave)
  | record | function | exception => exact woven_equality weave

end Catalogue

theorem of_lookup {kind : Kind} {name : String} {arity : Nat} {function : Function}
    (found : lookup kind name arity = .ok function) :
    function ∈ (suite kind).functions ∧ function.arity = arity := by
  simp only [lookup] at found
  split at found
  · cases found
  · next first rest named =>
    split at found
    · next other present =>
      cases found
      constructor
      · have mem := mem_of_find?_eq_some present
        rw [← named] at mem
        exact (mem_filter.mp mem).1
      · simpa using find?_some present
    · cases found

/-! ### Conversions -/

section Conversions

variable {receiver twin : Val} (weave : Val.Weave size Later Alike)
include weave

theorem rel_pair? (alike : Alike world receiver twin) :
    Option.Rel (Val.EntryAlike (Alike world)) (pair? receiver) (pair? twin) := by
  cases weave.built alike with
  | list items =>
    cases items with
    | nil => exact .none
    | cons key items =>
      cases items with
      | nil => exact .none
      | cons value items =>
        cases items with
        | nil => exact .some ⟨key, value⟩
        | cons _ _ => exact .none
  | _ => exact .none

theorem rel_mapM_pair? {items others : List Val} (alike : List.Forall₂ (Alike world) items others) :
    Option.Rel (List.Forall₂ (Val.EntryAlike (Alike world))) (items.mapM pair?)
      (others.mapM pair?) := by
  induction alike with
  | nil => exact .some .nil
  | @cons item other rest otherRest first _ ih =>
    simp only [mapM_cons]
    have head := rel_pair? weave first
    generalize pair? item = left, pair? other = right at head
    cases head with
    | none => exact .none
    | some entry =>
      generalize rest.mapM pair? = left, otherRest.mapM pair? = right at ih
      cases ih with
      | none => exact .none
      | some entries => exact .some (.cons entry entries)

theorem woven_conversion {kind : Kind} {convert : Val → NodeId → Val}
    (found : (suite kind).conversion = some convert) {node : NodeId} (inside : node < size)
    (alike : Alike world receiver twin) :
    Alike world (convert receiver node) (convert twin node) := by
  have refused := fun expected => weave.mismatch alike expected inside
  cases kind with
  | number =>
    cases found
    cases weave.built alike with
    | num number => exact alike
    | bool truth => exact weave.num _ _
    | text characters =>
      simp only [convertToNumber]
      split
      · exact weave.num _ _
      · exact refused _
    | _ => exact refused _
  | text =>
    cases found
    have same := weave.render_eq alike
    cases weave.built alike with
    | text characters => exact alike
    | _ =>
      simp only [convertToText, same]
      exact weave.text _ _
  | list =>
    cases found
    cases weave.built alike with
    | list items => exact alike
    | set members => exact weave.list members
    | map entries => exact woven_valuesOfMap weave inside alike
    | _ => exact refused _
  | set =>
    cases found
    cases weave.built alike with
    | set members => exact alike
    | list items => exact weave.ofMembers items
    | _ => exact refused _
  | map =>
    cases found
    cases weave.built alike with
    | map entries => exact alike
    | @list items others related =>
      have pairs := rel_mapM_pair? weave related
      simp only [convertToMap]
      generalize items.mapM pair? = left, others.mapM pair? = right at pairs
      cases pairs with
      | some entries => exact weave.ofEntries entries
      | none => exact refused _
    | _ => exact refused _
  | boolean | record | function | exception => cases found

end Conversions

end Native

end Reactor

import Mathlib.Order.Basic
import Reactor.Engine.Combine
import Reactor.Proofs.Value.Weave

/-!
# Values of two runs that stand for one another

Two runs of the same program number their scopes differently and give other serials to the functions
and definitions they make.  A pairing says which scopes and which serials of one run stand for which
ones of the other.  Values are alike under a pairing if they are built in the same way and whatever they
refer to is paired; what the host made is the same on both sides.

As long as a pairing is one to one, programs cannot tell alike values apart: they have the same text and
the same kind, and equality holds between two values if it holds between those that stand for them.  A
pairing grows while two runs go on, and values that are alike stay alike.
-/

namespace Reactor

open List

/-- Scopes and serials of one run, each with the one of another run that stands for it. -/
structure Pairing where
  scopes : List (ScopeId × ScopeId)
  serials : List (Nat × Nat)

namespace Pairing

/-- Nothing stands for anything. -/
def empty : Pairing := ⟨[], []⟩

instance : Preorder Pairing where
  le small large := small.scopes ⊆ large.scopes ∧ small.serials ⊆ large.serials
  le_refl _ := ⟨List.Subset.refl _, List.Subset.refl _⟩
  le_trans _ _ _ first second :=
    ⟨List.Subset.trans first.1 second.1, List.Subset.trans first.2 second.2⟩

theorem empty_le (pairing : Pairing) : empty ≤ pairing :=
  ⟨nil_subset _, nil_subset _⟩

/-- Pairs in which different numbers are paired with different ones. -/
def OneToOne (pairs : List (Nat × Nat)) : Prop :=
  ∀ one ∈ pairs, ∀ other ∈ pairs, one.1 = other.1 ↔ one.2 = other.2

/-- Pairings of which the serials are paired one to one. -/
abbrev Exact : Type := { pairing : Pairing // OneToOne pairing.serials }

theorem oneToOne_nil : OneToOne [] := by
  simp [OneToOne]

theorem OneToOne.cons {pairs : List (Nat × Nat)} {left right : Nat}
    (exact : OneToOne pairs) (below : ∀ pair ∈ pairs, pair.1 < left ∧ pair.2 < right) :
    OneToOne ((left, right) :: pairs) := by
  intro one oneIn other otherIn
  rcases mem_cons.mp oneIn with rfl | oneIn
  · rcases mem_cons.mp otherIn with rfl | otherIn
    · simp
    · have := below other otherIn
      constructor
      · intro equal
        omega
      · intro equal
        omega
  · rcases mem_cons.mp otherIn with rfl | otherIn
    · have := below one oneIn
      constructor
      · intro equal
        omega
      · intro equal
        omega
    · exact exact one oneIn other otherIn

/-- The pairing with one more pair of scopes. -/
def addScopes (pairing : Pairing) (id other : ScopeId) : Pairing :=
  { pairing with scopes := (id, other) :: pairing.scopes }

/-- The pairing with one more pair of serials. -/
def addSerials (pairing : Pairing) (serial other : Nat) : Pairing :=
  { pairing with serials := (serial, other) :: pairing.serials }

theorem le_addScopes (pairing : Pairing) (id other : ScopeId) :
    pairing ≤ pairing.addScopes id other :=
  ⟨subset_cons_self _ _, List.Subset.refl _⟩

theorem le_addSerials (pairing : Pairing) (serial other : Nat) :
    pairing ≤ pairing.addSerials serial other :=
  ⟨List.Subset.refl _, subset_cons_self _ _⟩

end Pairing

/-! ### What values refer to -/

/-- Identities that stand for one another. -/
inductive Identity.Alike (pairing : Pairing) : Identity → Identity → Prop where
  | host (serial : Nat) : Alike pairing ⟨.host, serial⟩ ⟨.host, serial⟩
  | run {serial other : Nat} : (serial, other) ∈ pairing.serials →
      Alike pairing ⟨.run, serial⟩ ⟨.run, other⟩

/-- Chains of scopes that stand for one another. -/
def Env.Alike (pairing : Pairing) : Env → Env → Prop :=
  List.Forall₂ fun id other => (id, other) ∈ pairing.scopes

/-- Functions with the same text, made at the same place of the program. -/
structure Closure.Alike (pairing : Pairing) (function other : Closure) : Prop where
  identity : function.identity.Alike pairing other.identity
  name : other.name = function.name
  params : other.params = function.params
  body : other.body = function.body
  env : Env.Alike pairing function.env other.env

/-- Definitions with the same text, made at the same place of the program. -/
structure Definition.Alike (pairing : Pairing) (definition other : Definition) : Prop where
  identity : definition.identity.Alike pairing other.identity
  name : other.name = definition.name
  fields : other.fields = definition.fields
  functions : List.Forall₂ (Closure.Alike pairing) definition.functions other.functions
  env : Env.Alike pairing definition.env other.env

/-- Values that stand for one another. -/
inductive Val.Alike (pairing : Pairing) : Val → Val → Prop where
  | bool (truth : Bool) : Alike pairing (.bool truth) (.bool truth)
  | num (number : Number) : Alike pairing (.num number) (.num number)
  | text (characters : String) : Alike pairing (.text characters) (.text characters)
  | list {items others : List Val} :
      List.Forall₂ (Alike pairing) items others → Alike pairing (.list items) (.list others)
  | set {members others : List Val} :
      List.Forall₂ (Alike pairing) members others → Alike pairing (.set members) (.set others)
  | map {entries others : List (Val × Val)} :
      List.Forall₂ (Alike pairing) (entries.map (·.1)) (others.map (·.1)) →
      List.Forall₂ (Alike pairing) (entries.map (·.2)) (others.map (·.2)) →
        Alike pairing (.map entries) (.map others)
  | record {definition other : Definition} {fields others : List Val} :
      definition.Alike pairing other → List.Forall₂ (Alike pairing) fields others →
        Alike pairing (.record definition fields) (.record other others)
  | closure {function other : Closure} :
      function.Alike pairing other → Alike pairing (.closure function) (.closure other)
  | method {receiver twin : Val} {function other : Closure} :
      Alike pairing receiver twin → function.Alike pairing other →
        Alike pairing (.method receiver function) (.method twin other)
  | native {receiver twin : Val} (name : String) :
      Alike pairing receiver twin → Alike pairing (.native receiver name) (.native twin name)
  | constructor {definition other : Definition} :
      definition.Alike pairing other → Alike pairing (.constructor definition) (.constructor other)
  | conversion (kind : Kind) : Alike pairing (.conversion kind) (.conversion kind)
  | exception (cause : Cause) (node : Option NodeId) :
      Alike pairing (.exception cause node) (.exception cause node)

/-- Names bound to values that stand for one another, in the same order. -/
def Bindings.Alike (pairing : Pairing) : Bindings → Bindings → Prop :=
  List.Forall₂ fun entry other => other.1 = entry.1 ∧ entry.2.Alike pairing other.2

/-- A value that means the same in every run: nothing inside was made by a run, and nothing inside
holds on to a scope. -/
def Val.Independent (value : Val) : Prop :=
  value.Alike .empty value

variable {pairing large : Pairing}

/-- Induction over the way in which two alike values are built, at once for all items of a list. -/
@[elab_as_elim, induction_eliminator]
theorem Val.Alike.induct {motive : (value other : Val) → value.Alike pairing other → Prop}
    (bool : ∀ truth, motive _ _ (.bool truth)) (num : ∀ number, motive _ _ (.num number))
    (text : ∀ characters, motive _ _ (.text characters))
    (list : ∀ {items others : List Val} (alike : List.Forall₂ (Val.Alike pairing) items others),
      List.Forall₂ (fun item other => ∃ alike, motive item other alike) items others →
        motive _ _ (.list alike))
    (set : ∀ {members others : List Val} (alike : List.Forall₂ (Val.Alike pairing) members others),
      List.Forall₂ (fun item other => ∃ alike, motive item other alike) members others →
        motive _ _ (.set alike))
    (map : ∀ {entries others : List (Val × Val)}
      (keys : List.Forall₂ (Val.Alike pairing) (entries.map (·.1)) (others.map (·.1)))
      (values : List.Forall₂ (Val.Alike pairing) (entries.map (·.2)) (others.map (·.2))),
      List.Forall₂ (fun item other => ∃ alike, motive item other alike)
        (entries.map (·.1)) (others.map (·.1)) →
      List.Forall₂ (fun item other => ∃ alike, motive item other alike)
        (entries.map (·.2)) (others.map (·.2)) →
        motive _ _ (.map keys values))
    (record : ∀ {definition other : Definition} {fields others : List Val}
      (defined : definition.Alike pairing other)
      (alike : List.Forall₂ (Val.Alike pairing) fields others),
      List.Forall₂ (fun item other => ∃ alike, motive item other alike) fields others →
        motive _ _ (.record defined alike))
    (closure : ∀ {function other : Closure} (made : function.Alike pairing other),
      motive _ _ (.closure made))
    (method : ∀ {receiver twin : Val} {function other : Closure}
      (alike : receiver.Alike pairing twin) (made : function.Alike pairing other),
      motive _ _ alike → motive _ _ (.method alike made))
    (native : ∀ {receiver twin : Val} (name : String) (alike : receiver.Alike pairing twin),
      motive _ _ alike → motive _ _ (.native name alike))
    (constructor : ∀ {definition other : Definition} (defined : definition.Alike pairing other),
      motive _ _ (.constructor defined))
    (conversion : ∀ kind, motive _ _ (.conversion kind))
    (exception : ∀ cause node, motive _ _ (.exception cause node))
    {value other : Val} (alike : value.Alike pairing other) :
    motive value other alike :=
  @Val.Alike.rec pairing motive
    (fun items others _ => List.Forall₂ (fun item other => ∃ alike, motive item other alike)
      items others)
    bool num text list set map record closure method native constructor conversion exception
    .nil (fun first _ holds rest => .cons ⟨first, holds⟩ rest) _ _ alike

/-! ### Pairings that grow -/

theorem Identity.Alike.mono
    {identity other : Identity} (alike : identity.Alike pairing other) (grown : pairing ≤ large) :
    identity.Alike large other := by
  cases alike with
  | host serial => exact .host serial
  | run paired => exact .run (grown.2 paired)

theorem Env.Alike.mono
    {env other : Env} (alike : Env.Alike pairing env other) (grown : pairing ≤ large) :
    Env.Alike large env other :=
  List.Forall₂.imp (fun _ _ paired => grown.1 paired) alike

theorem Closure.Alike.mono
    {function other : Closure} (alike : function.Alike pairing other) (grown : pairing ≤ large) :
    function.Alike large other where
  identity := alike.identity.mono grown
  name := alike.name
  params := alike.params
  body := alike.body
  env := alike.env.mono grown

section

variable {definition other : Definition} (alike : definition.Alike pairing other)
include alike

theorem Definition.Alike.mono (grown : pairing ≤ large) :
    definition.Alike large other where
  identity := alike.identity.mono grown
  name := alike.name
  fields := alike.fields
  functions := alike.functions.imp fun _ _ made => made.mono grown
  env := alike.env.mono grown

theorem Definition.Alike.function? (name : String) :
    Option.Rel (Closure.Alike pairing) (definition.function? name) (other.function? name) := by
  rcases definition with ⟨_, _, _, functions, _⟩
  rcases other with ⟨_, _, _, others, _⟩
  have made : List.Forall₂ (Closure.Alike pairing) functions others := alike.functions
  clear alike
  simp only [Definition.function?]
  induction made with
  | nil => exact .none
  | cons made _ ih =>
    simp only [find?_cons, made.name]
    split
    · exact .some made
    · exact ih

end

theorem Identity.Alike.beq_eq {left right leftTwin rightTwin : Identity}
    (exact : Pairing.OneToOne pairing.serials)
    (first : left.Alike pairing leftTwin) (second : right.Alike pairing rightTwin) :
    (leftTwin == rightTwin) = (left == right) := by
  rw [Bool.eq_iff_iff, beq_iff_eq, beq_iff_eq]
  cases first with
  | host serial =>
    cases second with
    | host other => rfl
    | run _ => simp
  | run paired =>
    cases second with
    | host other => simp
    | run otherPaired =>
      simpa using (exact _ paired _ otherPaired).symm

namespace Val

theorem Alike.mono
    {value other : Val} (alike : value.Alike pairing other) (grown : pairing ≤ large) :
    value.Alike large other := by
  have all : ∀ {items others : List Val},
      List.Forall₂ (fun item other => ∃ _ : item.Alike pairing other, item.Alike large other)
        items others → List.Forall₂ (Alike large) items others :=
    fun each => each.imp fun _ _ ⟨_, holds⟩ => holds
  induction alike with
  | bool truth => exact .bool truth
  | num number => exact .num number
  | text characters => exact .text characters
  | list _ items => exact .list (all items)
  | set _ members => exact .set (all members)
  | map _ _ keys values => exact .map (all keys) (all values)
  | record defined _ fields => exact .record (defined.mono grown) (all fields)
  | closure made => exact .closure (made.mono grown)
  | method _ made receiver => exact .method receiver (made.mono grown)
  | native name _ receiver => exact .native name receiver
  | constructor defined => exact .constructor (defined.mono grown)
  | conversion kind => exact .conversion kind
  | exception cause node => exact .exception cause node

theorem Alike.mono_all {items others : List Val}
    (alike : List.Forall₂ (Alike pairing) items others) (grown : pairing ≤ large) :
    List.Forall₂ (Alike large) items others :=
  alike.imp fun _ _ item => item.mono grown

theorem Independent.alike {value : Val} (independent : value.Independent) (pairing : Pairing) :
    value.Alike pairing value :=
  Alike.mono independent (Pairing.empty_le pairing)

theorem alike_failure (cause : Cause) (node : NodeId) :
    (failure cause node).Alike pairing (failure cause node) :=
  .exception cause (some node)

theorem forall₂_entries {Related : Val → Val → Prop} {entries others : List (Val × Val)}
    (keys : List.Forall₂ Related (entries.map (·.1)) (others.map (·.1)))
    (values : List.Forall₂ Related (entries.map (·.2)) (others.map (·.2))) :
    List.Forall₂ (EntryAlike Related) entries others := by
  rw [forall₂_map_left_iff, forall₂_map_right_iff] at keys values
  induction keys with
  | nil => exact .nil
  | cons key _ ih =>
    obtain ⟨value, rest⟩ := forall₂_cons.mp values
    exact .cons ⟨key, value⟩ (ih rest)

theorem alike_map_iff {entries others : List (Val × Val)} :
    (map entries).Alike pairing (map others) ↔
      List.Forall₂ (EntryAlike (Alike pairing)) entries others := by
  constructor
  · intro alike
    cases alike with
    | map keys values => exact forall₂_entries keys values
  · intro alike
    refine .map ?_ ?_
    · rw [forall₂_map_left_iff, forall₂_map_right_iff]
      exact alike.imp fun _ _ both => both.1
    · rw [forall₂_map_left_iff, forall₂_map_right_iff]
      exact alike.imp fun _ _ both => both.2

/-! ### What programs see of a value -/

variable {value twin : Val}

section

variable (alike : value.Alike pairing twin)
include alike

theorem Alike.kind_eq : twin.kind = value.kind := by
  cases alike <;> rfl

theorem Alike.isException_eq : twin.isException = value.isException := by
  cases alike <;> rfl

theorem Alike.ownerName_eq : twin.ownerName = value.ownerName := by
  cases alike with
  | record defined _ => exact defined.name
  | _ => rfl

end

theorem renderItems_congr {items others : List Val}
    (same : List.Forall₂ (fun item other : Val => other.render = item.render) items others) :
    renderItems others = renderItems items := by
  induction same with
  | nil => rfl
  | cons first _ ih => simp only [renderItems, first, ih]

theorem renderEntries_congr {entries others : List (Val × Val)}
    (keys : List.Forall₂ (fun item other : Val => other.render = item.render)
      (entries.map (·.1)) (others.map (·.1)))
    (values : List.Forall₂ (fun item other : Val => other.render = item.render)
      (entries.map (·.2)) (others.map (·.2))) :
    renderEntries others = renderEntries entries := by
  induction entries generalizing others with
  | nil =>
    cases others with
    | nil => rfl
    | cons _ _ => cases keys
  | cons entry rest ih =>
    cases others with
    | nil => cases keys
    | cons other otherRest =>
      obtain ⟨key, keys⟩ := forall₂_cons.mp keys
      obtain ⟨value, values⟩ := forall₂_cons.mp values
      simp only [renderEntries, key, value, ih keys values]

theorem renderFields_congr {fields others : List Val}
    (same : List.Forall₂ (fun item other : Val => other.render = item.render) fields others)
    (names : List String) :
    renderFields names others = renderFields names fields := by
  induction same generalizing names with
  | nil => rfl
  | cons first _ ih =>
    cases names with
    | nil => rfl
    | cons name names => simp only [renderFields, first, ih names]

section

variable (alike : value.Alike pairing twin)
include alike

theorem Alike.render_eq : twin.render = value.render := by
  have all : ∀ {items others : List Val},
      List.Forall₂ (fun item other => ∃ _ : item.Alike pairing other, other.render = item.render)
        items others → List.Forall₂ (fun item other : Val => other.render = item.render)
          items others :=
    fun each => each.imp fun _ _ ⟨_, holds⟩ => holds
  induction alike with
  | list _ items => simp only [render, renderItems_congr (all items)]
  | set _ members => simp only [render, renderItems_congr (all members)]
  | @map entries others _ _ keys values =>
    have texts := renderEntries_congr (all keys) (all values)
    cases entries with
    | nil =>
      cases others with
      | nil => rfl
      | cons _ _ => cases keys
    | cons _ _ =>
      cases others with
      | nil => cases keys
      | cons _ _ => simp only [render, texts]
  | record defined _ fields =>
    simp only [render, defined.name, defined.fields, renderFields_congr (all fields)]
  | closure made => simp only [render, made.name]
  | method alike made _ => simp only [render, made.name, alike.ownerName_eq]
  | native name alike _ => simp only [render, alike.kind_eq]
  | constructor defined => simp only [render, defined.name]
  | bool _ | num _ | text _ | conversion _ | exception _ _ => rfl

theorem Alike.mismatch_eq (expected : String) (node : NodeId) :
    twin.mismatch expected node = value.mismatch expected node := by
  simp only [mismatch, alike.render_eq]

theorem alike_mismatch (expected : String) (node : NodeId) :
    (value.mismatch expected node).Alike pairing (twin.mismatch expected node) := by
  rw [alike.mismatch_eq]
  exact alike_failure _ _

end

/-! ### Equality -/

/-- Comparing the second of two values gives what comparing the first one gives. -/
def ComparesAs (pairing : Pairing) (twin value : Val) : Prop :=
  ∀ (turned : Bool) {other otherTwin : Val}, other.Alike pairing otherTwin →
    twin.equals turned otherTwin = value.equals turned other

section

variable {items others left right : List Val}
  (compared : List.Forall₂ (fun item other => ComparesAs pairing other item) items others)
  (alike : List.Forall₂ (Alike pairing) left right)
include compared alike

theorem equalItems_congr (turned : Bool) :
    equalItems turned others right = equalItems turned items left := by
  induction compared generalizing left right with
  | nil => cases alike <;> simp only [equalItems]
  | cons first _ ih =>
    cases alike with
    | nil => simp only [equalItems]
    | cons head tail => simp only [equalItems, first turned head, ih tail]

theorem membersIn_congr : membersIn others right = membersIn items left := by
  induction compared with
  | nil => simp only [membersIn]
  | @cons item other _ _ first _ ih =>
    have found : right.any (equals true other) = left.any (equals true item) := by
      clear ih
      induction alike with
      | nil => rfl
      | cons head _ ih => simp only [any_cons, first true head, ih]
    simp only [membersIn, found, ih]

theorem all_hasMember_congr : right.all (hasMember others) = left.all (hasMember items) := by
  induction alike with
  | nil => rfl
  | @cons item other _ _ head _ ih =>
    have found : hasMember others other = hasMember items item := by
      clear ih
      induction compared with
      | nil => simp only [hasMember]
      | cons first _ ih => simp only [hasMember, first false head, ih]
    simp only [all_cons, found, ih]

end

section

variable {entries others left right : List (Val × Val)}
  (compared : List.Forall₂ (EntryAlike fun item other => ComparesAs pairing other item) entries others)
  (alike : List.Forall₂ (EntryAlike (Alike pairing)) left right)
include compared alike

theorem entriesIn_congr : entriesIn others right = entriesIn entries left := by
  induction compared with
  | nil => simp only [entriesIn]
  | @cons entry other _ _ first _ ih =>
    have found : right.any (fun last => equals false other.1 last.1 && equals false other.2 last.2) =
        left.any fun last => equals false entry.1 last.1 && equals false entry.2 last.2 := by
      clear ih
      induction alike with
      | nil => rfl
      | cons head _ ih =>
        simp only [any_cons, first.1 false head.1, first.2 false head.2, ih]
    simp only [entriesIn, found, ih]

theorem all_hasEntry_congr : right.all (hasEntry others) = left.all (hasEntry entries) := by
  induction alike with
  | nil => rfl
  | @cons entry other _ _ head _ ih =>
    have found : hasEntry others other = hasEntry entries entry := by
      clear ih
      induction compared with
      | nil => simp only [hasEntry]
      | cons first _ ih => simp only [hasEntry, first.1 true head.1, first.2 true head.2, ih]
    simp only [all_cons, found, ih]

end

section

variable (exact : Pairing.OneToOne pairing.serials)
include exact

theorem Alike.comparesAs (alike : value.Alike pairing twin) : ComparesAs pairing twin value := by
  have all : ∀ {items others : List Val},
      List.Forall₂ (fun item other => ∃ _ : item.Alike pairing other,
        ComparesAs pairing other item) items others →
          List.Forall₂ (fun item other => ComparesAs pairing other item) items others :=
    fun each => each.imp fun _ _ ⟨_, holds⟩ => holds
  induction alike with
  | bool _ | num _ | text _ | conversion _ | exception _ _ =>
    intro _ _ _ second
    cases second <;> simp only [equals]
  | list _ items =>
    intro turned _ _ second
    cases second with
    | list others => simp only [equals, equalItems_congr (all items) others turned]
    | _ => simp only [equals]
  | set alike members =>
    intro turned _ _ second
    cases second with
    | set others =>
      simp only [equals, alike.length_eq, others.length_eq, membersIn_congr (all members) others,
        all_hasMember_congr (all members) others]
    | _ => simp only [equals]
  | map alike _ keys values =>
    intro turned _ _ second
    cases second with
    | map otherKeys otherValues =>
      have entries := alike_map_iff.mp (.map otherKeys otherValues)
      have lengths := alike.length_eq
      simp only [length_map] at lengths
      have compared := forall₂_entries (all keys) (all values)
      simp only [equals, lengths, entries.length_eq, entriesIn_congr compared entries,
        all_hasEntry_congr compared entries]
    | _ => simp only [equals]
  | record defined _ fields =>
    intro turned _ _ second
    cases second with
    | record otherDefined others =>
      simp only [equals, Identity.Alike.beq_eq exact defined.identity otherDefined.identity,
        equalItems_congr (all fields) others turned]
    | _ => simp only [equals]
  | closure made =>
    intro turned _ _ second
    cases second with
    | closure otherMade =>
      simp only [equals, Identity.Alike.beq_eq exact made.identity otherMade.identity]
    | _ => simp only [equals]
  | method _ made receiver =>
    intro turned _ _ second
    cases second with
    | method other otherMade =>
      simp only [equals, Identity.Alike.beq_eq exact made.identity otherMade.identity,
        receiver turned other]
    | _ => simp only [equals]
  | native name _ receiver =>
    intro turned _ _ second
    cases second with
    | native otherName other => simp only [equals, receiver turned other]
    | _ => simp only [equals]
  | constructor defined =>
    intro turned _ _ second
    cases second with
    | constructor otherDefined =>
      simp only [equals, Identity.Alike.beq_eq exact defined.identity otherDefined.identity]
    | _ => simp only [equals]

theorem Alike.same_eq {other otherTwin : Val} (first : value.Alike pairing twin)
    (second : other.Alike pairing otherTwin) :
    twin.same otherTwin = value.same other :=
  first.comparesAs exact false second

theorem Alike.memberOf_eq {items others : List Val} (first : value.Alike pairing twin)
    (alike : List.Forall₂ (Alike pairing) items others) :
    twin.memberOf others = value.memberOf items := by
  unfold memberOf
  induction alike with
  | nil => rfl
  | cons head _ ih => simp only [any_cons, head.same_eq exact first, ih]

/-! ### Sets, maps and instances -/

theorem alike_insertMember {members others : List Val}
    (alike : List.Forall₂ (Alike pairing) members others) (item : value.Alike pairing twin) :
    List.Forall₂ (Alike pairing) (insertMember members value) (insertMember others twin) := by
  unfold insertMember
  rw [item.memberOf_eq exact alike]
  split
  · exact alike
  · exact rel_append alike (.cons item .nil)

theorem alike_insertEntry {key keyTwin : Val} {entries others : List (Val × Val)}
    (keys : key.Alike pairing keyTwin) (values : value.Alike pairing twin)
    (alike : List.Forall₂ (EntryAlike (Alike pairing)) entries others) :
    List.Forall₂ (EntryAlike (Alike pairing)) (insertEntry key value entries)
      (insertEntry keyTwin twin others) := by
  induction alike with
  | nil => exact .cons ⟨keys, values⟩ .nil
  | cons head tail ih =>
    simp only [insertEntry, head.1.same_eq exact keys]
    split
    · exact .cons ⟨head.1, values⟩ tail
    · exact .cons head ih

end

theorem alike_zip
    {keys keyTwins values valueTwins : List Val} (alike : List.Forall₂ (Alike pairing) keys keyTwins)
    (valuesAlike : List.Forall₂ (Alike pairing) values valueTwins) :
    List.Forall₂ (EntryAlike (Alike pairing)) (keys.zip values) (keyTwins.zip valueTwins) := by
  induction alike generalizing values valueTwins with
  | nil => exact .nil
  | cons key _ ih =>
    cases valuesAlike with
    | nil => exact .nil
    | cons value more => exact .cons ⟨key, value⟩ (ih more)

/-- Under pairings that are one to one, data belong together if they are alike. -/
theorem alike_weave (size : Nat) :
    Weave size (fun small large : Pairing.Exact => small.1 ≤ large.1) fun pairing =>
      Alike pairing.1 where
  now _ := le_rfl
  after := le_trans
  stays grown alike := alike.mono grown
  built alike := by
    cases alike with
    | bool truth => exact .bool truth
    | num number => exact .num number
    | text characters => exact .text characters
    | list items => exact .list items
    | set members => exact .set members
    | map keys values => exact .map (alike_map_iff.mp (.map keys values))
    | record _ _ => exact .record
    | closure _ => exact .closure
    | method _ _ => exact .method
    | native _ _ => exact .native
    | constructor _ => exact .constructor
    | conversion _ => exact .conversion
    | exception cause node => exact .exception cause node
  render_eq := Alike.render_eq
  same_eq {pairing _ _ _ _} first second := first.same_eq pairing.2 second
  bool _ := .bool
  num _ := .num
  text _ := .text
  ordinary _ cause node _ _ := alike_failure cause node
  list := .list
  noMembers _ := .set .nil
  fewerMembers chosen alike := by
    cases alike with | set members => exact .set (chosen.forall₂ members)
  moreMembers {pairing _ _ _ _} alike item := by
    cases alike with | set members => exact .set (alike_insertMember pairing.2 members item)
  noEntries _ := .map .nil .nil
  fewerEntries chosen alike := alike_map_iff.mpr (chosen.forall₂ (alike_map_iff.mp alike))
  moreEntries {pairing _ _ _ _ _ _} alike key value :=
    alike_map_iff.mpr (alike_insertEntry pairing.2 key value (alike_map_iff.mp alike))
  newValues alike values := by
    cases alike with | map keys _ => exact alike_map_iff.mpr (alike_zip keys values)
  keys alike := by
    cases alike with | map keys _ => exact .set keys

theorem alike_pairUp :
    ∀ {values others : List Val}, List.Forall₂ (Alike pairing) values others →
      List.Forall₂ (EntryAlike (Alike pairing)) (pairUp values) (pairUp others)
  | _, _, .nil => .nil
  | _, _, .cons _ .nil => .nil
  | _, _, .cons key (.cons value rest) => .cons ⟨key, value⟩ (alike_pairUp rest)

end Val

end Reactor

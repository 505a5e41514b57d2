import Mathlib.Data.Finset.Card
import Mathlib.Logic.Relation
import Reactor.Proofs.Program.Inside

/-!
# Sources that borrow one another

A source borrows another one if a borrow of it stands anywhere in its tree, be it in a function.  Where
no source borrows itself in this sense, directly or through others, sources have ranks: a source ranks
above all those that it borrows.

Evaluation proceeds on behalf of a source.  `Ranking.Suits` says which nodes may be evaluated on behalf
of sources of some rank, and `Ranking.Travels` which bodies of functions may be, on behalf of these and
of all sources that rank higher, up to the main one.
-/

namespace Reactor

open List

/-- The source that a node borrows. -/
def Node.borrowed? : Node → Option String
  | borrow source _ => some source
  | _ => none

namespace Program

/-- A node in the tree of another one, which is itself one of them. -/
inductive Below (program : Program) (part : NodeId) : NodeId → Prop where
  | self : Below program part part
  | inside {id child : NodeId} {node : Node}
      (present : program.node? id = some node) (member : child ∈ node.children)
      (rest : Below program part child) : Below program part id

/-- A source, the first one with its name, has a node in its tree. -/
def Contains (program : Program) (name : String) (id : NodeId) : Prop :=
  ∃ source, program.source? name = some source ∧ program.Below id source.root

/-- A borrow of a source stands in the tree of another one. -/
def Borrows (program : Program) (name target : String) : Prop :=
  ∃ id, program.Contains name id ∧ (program.node? id).bind Node.borrowed? = some target

/-- No source borrows itself, directly or through others. -/
def Acyclic (program : Program) : Prop :=
  ∀ name, ¬ Relation.TransGen program.Borrows name name

/-- A node in the body of a function. -/
def InFunction (program : Program) (id : NodeId) : Prop :=
  ∃ maker node body, program.node? maker = some node ∧ body ∈ node.bodies ∧ program.Below id body

/-- A node that is evaluated on behalf of one source only.  It lies in no other source, and it lies in a
function only if the source is the main one, whose functions no other source gets hold of. -/
structure Owns (program : Program) (name : String) (id : NodeId) : Prop where
  contains : program.Contains name id
  alone : ∀ other, program.Contains other id → other = name
  direct : program.InFunction id → program.main?.map (·.name) = some name

variable {program : Program}

theorem source?_main {main : Source} (isMain : program.main? = some main) :
    program.source? main.name = some main := by
  obtain ⟨rest, shape⟩ := head?_eq_some_iff.mp isMain
  rw [source?, shape, find?_cons_of_pos (by simp)]

theorem mem_borrowed {name target : String} (borrows : program.Borrows name target) :
    target ∈ program.nodes.toList.filterMap Node.borrowed? := by
  obtain ⟨id, -, isBorrow⟩ := borrows
  obtain ⟨node, present, borrowed⟩ := Option.bind_eq_some_iff.mp isBorrow
  exact mem_filterMap.mpr ⟨node, Array.mem_toList_iff.mpr (Array.mem_of_getElem? present), borrowed⟩

theorem acyclic_of_rank
    (rank : String → Nat) (descends : ∀ name target, program.Borrows name target →
      rank target < rank name) : program.Acyclic := by
  have lower : ∀ name target, Relation.TransGen program.Borrows name target →
      rank target < rank name := by
    intro name target path
    induction path with
    | single borrows => exact descends _ _ borrows
    | tail _ borrows ih => exact Nat.lt_trans (descends _ _ borrows) ih
  exact fun name path => Nat.lt_irrefl _ (lower name name path)

section Homes

variable {home : NodeId → String}
  (inherited : ∀ id < program.nodes.size, ∀ child ∈ (program.node? id).elim [] Node.children,
    home child = home id)
  (rooted : ∀ source ∈ program.sources, home source.root = source.name)

include inherited in
theorem home_of_below {part id : NodeId} (below : program.Below part id) : home part = home id := by
  induction below with
  | self => rfl
  | inside present mem _ ih =>
    exact ih.trans (inherited _ (lt_size_of_node? present) _ (by simpa [present] using mem))

include inherited rooted in
/-- Where a node has the home of the node in whose tree it lies, this is the only source that contains
it. -/
theorem home_of_contains
    {name : String} {id : NodeId} (contains : program.Contains name id) : home id = name := by
  obtain ⟨source, found, below⟩ := contains
  have isName : source.name = name := by simpa using find?_some found
  rw [home_of_below inherited below, rooted source (mem_of_find?_eq_some found), isName]

include inherited rooted in
/-- The main source owns the only reaction there is, if it contains it. -/
theorem owns_of_only {main : Source} (isMain : program.main? = some main) {reaction : NodeId}
    (only : program.reactions = [reaction]) (below : program.Below reaction main.root) :
    ∀ id ∈ program.reactions, ∃ name, program.Owns name id := by
  have contains : program.Contains main.name reaction := ⟨main, source?_main isMain, below⟩
  rw [only, forall_mem_singleton]
  refine ⟨main.name, contains, fun other inside => ?_, fun _ => by rw [isMain, Option.map_some]⟩
  exact (home_of_contains inherited rooted inside).symm.trans
    (home_of_contains inherited rooted contains)

include inherited rooted in
theorem acyclic_of_homes (rank : String → Nat)
    (descends : ∀ id < program.nodes.size, ∀ target ∈ (program.node? id).bind Node.borrowed?,
      rank target < rank (home id)) : program.Acyclic := by
  refine acyclic_of_rank rank ?_
  rintro name target ⟨id, contains, isBorrow⟩
  obtain ⟨node, present, -⟩ := Option.bind_eq_some_iff.mp isBorrow
  rw [← home_of_contains inherited rooted contains]
  exact descends id (lt_size_of_node? present) target isBorrow

end Homes

end Program

/-- Ranks for the sources of a program.  A source ranks above all that it borrows. -/
structure Ranking (program : Program) where
  main : Source
  isMain : program.main? = some main
  rank : String → Nat
  descends : ∀ name target, program.Borrows name target → rank target < rank name

open Classical in
/-- Where no source borrows itself, a source can be ranked by the number of those that it borrows,
directly or through others. -/
theorem Program.Acyclic.exists_ranking {program : Program} (acyclic : program.Acyclic)
    {main : Source} (isMain : program.main? = some main) : Nonempty (Ranking program) := by
  let targets := (program.nodes.toList.filterMap Node.borrowed?).toFinset
  let reached (name : String) := targets.filter (Relation.TransGen program.Borrows name)
  refine ⟨⟨main, isMain, fun name => (reached name).card, fun name target borrows => ?_⟩⟩
  refine Finset.card_lt_card (Finset.ssubset_iff_of_subset ?_ |>.mpr ⟨target, ?_, ?_⟩)
  · intro other mem
    obtain ⟨listed, path⟩ := Finset.mem_filter.mp mem
    exact Finset.mem_filter.mpr ⟨listed, .head borrows path⟩
  · exact Finset.mem_filter.mpr ⟨mem_toFinset.mpr (mem_borrowed borrows), .single borrows⟩
  · exact fun mem => acyclic target (Finset.mem_filter.mp mem).2

namespace Ranking

variable {program : Program} (ranking : Ranking program)

/-- The rank of the main source. -/
def top : Nat :=
  ranking.rank ranking.main.name

/-- A node that may be evaluated on behalf of sources of a rank: what it borrows ranks lower, and a
reaction in it that is evaluated on behalf of one source only has a source of this rank. -/
structure Suits (level : Nat) (id : NodeId) : Prop where
  inside : id < program.nodes.size
  borrows : ∀ part target, program.Below part id →
    (program.node? part).bind Node.borrowed? = some target → ranking.rank target < level
  reacts : ∀ part name, program.Below part id →
    (program.node? part).any Node.isReaction → program.Owns name part → ranking.rank name = level

/-- The body of a function that may be evaluated on behalf of sources of a rank and of those that rank
higher. -/
def Travels (level : Nat) (body : NodeId) : Prop :=
  ∀ higher, level ≤ higher → higher ≤ ranking.top → ranking.Suits higher body

variable {ranking} {level : Nat} {id : NodeId}

theorem Suits.child
    (suits : ranking.Suits level id) {node : Node} (present : program.node? id = some node)
    {child : NodeId} (mem : child ∈ node.children) : ranking.Suits level child where
  inside := Program.child_lt_size present mem
  borrows part target below := suits.borrows part target (.inside present mem below)
  reacts part name below := suits.reacts part name (.inside present mem below)

theorem suits_root
    {name : String} {source : Source} (isSource : program.source? name = some source) :
    ranking.Suits (ranking.rank name) source.root where
  inside := Program.root_lt_size_of_source? isSource
  borrows part target below isBorrow :=
    ranking.descends name target ⟨part, ⟨source, isSource, below⟩, isBorrow⟩
  reacts part other below _ owned := by
    rw [owned.alone name ⟨source, isSource, below⟩]

theorem Travels.raise {body : NodeId} (travels : ranking.Travels level body) {higher : Nat}
    (raised : level ≤ higher) : ranking.Travels higher body :=
  fun highest above => travels highest (Nat.le_trans raised above)

/-- The functions that a node makes can be called wherever their values can get.  A reaction in one of
them that is evaluated on behalf of one source only belongs to the main one. -/
theorem Suits.travels
    (suits : ranking.Suits level id) {node : Node} (present : program.node? id = some node)
    {body : NodeId} (mem : body ∈ node.bodies) : ranking.Travels level body := by
  intro higher raised bounded
  have inside := suits.child present (Node.mem_children_of_mem_bodies mem)
  refine ⟨inside.inside, fun part target below isBorrow => ?_, fun part name below isReaction owned => ?_⟩
  · exact Nat.lt_of_lt_of_le (inside.borrows part target below isBorrow) raised
  · have direct := owned.direct ⟨id, node, body, present, mem, below⟩
    rw [ranking.isMain] at direct
    have isTop : ranking.top = ranking.rank name := congrArg ranking.rank (Option.some.inj direct)
    have here := inside.reacts part name below isReaction owned
    omega

end Ranking

end Reactor

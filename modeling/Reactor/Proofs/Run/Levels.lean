import Reactor.Proofs.Run.Avoiding
import Reactor.Proofs.Value.Levels

/-!
# Levels of a run

A run keeps its levels if every scope binds values that fit the level of the scope, if the value of a
source that was borrowed fits the rank of the source, and if every reaction fits some level: that of the
sources on whose behalf it was first reached.  What comes from the host fits every level.

A stage tells on behalf of what evaluation proceeds: the rank, and the sources under evaluation.  All of
these rank at least as high, so nothing that may be borrowed on a stage is among them.
-/

namespace Reactor

open List

variable {program : Program}

/-- The rank on whose behalf evaluation proceeds, and the sources under evaluation. -/
structure Stage (ranking : Ranking program) where
  level : Nat
  borrowing : List String
  bounded : level ≤ ranking.top
  above : ∀ name ∈ borrowing, level ≤ ranking.rank name

namespace Stage

variable {ranking : Ranking program}

/-- The stage of the main source. -/
def main (ranking : Ranking program) : Stage ranking where
  level := ranking.top
  borrowing := [ranking.main.name]
  bounded := Nat.le_refl _
  above := by simp [Ranking.top]

/-- The stage on which a reaction is updated that was first reached on some level.  No source that was
borrowed is under evaluation. -/
def updating (ranking : Ranking program) (level : Nat) (bounded : level ≤ ranking.top) :
    Stage ranking where
  level := level
  borrowing := [ranking.main.name]
  bounded := bounded
  above := by simpa [Ranking.top] using bounded

/-- The stage of a source that is borrowed. -/
def enter (stage : Stage ranking) (source : String) (lower : ranking.rank source < stage.level) :
    Stage ranking where
  level := ranking.rank source
  borrowing := stage.borrowing ++ [source]
  bounded := Nat.le_of_lt (Nat.lt_of_lt_of_le lower stage.bounded)
  above name member := by
    rcases mem_append.mp member with before | last
    · exact Nat.le_of_lt (Nat.lt_of_lt_of_le lower (stage.above name before))
    · rw [mem_singleton.mp last]

variable (stage : Stage ranking) {source : String} (lower : ranking.rank source < stage.level)
include stage lower

theorem not_mem_borrowing : source ∉ stage.borrowing :=
  fun mem => Nat.not_lt.mpr (stage.above source mem) lower

theorem filter_borrowing_enter :
    (stage.enter source lower).borrowing.filter (· ≠ source) = stage.borrowing := by
  have others : ∀ name ∈ stage.borrowing, name ≠ source :=
    fun name mem same => stage.not_mem_borrowing lower (same ▸ mem)
  simpa [enter] using others

end Stage

/-- Scopes in which evaluation proceeds on a level: the innermost one was opened on this level. -/
structure Env.Opened (levels : Levels) (level : Nat) (env : Env) : Prop where
  within : Env.Within levels level env
  innermost : ∀ id, env.head? = some id → levels[id]? = some level

variable {levels : Levels} {level : Nat}

theorem Env.Opened.later {extended : Levels} {env : Env} (opened : Env.Opened levels level env)
    (grown : levels <+: extended) : Env.Opened extended level env where
  within := opened.within.later grown (Nat.le_refl _)
  innermost id isFirst := by
    obtain ⟨rest, rfl⟩ := grown
    have found := opened.innermost id isFirst
    rw [getElem?_append_left (List.getElem?_eq_some_iff.mp found).1, found]

theorem Env.opened_cons {outer : Env} (within : Env.Within levels level outer) :
    Env.Opened (levels ++ [level]) level (levels.length :: outer) where
  within := forall_mem_cons.mpr ⟨⟨level, by simp, Nat.le_refl _⟩,
    within.later (prefix_append _ _) (Nat.le_refl _)⟩
  innermost := by simp

/-- A reaction that was first reached on behalf of sources of a rank. -/
structure Reaction.Fits
    (ranking : Ranking program) (levels : Levels) (level : Nat) (reaction : Reaction) : Prop where
  bounded : level ≤ ranking.top
  suits : ranking.Suits level reaction.node
  within : Env.Within levels level reaction.env
  value : reaction.value.Fits ranking levels level

theorem Reaction.Fits.later {ranking : Ranking program} {extended : Levels} {reaction : Reaction}
    (fits : reaction.Fits ranking levels level) (grown : levels <+: extended) :
    reaction.Fits ranking extended level where
  bounded := fits.bounded
  suits := fits.suits
  within := fits.within.later grown (Nat.le_refl _)
  value := fits.value.later grown (Nat.le_refl _)

/-- A run in which all values are on their levels. -/
structure Run.Levelled (ranking : Ranking program) (levels : Levels) (run : Run) : Prop where
  size : levels.length = run.scopes.size
  scopes : ∀ id level, levels[id]? = some level →
    (run.scopes.bindings id).Holds (Val.Fits ranking levels level)
  streams : run.streams.Holds (Val.Fits ranking [] 0)
  reactions : ∀ reaction ∈ run.reactions.table, ∃ level, reaction.Fits ranking levels level
  nodes : ∀ (node : NodeId) (value : Val),
    run.nodeValues[node]? = some value → value.tellsCycle = false
  borrowed : ∀ source value, run.borrowed.get? source = some value →
    value.Fits ranking levels (ranking.rank source)
  calm : run.defect = none

namespace Run.Levelled

variable {ranking : Ranking program} {levels : Levels} {level : Nat} {run : Run}

section

variable (levelled : run.Levelled ranking levels) (level : Nat)
include levelled

theorem opened {scopes : Scopes} (size : scopes.size = run.scopes.size + 1)
    (same : ∀ id, scopes.bindings id = run.scopes.bindings id) :
    Levelled ranking (levels ++ [level]) { run with scopes } := by
  have grown : levels <+: levels ++ [level] := prefix_append _ _
  refine
    { size := by rw [size, ← levelled.size]; simp
      scopes := fun id there found => ?_
      streams := levelled.streams
      reactions := fun reaction mem => ?_
      nodes := levelled.nodes
      borrowed := fun source value found =>
        (levelled.borrowed source value found).later grown (Nat.le_refl _)
      calm := levelled.calm }
  · simp only [same]
    by_cases old : id < levels.length
    · rw [getElem?_append_left old] at found
      exact fun entry bound =>
        (levelled.scopes id there found entry bound).later grown (Nat.le_refl _)
    · rw [Scopes.bindings_of_size_le (levelled.size ▸ Nat.le_of_not_lt old)]
      simp [Bindings.Holds]
  · obtain ⟨reached, fits⟩ := levelled.reactions reaction mem
    exact ⟨reached, fits.later grown⟩

theorem root : Levelled ranking (levels ++ [level]) { run with scopes := run.scopes.root.2 } :=
  levelled.opened level (by simp [Scopes.root, Scopes.size]) (Scopes.bindings_root _)

theorem child (env : Env) :
    Levelled ranking (levels ++ [level]) { run with scopes := (run.scopes.child env).2 } :=
  levelled.opened level (by simp [Scopes.child, Scopes.size]) (Scopes.bindings_child _ _)

end

variable {value : Val} {env : Env} {name : String}

section

variable (levelled : run.Levelled ranking levels)
include levelled

theorem define (opened : Env.Opened levels level env) (name : String)
    (fits : value.Fits ranking levels level) :
    Levelled ranking levels { run with scopes := run.scopes.define env name value } :=
  { levelled with
    size := levelled.size.trans (Scopes.size_define _ _ _ _).symm
    scopes := by
      intro id there found
      by_cases isFirst : env.head? = some id
      · have same := opened.innermost id isFirst
        rw [found] at same
        cases same
        exact Scopes.holds_bindings_define (levelled.scopes id _ found) env name fits
      · simp only [Scopes.bindings_define_of_ne _ _ _ _ isFirst]
        exact levelled.scopes id there found }

theorem defineAll (opened : Env.Opened levels level env) {entries : List (String × Val)}
    (fits : ∀ entry ∈ entries, entry.2.Fits ranking levels level) :
    Levelled ranking levels { run with scopes := run.scopes.defineAll env entries } := by
  induction entries generalizing run with
  | nil => exact levelled
  | cons entry rest ih =>
    obtain ⟨here, others⟩ := forall_mem_cons.mp fits
    exact ih (levelled.define opened entry.1 here) others

theorem lookup? (within : Env.Within levels level env)
    (found : run.scopes.lookup? env name = some value) :
    value.Fits ranking levels level := by
  induction env with
  | nil => cases found
  | cons id outer ih =>
    obtain ⟨⟨there, isLevel, low⟩, others⟩ := forall_mem_cons.mp within
    simp only [Scopes.lookup?] at found
    split at found
    · next bound =>
      cases found
      exact ((levelled.scopes id there isLevel).get? bound).later (prefix_refl _) low
    · exact ih others found

theorem record (node : NodeId) {value : Val} (noCycle : value.tellsCycle = false) :
    Levelled ranking levels { run with nodeValues := run.nodeValues.insert node value } :=
  { levelled with
    nodes := by
      intro other stored found
      simp only [Std.HashMap.getElem?_insert] at found
      split at found
      · cases found
        exact noCycle
      · exact levelled.nodes other stored found }

theorem ensure? {streams : Streams} (ensured : run.streams.ensure? name = some streams) :
    Levelled ranking levels { run with streams } :=
  { levelled with
    streams := levelled.streams.ensure? (Val.fits_fabric ranking [] 0 0) ensured }

theorem addReaction {reaction : Reaction} (fits : reaction.Fits ranking levels level) :
    (run.addReaction reaction).Levelled ranking levels :=
  { levelled with
    streams := levelled.streams.subscribeAll _ _
    reactions := by
      intro other mem
      rcases Reactions.mem_of_mem_insertInto mem with rfl | old
      · exact ⟨level, fits⟩
      · exact levelled.reactions other old }

theorem settle (once : run.reactions.nodes.Nodup) {id : NodeId} {reaction : Reaction}
    (found : run.reactions.get? id = some reaction) (fits : reaction.Fits ranking levels level)
    (fitsValue : value.Fits ranking levels level) :
    Levelled ranking levels { run with reactions := run.reactions.change id (·.settle value) } :=
  { levelled with
    reactions := by
      intro other mem
      obtain ⟨before, listed, rfl⟩ := mem_map.mp mem
      split
      · next same =>
        have isFound := Reactions.get?_of_mem_table once listed
        rw [same, found] at isFound
        cases isFound
        exact ⟨level, { fits with value := fitsValue }⟩
      · exact levelled.reactions before listed }

theorem lend (source : String) (fits : value.Fits ranking levels (ranking.rank source))
    (results : Bindings) :
    Levelled ranking levels
      { run with borrowed := run.borrowed.define source value, sourceResults := results } :=
  { levelled with
    borrowed := by
      intro other known found
      by_cases same : source = other
      · subst same
        rw [Bindings.get?_define_self] at found
        cases found
        exact fits
      · rw [Bindings.get?_define_of_ne same] at found
        exact levelled.borrowed other known found }

theorem latest? (latest : run.streams.latest? name = some value) (levels : Levels) (level : Nat) :
    value.Fits ranking levels level :=
  (levelled.streams.latest? latest).later nil_prefix (Nat.zero_le _)

theorem retire (kept : List Val) (roots : List Env) :
    Levelled ranking levels { run with scopes := run.scopes.retire kept roots } :=
  { levelled with
    size := levelled.size.trans (Scopes.size_retire _ _ _).symm
    scopes := by
      intro id there found
      simp only [Scopes.bindings_retire]
      split
      · simp [Bindings.Holds]
      · exact levelled.scopes id there found }

theorem beginPass (setup : Setup) : (run.beginPass setup).Levelled ranking levels :=
  { levelled.retire run.keptValues run.keptEnvs with
    borrowed := nofun }

theorem release : run.release.Levelled ranking levels :=
  { levelled.retire [] [] with
    streams := levelled.streams.unsubscribeAll
    reactions := nofun
    nodes := by simp [Run.release]
    borrowed := nofun }

end

theorem initial (ranking : Ranking program) : Levelled ranking [] Run.initial where
  size := rfl
  scopes := nofun
  streams := Streams.holds_empty
  reactions := nofun
  nodes := by simp [Run.initial]
  borrowed := nofun
  calm := rfl

theorem reset (levelled : run.Levelled ranking levels) (setup : Setup) :
    ∃ levels, (run.reset setup).Levelled ranking levels := by
  by_cases capture : initialsCapture run.streams.reset = true
  · refine ⟨levels, ?_⟩
    simp only [Run.reset, capture, if_true]
    exact { levelled.retire [] [] with
      streams := levelled.streams.reset
      reactions := by simp [Reactions.empty]
      nodes := by simp
      borrowed := by simp [Bindings.get?]
      calm := rfl }
  · refine ⟨[], ?_⟩
    simp only [Run.reset, capture]
    exact { initial ranking with streams := levelled.streams.reset }

end Run.Levelled

end Reactor

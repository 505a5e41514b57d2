import Reactor.Scope.Basic

/-!
# Reachable scopes

A value holds on to the scopes that the functions and definitions inside it close over.  A scope is
reachable from some scopes if it is one of them or a value bound in a reachable scope holds on to
it.  A run that goes on with some values only can forget what the scopes bind that cannot be reached
from those values.
-/

namespace Reactor

def Definition.captures (definition : Definition) : List ScopeId :=
  definition.env ++ definition.functions.flatMap (·.env)

namespace Val

mutual

/-- The scopes that a value holds on to, enclosing scopes included. -/
def captures : Val → List ScopeId
  | list items | set items => capturesOfItems items
  | map entries => capturesOfEntries entries
  | record definition fields => definition.captures ++ capturesOfItems fields
  | closure function => function.env
  | method receiver function => function.env ++ captures receiver
  | native receiver _ => captures receiver
  | constructor definition => definition.captures
  | bool _ | num _ | text _ | conversion _ | exception .. => []

def capturesOfItems : List Val → List ScopeId
  | [] => []
  | item :: rest => captures item ++ capturesOfItems rest

def capturesOfEntries : List (Val × Val) → List ScopeId
  | [] => []
  | (key, value) :: rest => captures key ++ captures value ++ capturesOfEntries rest

end

end Val

namespace Scopes

/-- The scopes that the values bound in a scope hold on to. -/
def held (scopes : Scopes) (id : ScopeId) : List ScopeId :=
  (scopes.bindings id).flatMap fun (_, value) => value.captures

theorem count_mark_lt {marks : Array Bool} {id : Nat} (fresh : marks[id]? = some false) :
    (marks.setIfInBounds id true).count false < marks.count false := by
  obtain ⟨inside, unmarked⟩ := Array.getElem?_eq_some_iff.mp fresh
  rw [Array.setIfInBounds, dif_pos inside, Array.count_set]
  have : 0 < marks.count false := Array.count_pos_iff.mpr (unmarked ▸ Array.getElem_mem inside)
  rw [if_pos (by rw [unmarked]; rfl), if_neg (by decide)]
  omega

/-- Mark the pending scopes and all that can be reached from them.  Each step marks a scope or drops
one that needs no mark. -/
def mark (scopes : Scopes) (marks : Array Bool) (pending : List ScopeId) : Array Bool :=
  match pending with
  | [] => marks
  | id :: pending =>
    if _ : marks[id]? = some false then
      mark scopes (marks.setIfInBounds id true) (scopes.held id ++ pending)
    else mark scopes marks pending
termination_by (marks.count false, pending.length)
decreasing_by
  · exact Prod.Lex.left _ _ (count_mark_lt (by assumption))
  · exact Prod.Lex.right _ (Nat.lt_succ_self _)

/-- For each scope whether it can be reached from the given ones. -/
def reachable (scopes : Scopes) (start : List ScopeId) : Array Bool :=
  scopes.mark (Array.replicate scopes.size false) start

/-- Whether a scope is one of the run that has no mark. -/
def isLost (marks : Array Bool) (id : ScopeId) (scope : Scope) : Bool :=
  scope.owner = .run && marks[id]? != some true

/-- Forget what the scopes of the run bind that cannot be reached from the kept values and the given
chains. -/
def retire (scopes : Scopes) (kept : List Val) (roots : List Env) : Scopes :=
  let marks := scopes.reachable (roots.flatten ++ Val.capturesOfItems kept)
  ⟨scopes.cells.mapIdx fun id scope =>
    if isLost marks id scope then { scope with bindings := [] } else scope⟩

def retiredCount (scopes : Scopes) (kept : List Val) (roots : List Env) : Nat :=
  let marks := scopes.reachable (roots.flatten ++ Val.capturesOfItems kept)
  (scopes.cells.mapIdx (isLost marks)).count true

end Scopes

end Reactor

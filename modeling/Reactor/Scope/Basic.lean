import Reactor.Text.Quoted
import Reactor.Value.Basic

/-!
# Scopes

A scope binds names to values.  All scopes are kept in one store and are known by their numbers; an
environment is a chain of scopes, so a name bound in an inner scope hides the same name of an outer
one.  A scope opened inside another one has the same owner.  The empty chain stands for the
surroundings of the host, where nothing is bound.
-/

namespace Reactor

/-- Names with their values, each name once. -/
abbrev Bindings := List (String × Val)

namespace Bindings

/-- Give a name a value.  A name that is there keeps its place. -/
def define (name : String) (value : Val) : Bindings → Bindings
  | [] => [(name, value)]
  | (other, old) :: rest =>
    if other = name then (name, value) :: rest else (other, old) :: define name value rest

def get? (bindings : Bindings) (name : String) : Option Val :=
  match bindings with
  | [] => none
  | (other, value) :: rest => if other = name then some value else get? rest name

@[simp]
theorem get?_define_self (name : String) (value : Val) (bindings : Bindings) :
    get? (define name value bindings) name = some value := by
  induction bindings with
  | nil => simp [define, get?]
  | cons entry rest ih =>
    simp only [define]
    split
    · simp [get?]
    · rename_i differs
      simpa [get?, differs] using ih

theorem get?_define_of_ne {name other : String} (differs : name ≠ other) (value : Val)
    (bindings : Bindings) : get? (define name value bindings) other = get? bindings other := by
  induction bindings with
  | nil => simp [define, get?, differs]
  | cons entry rest ih =>
    simp only [define]
    split
    · rename_i equal
      simp [get?, differs, equal]
    · simp only [get?, ih]

end Bindings

/-- A scope. -/
structure Scope where
  owner : Owner
  bindings : Bindings
  deriving Inhabited

/-- All scopes.  The number of a scope is its place. -/
structure Scopes where
  cells : Array Scope
  deriving Inhabited

namespace Scopes

/-- No scopes. -/
def empty : Scopes := ⟨#[]⟩

def size (scopes : Scopes) : Nat := scopes.cells.size

def bindings (scopes : Scopes) (id : ScopeId) : Bindings :=
  match scopes.cells[id]? with
  | some scope => scope.bindings
  | none => []

/-- The owner of the innermost scope of a chain. -/
def owner (scopes : Scopes) : Env → Owner
  | [] => .host
  | id :: _ =>
    match scopes.cells[id]? with
    | some scope => scope.owner
    | none => .host

/-- Open a scope of the run that no other encloses. -/
def root (scopes : Scopes) : Env × Scopes :=
  ([scopes.size], ⟨scopes.cells.push ⟨.run, []⟩⟩)

def child (scopes : Scopes) (env : Env) : Env × Scopes :=
  (scopes.size :: env, ⟨scopes.cells.push ⟨scopes.owner env, []⟩⟩)

def define (scopes : Scopes) (env : Env) (name : String) (value : Val) : Scopes :=
  match env with
  | [] => scopes
  | id :: _ =>
    ⟨scopes.cells.modify id fun scope =>
      { scope with bindings := scope.bindings.define name value }⟩

def defineAll (scopes : Scopes) (env : Env) (entries : List (String × Val)) : Scopes :=
  entries.foldl (fun scopes (name, value) => scopes.define env name value) scopes

/-- The value of a name, in the innermost scope that binds it. -/
def lookup? (scopes : Scopes) (env : Env) (name : String) : Option Val :=
  match env with
  | [] => none
  | id :: outer =>
    match (scopes.bindings id).get? name with
    | some value => some value
    | none => lookup? scopes outer name

/-- A description of the innermost scope of a chain: its names in order, and the length of the
chain. -/
def describe (scopes : Scopes) (env : Env) : String :=
  let names :=
    match env with
    | [] => []
    | id :: _ => ((scopes.bindings id).map Prod.fst).mergeSort
  let listed := ", ".intercalate (names.map Text.quoted)
  s!"Env \x7b names: [{listed}], depth: {env.length} \x7d"

def describeAll (scopes : Scopes) : String :=
  s!"ScopeRegistry \x7b live: {scopes.size} \x7d"

/-! ### What operations do to bindings -/

theorem bindings_of_size_le {scopes : Scopes} {id : ScopeId} (outside : scopes.size ≤ id) :
    scopes.bindings id = [] := by
  simp [bindings, Array.getElem?_eq_none outside]

theorem bindings_root (scopes : Scopes) (id : ScopeId) :
    scopes.root.2.bindings id = scopes.bindings id := by
  by_cases atEnd : id = scopes.cells.size
  · subst atEnd
    simp [root, bindings]
  · simp [root, bindings, Array.getElem?_push, atEnd]

theorem bindings_child (scopes : Scopes) (env : Env) (id : ScopeId) :
    (scopes.child env).2.bindings id = scopes.bindings id := by
  by_cases atEnd : id = scopes.cells.size
  · subst atEnd
    simp [child, bindings]
  · simp [child, bindings, Array.getElem?_push, atEnd]

@[simp]
theorem size_define (scopes : Scopes) (env : Env) (name : String) (value : Val) :
    (scopes.define env name value).size = scopes.size := by
  cases env <;> simp [define, size]

theorem bindings_define_of_ne (scopes : Scopes) (env : Env) (name : String) (value : Val)
    {id : ScopeId} (outside : env.head? ≠ some id) :
    (scopes.define env name value).bindings id = scopes.bindings id := by
  cases env with
  | nil => rfl
  | cons inner outer =>
    have differs : inner ≠ id := by simpa using outside
    simp [define, bindings, Array.getElem?_modify, differs]

end Scopes

end Reactor

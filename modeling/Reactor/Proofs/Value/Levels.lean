import Reactor.Proofs.Program.Borrowing
import Reactor.Proofs.Value.Equality
import Reactor.Proofs.Value.Law

/-!
# How far up values belong

Every scope is opened on behalf of some source.  `Levels` lists the ranks of these sources, scope by
scope.  A value fits a level if the functions inside it close over scopes of this level or of lower ones
and may be called on behalf of sources of this rank, and if nothing inside tells of a cycle among
sources.  It then fits all higher levels, up to that of the main source.
-/

namespace Reactor

open List

/-- For each scope the rank of the source on whose behalf it was opened. -/
abbrev Levels := List Nat

/-- Scopes of a level or lower ones. -/
def Env.Within (levels : Levels) (level : Nat) (env : Env) : Prop :=
  ∀ id ∈ env, ∃ opened, levels[id]? = some opened ∧ opened ≤ level

/-- A function that belongs to a level. -/
structure Closure.Fits
    {program : Program} (ranking : Ranking program) (levels : Levels) (level : Nat)
    (function : Closure) : Prop where
  within : Env.Within levels level function.env
  travels : ranking.Travels level function.body

namespace Val

/-- The functions of the program that a value is or that come with its structure, apart from those of
its parts. -/
def closures : Val → List Closure
  | closure function | method _ function => [function]
  | constructor definition | record definition _ => definition.functions
  | _ => []

/-- Whether a value is an exception that tells of a cycle among sources. -/
def tellsCycle : Val → Bool
  | exception cause _ => cause.tellsCycle
  | _ => false

/-- A value without functions of the program. -/
def Functionless (value : Val) : Prop :=
  value.Everywhere fun part => part.closures = []

variable {program : Program} (ranking : Ranking program) (levels : Levels) (level : Nat)

/-- What makes a value fit a level, apart from its parts. -/
structure FitsHere (value : Val) : Prop where
  noCycle : value.tellsCycle = false
  functions : ∀ function ∈ value.closures, function.Fits ranking levels level

/-- A value that fits a level everywhere inside. -/
def Fits (value : Val) : Prop :=
  value.Everywhere (FitsHere ranking levels level)

variable {ranking levels level}

theorem Fits.noCycle {value : Val} (fits : value.Fits ranking levels level) :
    value.tellsCycle = false :=
  (fits value .self).noCycle

end Val

/-! ### Later and higher -/

section Later

variable {program : Program} {ranking : Ranking program} {levels extended : Levels}
  {level higher : Nat}

theorem Env.Within.later {env : Env} (within : Env.Within levels level env)
    (grown : levels <+: extended) (raised : level ≤ higher) : Env.Within extended higher env := by
  intro id mem
  obtain ⟨opened, found, low⟩ := within id mem
  obtain ⟨rest, rfl⟩ := grown
  refine ⟨opened, ?_, Nat.le_trans low raised⟩
  rw [getElem?_append_left (List.getElem?_eq_some_iff.mp found).1, found]

theorem Closure.Fits.later {function : Closure} (fits : function.Fits ranking levels level)
    (grown : levels <+: extended) (raised : level ≤ higher) : function.Fits ranking extended higher :=
  ⟨fits.within.later grown raised, fits.travels.raise raised⟩

variable {value : Val} (fits : value.Fits ranking levels level)
include fits

theorem Val.Fits.later (grown : levels <+: extended) (raised : level ≤ higher) :
    value.Fits ranking extended higher :=
  fun part inside =>
    ⟨(fits part inside).noCycle, fun function mem =>
      ((fits part inside).functions function mem).later grown raised⟩

theorem Val.Fits.of_functionless (functionless : value.Functionless) (elsewhere : Levels)
    (other : Nat) :
    value.Fits ranking elsewhere other :=
  fun part inside =>
    ⟨(fits part inside).noCycle, by simp [functionless part inside]⟩

end Later

/-! ### Values by parts -/

namespace Val

attribute [local simp] tellsCycle closures parts

variable {program : Program} {ranking : Ranking program} {levels : Levels} {level : Nat}

theorem fits_iff {value : Val} :
    value.Fits ranking levels level ↔
      (value.tellsCycle = false ∧ ∀ function ∈ value.closures, function.Fits ranking levels level) ∧
        ∀ part ∈ value.parts, part.Fits ranking levels level :=
  everywhere_iff.trans (and_congr_left fun _ =>
    ⟨fun here => ⟨here.noCycle, here.functions⟩, fun here => ⟨here.1, here.2⟩⟩)

theorem fits_list_iff {items : List Val} :
    (list items).Fits ranking levels level ↔ ∀ item ∈ items, item.Fits ranking levels level := by
  rw [fits_iff]
  simp

theorem fits_set_iff {members : List Val} :
    (set members).Fits ranking levels level ↔ ∀ mem ∈ members, mem.Fits ranking levels level := by
  rw [fits_iff]
  simp

theorem fits_map_iff {entries : List (Val × Val)} :
    (map entries).Fits ranking levels level ↔
      ∀ entry ∈ entries, entry.1.Fits ranking levels level ∧ entry.2.Fits ranking levels level := by
  rw [fits_iff]
  simp only [tellsCycle, closures, not_mem_nil, false_implies, implies_true, and_true, true_and,
    mem_parts_map]
  constructor
  · exact fun all entry mem =>
      ⟨all _ ⟨entry, mem, Or.inl rfl⟩, all _ ⟨entry, mem, Or.inr rfl⟩⟩
  · rintro all part ⟨entry, mem, rfl | rfl⟩
    · exact (all entry mem).1
    · exact (all entry mem).2

variable {function : Closure} {receiver : Val} {definition : Definition}

theorem fits_closure_iff :
    (closure function).Fits ranking levels level ↔ function.Fits ranking levels level := by
  rw [fits_iff]
  simp

theorem fits_method_iff :
    (method receiver function).Fits ranking levels level ↔
      function.Fits ranking levels level ∧ receiver.Fits ranking levels level := by
  rw [fits_iff]
  simp

theorem fits_native_iff {name : String} :
    (native receiver name).Fits ranking levels level ↔ receiver.Fits ranking levels level := by
  rw [fits_iff]
  simp

theorem fits_constructor_iff :
    (constructor definition).Fits ranking levels level ↔
      ∀ function ∈ definition.functions, function.Fits ranking levels level := by
  rw [fits_iff]
  simp

theorem fits_record_iff {fields : List Val} :
    (record definition fields).Fits ranking levels level ↔
      (∀ function ∈ definition.functions, function.Fits ranking levels level) ∧
        ∀ field ∈ fields, field.Fits ranking levels level := by
  rw [fits_iff]
  simp

theorem fits_failure {cause : Cause} (ordinary : cause.tellsCycle = false) (node : NodeId) :
    (failure cause node).Fits ranking levels level := by
  rw [fits_iff]
  simp [failure, ordinary]

theorem fits_fabric (ranking : Ranking program) (levels : Levels) (level size : Nat) :
    Fabric size (Fits ranking levels level) :=
  Fabric.ofParts
    (fun _ => by rw [fits_iff]; simp)
    (fun _ => by rw [fits_iff]; simp)
    (fun _ => by rw [fits_iff]; simp)
    (fun _ => by rw [fits_iff]; simp)
    (fun _ node ordinary _ => fits_failure ordinary node)
    (fun _ => fits_list_iff) (fun _ => fits_set_iff) (fun _ => fits_map_iff)

theorem Fits.visibleFields (fits : receiver.Fits ranking levels level) :
    ∀ entry ∈ receiver.visibleFields, entry.2.Fits ranking levels level := by
  cases receiver with
  | record definition fields =>
    intro entry mem
    exact (fits_record_iff.mp fits).2 entry.2 (of_mem_zip mem).2
  | _ => simp [Val.visibleFields]

theorem Fits.function? {fields : List Val}
    (fits : (record definition fields).Fits ranking levels level)
    {name : String} (found : definition.function? name = some function) :
    function.Fits ranking levels level :=
  (fits_record_iff.mp fits).1 function (mem_of_find?_eq_some found)

theorem Fits.access
    {subject : Val} (fits : subject.Fits ranking levels level) (name : String) (node : NodeId) :
    (subject.access name node).Fits ranking levels level := by
  have native : Val.Fits ranking levels level
      (if Native.has subject.kind name then .native subject name
        else .failure (.unknownField subject.ownerName name) node) := by
    split
    · exact fits_native_iff.mpr fits
    · exact fits_failure rfl node
  cases subject with
  | record definition fields =>
    simp only [Val.access]
    split
    · next value found =>
      obtain ⟨place, -, present⟩ := Option.bind_eq_some_iff.mp found
      exact (fits_record_iff.mp fits).2 value (mem_of_getElem? present)
    · next function _ found => exact fits_method_iff.mpr ⟨fits.function? found, fits⟩
    · exact native
  | _ => exact native

end Val

end Reactor

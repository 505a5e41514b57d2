import Reactor.Decimal.Reading
import Reactor.Text.Blank
import Reactor.Text.Split

/-!
# Units of measure

A unit is a product of named base units with integer exponents: `m/s` is the product of `m` with
exponent one and `s` with exponent minus one.  The factors are kept in the order of their names and
a factor with exponent zero is left out, so equal units have equal factors.

Texts such as `kg·m/s^2` are read by `Units.parse` and written by `Units.render`.
-/

namespace Reactor

open Text

/-- Factors in the strict order of their names. -/
def FactorsSorted (factors : List (String × Int)) : Prop :=
  factors.Pairwise fun left right => left.1 < right.1

/-- Multiply by `name ^ power` in a list of factors. -/
def insertFactor (name : String) (power : Int) : List (String × Int) → List (String × Int)
  | [] => if power = 0 then [] else [(name, power)]
  | (other, exponent) :: rest =>
    if name < other then
      if power = 0 then (other, exponent) :: rest else (name, power) :: (other, exponent) :: rest
    else if name = other then
      if exponent + power = 0 then rest else (other, exponent + power) :: rest
    else (other, exponent) :: insertFactor name power rest

theorem name_of_mem_insertFactor {name : String} {power : Int} {factors : List (String × Int)}
    {factor : String × Int} (member : factor ∈ insertFactor name power factors) :
    factor.1 = name ∨ ∃ old ∈ factors, old.1 = factor.1 := by
  induction factors with
  | nil =>
    unfold insertFactor at member
    split at member
    · cases member
    · left; simp_all
  | cons head rest ih =>
    obtain ⟨other, exponent⟩ := head
    unfold insertFactor at member
    split at member
    · split at member
      · right; exact ⟨factor, member, rfl⟩
      · rcases List.mem_cons.mp member with rfl | member
        · left; rfl
        · right; exact ⟨factor, member, rfl⟩
    · split at member
      · split at member
        · right; exact ⟨factor, List.mem_cons_of_mem _ member, rfl⟩
        · rcases List.mem_cons.mp member with rfl | member
          · right; exact ⟨_, List.mem_cons_self, rfl⟩
          · right; exact ⟨factor, List.mem_cons_of_mem _ member, rfl⟩
      · rcases List.mem_cons.mp member with rfl | member
        · right; exact ⟨_, List.mem_cons_self, rfl⟩
        · rcases ih member with named | ⟨old, present, same⟩
          · left; exact named
          · right; exact ⟨old, List.mem_cons_of_mem _ present, same⟩

theorem FactorsSorted.insertFactor {factors : List (String × Int)} (sorted : FactorsSorted factors)
    (name : String) (power : Int) : FactorsSorted (insertFactor name power factors) := by
  induction factors with
  | nil =>
    unfold Reactor.insertFactor
    split
    · exact List.Pairwise.nil
    · exact List.pairwise_singleton _ _
  | cons head rest ih =>
    obtain ⟨other, exponent⟩ := head
    have headBelow := (List.pairwise_cons.mp sorted).1
    have restSorted : FactorsSorted rest := (List.pairwise_cons.mp sorted).2
    unfold Reactor.insertFactor
    split
    · rename_i below
      split
      · exact sorted
      · refine List.pairwise_cons.mpr ⟨?_, sorted⟩
        intro factor member
        rcases List.mem_cons.mp member with rfl | member
        · exact below
        · exact String.lt_trans below (headBelow factor member)
    · rename_i notBelow
      split
      · split
        · exact restSorted
        · exact List.pairwise_cons.mpr ⟨headBelow, restSorted⟩
      · rename_i different
        refine List.pairwise_cons.mpr ⟨?_, ih restSorted⟩
        intro factor member
        rcases name_of_mem_insertFactor member with named | ⟨old, present, same⟩
        · rw [named]
          exact Decidable.byContradiction fun notAbove =>
            different (String.le_antisymm (String.not_lt.mp notAbove) (String.not_lt.mp notBelow))
        · rw [← same]
          exact headBelow old present

theorem insertFactor_ne_zero {name : String} {power : Int} {factors : List (String × Int)}
    (nonzero : ∀ factor ∈ factors, factor.2 ≠ 0) :
    ∀ factor ∈ insertFactor name power factors, factor.2 ≠ 0 := by
  induction factors with
  | nil =>
    intro factor member
    unfold insertFactor at member
    split at member
    · cases member
    · simp_all
  | cons head rest ih =>
    obtain ⟨other, exponent⟩ := head
    have restNonzero : ∀ factor ∈ rest, factor.2 ≠ 0 :=
      fun factor member => nonzero factor (List.mem_cons_of_mem _ member)
    intro factor member
    unfold insertFactor at member
    split at member
    · split at member
      · exact nonzero factor member
      · rcases List.mem_cons.mp member with rfl | member
        · assumption
        · exact nonzero factor member
    · split at member
      · split at member
        · exact restNonzero factor member
        · rcases List.mem_cons.mp member with rfl | member
          · assumption
          · exact restNonzero factor member
      · rcases List.mem_cons.mp member with rfl | member
        · exact nonzero _ List.mem_cons_self
        · exact ih restNonzero factor member

/-- A product of named base units with integer exponents. -/
structure Units where
  factors : List (String × Int)
  sorted : FactorsSorted factors
  nonzero : ∀ factor ∈ factors, factor.2 ≠ 0
  deriving DecidableEq

namespace Units

def plain : Units := ⟨[], List.Pairwise.nil, by simp⟩

instance : Inhabited Units := ⟨plain⟩

def isPlain (units : Units) : Bool :=
  units.factors.isEmpty

/-- The exponent of a base unit, zero when it does not occur. -/
def exponent (units : Units) (name : String) : Int :=
  (units.factors.lookup name).getD 0

/-- Multiply by `name ^ power`. -/
def multiply (units : Units) (name : String) (power : Int) : Units :=
  ⟨insertFactor name power units.factors, units.sorted.insertFactor name power,
    insertFactor_ne_zero units.nonzero⟩

def product (left right : Units) : Units :=
  right.factors.foldl (fun units (name, power) => units.multiply name power) left

def quotient (left right : Units) : Units :=
  right.factors.foldl (fun units (name, power) => units.multiply name (-power)) left

def InRange (power : Int) : Prop :=
  -0x80000000 ≤ power ∧ power ≤ 0x7FFFFFFF

instance (power : Int) : Decidable (InRange power) :=
  inferInstanceAs (Decidable (_ ∧ _))

/-- A power of a unit.  There is none when an exponent would leave the range. -/
def power (units : Units) (exponent : Int) : Option Units :=
  if ∀ factor ∈ units.factors, InRange (factor.2 * exponent) then
    some (units.factors.foldl (fun result (name, power) => result.multiply name (power * exponent))
      plain)
  else none

/-! ### Reading -/

/-- The value of an optional sign followed by decimal digits, when it is in range. -/
def exponentValue? (text : List Char) : Option Int :=
  (Decimal.integer? text).filter fun value => decide (InRange value)

/-- A factor is a name, or a name and an exponent divided by `^`.  An exponent that is no integer in
range counts as one. -/
def parseFactor (factor : List Char) : String × Int :=
  match cutAt '^' factor with
  | some (name, exponent) => (String.ofList name, (exponentValue? exponent).getD 1)
  | none => (String.ofList factor, 1)

/-- The factors of one side of a unit, divided by `·`. -/
def parseSide (side : List Char) : List (String × Int) :=
  ((splitAt '·' side).map trim).filter (!·.isEmpty) |>.map parseFactor

/-- Multiply by factors, each raised to `sign`. -/
def multiplyAll (units : Units) (sign : Int) (factors : List (String × Int)) : Units :=
  factors.foldl (fun units (name, power) => units.multiply name (power * sign)) units

/-- Read a unit such as `ms`, `m/s` or `kg·m/s^2`.  What follows the first `/` is divided by. -/
def parseChars (text : List Char) : Units :=
  match cutAt '/' text with
  | some (numerator, denominator) =>
    (plain.multiplyAll 1 (parseSide numerator)).multiplyAll (-1) (parseSide denominator)
  | none => plain.multiplyAll 1 (parseSide text)

@[inherit_doc parseChars]
def parse (text : String) : Units :=
  parseChars text.toList

/-! ### Writing -/

/-- A factor with a positive exponent, which is left out when it is one. -/
def renderFactor (name : String) (power : Nat) : String :=
  if power = 1 then name else name ++ "^" ++ power.repr

/-- The positive factors divided by `·` and, when there are negative ones, `/` and those. -/
def render (units : Units) : String :=
  let numerator := units.factors.filter (0 < ·.2)
  let denominator := units.factors.filter (·.2 < 0)
  let side (factors : List (String × Int)) : String :=
    "·".intercalate (factors.map fun (name, power) => renderFactor name power.natAbs)
  side numerator ++ if denominator.isEmpty then "" else "/" ++ side denominator

end Units

end Reactor

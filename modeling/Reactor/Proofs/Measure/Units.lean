import Mathlib.Algebra.BigOperators.Group.List.Basic
import Mathlib.Algebra.Ring.Int.Defs
import Mathlib.Data.List.Perm.Basic
import Reactor.Measure.Units

/-!
# The group of units

The factors of a unit are kept in the order of their names, and a factor is dropped as soon as its
exponent is zero.  So a unit is determined by the exponents of all names, whatever was multiplied in
which order: `Units.ext_exponent`.  Products add exponents, quotients subtract them and powers multiply
them, and the laws of units are those of integers.
-/

namespace Reactor

open List

/-! ### Exponents in lists of factors -/

/-- The exponents of a name in a list of factors, taken together. -/
def totalExponent (factors : List (String × Int)) (name : String) : Int :=
  (factors.map fun factor => if factor.1 = name then factor.2 else 0).sum

theorem totalExponent_cons (factor : String × Int) (rest : List (String × Int)) (name : String) :
    totalExponent (factor :: rest) name =
      (if factor.1 = name then factor.2 else 0) + totalExponent rest name := by
  rw [totalExponent, map_cons, sum_cons]
  rfl

theorem totalExponent_append (first second : List (String × Int)) (name : String) :
    totalExponent (first ++ second) name = totalExponent first name + totalExponent second name := by
  rw [totalExponent, map_append, sum_append]
  rfl

theorem totalExponent_eq_zero {factors : List (String × Int)} {name : String}
    (absent : ∀ factor ∈ factors, factor.1 ≠ name) : totalExponent factors name = 0 := by
  induction factors with
  | nil => rfl
  | cons factor rest ih =>
    obtain ⟨here, others⟩ := forall_mem_cons.mp absent
    rw [totalExponent_cons, if_neg here, ih others, zero_add]

theorem totalExponent_insertFactor (factors : List (String × Int)) (name other : String) (power : Int) :
    totalExponent (insertFactor name power factors) other =
      totalExponent factors other + if name = other then power else 0 := by
  fun_induction insertFactor name power factors with
  | case1 zero | case3 _ _ _ _ zero => rw [zero, ite_self, add_zero]
  | case2 | case4 => rw [totalExponent_cons, add_comm]
  | case5 exponent rest _ cancels =>
    rw [totalExponent_cons]
    split <;> omega
  | case6 exponent rest =>
    rw [totalExponent_cons, totalExponent_cons]
    split <;> omega
  | case7 head exponent rest _ _ ih =>
    rw [totalExponent_cons, totalExponent_cons, ih, add_assoc]

/-- The name of the first of sorted factors is that of no other. -/
theorem FactorsSorted.ne_of_mem {factor : String × Int} {rest : List (String × Int)}
    (sorted : FactorsSorted (factor :: rest)) : ∀ other ∈ rest, other.1 ≠ factor.1 :=
  fun other mem same => String.lt_irrefl _ (same ▸ (pairwise_cons.mp sorted).1 other mem)

section

variable {factors : List (String × Int)} (sorted : FactorsSorted factors)
include sorted

theorem FactorsSorted.lookup_eq (name : String) :
    (factors.lookup name).getD 0 = totalExponent factors name := by
  induction factors with
  | nil => rfl
  | cons factor rest ih =>
    rw [lookup_cons, totalExponent_cons]
    by_cases same : factor.1 = name
    · subst same
      simp [totalExponent_eq_zero sorted.ne_of_mem]
    · rw [beq_false_of_ne (Ne.symm same), if_neg same, zero_add]
      exact ih (pairwise_cons.mp sorted).2

theorem FactorsSorted.mem_iff (nonzero : ∀ factor ∈ factors, factor.2 ≠ 0) (name : String)
    (power : Int) :
    (name, power) ∈ factors ↔ totalExponent factors name = power ∧ power ≠ 0 := by
  induction factors with
  | nil => simpa [totalExponent] using fun zero => zero.symm
  | cons factor rest ih =>
    obtain ⟨here, others⟩ := forall_mem_cons.mp nonzero
    rw [mem_cons, totalExponent_cons, ih (pairwise_cons.mp sorted).2 others]
    by_cases same : factor.1 = name
    · subst same
      rw [totalExponent_eq_zero sorted.ne_of_mem, if_pos rfl, add_zero]
      constructor
      · rintro (first | ⟨zero, nonzero⟩)
        · rw [← first] at here ⊢
          exact ⟨rfl, here⟩
        · exact (nonzero zero.symm).elim
      · rintro ⟨rfl, -⟩
        exact .inl rfl
    · rw [if_neg same, zero_add, or_iff_right fun equal => same (congrArg Prod.fst equal).symm]

end

namespace Units

theorem exponent_eq (units : Units) (name : String) :
    units.exponent name = totalExponent units.factors name :=
  units.sorted.lookup_eq name

/-- Units with the same exponents are the same. -/
theorem ext_exponent {units other : Units} (same : ∀ name, units.exponent name = other.exponent name) :
    units = other := by
  have members : ∀ factor, factor ∈ units.factors ↔ factor ∈ other.factors := by
    rintro ⟨name, power⟩
    rw [units.sorted.mem_iff units.nonzero, other.sorted.mem_iff other.nonzero, ← exponent_eq,
      ← exponent_eq, same]
  have distinct : ∀ units : Units, units.factors.Nodup := fun units =>
    Pairwise.imp (fun {left right} below (equal : left = right) =>
      String.lt_irrefl right.1 (equal ▸ below)) units.sorted
  have alike : units.factors = other.factors :=
    Perm.eq_of_pairwise (fun left right _ _ below above => absurd below (String.lt_asymm above))
      units.sorted other.sorted
      ((perm_ext_iff_of_nodup (distinct units) (distinct other)).mpr members)
  rcases units with ⟨factors, sorted, nonzero⟩
  cases alike
  rfl

/-! ### Exponents of products, quotients and powers -/

variable (units other : Units)

@[simp]
theorem exponent_plain (name : String) : plain.exponent name = 0 :=
  rfl

theorem exponent_multiplyAll (sign : Int) (factors : List (String × Int)) (name : String) :
    (units.multiplyAll sign factors).exponent name =
      units.exponent name + totalExponent factors name * sign := by
  induction factors generalizing units with
  | nil => simp [multiplyAll, totalExponent]
  | cons factor rest ih =>
    have inserted : (units.multiply factor.1 (factor.2 * sign)).exponent name =
        units.exponent name + if factor.1 = name then factor.2 * sign else 0 := by
      rw [exponent_eq, exponent_eq]
      exact totalExponent_insertFactor ..
    rw [totalExponent_cons, add_mul, ite_mul, zero_mul, ← add_assoc, ← inserted]
    exact ih _

@[simp]
theorem exponent_product (name : String) :
    (units.product other).exponent name = units.exponent name + other.exponent name := by
  have same : units.product other = units.multiplyAll 1 other.factors := by
    simp only [product, multiplyAll, mul_one]
  rw [same, exponent_multiplyAll, mul_one, ← exponent_eq]

@[simp]
theorem exponent_quotient (name : String) :
    (units.quotient other).exponent name = units.exponent name - other.exponent name := by
  have same : units.quotient other = units.multiplyAll (-1) other.factors := by
    simp only [quotient, multiplyAll, mul_neg_one]
  rw [same, exponent_multiplyAll, mul_neg_one, ← exponent_eq, sub_eq_add_neg]

/-- The factors with all exponents times a number, which is the power where there is one. -/
def scaled (times : Int) : Units :=
  plain.multiplyAll times units.factors

@[simp]
theorem exponent_scaled (times : Int) (name : String) :
    (units.scaled times).exponent name = units.exponent name * times := by
  rw [scaled, exponent_multiplyAll, exponent_plain, zero_add, exponent_eq]

/-- All exponents are in range. -/
def Bounded : Prop :=
  ∀ name, InRange (units.exponent name)

variable {units other}

theorem bounded_scaled_iff {times : Int} :
    (units.scaled times).Bounded ↔ ∀ factor ∈ units.factors, InRange (factor.2 * times) := by
  simp only [Bounded, exponent_scaled]
  constructor
  · rintro bounded ⟨name, power⟩ mem
    have exponent := ((units.sorted.mem_iff units.nonzero name power).mp mem).1
    rw [← exponent, ← exponent_eq]
    exact bounded name
  · intro checked name
    by_cases zero : units.exponent name = 0
    · rw [zero, zero_mul]
      decide
    · refine checked (name, units.exponent name) ?_
      exact (units.sorted.mem_iff units.nonzero ..).mpr ⟨(units.exponent_eq name).symm, zero⟩

theorem power_of_bounded {times : Int} (bounded : (units.scaled times).Bounded) :
    units.power times = some (units.scaled times) :=
  if_pos (bounded_scaled_iff.mp bounded)

theorem power_of_not_bounded {times : Int} (outside : ¬(units.scaled times).Bounded) :
    units.power times = none :=
  if_neg fun checked => outside (bounded_scaled_iff.mpr checked)

theorem bounded_of_power {times : Int} {result : Units} (found : units.power times = some result) :
    result.Bounded ∧ result = units.scaled times := by
  by_cases bounded : (units.scaled times).Bounded
  · rw [power_of_bounded bounded, Option.some_inj] at found
    exact ⟨found ▸ bounded, found.symm⟩
  · rw [power_of_not_bounded bounded] at found
    cases found

/-- A power of a power multiplies the exponents, and there is none in the same cases. -/
theorem power_power {times again : Int} {result : Units} (found : units.power times = some result) :
    result.power again = units.power (again * times) := by
  obtain ⟨-, rfl⟩ := bounded_of_power found
  have same : (units.scaled times).scaled again = units.scaled (again * times) :=
    ext_exponent fun name => by
      rw [exponent_scaled, exponent_scaled, exponent_scaled, mul_assoc, mul_comm times]
  by_cases bounded : (units.scaled (again * times)).Bounded
  · rw [power_of_bounded bounded, ← same]
    exact power_of_bounded (same ▸ bounded)
  · rw [power_of_not_bounded bounded]
    exact power_of_not_bounded (same ▸ bounded)

/-- What the units of measure satisfy as a group written multiplicatively. -/
structure GroupLaws (left middle right : Units) : Prop where
  comm : left.product right = right.product left
  assoc : (left.product middle).product right = left.product (middle.product right)
  plain_product : plain.product left = left
  product_plain : left.product plain = left
  product_quotient : (left.product right).quotient right = left
  quotient_self : (left.quotient left).isPlain
  quotient_eq : ∀ inverse, right.power (-1) = some inverse →
    left.quotient right = left.product inverse

/-- What powers of units satisfy.  Two powers are multiplied as long as the exponents of the product
stay in range. -/
structure PowerLaws (left right : Units) (times again : Int) : Prop where
  power_power : ∀ first, left.power times = some first →
    first.power again = left.power (again * times)
  product_power : ∀ first second, left.power times = some first → left.power again = some second →
    (first.product second).Bounded → left.power (times + again) = some (first.product second)
  power_product : ∀ first second, left.power times = some first → right.power times = some second →
    (first.product second).Bounded → (left.product right).power times = some (first.product second)
  power_none : left.power times = none ↔ ∃ name, ¬InRange (left.exponent name * times)

theorem groupLaws (left middle right : Units) : GroupLaws left middle right where
  comm := ext_exponent fun name => by simp [add_comm]
  assoc := ext_exponent fun name => by simp [add_assoc]
  plain_product := ext_exponent fun name => by simp
  product_plain := rfl
  product_quotient := ext_exponent fun name => by simp
  quotient_self := by
    have same : left.quotient left = plain := ext_exponent fun name => by simp
    rw [same]
    rfl
  quotient_eq := by
    intro inverse found
    obtain ⟨-, rfl⟩ := bounded_of_power found
    exact ext_exponent fun name => by simp [sub_eq_add_neg]

theorem powerLaws (left right : Units) (times again : Int) : PowerLaws left right times again where
  power_power := fun _ => power_power
  product_power := by
    intro first second found next bounded
    obtain ⟨-, rfl⟩ := bounded_of_power found
    obtain ⟨-, rfl⟩ := bounded_of_power next
    have same : left.scaled (times + again) = (left.scaled times).product (left.scaled again) :=
      ext_exponent fun name => by simp [mul_add]
    rw [← same] at bounded ⊢
    exact power_of_bounded bounded
  power_product := by
    intro first second found next bounded
    obtain ⟨-, rfl⟩ := bounded_of_power found
    obtain ⟨-, rfl⟩ := bounded_of_power next
    have same : (left.product right).scaled times = (left.scaled times).product (right.scaled times) :=
      ext_exponent fun name => by simp [add_mul]
    rw [← same] at bounded ⊢
    exact power_of_bounded bounded
  power_none := by
    rw [← not_forall]
    constructor
    · intro missing bounded
      rw [power_of_bounded (by simpa [Bounded] using bounded)] at missing
      cases missing
    · intro outside
      exact power_of_not_bounded (by simpa [Bounded] using outside)

/-- Units are kept in a canonical form, in which they form an abelian group with powers. -/
theorem units_form_abelian_group (left middle right : Units) (times again : Int) :
    ((∀ factor ∈ left.factors, factor.2 ≠ 0) ∧ (left = right ↔
        ∀ name, totalExponent left.factors name = totalExponent right.factors name) ∧
      ∀ factors others, plain.multiplyAll 1 factors = plain.multiplyAll 1 others ↔
        ∀ name, totalExponent factors name = totalExponent others name) ∧
      GroupLaws left middle right ∧ PowerLaws left right times again := by
  refine ⟨⟨left.nonzero, ?_, fun factors others => ?_⟩, groupLaws .., powerLaws ..⟩
  · simp only [← exponent_eq]
    exact ⟨fun same _ => same ▸ rfl, ext_exponent⟩
  · constructor
    · intro same name
      simpa [exponent_multiplyAll] using congrArg (·.exponent name) same
    · intro same
      exact ext_exponent fun name => by simp [exponent_multiplyAll, same name]

theorem units_form_abelian_group_for_speeds :
    (parse "m/s").power 2 = some (parse "m^2/s^2") ∧
      (parse "m^2/s^2").power 3 = (parse "m/s").power (3 * 2) :=
  have squared : (parse "m/s").power 2 = some (parse "m^2/s^2") := by decide
  ⟨squared, (units_form_abelian_group (parse "m/s") plain plain 2 3).2.2.power_power _ squared⟩

end Units

end Reactor

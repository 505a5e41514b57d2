import Reactor.Proofs.Measure.Units

/-!
# The notation of units

Reading a text of units is reading its factors one after another, so writing two texts side by side
multiplies what they stand for and writing one below the other divides it.  A unit is read back from
what is written for it, as long as its names hold none of the characters of the notation and no blank
at an end.
-/

namespace Reactor

open List

/-! ### Cutting texts that are put together -/

namespace Text

variable {separator : Char} {before : List Char}

theorem cutAt_of_notMem (absent : separator ∉ before) : cutAt separator before = none := by
  induction before with
  | nil => rfl
  | cons character rest ih =>
    obtain ⟨here, others⟩ := not_or.mp (mt mem_cons.mpr absent)
    rw [cutAt, if_neg (Ne.symm here), ih others, Option.map_none]

theorem cutAt_append (absent : separator ∉ before) (after : List Char) :
    cutAt separator (before ++ separator :: after) = some (before, after) := by
  induction before with
  | nil => exact if_pos rfl
  | cons character rest ih =>
    obtain ⟨here, others⟩ := not_or.mp (mt mem_cons.mpr absent)
    rw [cons_append, cutAt, if_neg (Ne.symm here), ih others, Option.map_some]

theorem splitAt_ne_nil (separator : Char) (text : List Char) : splitAt separator text ≠ [] := by
  fun_cases splitAt separator text <;> simp

theorem splitAt_append (separator : Char) (before after : List Char) :
    splitAt separator (before ++ separator :: after) =
      splitAt separator before ++ splitAt separator after := by
  induction before with
  | nil => simp [splitAt]
  | cons character rest ih =>
    rw [cons_append, splitAt, splitAt, ih]
    split
    · rfl
    · obtain ⟨piece, pieces, pieces_eq⟩ := exists_cons_of_ne_nil (splitAt_ne_nil separator rest)
      rw [pieces_eq]
      rfl

theorem splitAt_of_notMem (absent : separator ∉ before) : splitAt separator before = [before] := by
  induction before with
  | nil => rfl
  | cons character rest ih =>
    obtain ⟨here, others⟩ := not_or.mp (mt mem_cons.mpr absent)
    rw [splitAt, if_neg (Ne.symm here), ih others]

theorem trimEnd_eq_self {text : List Char} (last : ∀ character ∈ text.getLast?, ¬isBlank character) :
    trimEnd text = text := by
  induction text with
  | nil => rfl
  | cons character rest ih =>
    cases rest with
    | nil => exact if_neg (last character rfl)
    | cons next others =>
      rw [trimEnd, ih (by rwa [getLast?_cons_cons] at last)]

theorem trim_eq_self {text : List Char} (first : ∀ character ∈ text.head?, ¬isBlank character)
    (last : ∀ character ∈ text.getLast?, ¬isBlank character) : trim text = text := by
  have kept : text.dropWhile isBlank = text := by
    cases text with
    | nil => rfl
    | cons character rest => exact dropWhile_cons_of_neg (first character rfl)
  rw [trim, kept, trimEnd_eq_self last]

end Text

/-! ### Digits -/

namespace Decimal

theorem valueOfDigits_toDigits (value : Nat) : valueOfDigits (Nat.toDigits 10 value) = value := by
  have same : valueOfDigits (Nat.toDigits 10 value) = Nat.ofDigitChars 10 (Nat.toDigits 10 value) 0 := by
    simp only [valueOfDigits, Nat.ofDigitChars, mul_comm]
  rw [same, Nat.ofDigitChars_toDigits (by decide) (by decide)]

theorem integer?_of_digits {digits : List Char} (some : digits ≠ [])
    (all : ∀ character ∈ digits, character.isDigit) :
    integer? digits = Option.some (valueOfDigits digits : Int) := by
  have checked : (!digits.isEmpty && digits.all Char.isDigit) = true := by
    simpa [some] using all
  unfold integer?
  split
  · exact absurd (all '-' mem_cons_self) (by decide)
  · exact absurd (all '+' mem_cons_self) (by decide)
  · exact if_pos checked

end Decimal

namespace Units

open Text

theorem not_isBlank_of_isDigit {character : Char} (digit : character.isDigit) : ¬isBlank character := by
  simp [Char.isDigit, isBlank, UInt32.le_iff_toNat_le] at *
  omega

theorem isDigit_of_mem_repr {power : Nat} {character : Char} (mem : character ∈ Nat.toDigits 10 power) :
    character.isDigit :=
  Nat.isDigit_of_mem_toDigits (by decide) (by decide) mem

theorem exponentValue?_repr {power : Nat} (range : power < 2 ^ 31) :
    exponentValue? (Nat.toDigits 10 power) = some (power : Int) := by
  have value : Decimal.integer? (Nat.toDigits 10 power) = some (power : Int) := by
    rw [Decimal.integer?_of_digits Nat.toDigits_ne_nil fun _ => isDigit_of_mem_repr,
      Decimal.valueOfDigits_toDigits]
  have inside : InRange power := by
    unfold InRange
    omega
  rw [exponentValue?, value]
  simp [inside]

/-! ### Reading what is put together -/

theorem parseSide_append (before after : List Char) :
    parseSide (before ++ '·' :: after) = parseSide before ++ parseSide after := by
  simp only [parseSide, splitAt_append, map_append, filter_append]

theorem parseSide_intercalate (pieces : List (List Char)) :
    parseSide (['·'].intercalate pieces) = pieces.flatMap parseSide := by
  induction pieces with
  | nil => rfl
  | cons piece rest ih =>
    cases rest with
    | nil => simp
    | cons next others =>
      rw [intercalate_cons_cons, append_assoc, singleton_append, parseSide_append, ih]
      rfl

/-! ### Units with names that can be read -/

/-- A name that holds no character of the notation and no blank at an end. -/
structure ReadableName (name : String) : Prop where
  nonempty : name.toList ≠ []
  plain : ∀ character ∈ name.toList, character ≠ '/' ∧ character ≠ '·' ∧ character ≠ '^'
  first : ∀ character ∈ name.toList.head?, ¬isBlank character
  last : ∀ character ∈ name.toList.getLast?, ¬isBlank character

theorem toList_renderFactor (name : String) (power : Nat) :
    (renderFactor name power).toList =
      name.toList ++ if power = 1 then [] else '^' :: Nat.toDigits 10 power := by
  unfold renderFactor
  split <;> simp [Nat.repr]

namespace ReadableName

variable {name : String} {power : Nat}

variable (readable : ReadableName name)
include readable

theorem notMem_renderFactor {character : Char} (special : character = '/' ∨ character = '·') :
    character ∉ (renderFactor name power).toList := by
  have absent : character ∉ name.toList := by
    intro mem
    rcases special with rfl | rfl
    · exact (readable.plain _ mem).1 rfl
    · exact (readable.plain _ mem).2.1 rfl
  have noDigit : character ∉ Nat.toDigits 10 power := by
    intro mem
    have digit := isDigit_of_mem_repr mem
    rcases special with rfl | rfl <;> exact absurd digit (by decide)
  have noCaret : character ≠ '^' := by
    rcases special with rfl | rfl <;> decide
  rw [toList_renderFactor]
  split <;> simp [absent, noDigit, noCaret]

theorem trim_renderFactor :
    trim (renderFactor name power).toList = (renderFactor name power).toList := by
  rw [toList_renderFactor]
  apply trim_eq_self
  · rw [head?_append_of_ne_nil _ readable.nonempty]
    exact readable.first
  · split
    · rw [append_nil]
      exact readable.last
    · intro character last
      have digits : Nat.toDigits 10 power ≠ [] := Nat.toDigits_ne_nil
      rw [getLast?_append_of_ne_nil _ (cons_ne_nil _ _), getLast?_cons_of_ne_nil digits] at last
      exact not_isBlank_of_isDigit (isDigit_of_mem_repr (mem_of_getLast? last))

theorem parseFactor_renderFactor (range : power < 2 ^ 31) :
    parseFactor (renderFactor name power).toList = (name, (power : Int)) := by
  have noCaret : '^' ∉ name.toList := fun mem => (readable.plain _ mem).2.2 rfl
  rw [toList_renderFactor, parseFactor]
  by_cases one : power = 1
  · rw [if_pos one, append_nil, cutAt_of_notMem noCaret, one]
    exact Prod.ext String.ofList_toList rfl
  · rw [if_neg one, cutAt_append noCaret]
    exact Prod.ext String.ofList_toList (by simp [exponentValue?_repr range])

theorem parseSide_renderFactor (range : power < 2 ^ 31) :
    parseSide (renderFactor name power).toList = [(name, (power : Int))] := by
  have nonempty : (renderFactor name power).toList.isEmpty = false := by
    rw [toList_renderFactor, isEmpty_eq_false_iff]
    exact append_ne_nil_of_left_ne_nil readable.nonempty _
  rw [parseSide, splitAt_of_notMem (readable.notMem_renderFactor (.inr rfl)), map_singleton,
    readable.trim_renderFactor, filter_cons_of_pos (by rw [nonempty]; rfl), filter_nil, map_singleton,
    readable.parseFactor_renderFactor range]

end ReadableName

/-- A factor whose name and exponent can be read. -/
def ReadableFactor (factor : String × Int) : Prop :=
  ReadableName factor.1 ∧ -2 ^ 31 < factor.2 ∧ factor.2 < 2 ^ 31

/-- Units whose factors can be read. -/
def Readable (units : Units) : Prop :=
  ∀ factor ∈ units.factors, ReadableFactor factor

/-- The text of factors without regard to the signs of exponents. -/
def renderSide (factors : List (String × Int)) : List Char :=
  ['·'].intercalate (factors.map fun factor => (renderFactor factor.1 factor.2.natAbs).toList)

theorem toList_render (units : Units) :
    units.render.toList = renderSide (units.factors.filter (0 < ·.2)) ++
      if (units.factors.filter (·.2 < 0)).isEmpty then []
      else '/' :: renderSide (units.factors.filter (·.2 < 0)) := by
  rw [render, String.toList_append, apply_ite String.toList]
  simp only [renderSide, String.toList_append, String.toList_intercalate, map_map]
  rfl

/-- Factors with the exponents that are written for them. -/
def unsigned (factors : List (String × Int)) : List (String × Int) :=
  factors.map fun factor => (factor.1, (factor.2.natAbs : Int))

section

variable {factors : List (String × Int)} (readable : ∀ factor ∈ factors, ReadableFactor factor)
include readable

theorem parseSide_renderSide : parseSide (renderSide factors) = unsigned factors := by
  rw [renderSide, parseSide_intercalate, flatMap_map, unsigned, map_eq_flatMap]
  apply flatMap_congr
  intro factor mem
  obtain ⟨name, lower, upper⟩ := readable factor mem
  exact name.parseSide_renderFactor (by omega)

theorem slash_notMem_renderSide : '/' ∉ renderSide factors := by
  unfold renderSide
  induction factors with
  | nil => exact not_mem_nil
  | cons factor rest ih =>
    obtain ⟨here, others⟩ := forall_mem_cons.mp readable
    have absent : '/' ∉ (renderFactor factor.1 factor.2.natAbs).toList :=
      here.1.notMem_renderFactor (.inl rfl)
    cases rest with
    | nil => simpa using absent
    | cons next rest => simpa [absent] using ih others

end

/-- Exponents are those of the positive factors less those of the negative ones. -/
theorem totalExponent_sides (factors : List (String × Int)) (name : String) :
    totalExponent (unsigned (factors.filter (0 < ·.2))) name -
      totalExponent (unsigned (factors.filter (·.2 < 0))) name = totalExponent factors name := by
  induction factors with
  | nil => rfl
  | cons factor rest ih =>
    have step (others : List (String × Int)) : totalExponent (unsigned (factor :: others)) name =
        (if factor.1 = name then (factor.2.natAbs : Int) else 0) + totalExponent (unsigned others) name :=
      totalExponent_cons ..
    rw [totalExponent_cons, ← ih, filter_cons, filter_cons]
    rcases Int.lt_trichotomy factor.2 0 with negative | zero | positive
    · rw [if_neg (by simp; omega), if_pos (by simpa), step]
      split <;> omega
    · rw [if_neg (by simp; omega), if_neg (by simp; omega), zero, ite_self, zero_add]
    · rw [if_pos (by simpa), if_neg (by simp; omega), step]
      split <;> omega

/-! ### Reading texts -/

theorem parse_of_notMem {text : String} (whole : '/' ∉ text.toList) :
    parse text = plain.multiplyAll 1 (parseSide text.toList) := by
  rw [parse, parseChars, cutAt_of_notMem whole]

theorem parseChars_append {before : List Char} (whole : '/' ∉ before) (after : List Char) :
    parseChars (before ++ '/' :: after) =
      (plain.multiplyAll 1 (parseSide before)).multiplyAll (-1) (parseSide after) := by
  rw [parseChars, cutAt_append whole]

theorem parse_render {units : Units} (readable : units.Readable) : parse units.render = units := by
  have side (sign : String × Int → Bool) :
      ∀ factor ∈ units.factors.filter sign, ReadableFactor factor :=
    fun factor mem => readable factor (mem_of_mem_filter mem)
  have read : parse units.render =
      (plain.multiplyAll 1 (unsigned (units.factors.filter (0 < ·.2)))).multiplyAll (-1)
        (unsigned (units.factors.filter (·.2 < 0))) := by
    have whole := slash_notMem_renderSide (side (0 < ·.2))
    rw [← parseSide_renderSide (side _), ← parseSide_renderSide (side _), parse, toList_render]
    split
    next none =>
      rw [append_nil, parseChars, cutAt_of_notMem whole, List.isEmpty_iff.mp none]
      rfl
    next => exact parseChars_append whole _
  apply ext_exponent
  intro name
  rw [read, exponent_multiplyAll, exponent_multiplyAll, exponent_plain, zero_add, mul_one,
    mul_neg_one, ← sub_eq_add_neg, totalExponent_sides, exponent_eq]

section

variable {first second : String} (above : '/' ∉ first.toList) (below : '/' ∉ second.toList)
include above below

theorem parse_side_by_side :
    parse (first ++ "·" ++ second) = (parse first).product (parse second) := by
  have whole : '/' ∉ (first ++ "·" ++ second).toList := by simp [above, below]
  have sides : parseSide (first ++ "·" ++ second).toList =
      parseSide first.toList ++ parseSide second.toList := by
    simpa using parseSide_append first.toList second.toList
  apply ext_exponent
  intro name
  rw [parse_of_notMem whole, sides, exponent_product, parse_of_notMem above, parse_of_notMem below,
    exponent_multiplyAll, exponent_multiplyAll, exponent_multiplyAll, totalExponent_append]
  simp

theorem parse_one_below_other :
    parse (first ++ "/" ++ second) = (parse first).quotient (parse second) := by
  have read : parse (first ++ "/" ++ second) =
      (plain.multiplyAll 1 (parseSide first.toList)).multiplyAll (-1) (parseSide second.toList) := by
    simpa [parse] using parseChars_append above second.toList
  apply ext_exponent
  intro name
  rw [read, exponent_quotient, parse_of_notMem above, parse_of_notMem below, exponent_multiplyAll,
    exponent_multiplyAll, exponent_multiplyAll, mul_neg_one, sub_eq_add_neg]
  simp

end

/-- Units are read back from what is written for them, and texts put together stand for the product
or quotient of what they stand for. -/
theorem parsing_inverts_rendering :
    (∀ units : Units, units.Readable → parse units.render = units) ∧
      (∀ units other : Units, units.Readable → other.Readable → units.render = other.render →
        units = other) ∧
      ∀ first second : String, '/' ∉ first.toList → '/' ∉ second.toList →
        parse (first ++ "·" ++ second) = (parse first).product (parse second) ∧
          parse (first ++ "/" ++ second) = (parse first).quotient (parse second) := by
  refine ⟨fun units => parse_render, ?_, ?_⟩
  · intro units other readable otherReadable same
    rw [← parse_render readable, same, parse_render otherReadable]
  · intro first second above below
    exact ⟨parse_side_by_side above below, parse_one_below_other above below⟩

/-- Among the units read back are those with only a denominator. -/
theorem parsing_inverts_rendering_of_rates :
    (parse "/s^2").render = "/s^2" ∧ parse ((parse "/s^2").render) = parse "/s^2" ∧
      parse ("m·s" ++ "/" ++ "s^2") = (parse "m·s").quotient (parse "s^2") := by
  have readable : (parse "/s^2").Readable := by
    intro factor mem
    obtain rfl : factor = ("s", -2) := by
      have factors : (parse "/s^2").factors = [("s", -2)] := by decide
      rw [factors] at mem
      exact mem_singleton.mp mem
    refine ⟨⟨by decide, by simp, by simp [isBlank], by simp [isBlank]⟩, by decide, by decide⟩
  refine ⟨by decide, parsing_inverts_rendering.1 _ readable, ?_⟩
  exact (parsing_inverts_rendering.2.2 "m·s" "s^2" (by decide) (by decide)).2

end Units

end Reactor

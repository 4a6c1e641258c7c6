import ScriptState.Proofs.Number.Numeral
import ScriptState.Value.Basic

/-!
# The texts of floats

Bare text is the shortest numeral that reads back as the float, without an exponent; inspection
text is another numeral for the same number, with an exponent if the float is very small or very
large (`float_text`). Either tells floats apart down to their bits, NaNs apart.
-/

namespace ScriptState

open Number (Binary32 Decimal Numeral IsShortest)

namespace Number.Binary32

variable {x y : Binary32}

/-- The same bits, or both no number. -/
def Same (x y : Binary32) : Prop := x = y ∨ (x.isNaN = true ∧ y.isNaN = true)

/-! ### The shortest decimal of a finite number -/

theorem nearestTo_shortest (finite : x.isFinite = true) : x.NearestTo x.shortest.value := by
  cases zero : x.isZero with
  | false => exact (isShortest_shortest finite zero).reads
  | true =>
    have code : x.code = 0 := beq_iff_eq.mp zero
    have magnitude : x.shortest.value = x.magnitude := by
      rw [shortest, zero, if_pos rfl, Decimal.value, Binary32.magnitude, units, code,
        unitsOfCode_subnormal (pow2_pos 23), Nat.cast_zero, zero_mul, zero_div]
    exact magnitude ▸ nearestTo_magnitude finite

theorem isNaN_of_isFinite (finite : x.isFinite = true) : x.isNaN = false :=
  decide_eq_false (Nat.lt_asymm (of_decide_eq_true finite))

theorem isInfinite_of_isFinite (finite : x.isFinite = true) : x.isInfinite = false :=
  beq_eq_false_iff_ne.mpr (Nat.ne_of_lt (of_decide_eq_true finite))

theorem isFinite_of_not (number : x.isNaN = false) (finite : x.isInfinite = false) :
    x.isFinite = true := by
  have le := Nat.not_lt.mp (of_decide_eq_false number)
  have ne := beq_eq_false_iff_ne.mp finite
  exact decide_eq_true (Nat.lt_of_le_of_ne le ne)

/-! ### Letters and numerals -/

/-- Letters for what is no finite number, a numeral for the others. -/
def spell (x : Binary32) (numeral : Numeral) : String :=
  if x.isNaN then "NaN"
  else x.signed (if x.isInfinite then ['i', 'n', 'f'] else numeral.magnitudeChars)

def textNumeral (x : Binary32) : Numeral := x.shortest.positionalNumeral x.negative

def inspectNumeral (x : Binary32) : Numeral :=
  if x.isScientific then x.shortest.scientificNumeral x.negative
  else x.shortest.pointedNumeral x.negative

theorem text_eq_spell (x : Binary32) : x.text = x.spell x.textNumeral := by
  unfold text spell textNumeral
  rw [Decimal.positional_eq x.negative]

theorem inspect_eq_spell (x : Binary32) : x.inspect = x.spell x.inspectNumeral := by
  unfold inspect spell inspectNumeral
  rw [apply_ite Numeral.magnitudeChars, ← Decimal.scientific_eq, ← Decimal.pointed_eq]

theorem wellFormed_textNumeral (x : Binary32) : x.textNumeral.WellFormed :=
  Decimal.wellFormed_positional _ _

theorem value_textNumeral (x : Binary32) : x.textNumeral.decimal.value = x.shortest.value :=
  Decimal.value_positional _ _

theorem wellFormed_inspectNumeral (x : Binary32) : x.inspectNumeral.WellFormed := by
  unfold inspectNumeral
  split
  · exact Decimal.wellFormed_scientific _ _
  · exact Decimal.wellFormed_pointed _ _

theorem negative_inspectNumeral (x : Binary32) : x.inspectNumeral.negative = x.negative := by
  unfold inspectNumeral
  split <;> rfl

theorem value_inspectNumeral (x : Binary32) :
    x.inspectNumeral.decimal.value = x.shortest.value := by
  unfold inspectNumeral
  split
  · exact Decimal.value_scientific _ _
  · exact Decimal.value_pointed _ _

theorem spell_of_isFinite (finite : x.isFinite = true) {n : Numeral}
    (sign : n.negative = x.negative) : x.spell n = n.text := by
  unfold spell signed Numeral.text Numeral.chars
  rw [isNaN_of_isFinite finite, isInfinite_of_isFinite finite, sign]
  rfl

theorem spelled_ne_cons {n : Numeral} (wellFormed : n.WellFormed) {c : Char}
    (noDigit : ¬c.isDigit = true) (noLetter : c ≠ 'i') (rest : List Char) :
    (if x.isInfinite then ['i', 'n', 'f'] else n.magnitudeChars) ≠ c :: rest := by
  split
  · exact fun eq => noLetter (List.cons.inj eq).1.symm
  · exact Numeral.magnitudeChars_ne_cons wellFormed noDigit rest

theorem spell_ne_nan {n : Numeral} (wellFormed : n.WellFormed) (number : x.isNaN = false) :
    x.spell n ≠ "NaN" := by
  intro same
  have chars := congrArg String.toList same
  rw [spell, number, if_neg Bool.false_ne_true, signed, String.toList_ofList] at chars
  split at chars
  · exact absurd (List.cons.inj chars).1 (by decide)
  · exact spelled_ne_cons wellFormed (by decide) (by decide) _ chars

/-- What is spelled alike is the same, if numerals that are alike are for the same number. -/
theorem spell_inj {n m : Numeral} (wellFormed : n.WellFormed) (wellFormedOther : m.WellFormed)
    (sign : n.negative = x.negative) (signOther : m.negative = y.negative)
    (same : x.spell n = y.spell m) :
    x.Same y ∨ (x.isFinite = true ∧ y.isFinite = true ∧ n = m) := by
  cases number : x.isNaN with
  | true =>
    have nan : x.spell n = "NaN" := if_pos number
    cases numberOther : y.isNaN with
    | true => exact .inl (.inr ⟨number, numberOther⟩)
    | false => exact absurd (same.symm.trans nan) (spell_ne_nan wellFormedOther numberOther)
  | false =>
    cases numberOther : y.isNaN with
    | true => exact absurd (same.trans (if_pos numberOther)) (spell_ne_nan wellFormed number)
    | false =>
      rw [spell, spell, number, numberOther, if_neg Bool.false_ne_true,
        if_neg Bool.false_ne_true] at same
      obtain ⟨signs, chars⟩ := Numeral.signed_inj
        (spelled_ne_cons wellFormed (by decide) (by decide))
        (spelled_ne_cons wellFormedOther (by decide) (by decide)) (String.ofList_injective same)
      split at chars <;> split at chars
      · rename_i infinite infiniteOther
        exact .inl (.inl (ext_code signs
          ((beq_iff_eq.mp infinite).trans (beq_iff_eq.mp infiniteOther).symm)))
      · exact absurd chars.symm (Numeral.magnitudeChars_ne_cons wellFormedOther (by decide) _)
      · exact absurd chars (Numeral.magnitudeChars_ne_cons wellFormed (by decide) _)
      · rename_i infinite infiniteOther
        refine .inr ⟨isFinite_of_not number (Bool.eq_false_of_not_eq_true infinite),
          isFinite_of_not numberOther (Bool.eq_false_of_not_eq_true infiniteOther), ?_⟩
        refine Numeral.chars_inj wellFormed wellFormedOther ?_
        rw [Numeral.chars, Numeral.chars, sign, signOther, signs, chars]

/-- A numeral for the shortest decimal of a number is not one for that of another. -/
theorem eq_of_shortest_value (finite : x.isFinite = true) (finiteOther : y.isFinite = true)
    (sign : x.negative = y.negative) (same : x.shortest.value = y.shortest.value) : x = y :=
  (nearestTo_shortest finite).unique (same ▸ nearestTo_shortest finiteOther) sign

theorem text_inj (same : x.text = y.text) : x.Same y := by
  rw [text_eq_spell, text_eq_spell] at same
  rcases spell_inj (wellFormed_textNumeral x) (wellFormed_textNumeral y) rfl rfl same with
    same | ⟨finite, finiteOther, numerals⟩
  · exact same
  · have signs := congrArg Numeral.negative numerals
    have values := congrArg (fun n => n.decimal.value) numerals
    rw [value_textNumeral, value_textNumeral] at values
    exact .inl (eq_of_shortest_value finite finiteOther signs values)

theorem inspect_inj (same : x.inspect = y.inspect) : x.Same y := by
  rw [inspect_eq_spell, inspect_eq_spell] at same
  rcases spell_inj (wellFormed_inspectNumeral x) (wellFormed_inspectNumeral y)
    (negative_inspectNumeral x) (negative_inspectNumeral y) same with
    same | ⟨finite, finiteOther, numerals⟩
  · exact same
  · have signs := congrArg Numeral.negative numerals
    have values := congrArg (fun n => n.decimal.value) numerals
    rw [negative_inspectNumeral, negative_inspectNumeral] at signs
    rw [value_inspectNumeral, value_inspectNumeral] at values
    exact .inl (eq_of_shortest_value finite finiteOther signs values)

theorem Same.text_eq (same : x.Same y) : x.text = y.text := by
  rcases same with rfl | ⟨nan, nanOther⟩
  · rfl
  · rw [text, text, if_pos nan, if_pos nanOther]

theorem Same.inspect_eq (same : x.Same y) : x.inspect = y.inspect := by
  rcases same with rfl | ⟨nan, nanOther⟩
  · rfl
  · rw [inspect, inspect, if_pos nan, if_pos nanOther]

end Number.Binary32

namespace Value

/-! ### What the texts say -/

/-- The bare text of a float is the numeral, which has no exponent, reads back as the float and as
no other, and is the shortest that does. A sign other than the float's does not read back, so it is
magnitudes that are compared. -/
structure TextIs (x : Binary32) (n : Numeral) : Prop where
  wellFormed : n.WellFormed
  text : (float x).text = n.text
  positional : n.exponent = none
  readsBack (y : Binary32) :
    (y.negative = n.negative ∧ y.NearestTo n.decimal.value) ↔ y = x
  shortest : x.isZero = false → IsShortest x n.decimal

/-- The inspection text holds another numeral for the same number with the same digits, which has
digits after a point, or an exponent if the number is beyond the limits. -/
structure InspectIs (x : Binary32) (n m : Numeral) : Prop where
  wellFormed : m.WellFormed
  inspect : (float x).inspect = "Float(" ++ m.text ++ ")"
  sign : m.negative = n.negative
  value : m.decimal.value = n.decimal.value
  digits : m.decimal.significant = n.decimal.significant
  pointed : m.exponent = none → m.fraction ≠ []
  scientific : m.exponent ≠ none ↔ x.isZero = false ∧
    (x.magnitude < Binary32.scientificBelow.magnitude ∨
      Binary32.scientificFrom.magnitude ≤ x.magnitude)

variable {x : Binary32}

theorem textIs_textNumeral (finite : x.isFinite = true) : TextIs x x.textNumeral where
  wellFormed := x.wellFormed_textNumeral
  text := x.text_eq_spell.trans (Binary32.spell_of_isFinite finite rfl)
  positional := rfl
  readsBack y := by
    have nearest := Binary32.nearestTo_shortest finite
    rw [x.value_textNumeral]
    constructor
    · rintro ⟨sign, reads⟩
      exact reads.unique nearest sign
    · rintro rfl
      exact ⟨rfl, nearest⟩
  shortest nonzero := (Number.isShortest_shortest finite nonzero).of_value_eq x.value_textNumeral

theorem nearestTo_scientificBelow : Binary32.scientificBelow.NearestTo (1 / 10 ^ 4) := by
  have limit : Binary32.scientificBelow.NearestTo ((1 : ℕ) / (10000 : ℕ)) :=
    (Binary32.nearestTo_div_iff (by decide)).mpr (by decide +kernel)
  norm_num at limit ⊢
  exact limit

theorem nearestTo_scientificFrom : Binary32.scientificFrom.NearestTo (10 ^ 16) := by
  have limit : Binary32.scientificFrom.NearestTo ((10000000000000000 : ℕ) / (1 : ℕ)) :=
    (Binary32.nearestTo_div_iff (by decide)).mpr (by decide +kernel)
  norm_num at limit ⊢
  exact limit

theorem isScientific_iff : x.isScientific = true ↔ x.isZero = false ∧
    (x.magnitude < Binary32.scientificBelow.magnitude ∨
      Binary32.scientificFrom.magnitude ≤ x.magnitude) := by
  rw [← not_lt, Binary32.magnitude_lt_iff, Binary32.magnitude_lt_iff]
  simp [Binary32.isScientific]

theorem inspectIs_inspectNumeral (finite : x.isFinite = true) :
    InspectIs x x.textNumeral x.inspectNumeral where
  wellFormed := x.wellFormed_inspectNumeral
  inspect := by
    rw [inspect, x.inspect_eq_spell, Binary32.spell_of_isFinite finite x.negative_inspectNumeral]
  sign := x.negative_inspectNumeral
  value := x.value_inspectNumeral.trans x.value_textNumeral.symm
  digits := Decimal.significant_eq_of_value_eq
    (x.value_inspectNumeral.trans x.value_textNumeral.symm)
  pointed := by
    unfold Binary32.inspectNumeral
    split
    · exact fun none => absurd none (Option.some_ne_none _)
    · intro _ none
      unfold Decimal.pointedNumeral at none
      dsimp only at none
      split at none
      · contradiction
      · rename_i some
        exact some (List.isEmpty_iff.mpr none)
  scientific := by
    rw [← isScientific_iff]
    unfold Binary32.inspectNumeral
    split
    · rename_i scientific
      exact iff_of_true (Option.some_ne_none _) scientific
    · rename_i positional
      exact iff_of_false (fun ne => ne rfl) positional

/-- The texts of a finite float are numerals for the shortest decimal that reads back as it, and a
float that is not finite has letters: either text is the same for the same float only. The limits
of scientific notation are the floats nearest to `10 ^ -4` and `10 ^ 16`. -/
theorem float_text :
    (∀ x : Binary32, x.isFinite = true → ∃ n m, TextIs x n ∧ InspectIs x n m) ∧
      Binary32.scientificBelow.NearestTo (1 / 10 ^ 4) ∧
      Binary32.scientificFrom.NearestTo (10 ^ 16) ∧
      ∀ x y : Binary32, ((float x).text = (float y).text ↔ x.Same y) ∧
        ((float x).inspect = (float y).inspect ↔ x.Same y) := by
  refine ⟨fun x finite => ⟨_, _, textIs_textNumeral finite, inspectIs_inspectNumeral finite⟩,
    nearestTo_scientificBelow, nearestTo_scientificFrom,
    fun x y => ⟨⟨Binary32.text_inj, Binary32.Same.text_eq⟩, fun same => ?_, fun same => ?_⟩⟩
  · have chars := congrArg String.toList same
    simp only [inspect, String.toList_append] at chars
    have inner := List.append_cancel_left (List.append_cancel_right chars)
    exact Binary32.inspect_inj (String.toList_injective inner)
  · exact congrArg (fun text => "Float(" ++ text ++ ")") same.inspect_eq

/-- The greatest float, which has a whole number for its bare text. -/
theorem float_text_greatest :
    let x : Binary32 := ⟨0x7f7fffff⟩
    ∃ n m : Numeral, n.text = "340282350000000000000000000000000000000" ∧
      "Float(" ++ m.text ++ ")" = "Float(3.4028235e38)" ∧
      IsShortest x n.decimal ∧ m.decimal.value = n.decimal.value := by
  intro x
  obtain ⟨n, m, bare, inspection⟩ := float_text.1 x (by decide)
  refine ⟨n, m, bare.text.symm.trans ?_, inspection.inspect.symm.trans ?_,
    bare.shortest (by decide), inspection.value⟩
  · decide +kernel
  · decide +kernel

/-- The notation does not stay positional down to `10 ^ -5`. -/
theorem not_scientific_iff_below_hundred_thousandth :
    ¬∀ x low high : Binary32, x.isFinite = true → low.NearestTo (1 / 10 ^ 5) →
      high.NearestTo (10 ^ 16) → ('e' ∈ (float x).inspect.toList ↔
        x.isZero = false ∧ (x.magnitude < low.magnitude ∨ high.magnitude ≤ x.magnitude)) := by
  intro claim
  have low : (⟨0x3727c5ac⟩ : Binary32).NearestTo ((1 : ℕ) / (100000 : ℕ)) :=
    (Binary32.nearestTo_div_iff (by decide)).mpr (by decide +kernel)
  have lowPower : (⟨0x3727c5ac⟩ : Binary32).NearestTo (1 / 10 ^ 5) := by
    norm_num at low ⊢
    exact low
  have scientific : 'e' ∈ (float ⟨0x377ba882⟩).inspect.toList := by decide +kernel
  obtain ⟨-, small | large⟩ :=
    (claim ⟨0x377ba882⟩ _ _ (by decide) lowPower nearestTo_scientificFrom).mp scientific
  · exact absurd (Binary32.magnitude_lt_iff.mp small) (by decide)
  · exact absurd (Binary32.magnitude_lt_iff.mpr (by decide)) (not_lt.mpr large)

end Value

end ScriptState

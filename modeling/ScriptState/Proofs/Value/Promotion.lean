import ScriptState.Proofs.Number.Nearest
import ScriptState.Value.Operator

/-!
# Whole numbers as floats

A whole number of 32 bits that is promoted to a float is rounded to the nearest one, where two are
as near to that with the even significand. `promotion_rounds` says so, together with what follows
from it: promotion keeps the order, it commutes with the sign, and it is exact for multiples of
powers of two by at most 24 bits.
-/

namespace ScriptState

open Number (Binary32 pow2 pow2_zero pow2_pos pow2_add pow2_succ unitsOfCode nearestCode
  IsNearestCode)

namespace Number.Binary32

/-- The number that a finite one stands for, exactly and with its sign. -/
def value (x : Binary32) : ℚ := x.signedUnits / unitsPerOne

/-- The fraction as a whole number, with the leading one that only subnormal numbers lack. -/
def significand (x : Binary32) : ℕ :=
  if x.code < pow2 23 then x.code else pow2 23 + x.code % pow2 23

/-- `x` is finite and no finite number is nearer to `q`. If another one is as near, then `x` is the
one with the even significand; the two zeros are one number here. -/
structure IsNearest (q : ℚ) (x : Binary32) : Prop where
  finite : x.isFinite = true
  near (y : Binary32) : y.isFinite = true → |x.value - q| ≤ |y.value - q|
  even (y : Binary32) : y.isFinite = true → |x.value - q| = |y.value - q| →
    y.value = x.value ∨ x.significand % 2 = 0

variable {x y : Binary32} {q : ℚ} {n m : ℕ}

/-! ### Signs and magnitudes -/

theorem value_eq (x : Binary32) :
    x.value = if x.negative then -x.magnitude else x.magnitude := by
  unfold value signedUnits magnitude
  split
  · rw [Int.cast_neg, Int.cast_natCast, neg_div]
  · rw [Int.cast_natCast]

theorem abs_value (x : Binary32) : |x.value| = x.magnitude := by
  rw [value_eq]
  split
  · rw [abs_neg, abs_of_nonneg x.magnitude_nonneg]
  · rw [abs_of_nonneg x.magnitude_nonneg]

theorem significand_mod_two (x : Binary32) : x.significand % 2 = x.code % 2 := by
  have power : pow2 23 = 8388608 := rfl
  unfold significand
  rw [power]
  split <;> omega

theorem significand_lt (x : Binary32) : x.significand < 2 * pow2 23 := by
  have fraction := Nat.mod_lt x.code (pow2_pos 23)
  unfold significand
  split <;> omega

theorem units_eq_significand (x : Binary32) :
    x.units = x.significand * pow2 (x.code / pow2 23 - 1) := by
  unfold units unitsOfCode significand
  split
  · rename_i subnormal
    rw [Nat.div_eq_of_lt subnormal, Nat.zero_sub, pow2_zero, Nat.mul_one]
  · rfl

theorem value_eq_or (same : y.code = x.code) : y.value = x.value ∨ y.value = -x.value := by
  have magnitude : y.magnitude = x.magnitude := by rw [Binary32.magnitude, units, same]; rfl
  rw [value_eq, value_eq, magnitude]
  cases y.negative <;> cases x.negative <;> simp

/-- With the right sign the distance is that of the magnitudes. -/
theorem abs_value_sub (sign : x.negative = decide (q < 0)) :
    |x.value - q| = |x.magnitude - abs q| := by
  rw [value_eq, sign]
  by_cases below : q < 0
  · rw [if_pos (decide_eq_true below), abs_of_neg below, ← abs_neg]
    congr 1
    ring
  · rw [if_neg (by simpa using below), abs_of_nonneg (not_lt.mp below)]

theorem NearestTo.value_eq_zero (nearest : NearestTo (abs 0) x) : x.value = 0 := by
  have none : (zero false).magnitude = 0 := by
    have units : (zero false).units = 0 := by decide
    rw [Binary32.magnitude, units, Nat.cast_zero, zero_div]
  have near := nearest.near (zero false)
  rw [none, abs_zero, sub_zero, sub_zero, abs_zero, ← abs_value, abs_abs] at near
  exact abs_nonpos_iff.mp near

/-- What is nearest among magnitudes is nearest with the sign. -/
theorem NearestTo.isNearest (nearest : NearestTo (abs q) x)
    (sign : x.negative = decide (q < 0)) : IsNearest q x := by
  have further (y : Binary32) : |y.magnitude - abs q| ≤ |y.value - q| := by
    rw [← abs_value]
    exact abs_abs_sub_abs_le _ _
  refine ⟨nearest.1, fun y _ => ?_, fun y _ same => ?_⟩
  · rw [abs_value_sub sign]
    exact (nearest.near y).trans (further y)
  · have tie : |x.magnitude - abs q| = |y.magnitude - abs q| :=
      le_antisymm (nearest.near y) (abs_value_sub sign ▸ same ▸ further y)
    rw [significand_mod_two]
    refine (nearest.even tie).imp_left fun code => ?_
    rcases value_eq_or code with equal | opposite
    · exact equal
    · -- Opposite numbers are as near to zero only, and zero is nearest to that.
      have zero : x.value = 0 := by
        rw [opposite] at same
        rcases abs_eq_abs.mp same with noValue | noNumber
        · linarith
        · have origin : q = 0 := by linarith
          exact (origin ▸ nearest).value_eq_zero
      rw [opposite, zero, neg_zero]

/-! ### Whole numbers -/

/-- The code of the float nearest to a whole number. -/
def wholeCode (n : ℕ) : ℕ := nearestCode 23 (n * unitsPerOne) 1

theorem isNearestCode_wholeCode (n : ℕ) : IsNearestCode 23 (n * unitsPerOne) (wholeCode n) := by
  have found := isNearestCode_nearestCode (p := 23) (n * unitsPerOne) (by decide) Nat.one_pos
  rwa [Nat.cast_mul, Nat.cast_one, div_one] at found

theorem wholeCode_mono (le : n ≤ m) : wholeCode n ≤ wholeCode m := by
  refine (isNearestCode_wholeCode n).mono (isNearestCode_wholeCode m) ?_
  exact mul_le_mul_of_nonneg_right (Nat.cast_le.mpr le) unitsPerOne_pos.le

/-- Whole numbers of 32 bits with a sign are far from the greatest float. -/
theorem wholeCode_lt (bounded : n ≤ 0x80000000) : wholeCode n < infinityCode := by
  have greatest : wholeCode 0x80000000 = 0x4f000000 := by decide +kernel
  exact (wholeCode_mono bounded).trans_lt (greatest ▸ by decide)

theorem wholeCode_pos (positive : 0 < n) : 0 < wholeCode n := by
  have one : wholeCode 1 = 0x3f800000 := by decide +kernel
  exact (one ▸ by decide : 0 < wholeCode 1).trans_le (wholeCode_mono positive)

theorem exists_code_of_significand {k : ℕ} (bounded : m ≤ 2 ^ 24) :
    ∃ code, unitsOfCode 23 code = m * 2 ^ k * unitsPerOne := by
  rcases Nat.lt_or_eq_of_le bounded with less | rfl
  · obtain ⟨code, units⟩ := exists_code (p := 23) (s := k + 149) less
    exact ⟨code, by rw [units, pow2_add, ← Nat.mul_assoc]; rfl⟩
  · -- The first number with 25 bits ends with a zero, which goes into the exponent.
    obtain ⟨code, units⟩ := exists_code (p := 23) (q := 2 ^ 23) (s := k + 1 + 149) (by decide)
    refine ⟨code, ?_⟩
    rw [units, pow2_add, pow2_succ, ← Nat.mul_assoc, ← Nat.mul_assoc]
    rfl

variable {a b : ℤ}

theorem ofInt_eq (bounded : a.natAbs ≤ 0x80000000) :
    ofInt a = ofCode (a < 0) (wholeCode a.natAbs) := by
  have finite := wholeCode_lt bounded
  rw [ofInt, round, ← wholeCode, Nat.min_eq_right finite.le]

theorem code_ofInt (bounded : a.natAbs ≤ 0x80000000) : (ofInt a).code = wholeCode a.natAbs := by
  rw [ofInt_eq bounded, code_ofCode ((wholeCode_lt bounded).trans (by decide))]

theorem negative_ofInt (bounded : a.natAbs ≤ 0x80000000) : (ofInt a).negative = decide (a < 0) := by
  rw [ofInt_eq bounded, negative_ofCode ((wholeCode_lt bounded).trans (by decide))]

theorem isNearest_ofInt (bounded : a.natAbs ≤ 0x80000000) : IsNearest a (ofInt a) := by
  have finite : (ofInt a).isFinite = true := by
    rw [isFinite, code_ofInt bounded]
    exact decide_eq_true (wholeCode_lt bounded)
  have nearest : NearestTo (abs (a : ℚ)) (ofInt a) := by
    refine ⟨finite, ?_⟩
    rw [code_ofInt bounded, ← Int.cast_abs, ← Nat.cast_natAbs]
    exact isNearestCode_wholeCode a.natAbs
  refine nearest.isNearest ?_
  rw [negative_ofInt bounded]
  exact decide_eq_decide.mpr Int.cast_lt_zero.symm

theorem ofInt_ne_negative_zero (bounded : a.natAbs ≤ 0x80000000) : ofInt a ≠ zero true := by
  intro same
  have sign := negative_ofInt bounded
  have code := code_ofInt bounded
  rw [same] at sign code
  have below : a < 0 := of_decide_eq_true sign.symm
  have positive := wholeCode_pos (Int.natAbs_pos.mpr below.ne)
  rw [← code] at positive
  exact absurd positive (by decide)

theorem ofInt_neg (nonzero : a ≠ 0) (bounded : a.natAbs ≤ 0x80000000) :
    ofInt (-a) = -ofInt a := by
  have sign : decide (-a < 0) = !decide (a < 0) := by
    rw [← decide_not, decide_eq_decide]
    omega
  change _ = ofCode (!(ofInt a).negative) (ofInt a).code
  rw [ofInt_eq (by rwa [Int.natAbs_neg]), Int.natAbs_neg, code_ofInt bounded,
    negative_ofInt bounded, sign]

theorem value_ofInt_mono (boundedA : a.natAbs ≤ 0x80000000) (boundedB : b.natAbs ≤ 0x80000000)
    (le : a ≤ b) : (ofInt a).value ≤ (ofInt b).value := by
  have orderA := magnitude_nonneg (ofInt a)
  have orderB := magnitude_nonneg (ofInt b)
  rw [value_eq, value_eq, negative_ofInt boundedA, negative_ofInt boundedB]
  by_cases belowA : a < 0 <;> by_cases belowB : b < 0 <;>
    simp only [belowA, belowB, decide_true, decide_false, if_true, if_false, Bool.false_eq_true]
  · refine neg_le_neg (magnitude_le_iff.mpr ?_)
    rw [code_ofInt boundedA, code_ofInt boundedB]
    exact wholeCode_mono (by omega)
  · linarith
  · omega
  · refine magnitude_le_iff.mpr ?_
    rw [code_ofInt boundedA, code_ofInt boundedB]
    exact wholeCode_mono (by omega)

/-- A whole number is a float if 24 bits are enough for it, zeros at the end apart. -/
theorem units_ofInt_iff (bounded : a.natAbs ≤ 0x80000000) :
    (ofInt a).units = a.natAbs * unitsPerOne ↔ ∃ m k, a.natAbs = m * 2 ^ k ∧ m ≤ 2 ^ 24 := by
  constructor
  · intro exact
    have room := (ofInt a).significand_lt
    rw [units_eq_significand, unitsPerOne] at exact
    generalize (ofInt a).significand = q, (ofInt a).code / pow2 23 - 1 = s at *
    generalize a.natAbs = n at *
    rcases Nat.le_total 149 s with whole | fraction
    · obtain ⟨k, rfl⟩ := Nat.exists_eq_add_of_le whole
      refine ⟨q, k, ?_, room.le⟩
      rw [pow2_add, Nat.mul_left_comm, Nat.mul_comm n] at exact
      exact (Nat.eq_of_mul_eq_mul_left (pow2_pos 149) exact).symm
    · obtain ⟨k, ends⟩ := Nat.exists_eq_add_of_le fraction
      rw [ends, pow2_add, Nat.mul_left_comm, Nat.mul_comm q] at exact
      have parts := Nat.eq_of_mul_eq_mul_left (pow2_pos s) exact
      refine ⟨n, 0, by rw [pow_zero, Nat.mul_one], ?_⟩
      calc n ≤ n * pow2 k := Nat.le_mul_of_pos_right n (pow2_pos k)
        _ = q := parts.symm
        _ ≤ 2 ^ 24 := room.le
  · intro ⟨m, k, same, small⟩
    obtain ⟨code, units⟩ := exists_code_of_significand (k := k) small
    rw [Binary32.units, code_ofInt bounded, wholeCode, same, ← units, nearestCode_unitsOfCode]

theorem value_ofInt_eq_iff (bounded : a.natAbs ≤ 0x80000000) :
    (ofInt a).value = a ↔ (ofInt a).units = a.natAbs * unitsPerOne := by
  have sign : (ofInt a).negative = decide ((a : ℚ) < 0) :=
    (negative_ofInt bounded).trans (decide_eq_decide.mpr Int.cast_lt_zero.symm)
  have magnitudes : (ofInt a).value = a ↔ (ofInt a).magnitude = abs (a : ℚ) := by
    rw [← sub_eq_zero, ← abs_eq_zero, abs_value_sub sign, abs_eq_zero, sub_eq_zero]
  rw [magnitudes, Binary32.magnitude, div_eq_iff unitsPerOne_pos.ne', ← Int.cast_abs,
    ← Nat.cast_natAbs, ← Nat.cast_mul, Nat.cast_inj]

theorem exists_factors_iff : (∃ m k, a.natAbs = m * 2 ^ k ∧ m ≤ 2 ^ 24) ↔
    ∃ (m : ℤ) (k : ℕ), a = m * 2 ^ k ∧ |m| ≤ 2 ^ 24 := by
  constructor
  · intro ⟨m, k, size, bounded⟩
    have least : (m : ℤ) ≤ 2 ^ 24 := by exact_mod_cast bounded
    have whole : (a.natAbs : ℤ) = m * 2 ^ k := by exact_mod_cast size
    rcases Int.natAbs_eq a with positive | negative
    · exact ⟨m, k, positive.trans whole, by rwa [Nat.abs_cast]⟩
    · refine ⟨-m, k, ?_, by rwa [abs_neg, Nat.abs_cast]⟩
      rw [negative, whole, neg_mul]
  · intro ⟨m, k, parts, bounded⟩
    refine ⟨m.natAbs, k, by rw [parts, Int.natAbs_mul, Int.natAbs_pow]; rfl, ?_⟩
    zify
    exact bounded

end Number.Binary32

namespace Value

theorem natAbs_toInt_le (n : Int32) : n.toInt.natAbs ≤ 0x80000000 := by
  have least := n.le_toInt
  have greatest := n.toInt_lt
  omega

theorem toInt_neg_of_ne {n : Int32} (other : n ≠ .minValue) : (-n).toInt = -n.toInt := by
  have least := n.le_toInt
  have greatest := n.toInt_lt
  have above : n.toInt ≠ -0x80000000 := fun same => other (Int32.toInt_inj.mp same)
  rw [Int32.toInt_neg, Int.bmod_eq_of_le_mul_two] <;> omega

/-- A whole number of 32 bits is promoted to the nearest float, and of two as near to that with the
even significand; zero to that without a sign. So the order of whole numbers is that of their
floats, the opposite number has the opposite float, and a whole number is promoted to itself exactly
if it is a power of two times a number of at most `2 ^ 24`. -/
theorem promotion_rounds :
    (∀ n : Int32, (int n).promote.IsNearest n.toInt ∧ (int n).promote ≠ .zero true ∧
        (n ≠ 0 → n ≠ .minValue → (int (-n)).promote = -(int n).promote) ∧
        ((int n).promote.value = n.toInt ↔
          ∃ (m : ℤ) (k : ℕ), n.toInt = m * 2 ^ k ∧ |m| ≤ 2 ^ 24)) ∧
      ∀ m n : Int32, m ≤ n → (int m).promote.value ≤ (int n).promote.value := by
  refine ⟨fun n => ?_, fun m n le => ?_⟩
  · have bounded := natAbs_toInt_le n
    refine ⟨Binary32.isNearest_ofInt bounded, Binary32.ofInt_ne_negative_zero bounded,
      fun nonzero other => ?_, ?_⟩
    · have whole : n.toInt ≠ 0 := fun same => nonzero (Int32.toInt_inj.mp same)
      rw [promote, toInt_neg_of_ne other]
      exact Binary32.ofInt_neg whole bounded
    · rw [← Binary32.exists_factors_iff, ← Binary32.units_ofInt_iff bounded]
      exact Binary32.value_ofInt_eq_iff bounded
  · exact Binary32.value_ofInt_mono (natAbs_toInt_le m) (natAbs_toInt_le n)
      (Int32.le_iff_toInt_le.mp le)

/-- The least positive whole number that is no float, halfway between two. -/
theorem promotion_rounds_halfway :
    let n : Int32 := 16777217
    (int (-n)).promote = -(int n).promote ∧ (int n).promote.value ≤ (int (n + 1)).promote.value ∧
      (int n).promote = (int 16777216).promote ∧ (int 16777216).promote.value = 16777216 ∧
      (int 16777218).promote.value = 16777218 := by
  intro n
  obtain ⟨each, order⟩ := promotion_rounds
  obtain ⟨-, -, opposite, -⟩ := each n
  obtain ⟨-, -, -, below⟩ := each 16777216
  obtain ⟨-, -, -, above⟩ := each 16777218
  exact ⟨opposite (by decide) (by decide), order n (n + 1) (by decide), by decide +kernel,
    below.mpr ⟨1, 24, by decide, by decide⟩, above.mpr ⟨8388609, 1, by decide, by decide⟩⟩

end Value

end ScriptState

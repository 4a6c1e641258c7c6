import Mathlib.Algebra.Order.Field.Basic
import Mathlib.Algebra.Order.Ring.Abs
import Mathlib.Data.Nat.Cast.Order.Field
import Mathlib.Data.Rat.Cast.Order
import Mathlib.Tactic.FieldSimp
import Mathlib.Tactic.Linarith
import Mathlib.Tactic.Positivity
import Mathlib.Tactic.Ring
import ScriptState.Number.Binary32

/-!
# The nearest number

`IsNearestCode` says what rounding to nearest means, without saying how to do it: no code is nearer,
and of two as near the even one is taken. These are the codes around which the midpoints to both
neighbours enclose the number (`isNearestCode_iff`), there is one for each number, and
`nearestCode` finds it (`nearestCode_eq_iff`).
-/

namespace ScriptState.Number

/-- What the code stands for is nearest to `u` units; of two as near, that with the even code. The
codes have no upper end, as though exponents could grow without bound. -/
structure IsNearestCode (p : ℕ) (u : ℚ) (code : ℕ) : Prop where
  near (other : ℕ) : |(unitsOfCode p code : ℚ) - u| ≤ |(unitsOfCode p other : ℚ) - u|
  even (other : ℕ) : |(unitsOfCode p code : ℚ) - u| = |(unitsOfCode p other : ℚ) - u| →
    other = code ∨ code % 2 = 0

/-- `u` lies between the midpoints to the neighbours, on one of them only if the code is even. -/
structure BetweenMidpoints (p : ℕ) (u : ℚ) (code : ℕ) : Prop where
  above (before : ℕ) : before + 1 = code →
    (unitsOfCode p before + unitsOfCode p code : ℚ) ≤ 2 * u ∧
      ((unitsOfCode p before + unitsOfCode p code : ℚ) = 2 * u → code % 2 = 0)
  below : 2 * u ≤ unitsOfCode p code + unitsOfCode p (code + 1) ∧
    (2 * u = unitsOfCode p code + unitsOfCode p (code + 1) → code % 2 = 0)

variable {p code other : ℕ} {u : ℚ}

/-! ### Between the midpoints -/

theorem units_lt (less : code < other) : (unitsOfCode p code : ℚ) < unitsOfCode p other :=
  Nat.cast_lt.mpr (unitsOfCode_lt less)

theorem units_le (le : code ≤ other) : (unitsOfCode p code : ℚ) ≤ unitsOfCode p other := by
  rcases Nat.lt_or_eq_of_le le with less | rfl
  · exact (units_lt less).le
  · exact le_refl _

theorem BetweenMidpoints.isNearestCode (between : BetweenMidpoints p u code) :
    IsNearestCode p u code := by
  obtain ⟨above, below, tie⟩ := between
  have next := units_lt (p := p) (Nat.lt_succ_self code)
  -- A greater code is beyond the upper midpoint, a smaller one beyond the lower.
  have greater : ∀ other, code < other →
      |(unitsOfCode p code : ℚ) - u| ≤ |(unitsOfCode p other : ℚ) - u| ∧
        (|(unitsOfCode p code : ℚ) - u| = |(unitsOfCode p other : ℚ) - u| → code % 2 = 0) := by
    intro other less
    have far := units_le (p := p) (Nat.succ_le_of_lt less)
    rw [abs_of_nonneg (by linarith : 0 ≤ (unitsOfCode p other : ℚ) - u)]
    refine ⟨abs_le.mpr ⟨by linarith, by linarith⟩, fun same => tie ?_⟩
    rcases abs_cases ((unitsOfCode p code : ℚ) - u) with ⟨size, -⟩ | ⟨size, -⟩ <;> linarith
  have smaller : ∀ other, other < code →
      |(unitsOfCode p code : ℚ) - u| ≤ |(unitsOfCode p other : ℚ) - u| ∧
        (|(unitsOfCode p code : ℚ) - u| = |(unitsOfCode p other : ℚ) - u| → code % 2 = 0) := by
    intro other less
    obtain ⟨before, rfl⟩ := Nat.exists_eq_add_one_of_ne_zero (Nat.ne_zero_of_lt less)
    obtain ⟨midpoint, tie⟩ := above before rfl
    have far := units_le (p := p) (Nat.le_of_lt_succ less)
    have previous := units_lt (p := p) (Nat.lt_succ_self before)
    rw [abs_of_nonpos (by linarith : (unitsOfCode p other : ℚ) - u ≤ 0)]
    refine ⟨abs_le.mpr ⟨by linarith, by linarith⟩, fun same => tie ?_⟩
    rcases abs_cases ((unitsOfCode p (before + 1) : ℚ) - u) with ⟨size, -⟩ | ⟨size, -⟩ <;> linarith
  constructor
  · intro other
    rcases Nat.lt_trichotomy code other with less | rfl | less
    · exact (greater other less).1
    · exact le_refl _
    · exact (smaller other less).1
  · intro other same
    rcases Nat.lt_trichotomy code other with less | rfl | less
    · exact .inr ((greater other less).2 same)
    · exact .inl rfl
    · exact .inr ((smaller other less).2 same)

theorem IsNearestCode.betweenMidpoints (nearest : IsNearestCode p u code) :
    BetweenMidpoints p u code := by
  obtain ⟨near, even⟩ := nearest
  constructor
  · rintro before rfl
    have less := units_lt (p := p) (Nat.lt_succ_self before)
    have nearer := near before
    have midpoint : (unitsOfCode p before + unitsOfCode p (before + 1) : ℚ) ≤ 2 * u := by
      by_contra beyond
      rw [abs_of_nonneg (by linarith : 0 ≤ (unitsOfCode p (before + 1) : ℚ) - u)] at nearer
      rcases abs_cases ((unitsOfCode p before : ℚ) - u) with ⟨size, -⟩ | ⟨size, -⟩ <;> linarith
    refine ⟨midpoint, fun tie => (even before ?_).resolve_left (Nat.ne_of_lt (Nat.lt_succ_self _))⟩
    rw [abs_of_nonneg (by linarith), abs_of_nonpos (by linarith)]
    linarith
  · have less := units_lt (p := p) (Nat.lt_succ_self code)
    have nearer := near (code + 1)
    have midpoint : 2 * u ≤ unitsOfCode p code + unitsOfCode p (code + 1) := by
      by_contra beyond
      rw [abs_of_nonpos (by linarith : (unitsOfCode p code : ℚ) - u ≤ 0)] at nearer
      rcases abs_cases ((unitsOfCode p (code + 1) : ℚ) - u) with ⟨size, -⟩ | ⟨size, -⟩ <;> linarith
    refine ⟨midpoint, fun tie => (even (code + 1) ?_).resolve_left (Nat.succ_ne_self _)⟩
    rw [abs_of_nonpos (by linarith), abs_of_nonneg (by linarith)]
    linarith

theorem isNearestCode_iff : IsNearestCode p u code ↔ BetweenMidpoints p u code :=
  ⟨IsNearestCode.betweenMidpoints, BetweenMidpoints.isNearestCode⟩

/-- Between two numbers that round to a code all do. -/
theorem IsNearestCode.convex {low high : ℚ} (lower : IsNearestCode p low code)
    (upper : IsNearestCode p high code) (fromLow : low ≤ u) (toHigh : u ≤ high) :
    IsNearestCode p u code := by
  obtain ⟨above, -⟩ := lower.betweenMidpoints
  obtain ⟨-, below, tie⟩ := upper.betweenMidpoints
  refine isNearestCode_iff.mpr ⟨fun before next => ?_, by linarith, fun same => tie (by linarith)⟩
  obtain ⟨midpoint, even⟩ := above before next
  exact ⟨by linarith, fun same => even (by linarith)⟩

/-- A greater number does not round to a smaller code. -/
theorem IsNearestCode.mono {v : ℚ} (lower : IsNearestCode p u code)
    (upper : IsNearestCode p v other) (le : u ≤ v) : code ≤ other := by
  apply Nat.not_lt.mp
  intro less
  obtain ⟨before, rfl⟩ := Nat.exists_eq_add_one_of_ne_zero (Nat.ne_zero_of_lt less)
  obtain ⟨above, tieAbove⟩ := lower.betweenMidpoints.above before rfl
  obtain ⟨below, tieBelow⟩ := upper.betweenMidpoints.below
  have start := units_le (p := p) (Nat.le_of_lt_succ less)
  have next := units_le (p := p) (Nat.succ_le_of_lt less)
  -- Both numbers are the midpoint of two neighbours that are even.
  have evenHigh := tieAbove (by linarith)
  have evenLow := tieBelow (by linarith)
  have apart : other + 1 < before + 1 := by omega
  have strict := units_lt (p := p) apart
  linarith

theorem IsNearestCode.unique (nearest : IsNearestCode p u code)
    (same : IsNearestCode p u other) : code = other :=
  Nat.le_antisymm (nearest.mono same (le_refl u)) (same.mono nearest (le_refl u))

/-! ### Rounding finds it -/

theorem roundHalfEven_even (num : ℕ) {den : ℕ} (positive : 0 < den)
    (tie : 2 * num = (2 * roundHalfEven num den + 1) * den ∨
      2 * roundHalfEven num den * den = 2 * num + den) : roundHalfEven num den % 2 = 0 := by
  have split := Nat.div_add_mod num den
  have less := Nat.mod_lt num positive
  unfold roundHalfEven at tie ⊢
  dsimp only at tie ⊢
  generalize num / den = q at *
  generalize num % den = r at *
  subst split
  split
  · rename_i down
    rw [if_pos down] at tie
    rw [Nat.add_mul, Nat.mul_assoc, Nat.mul_comm q den] at tie
    omega
  · rename_i up
    rw [if_neg up] at tie
    rw [Nat.add_mul, Nat.mul_assoc, Nat.add_mul, Nat.mul_comm q den] at tie
    omega

theorem roundHalfEven_bounds (num : ℕ) {den : ℕ} (positive : 0 < den) :
    let r := roundHalfEven num den
    (2 * (num / den : ℚ) ≤ 2 * r + 1 ∧ (2 * (num / den : ℚ) = 2 * r + 1 → r % 2 = 0)) ∧
      (2 * r - 1 : ℚ) ≤ 2 * (num / den) ∧ ((2 * r - 1 : ℚ) = 2 * (num / den) → r % 2 = 0) := by
  intro r
  have pos : (0 : ℚ) < den := Nat.cast_pos.mpr positive
  obtain ⟨above, below⟩ := @roundHalfEven_near num den positive
  have tie := roundHalfEven_even num positive
  have aboveQ : 2 * (num : ℚ) ≤ (2 * r + 1) * den := by exact_mod_cast above
  have belowQ : 2 * (r : ℚ) * den ≤ 2 * num + den := by exact_mod_cast below
  have quotient : (num / den : ℚ) * den = num := div_mul_cancel₀ _ pos.ne'
  refine ⟨⟨?_, fun same => tie (.inl ?_)⟩, ?_, fun same => tie (.inr ?_)⟩
  · refine le_of_mul_le_mul_right ?_ pos
    linarith
  · have exact : 2 * (num : ℚ) = (2 * r + 1) * den := by rw [← same]; linarith
    exact_mod_cast exact
  · refine le_of_mul_le_mul_right ?_ pos
    linarith
  · have exact : (2 * r - 1 : ℚ) * den = 2 * num := by rw [same]; linarith
    have sum : 2 * (r : ℚ) * den = 2 * num + den := by linarith
    exact_mod_cast sum

/-- A significand may reach the next power of two, which is a carry into the exponent. -/
theorem unitsOfCode_carry {s q : ℕ} (normal : s = 0 ∨ pow2 p ≤ q) (bounded : q ≤ 2 * pow2 p) :
    unitsOfCode p (s * pow2 p + q) = q * pow2 s := by
  rcases Nat.lt_or_eq_of_le bounded with less | rfl
  · exact unitsOfCode_significand normal less
  · have positive := pow2_pos p
    have carried : s * pow2 p + 2 * pow2 p = (s + 1) * pow2 p + pow2 p := by
      rw [Nat.add_mul]
      omega
    rw [carried, unitsOfCode_significand (.inr (Nat.le_refl _)) (by omega), pow2_succ]
    ring

theorem lostBits_bounds (p num : ℕ) {den : ℕ} (positive : 0 < den) :
    let s := lostBits p (num / den)
    num < 2 * pow2 p * (den * pow2 s) ∧ (s = 0 ∨ pow2 p * (den * pow2 s) ≤ num) := by
  intro s
  have enough : (num / den).log2 ≤ p + s := by
    unfold s lostBits
    omega
  constructor
  · have below : num / den < pow2 (p + s + 1) :=
      Nat.lt_of_lt_of_le Nat.lt_log2_self (Nat.pow_le_pow_right (by decide) (by omega))
    have less := (Nat.div_lt_iff_lt_mul positive).mp below
    calc num < pow2 (p + s + 1) * den := less
      _ = 2 * pow2 p * (den * pow2 s) := by
        rw [pow2_succ, pow2_add]
        ring
  · by_cases none : s = 0
    · exact .inl none
    · right
      have log : (num / den).log2 = p + s := by
        unfold s lostBits at none ⊢
        omega
      have nonzero : num / den ≠ 0 := by
        intro zero
        rw [zero, Nat.log2_zero] at log
        omega
      have above : pow2 (p + s) ≤ num / den := log ▸ Nat.log2_self_le nonzero
      have le := (Nat.le_div_iff_mul_le positive).mp above
      calc pow2 p * (den * pow2 s) = pow2 (p + s) * den := by
            rw [pow2_add]
            ring
        _ ≤ num := le

/-- In steps of a grid that is coarser than units by `s` bits, `v` is in the range of significands,
and `r` is the whole number nearest to it. -/
structure Rounded (p s : ℕ) (v : ℚ) (r : ℕ) : Prop where
  less : v < 2 * pow2 p
  normal : s = 0 ∨ (pow2 p : ℚ) ≤ v
  up : 2 * v ≤ 2 * r + 1
  upEven : 2 * v = 2 * r + 1 → r % 2 = 0
  down : (2 * r - 1 : ℚ) ≤ 2 * v
  downEven : (2 * r - 1 : ℚ) = 2 * v → r % 2 = 0

namespace Rounded

variable {s r : ℕ} {v : ℚ}

theorem bounded (rounded : Rounded p s v r) : r ≤ 2 * pow2 p := by
  have close : (2 * r : ℚ) < 4 * pow2 p + 1 := by linarith [rounded.less, rounded.down]
  have whole : 2 * r < 4 * pow2 p + 1 := by exact_mod_cast close
  omega

theorem large (rounded : Rounded p s v r) : s = 0 ∨ pow2 p ≤ r := by
  refine rounded.normal.imp_right fun le => ?_
  have close : (2 * pow2 p : ℚ) ≤ 2 * r + 1 := by linarith [rounded.up]
  have whole : 2 * pow2 p ≤ 2 * r + 1 := by exact_mod_cast close
  omega

theorem units_eq (rounded : Rounded p s v r) :
    (unitsOfCode p (s * pow2 p + r) : ℚ) = r * pow2 s := by
  exact_mod_cast unitsOfCode_carry rounded.large rounded.bounded

theorem code_even (fraction : 0 < p) (even : r % 2 = 0) : (s * pow2 p + r) % 2 = 0 := by
  obtain ⟨k, rfl⟩ := Nat.exists_eq_add_one_of_ne_zero (Nat.ne_zero_of_lt fraction)
  rw [pow2_succ, Nat.mul_left_comm]
  omega

theorem betweenMidpoints (rounded : Rounded p s v r) (fraction : 0 < p) :
    BetweenMidpoints p (v * pow2 s) (s * pow2 p + r) := by
  have step : (0 : ℚ) < pow2 s := Nat.cast_pos.mpr (pow2_pos s)
  have units := rounded.units_eq
  obtain ⟨less, normal, up, upEven, down, downEven⟩ := id rounded
  constructor
  · intro before next
    have some : r ≠ 0 := by
      rintro rfl
      have nothing := pow2_pos p
      rcases rounded.large with rfl | le <;> omega
    obtain ⟨q, rfl⟩ := Nat.exists_eq_add_one_of_ne_zero some
    obtain rfl : before = s * pow2 p + q := by omega
    have bounded := rounded.bounded
    have large := rounded.large
    rcases (by omega : (s = 0 ∨ pow2 p ≤ q) ∨ s ≠ 0 ∧ q + 1 = pow2 p) with inside | ⟨carried, edge⟩
    · have previous : (unitsOfCode p (s * pow2 p + q) : ℚ) = q * pow2 s := by
        exact_mod_cast unitsOfCode_carry inside (by omega)
      push_cast at units down downEven
      rw [units, previous]
      refine ⟨by nlinarith, fun same => code_even fraction (downEven ?_)⟩
      exact mul_right_cancel₀ step.ne' (by linarith)
    · -- Below the least significand the steps are finer, and the number is not below it.
      have le : (pow2 p : ℚ) ≤ v := normal.resolve_left carried
      have previous := units_lt (p := p) (by omega : s * pow2 p + q < s * pow2 p + (q + 1))
      rw [edge] at units previous ⊢
      have beyond : (unitsOfCode p (s * pow2 p + q) : ℚ) +
          unitsOfCode p (s * pow2 p + pow2 p) < 2 * (v * pow2 s) := by nlinarith
      exact ⟨beyond.le, fun same => absurd same beyond.ne⟩
  · rcases Nat.lt_or_eq_of_le rounded.bounded with inside | rfl
    · have following : (unitsOfCode p (s * pow2 p + r + 1) : ℚ) = (r + 1 : ℕ) * pow2 s := by
        exact_mod_cast unitsOfCode_carry (q := r + 1) (rounded.large.imp_right Nat.le_succ_of_le)
          inside
      push_cast at following
      rw [units, following]
      refine ⟨by nlinarith, fun same => code_even fraction (upEven ?_)⟩
      exact mul_right_cancel₀ step.ne' (by linarith)
    · -- A carry rounds up, and the next code is greater still.
      have following := units_lt (p := p) (Nat.lt_succ_self (s * pow2 p + 2 * pow2 p))
      push_cast at units
      have beyond : 2 * (v * pow2 s) <
          unitsOfCode p (s * pow2 p + 2 * pow2 p) +
            unitsOfCode p (s * pow2 p + 2 * pow2 p + 1) := by nlinarith
      exact ⟨beyond.le, fun same => absurd same beyond.ne⟩

end Rounded

theorem rounded_roundHalfEven (p num : ℕ) {den : ℕ} (positive : 0 < den) :
    let s := lostBits p (num / den)
    Rounded p s (num / (den * pow2 s : ℕ)) (roundHalfEven num (den * pow2 s)) := by
  intro s
  obtain ⟨less, normal⟩ := lostBits_bounds p num positive
  have scaled : 0 < den * pow2 s := Nat.mul_pos positive (pow2_pos s)
  have scaledQ : (0 : ℚ) < (den * pow2 s : ℕ) := Nat.cast_pos.mpr scaled
  obtain ⟨⟨up, upEven⟩, down, downEven⟩ := roundHalfEven_bounds num scaled
  refine ⟨?_, normal.imp_right fun le => ?_, up, upEven, down, downEven⟩
  · rw [div_lt_iff₀ scaledQ]
    exact_mod_cast less
  · rw [le_div_iff₀ scaledQ]
    exact_mod_cast le

theorem isNearestCode_nearestCode (num : ℕ) {den : ℕ} (fraction : 0 < p) (positive : 0 < den) :
    IsNearestCode p (num / den) (nearestCode p num den) := by
  have between := (rounded_roundHalfEven p num positive).betweenMidpoints fraction
  have exact : (num / den : ℚ) =
      num / (den * pow2 (lostBits p (num / den)) : ℕ) * pow2 (lostBits p (num / den)) := by
    have step : (0 : ℚ) < pow2 (lostBits p (num / den)) := Nat.cast_pos.mpr (pow2_pos _)
    have denQ : (0 : ℚ) < den := Nat.cast_pos.mpr positive
    rw [Nat.cast_mul]
    field_simp
  rw [exact]
  exact between.isNearestCode

theorem nearestCode_eq_iff {num den : ℕ} (fraction : 0 < p) (positive : 0 < den) :
    nearestCode p num den = code ↔ IsNearestCode p (num / den) code := by
  have found := isNearestCode_nearestCode num fraction positive
  constructor
  · rintro rfl
    exact found
  · exact found.unique

theorem isNearestCode_self (p code : ℕ) : IsNearestCode p (unitsOfCode p code) code := by
  constructor
  · intro other
    rw [sub_self, abs_zero]
    exact abs_nonneg _
  · intro other same
    rw [sub_self, abs_zero, eq_comm, abs_eq_zero, sub_eq_zero] at same
    exact .inl (unitsOfCode_inj.mp (Nat.cast_injective same))

/-! ### The nearest binary32 number -/

namespace Binary32

/-- The number without its sign. -/
def magnitude (x : Binary32) : ℚ := x.units / unitsPerOne

/-- `x` is finite and its magnitude is the one nearest to `q`; of two as near, that with the even
significand. Half a step beyond the greatest one and further no number is nearest. -/
def NearestTo (q : ℚ) (x : Binary32) : Prop :=
  x.isFinite = true ∧ IsNearestCode 23 (q * unitsPerOne) x.code

variable {x y : Binary32} {q : ℚ}

theorem unitsPerOne_pos : (0 : ℚ) < unitsPerOne := Nat.cast_pos.mpr (pow2_pos 149)

theorem magnitude_mul (x : Binary32) : x.magnitude * unitsPerOne = x.units :=
  div_mul_cancel₀ _ unitsPerOne_pos.ne'

theorem magnitude_nonneg (x : Binary32) : 0 ≤ x.magnitude :=
  div_nonneg (Nat.cast_nonneg _) unitsPerOne_pos.le

theorem abs_magnitude_sub (x : Binary32) (q : ℚ) :
    |x.magnitude - q| * unitsPerOne = |(unitsOfCode 23 x.code : ℚ) - q * unitsPerOne| := by
  have units : (unitsOfCode 23 x.code : ℚ) = x.magnitude * unitsPerOne := (magnitude_mul x).symm
  rw [units, ← sub_mul, abs_mul, abs_of_pos unitsPerOne_pos]

theorem nearestTo_magnitude (finite : x.isFinite = true) : NearestTo x.magnitude x := by
  refine ⟨finite, ?_⟩
  rw [magnitude_mul]
  exact isNearestCode_self 23 x.code

theorem nearestTo_div_iff {num den : ℕ} (positive : 0 < den) :
    NearestTo (num / den) x ↔
      x.isFinite = true ∧ nearestCode 23 (num * unitsPerOne) den = x.code := by
  rw [nearestCode_eq_iff (by decide) positive, Nat.cast_mul, mul_div_right_comm]
  rfl

theorem magnitude_lt_iff : x.magnitude < y.magnitude ↔ x.code < y.code := by
  unfold magnitude units
  rw [div_lt_div_iff_of_pos_right unitsPerOne_pos, Nat.cast_lt, unitsOfCode_lt_iff]

theorem magnitude_le_iff : x.magnitude ≤ y.magnitude ↔ x.code ≤ y.code := by
  rw [← not_lt, magnitude_lt_iff, Nat.not_lt]

theorem NearestTo.convex {low high : ℚ} (lower : NearestTo low x) (upper : NearestTo high x)
    (fromLow : low ≤ q) (toHigh : q ≤ high) : NearestTo q x :=
  ⟨lower.1, lower.2.convex upper.2 (mul_le_mul_of_nonneg_right fromLow unitsPerOne_pos.le)
    (mul_le_mul_of_nonneg_right toHigh unitsPerOne_pos.le)⟩

theorem NearestTo.unique (nearest : NearestTo q x) (same : NearestTo q y)
    (sign : x.negative = y.negative) : x = y :=
  ext_code sign (nearest.2.unique same.2)

theorem NearestTo.near (nearest : NearestTo q x) (y : Binary32) :
    |x.magnitude - q| ≤ |y.magnitude - q| := by
  have scaled := nearest.2.near y.code
  rw [← abs_magnitude_sub, ← abs_magnitude_sub] at scaled
  exact le_of_mul_le_mul_right scaled unitsPerOne_pos

theorem NearestTo.even (nearest : NearestTo q x)
    (tie : |x.magnitude - q| = |y.magnitude - q|) : y.code = x.code ∨ x.code % 2 = 0 := by
  refine nearest.2.even y.code ?_
  rw [← abs_magnitude_sub, ← abs_magnitude_sub, tie]

end Binary32

end ScriptState.Number

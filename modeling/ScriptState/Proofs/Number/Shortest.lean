import Mathlib.Data.Nat.Digits.Lemmas
import Mathlib.Data.Nat.Factorization.Basic
import Mathlib.Tactic.NormNum
import Mathlib.Tactic.NormNum.Pow
import ScriptState.Number.Shortest
import ScriptState.Proofs.Number.Nearest

/-!
# The shortest decimal is found

Among all decimals that read back as a number, `Binary32.shortest` has the fewest significant
digits, and among those with as few none is nearer to the number (`isShortest_shortest`). The
search goes by grids, not by digits: it finds the nearest point of the coarsest grid with one that
reads back (`onCoarsestGrid_search`). The two agree since what reads back has no gaps: a decimal
with fewer digits, or with as many on a finer grid, would let a power of ten on a coarser grid read
back. That leaves single digits, of which the least numbers need a look at their neighbours.
-/

namespace ScriptState.Number

namespace Decimal

/-- The number that the decimal is. -/
def value (d : Decimal) : ℚ := d.digits * 10 ^ d.exponent

/-- The digits without leading and trailing zeros, the last one first. -/
def significant (d : Decimal) : List ℕ := (Nat.digits 10 d.digits).dropWhile (· = 0)

variable {d other : Decimal}

/-! ### Values and significant digits -/

theorem value_nonneg (d : Decimal) : 0 ≤ d.value :=
  mul_nonneg (Nat.cast_nonneg _) (zpow_pos (by decide) _).le

theorem value_mono {m n : ℕ} (le : m ≤ n) (e : ℤ) : value ⟨m, e⟩ ≤ value ⟨n, e⟩ :=
  mul_le_mul_of_nonneg_right (Nat.cast_le.mpr le) (zpow_pos (by decide) e).le

/-- Zeros at the end of the digits are steps of the exponent. -/
theorem value_zeros (n t : ℕ) (e : ℤ) : value ⟨10 ^ t * n, e⟩ = value ⟨n, e + t⟩ := by
  unfold value
  push_cast
  rw [zpow_add₀ (by decide), zpow_natCast]
  ring

theorem significant_zeros (n t : ℕ) (e k : ℤ) :
    significant ⟨10 ^ t * n, e⟩ = significant ⟨n, k⟩ := by
  unfold significant
  dsimp only
  rcases Nat.eq_zero_or_pos n with rfl | some
  · rw [Nat.mul_zero]
  · rw [Nat.digits_base_pow_mul (by decide) some, List.dropWhile_append_of_pos]
    intro digit zero
    exact decide_eq_true (List.eq_of_mem_replicate zero)

theorem significant_eq_of_value_eq (same : d.value = other.value) :
    d.significant = other.significant := by
  wlog le : d.exponent ≤ other.exponent generalizing d other
  · exact (this same.symm (Int.le_of_not_le le)).symm
  obtain ⟨digits, e⟩ := d
  obtain ⟨n, k⟩ := other
  obtain ⟨t, rfl⟩ := Int.le.dest le
  rw [← value_zeros] at same
  have exact := mul_right_cancel₀ (zpow_pos (by decide) e).ne' same
  obtain rfl : digits = 10 ^ t * n := Nat.cast_injective exact
  exact significant_zeros n t e _

theorem significant_of_not_dvd {n : ℕ} {e : ℤ} (last : ¬10 ∣ n) :
    significant ⟨n, e⟩ = Nat.digits 10 n := by
  have some : 0 < n := Nat.pos_of_ne_zero fun zero => last (zero ▸ dvd_zero 10)
  have nonzero : n % 10 ≠ 0 := fun zero => last (Nat.dvd_of_mod_eq_zero zero)
  unfold significant
  dsimp only
  rw [Nat.digits_def' (by decide) some, List.dropWhile_cons_of_neg]
  exact fun zero => nonzero (of_decide_eq_true zero)

/-- The digits end where the significant ones do. -/
theorem exists_trimmed (some : 0 < d.digits) :
    ∃ n k, 0 < n ∧ d.value = value ⟨n, k⟩ ∧ d.significant = Nat.digits 10 n := by
  obtain ⟨digits, e⟩ := d
  obtain ⟨t, n, last, rfl⟩ :=
    Nat.exists_eq_pow_mul_and_not_dvd (Nat.ne_of_gt some) 10 (by decide)
  refine ⟨n, e + t, Nat.pos_of_mul_pos_left some, value_zeros n t e, ?_⟩
  rw [significant_zeros n t e 0, significant_of_not_dvd last]

end Decimal

open Decimal (value significant)

/-! ### Points of a grid -/

namespace Shortest

theorem unitsPerOne_eq : (Binary32.unitsPerOne : ℚ) = 2 ^ 149 := Nat.cast_pow 2 149

theorem perUnit_pos : 0 < perUnit := Nat.pow_pos (by decide)

theorem perUnit_eq : (perUnit : ℚ) = 5 ^ 149 := Nat.cast_pow 5 149

/-- The `d`th point of the grid `10 ^ (finest + m)`. -/
def point (m d : ℕ) : ℚ := value ⟨d, finest + m⟩

theorem point_eq (m d : ℕ) : point m d = (d * 10 ^ m : ℕ) * 10 ^ finest := by
  unfold point
  rw [← Decimal.value_zeros, Nat.mul_comm]
  rfl

theorem finest_units : (10 : ℚ) ^ finest * Binary32.unitsPerOne = 1 / perUnit := by
  rw [unitsPerOne_eq, perUnit_eq]
  norm_num [finest]

theorem point_units (m d : ℕ) :
    point m d * Binary32.unitsPerOne = (d * 10 ^ m : ℕ) / (perUnit : ℕ) := by
  rw [point_eq, mul_assoc, finest_units, mul_one_div]

variable {x : Binary32} {m d : ℕ}

theorem readsBack_iff (finite : x.isFinite = true) :
    readsBack x.code d m = true ↔ x.NearestTo (point m d) := by
  unfold readsBack Binary32.NearestTo
  rw [beq_iff_eq, eq_comm, nearestCode_eq_iff (by decide) perUnit_pos, point_units]
  exact (and_iff_right finite).symm

theorem magnitude_eq (x : Binary32) : x.magnitude = (x.units * perUnit : ℕ) * 10 ^ finest := by
  refine mul_right_cancel₀ Binary32.unitsPerOne_pos.ne' ?_
  rw [Binary32.magnitude_mul, mul_assoc, finest_units, mul_one_div, Nat.cast_mul,
    mul_div_cancel_right₀]
  exact Nat.cast_ne_zero.mpr (Nat.ne_of_gt perUnit_pos)

/-- The last point of the grid that is not above the number. -/
def below (x : Binary32) (m : ℕ) : ℕ := x.units * perUnit / 10 ^ m

theorem point_mono {d other : ℕ} (m : ℕ) (le : d ≤ other) : point m d ≤ point m other :=
  Decimal.value_mono le _

theorem point_below_le (x : Binary32) (m : ℕ) : point m (below x m) ≤ x.magnitude := by
  rw [point_eq, magnitude_eq]
  refine mul_le_mul_of_nonneg_right ?_ (zpow_pos (by decide) _).le
  exact Nat.cast_le.mpr (Nat.div_mul_le_self _ _)

theorem magnitude_lt_point (x : Binary32) (m : ℕ) : x.magnitude < point m (below x m + 1) := by
  rw [point_eq, magnitude_eq, Nat.mul_comm (_ + 1)]
  refine mul_lt_mul_of_pos_right ?_ (zpow_pos (by decide) _)
  exact Nat.cast_lt.mpr (Nat.lt_mul_div_succ _ (Nat.pow_pos (by decide)))

/-- If any point of the grid reads back, one of the two around the number does, which is as near. -/
theorem reads_around {other : ℕ} (finite : x.isFinite = true)
    (reads : x.NearestTo (point m other)) :
    ∃ d, (d = below x m ∨ d = below x m + 1) ∧ x.NearestTo (point m d) ∧
      |point m d - x.magnitude| ≤ |point m other - x.magnitude| := by
  have low := point_below_le x m
  have high := (magnitude_lt_point x m).le
  have itself := Binary32.nearestTo_magnitude finite
  rcases Nat.lt_or_ge (below x m) other with above | le
  · have far := point_mono m (Nat.succ_le_of_lt above)
    refine ⟨_, .inr rfl, itself.convex reads high far, ?_⟩
    rw [abs_of_nonneg (by linarith), abs_of_nonneg (by linarith)]
    linarith
  · have far := point_mono m le
    refine ⟨_, .inl rfl, reads.convex itself far low, ?_⟩
    rw [abs_of_nonpos (by linarith), abs_of_nonpos (by linarith)]
    linarith

theorem nearer_iff (x : Binary32) (m : ℕ) :
    x.units * perUnit - below x m * 10 ^ m < (below x m + 1) * 10 ^ m - x.units * perUnit ↔
      |point m (below x m) - x.magnitude| < |point m (below x m + 1) - x.magnitude| := by
  have low : below x m * 10 ^ m ≤ x.units * perUnit := Nat.div_mul_le_self _ _
  have high : x.units * perUnit ≤ (below x m + 1) * 10 ^ m := by
    rw [Nat.mul_comm (_ + 1)]
    exact (Nat.lt_mul_div_succ _ (Nat.pow_pos (by decide))).le
  rw [abs_of_nonpos (sub_nonpos.mpr (point_below_le x m)),
    abs_of_nonneg (sub_nonneg.mpr (magnitude_lt_point x m).le), neg_sub, point_eq, point_eq,
    magnitude_eq, ← sub_mul, ← sub_mul, mul_lt_mul_iff_left₀ (zpow_pos (by decide) _),
    ← Nat.cast_sub low, ← Nat.cast_sub high, Nat.cast_lt]

/-- `d` is the point of the grid that reads back; of several no other is nearer. -/
def Hits (x : Binary32) (m d : ℕ) : Prop :=
  x.NearestTo (point m d) ∧ ∀ other, x.NearestTo (point m other) →
    |point m d - x.magnitude| ≤ |point m other - x.magnitude|

theorem onGrid?_eq (x : Binary32) (m : ℕ) : onGrid? x.code x.units m =
    if readsBack x.code (below x m) m then
      if readsBack x.code (below x m + 1) m then
        if x.units * perUnit - below x m * 10 ^ m <
            (below x m + 1) * 10 ^ m - x.units * perUnit then some (below x m)
        else some (below x m + 1)
      else some (below x m)
    else if readsBack x.code (below x m + 1) m then some (below x m + 1)
    else none := by
  have step : Nat.pow 10 m = 10 ^ m := rfl
  have start : x.units * perUnit / 10 ^ m = below x m := rfl
  unfold onGrid?
  dsimp only
  rw [step, start]
  cases readsBack x.code (below x m) m <;> cases readsBack x.code (below x m + 1) m
  · rfl
  · rfl
  · rfl
  · rw [if_pos rfl, if_pos rfl]
    exact apply_ite some _ _ _

theorem onGrid?_eq_some (finite : x.isFinite = true) (found : onGrid? x.code x.units m = some d) :
    Hits x m d := by
  have nearer := nearer_iff x m
  have lowReads := readsBack_iff (m := m) (d := below x m) finite
  have highReads := readsBack_iff (m := m) (d := below x m + 1) finite
  -- It is enough that of the two points around the number the other is no better.
  suffices better : x.NearestTo (point m d) ∧ ∀ other, (other = below x m ∨ other = below x m + 1) →
      x.NearestTo (point m other) → |point m d - x.magnitude| ≤ |point m other - x.magnitude| by
    refine ⟨better.1, fun other reads => ?_⟩
    obtain ⟨near, around, nearReads, le⟩ := reads_around finite reads
    exact (better.2 near around nearReads).trans le
  rw [onGrid?_eq] at found
  split_ifs at found with low high less high <;> obtain rfl := Option.some.inj found
  · refine ⟨lowReads.mp low, ?_⟩
    rintro other (rfl | rfl) -
    · exact le_refl _
    · exact (nearer.mp less).le
  · refine ⟨highReads.mp high, ?_⟩
    rintro other (rfl | rfl) -
    · exact not_lt.mp fun closer => less (nearer.mpr closer)
    · exact le_refl _
  · refine ⟨lowReads.mp low, ?_⟩
    rintro other (rfl | rfl) reads
    · exact le_refl _
    · exact absurd (highReads.mpr reads) high
  · refine ⟨highReads.mp high, ?_⟩
    rintro other (rfl | rfl) reads
    · exact absurd (lowReads.mpr reads) low
    · exact le_refl _

theorem onGrid?_eq_none (finite : x.isFinite = true) (missed : onGrid? x.code x.units m = none) :
    ¬x.NearestTo (point m d) := by
  intro reads
  obtain ⟨near, around, nearReads, -⟩ := reads_around finite reads
  have found := (readsBack_iff finite).mpr nearReads
  rw [onGrid?_eq] at missed
  split_ifs at missed with low high less high
  rcases around with rfl | rfl
  · exact low found
  · exact high found

end Shortest

/-! ### The coarsest grid -/

open Shortest

/-- What the search is for: no decimal that reads back has a greater exponent, and of those with
the same exponent none is nearer. -/
structure OnCoarsestGrid (x : Binary32) (d : Decimal) : Prop where
  reads : x.NearestTo d.value
  coarsest (other : Decimal) : x.NearestTo other.value → other.exponent ≤ d.exponent
  closest (other : Decimal) : x.NearestTo other.value → other.exponent = d.exponent →
    |d.value - x.magnitude| ≤ |other.value - x.magnitude|

variable {x : Binary32} {d : Decimal}

theorem onCoarsestGrid_search (finite : x.isFinite = true) (m : ℕ)
    (coarsest : ∀ other : Decimal, x.NearestTo other.value → other.exponent ≤ finest + m) :
    OnCoarsestGrid x (search x.code x.units m) := by
  induction m with
  | zero =>
    rw [search]
    have exact : value ⟨x.units * perUnit, finest⟩ = x.magnitude := (magnitude_eq x).symm
    refine ⟨exact ▸ Binary32.nearestTo_magnitude finite, coarsest, fun other _ _ => ?_⟩
    rw [exact, sub_self, abs_zero]
    exact abs_nonneg _
  | succ m ih =>
    rw [search]
    split
    · rename_i digits found
      obtain ⟨reads, closest⟩ := onGrid?_eq_some finite found
      refine ⟨reads, coarsest, fun other otherReads same => ?_⟩
      obtain ⟨n, e⟩ := other
      obtain rfl : e = finest + (m + 1 : ℕ) := same
      exact closest n otherReads
    · rename_i missed
      refine ih fun other otherReads => ?_
      obtain ⟨n, e⟩ := other
      have le : e ≤ finest + (m + 1 : ℕ) := coarsest _ otherReads
      have ne : e ≠ finest + (m + 1 : ℕ) := by
        rintro rfl
        exact onGrid?_eq_none finite missed otherReads
      change e ≤ finest + m
      omega

theorem digits_pos_of_nearestTo (nonzero : x.isZero = false) (reads : x.NearestTo d.value) :
    0 < d.digits := by
  refine Nat.pos_of_ne_zero fun none => ?_
  have zero : d.value * Binary32.unitsPerOne = (unitsOfCode 23 0 : ℕ) := by
    unfold value
    rw [none, Nat.cast_zero, zero_mul, zero_mul, unitsOfCode_subnormal (pow2_pos 23), Nat.cast_zero]
  have code : x.code = 0 := (zero ▸ reads.2).unique (isNearestCode_self 23 0)
  exact beq_eq_false_iff_ne.mp nonzero code

theorem units_infinityCode : unitsOfCode 23 Binary32.infinityCode = pow2 277 := by decide +kernel

/-- No finite number reaches `10 ^ 39`. -/
theorem exponent_le_of_nearestTo (nonzero : x.isZero = false) (reads : x.NearestTo d.value) :
    d.exponent ≤ finest + gridCount := by
  by_contra large
  have exponent : 39 ≤ d.exponent := by
    unfold finest gridCount at large
    omega
  have less : x.code < Binary32.infinityCode := of_decide_eq_true reads.1
  have here := units_lt (p := 23) less
  have next := units_le (p := 23) (Nat.succ_le_of_lt less)
  have below := (isNearestCode_iff.mp reads.2).below.1
  have some : (1 : ℚ) ≤ d.digits := Nat.one_le_cast.mpr (digits_pos_of_nearestTo nonzero reads)
  have power : (10 : ℚ) ^ (39 : ℤ) ≤ 10 ^ d.exponent := zpow_le_zpow_right₀ (by norm_num) exponent
  have value_ge : (10 : ℚ) ^ (39 : ℤ) ≤ d.value :=
    power.trans (le_mul_of_one_le_left (zpow_pos (by decide) _).le some)
  have units_ge : pow2 277 ≤ 10 ^ 39 * Binary32.unitsPerOne :=
    (pow2_add 128 149).trans_le (Nat.mul_le_mul_right _ (by decide))
  have units_geQ : (pow2 277 : ℚ) ≤ 10 ^ (39 : ℤ) * Binary32.unitsPerOne := by
    exact_mod_cast units_ge
  have beyond := mul_le_mul_of_nonneg_right value_ge Binary32.unitsPerOne_pos.le
  rw [units_infinityCode] at here next
  linarith

theorem onCoarsestGrid_shortest (finite : x.isFinite = true) (nonzero : x.isZero = false) :
    OnCoarsestGrid x x.shortest := by
  rw [Binary32.shortest, nonzero]
  exact onCoarsestGrid_search finite _ fun _ => exponent_le_of_nearestTo nonzero

/-! ### Fewest digits -/

/-- A decimal that reads back as the number, has the fewest significant digits of all that do, and
is as near to the number as any with so few. -/
structure IsShortest (x : Binary32) (d : Decimal) : Prop where
  reads : x.NearestTo d.value
  fewest (other : Decimal) : x.NearestTo other.value →
    d.significant.length ≤ other.significant.length
  closest (other : Decimal) : x.NearestTo other.value →
    other.significant.length = d.significant.length →
    |d.value - x.magnitude| ≤ |other.value - x.magnitude|

namespace Decimal

theorem power_mono {e k : ℤ} (le : e ≤ k) : value ⟨1, e⟩ ≤ value ⟨1, k⟩ :=
  mul_le_mul_of_nonneg_left (zpow_le_zpow_right₀ (by norm_num) le) (Nat.cast_nonneg _)

/-- The decimal has the digit count of the power of ten at or below it. -/
theorem power_le {t : ℕ} (digits : t < (Nat.digits 10 d.digits).length) :
    value ⟨1, d.exponent + t⟩ ≤ d.value := by
  rw [← value_zeros, Nat.mul_one]
  exact value_mono ((Nat.lt_digits_length_iff (by decide) _).mp digits) _

theorem value_le_power {t : ℕ} (digits : (Nat.digits 10 d.digits).length ≤ t) :
    d.value ≤ value ⟨1, d.exponent + t⟩ := by
  rw [← value_zeros, Nat.mul_one]
  exact value_mono ((Nat.digits_length_le_iff (by decide) _).mp digits).le _

/-- A single digit on a finer grid. -/
theorem digit_le {n : ℕ} {e k : ℤ} (digit : n ≤ 9) (finer : k < e) :
    10 * value ⟨n, k⟩ ≤ 9 * value ⟨1, e⟩ := by
  have tens : 10 * value ⟨n, k⟩ = n * value ⟨1, k + 1⟩ := by
    unfold value
    rw [zpow_add_one₀ (by decide)]
    ring
  have atMost : (n : ℚ) ≤ 9 := by exact_mod_cast digit
  rw [tens]
  exact mul_le_mul atMost (power_mono finer) (value_nonneg _) (by decide)

end Decimal

/-- Of neighbouring codes that are not the least the steps are small against the numbers. -/
theorem unitsOfCode_steps {before : ℕ} (large : 9 ≤ before) :
    9 * unitsOfCode 23 (before + 2) <
      10 * unitsOfCode 23 before + unitsOfCode 23 (before + 1) := by
  have power : pow2 23 = 8388608 := rfl
  obtain ⟨s, q, code, normal, bounded⟩ := exists_significand 23 (before + 1)
  have several : 10 ≤ q := by rcases normal with rfl | le <;> omega
  have here : unitsOfCode 23 (before + 1) = q * pow2 s := by
    rw [code, unitsOfCode_significand normal bounded]
  have next : unitsOfCode 23 (before + 2) = (q + 1) * pow2 s := by
    rw [← unitsOfCode_carry (normal.imp_right Nat.le_succ_of_le) bounded]
    congr 1
    omega
  by_cases inside : s = 0 ∨ pow2 23 < q
  · obtain ⟨r, rfl⟩ : ∃ r, q = r + 1 := ⟨q - 1, by omega⟩
    have previous : unitsOfCode 23 before = r * pow2 s := by
      rw [Nat.succ.inj code]
      exact unitsOfCode_significand (inside.imp_right Nat.le_of_lt_succ) (Nat.lt_of_succ_lt bounded)
    have enough : 9 * pow2 s ≤ r * pow2 s := Nat.mul_le_mul_right _ (Nat.le_of_succ_le_succ several)
    have positive := pow2_pos s
    rw [here, next, previous, Nat.add_mul, Nat.add_mul]
    omega
  · -- Below the least significand the steps are half as wide.
    obtain ⟨t, rfl⟩ : ∃ t, s = t + 1 := ⟨s - 1, by omega⟩
    obtain rfl : q = pow2 23 := by omega
    have previous : unitsOfCode 23 before = (2 * pow2 23 - 1) * pow2 t := by
      have last : before = t * pow2 23 + (2 * pow2 23 - 1) := by
        rw [Nat.add_mul] at code
        omega
      rw [last]
      exact unitsOfCode_significand (.inr (by omega)) (by omega)
    rw [here, next, previous, pow2_succ t, power]
    have positive := pow2_pos t
    omega

/-- In units the powers of ten go from less than one to 7.1 and on to more than ten. -/
theorem power_units (e : ℤ) :
    value ⟨1, e⟩ * Binary32.unitsPerOne < 1 ∨
      (7 < value ⟨1, e⟩ * Binary32.unitsPerOne ∧
        value ⟨1, e⟩ * Binary32.unitsPerOne < 36 / 5) ∨
      10 < value ⟨1, e⟩ * Binary32.unitsPerOne := by
  have mono : ∀ {e k : ℤ}, e ≤ k →
      value ⟨1, e⟩ * Binary32.unitsPerOne ≤ value ⟨1, k⟩ * Binary32.unitsPerOne :=
    fun le => mul_le_mul_of_nonneg_right (Decimal.power_mono le) Binary32.unitsPerOne_pos.le
  rcases lt_trichotomy e (-44) with less | rfl | greater
  · have next : value ⟨1, -45⟩ * Binary32.unitsPerOne < 1 := by
      unfold value
      rw [unitsPerOne_eq]
      norm_num
    exact .inl ((mono (by omega)).trans_lt next)
  · right
    left
    unfold value
    rw [unitsPerOne_eq]
    norm_num
  · have next : 10 < value ⟨1, -43⟩ * Binary32.unitsPerOne := by
      unfold value
      rw [unitsPerOne_eq]
      norm_num
    exact .inr (.inr (next.trans_le (mono (by omega))))

/-- Where a power of ten above the number reads back, nothing does up to nine tenths of it. -/
theorem nine_tenths_lt {e : ℤ} (nonzero : x.isZero = false) (power : x.NearestTo (value ⟨1, e⟩))
    (above : x.magnitude < value ⟨1, e⟩) (reads : x.NearestTo d.value) :
    9 * value ⟨1, e⟩ < 10 * d.value := by
  by_contra le
  rw [not_lt] at le
  have code : x.code ≠ 0 := beq_eq_false_iff_ne.mp nonzero
  obtain ⟨before, next⟩ := Nat.exists_eq_add_one_of_ne_zero code
  have low := ((isNearestCode_iff.mp reads.2).above before next.symm).1
  have high := (isNearestCode_iff.mp power.2).below.1
  have scaled := mul_le_mul_of_nonneg_right le Binary32.unitsPerOne_pos.le
  have beyond := mul_lt_mul_of_pos_right above Binary32.unitsPerOne_pos
  rw [Binary32.magnitude_mul] at beyond
  unfold Binary32.units at beyond
  rw [next] at low high beyond
  rcases Nat.lt_or_ge before 9 with least | large
  · -- Among the least numbers is one power of ten, between 7 and 7.5 units.
    have small : ∀ code ≤ 10, unitsOfCode 23 code = code := fun code le =>
      unitsOfCode_subnormal (Nat.lt_of_le_of_lt le (by decide))
    have few : (before : ℚ) ≤ 8 := by exact_mod_cast Nat.le_of_lt_succ least
    rw [small _ (by omega)] at low high beyond
    rw [small _ (by omega)] at low high
    push_cast at low high beyond
    rcases power_units e with tiny | ⟨above, below⟩ | huge
    · linarith [Nat.cast_nonneg (α := ℚ) before]
    · have atMost : (2 * before : ℚ) < 12 := by linarith
      have atLeast : (11 : ℚ) < 2 * before := by linarith
      have atMostNat : 2 * before < 12 := by exact_mod_cast atMost
      have atLeastNat : 11 < 2 * before := by exact_mod_cast atLeast
      omega
    · linarith
  · have steps := unitsOfCode_steps large
    have stepsQ : (9 * unitsOfCode 23 (before + 2) : ℚ) <
        10 * unitsOfCode 23 before + unitsOfCode 23 (before + 1) := by exact_mod_cast steps
    linarith

theorem IsShortest.of_value_eq {other : Decimal} (shortest : IsShortest x d)
    (same : other.value = d.value) : IsShortest x other := by
  obtain ⟨reads, fewest, closest⟩ := shortest
  have digits := Decimal.significant_eq_of_value_eq same
  exact ⟨same ▸ reads, digits ▸ fewest, by rwa [same, digits]⟩

namespace OnCoarsestGrid

/-- The digits have no zeros at the end, since without them the decimal were on a coarser grid. -/
theorem significant_eq (coarsest : OnCoarsestGrid x d) :
    d.significant = Nat.digits 10 d.digits := by
  refine Decimal.significant_of_not_dvd fun ⟨n, zeros⟩ => ?_
  have same : value ⟨n, d.exponent + 1⟩ = d.value := by
    have shifted := Decimal.value_zeros n 1 d.exponent
    rw [pow_one, ← zeros] at shifted
    exact shifted.symm
  have coarser := coarsest.coarsest ⟨n, d.exponent + 1⟩ (same ▸ coarsest.reads)
  exact absurd coarser (by simp)

/-- Between the decimal and another that reads back is no power of ten of a coarser grid. -/
theorem reads_power {t : ℕ} {other : Decimal} (coarsest : OnCoarsestGrid x d)
    (reads : x.NearestTo other.value) (below : other.value ≤ value ⟨1, d.exponent + t⟩)
    (digits : t < (Nat.digits 10 d.digits).length) :
    t = 0 ∧ x.NearestTo (value ⟨1, d.exponent⟩) := by
  have power := reads.convex coarsest.reads below (Decimal.power_le digits)
  have le := coarsest.coarsest ⟨1, d.exponent + t⟩ power
  obtain rfl : t = 0 := by
    dsimp only at le
    omega
  rw [Nat.cast_zero, add_zero] at power
  exact ⟨rfl, power⟩

theorem fewest {other : Decimal} (coarsest : OnCoarsestGrid x d) (nonzero : x.isZero = false)
    (reads : x.NearestTo other.value) :
    d.significant.length ≤ other.significant.length := by
  obtain ⟨n, k, some, trimmed, significant⟩ :=
    Decimal.exists_trimmed (digits_pos_of_nearestTo nonzero reads)
  have le : k ≤ d.exponent := coarsest.coarsest ⟨n, k⟩ (trimmed ▸ reads)
  rw [coarsest.significant_eq, significant]
  by_contra fewer
  rw [not_le] at fewer
  have below : other.value ≤ value ⟨1, d.exponent + (Nat.digits 10 n).length⟩ := by
    rw [trimmed]
    exact (Decimal.value_le_power (d := ⟨n, k⟩) (le_refl _)).trans
      (Decimal.power_mono (Int.add_le_add_right le _))
  have none := (coarsest.reads_power reads below fewer).1
  rw [List.length_eq_zero_iff, Nat.digits_eq_nil_iff_eq_zero] at none
  omega

theorem nearest {other : Decimal} (coarsest : OnCoarsestGrid x d) (nonzero : x.isZero = false)
    (reads : x.NearestTo other.value)
    (same : other.significant.length = d.significant.length) :
    |d.value - x.magnitude| ≤ |other.value - x.magnitude| := by
  obtain ⟨n, k, some, trimmed, significant⟩ :=
    Decimal.exists_trimmed (digits_pos_of_nearestTo nonzero reads)
  rw [coarsest.significant_eq, significant] at same
  rw [trimmed] at reads ⊢
  rcases Int.lt_or_eq_of_le (coarsest.coarsest ⟨n, k⟩ reads) with finer | onGrid
  · dsimp only at finer
    -- The power of ten with as many digits is between the two, so there is one digit only.
    have some : (Nat.digits 10 n).length ≠ 0 := by
      rw [Ne, List.length_eq_zero_iff, Nat.digits_eq_nil_iff_eq_zero]
      omega
    obtain ⟨t, length⟩ := Nat.exists_eq_add_one_of_ne_zero some
    have below : value ⟨n, k⟩ ≤ value ⟨1, d.exponent + t⟩ :=
      (Decimal.value_le_power (d := ⟨n, k⟩) length.le).trans
        (Decimal.power_mono (by dsimp only; omega))
    obtain ⟨rfl, power⟩ := coarsest.reads_power reads below (by omega)
    rw [Nat.cast_zero, add_zero] at below
    have atPower := coarsest.closest ⟨1, d.exponent⟩ power rfl
    rcases lt_or_ge x.magnitude (value ⟨1, d.exponent⟩) with above | fromPower
    · have digit : n < 10 ^ 1 := (Nat.digits_length_le_iff (by decide) n).mp length.le
      have atMost := Decimal.digit_le (Nat.le_of_lt_succ digit) finer
      have gap := nine_tenths_lt nonzero power above reads
      linarith
    · refine atPower.trans ?_
      rw [abs_of_nonpos (by linarith), abs_of_nonpos (by linarith)]
      linarith
  · exact coarsest.closest ⟨n, k⟩ reads onGrid

end OnCoarsestGrid

theorem isShortest_shortest (finite : x.isFinite = true) (nonzero : x.isZero = false) :
    IsShortest x x.shortest :=
  have coarsest := onCoarsestGrid_shortest finite nonzero
  ⟨coarsest.reads, fun _ => coarsest.fewest nonzero, fun _ => coarsest.nearest nonzero⟩

/-- Two decimals of eight digits are as near to `2097152.25`. -/
example : (⟨0x4a000001⟩ : Binary32).shortest = ⟨20971523, -1⟩ := by decide +kernel

end ScriptState.Number

/-!
# Rounding onto a binary grid

A binary floating-point magnitude with `p` fraction bits is named by its *code*: the exponent
field followed by the fraction field, read as one number. Magnitudes are counted in *units* of
the least positive one. `unitsOfCode` is what a code stands for, `nearestCode` the code nearest
to a quotient. Main statements: `unitsOfCode` increases with the code, and `nearestCode` of what
a code stands for is that code. With a sign bit on top, which `signedCode` adds, a code becomes the
bits of a number.
-/

namespace ScriptState.Number

/-- The powers of two, which the codes of magnitudes are made of. -/
def pow2 (n : Nat) : Nat := Nat.pow 2 n

/-- The whole number nearest to `num / den`; halfway, the even one. -/
def roundHalfEven (num den : Nat) : Nat :=
  let q := num / den
  let r := num % den
  if 2 * r < den ∨ (2 * r = den ∧ q % 2 = 0) then q else q + 1

/-- The magnitude that `code` stands for. Codes below `pow2 p` are subnormal and stand for
themselves; from there on each exponent doubles the distance of neighbours. -/
def unitsOfCode (p code : Nat) : Nat :=
  if code < pow2 p then code else (pow2 p + code % pow2 p) * pow2 (code / pow2 p - 1)

/-- How many low bits of a magnitude near `k` its code has no room for. -/
def lostBits (p k : Nat) : Nat := k.log2 - p

/-- The code nearest to `num / den` units, without an upper end; halfway, the even code. A carry
out of the fraction arrives in the exponent, where it belongs. -/
def nearestCode (p num den : Nat) : Nat :=
  let s := lostBits p (num / den)
  s * pow2 p + roundHalfEven num (den * pow2 s)

/-- The bits of the number with that sign and code, where the sign bit counts as `signBit`. -/
def signedCode (signBit : Nat) (negative : Bool) (code : Nat) : Nat :=
  if negative then signBit + code else code

/-! ### Powers of two -/

theorem pow2_zero : pow2 0 = 1 := rfl

theorem pow2_succ (n : Nat) : pow2 (n + 1) = 2 * pow2 n := Nat.pow_succ'

theorem pow2_add (m n : Nat) : pow2 (m + n) = pow2 m * pow2 n := Nat.pow_add 2 m n

theorem pow2_pos (n : Nat) : 0 < pow2 n := Nat.two_pow_pos n

/-! ### Rounding a quotient -/

theorem roundHalfEven_mul {den : Nat} (q : Nat) (positive : 0 < den) :
    roundHalfEven (q * den) den = q := by
  simp [roundHalfEven, Nat.mul_div_cancel q positive, positive]

theorem roundHalfEven_near {num den : Nat} (positive : 0 < den) :
    2 * num ≤ (2 * roundHalfEven num den + 1) * den ∧
      2 * roundHalfEven num den * den ≤ 2 * num + den := by
  have split := Nat.div_add_mod num den
  have less := Nat.mod_lt num positive
  unfold roundHalfEven
  dsimp only
  generalize num / den = q at *
  generalize num % den = r at *
  subst split
  split
  · constructor
    · rw [Nat.add_mul, Nat.mul_assoc, Nat.mul_comm q den]; omega
    · rw [Nat.mul_assoc, Nat.mul_comm q den]; omega
  · constructor
    · rw [Nat.add_mul, Nat.mul_assoc, Nat.add_mul, Nat.mul_comm q den]; omega
    · rw [Nat.mul_assoc, Nat.add_mul, Nat.mul_comm q den]; omega

/-! ### Codes and what they stand for -/

theorem unitsOfCode_subnormal {p code : Nat} (small : code < pow2 p) :
    unitsOfCode p code = code := if_pos small

theorem unitsOfCode_normal {p code : Nat} (large : pow2 p ≤ code) :
    unitsOfCode p code = (pow2 p + code % pow2 p) * pow2 (code / pow2 p - 1) :=
  if_neg (Nat.not_lt.mpr large)

theorem unitsOfCode_lt_succ (p code : Nat) : unitsOfCode p code < unitsOfCode p (code + 1) := by
  have positive : 0 < pow2 p := pow2_pos p
  by_cases small : code < pow2 p
  · by_cases last : code + 1 = pow2 p
    · rw [unitsOfCode_subnormal small, unitsOfCode_normal (by omega), last]
      simp [Nat.div_self positive, pow2_zero]
      omega
    · rw [unitsOfCode_subnormal small, unitsOfCode_subnormal (by omega)]
      omega
  · have large : pow2 p ≤ code := Nat.not_lt.mp small
    rw [unitsOfCode_normal large, unitsOfCode_normal (by omega)]
    have split := Nat.div_add_mod code (pow2 p)
    have less := Nat.mod_lt code positive
    have some : 1 ≤ code / pow2 p := (Nat.le_div_iff_mul_le positive).mpr (by omega)
    generalize code / pow2 p = e at *
    generalize code % pow2 p = f at *
    subst split
    by_cases carry : f + 1 = pow2 p
    · have next : pow2 p * e + f + 1 = pow2 p * (e + 1) := by rw [Nat.mul_add]; omega
      rw [next, Nat.mul_mod_right, Nat.mul_div_cancel_left _ positive, Nat.add_sub_cancel,
        Nat.add_zero]
      have double : pow2 e = 2 * pow2 (e - 1) := by
        rw [← pow2_succ, Nat.sub_add_cancel some]
      rw [double, ← Nat.mul_assoc]
      exact Nat.mul_lt_mul_of_pos_right (by omega) (pow2_pos _)
    · rw [Nat.add_assoc, Nat.mul_add_mod, Nat.mod_eq_of_lt (by omega : f + 1 < pow2 p),
        Nat.mul_add_div positive, Nat.div_eq_of_lt (by omega : f + 1 < pow2 p), Nat.add_zero]
      exact Nat.mul_lt_mul_of_pos_right (by omega) (pow2_pos _)

theorem unitsOfCode_lt {p a b : Nat} (less : a < b) : unitsOfCode p a < unitsOfCode p b := by
  induction b with
  | zero => omega
  | succ b ih =>
    by_cases same : a = b
    · exact same ▸ unitsOfCode_lt_succ p a
    · exact Nat.lt_trans (ih (by omega)) (unitsOfCode_lt_succ p b)

theorem unitsOfCode_lt_iff {p a b : Nat} : unitsOfCode p a < unitsOfCode p b ↔ a < b := by
  refine ⟨fun less => ?_, unitsOfCode_lt⟩
  apply Nat.lt_of_not_le
  intro reversed
  rcases Nat.lt_or_eq_of_le reversed with smaller | same
  · have := unitsOfCode_lt (p := p) smaller
    omega
  · subst same
    omega

theorem unitsOfCode_inj {p a b : Nat} : unitsOfCode p a = unitsOfCode p b ↔ a = b := by
  refine ⟨fun same => ?_, fun same => same ▸ rfl⟩
  have left : ¬a < b := fun less => by have := unitsOfCode_lt (p := p) less; omega
  have right : ¬b < a := fun less => by have := unitsOfCode_lt (p := p) less; omega
  omega

/-! ### Significands: `s * pow2 p + q` is the code of `q * pow2 s` units -/

theorem exists_significand (p code : Nat) :
    ∃ s q, code = s * pow2 p + q ∧ (s = 0 ∨ pow2 p ≤ q) ∧ q < 2 * pow2 p := by
  have positive : 0 < pow2 p := pow2_pos p
  by_cases small : code < pow2 p
  · exact ⟨0, code, by omega, .inl rfl, by omega⟩
  · have split := Nat.div_add_mod code (pow2 p)
    have less := Nat.mod_lt code positive
    have some : 1 ≤ code / pow2 p := (Nat.le_div_iff_mul_le positive).mpr (by omega)
    generalize code / pow2 p = e at *
    generalize code % pow2 p = f at *
    obtain ⟨s, rfl⟩ : ∃ s, e = s + 1 := ⟨e - 1, by omega⟩
    refine ⟨s, pow2 p + f, ?_, .inr (Nat.le_add_right _ _), by omega⟩
    rw [← split, Nat.mul_add, Nat.mul_comm s]
    omega

variable {p s q : Nat}

theorem unitsOfCode_significand (normal : s = 0 ∨ pow2 p ≤ q) (bounded : q < 2 * pow2 p) :
    unitsOfCode p (s * pow2 p + q) = q * pow2 s := by
  have positive : 0 < pow2 p := pow2_pos p
  by_cases small : q < pow2 p
  · obtain rfl : s = 0 := normal.resolve_right (Nat.not_le.mpr small)
    rw [Nat.zero_mul, Nat.zero_add, unitsOfCode_subnormal small, pow2_zero, Nat.mul_one]
  · obtain ⟨f, rfl⟩ : ∃ f, q = pow2 p + f := ⟨q - pow2 p, by omega⟩
    have less : f < pow2 p := by omega
    have code : s * pow2 p + (pow2 p + f) = pow2 p * (s + 1) + f := by
      rw [Nat.mul_add, Nat.mul_comm s]
      omega
    rw [unitsOfCode_normal (by omega), code, Nat.mul_add_mod, Nat.mod_eq_of_lt less,
      Nat.mul_add_div positive, Nat.div_eq_of_lt less, Nat.add_zero, Nat.add_sub_cancel]

theorem lostBits_significand (normal : s = 0 ∨ pow2 p ≤ q) (bounded : q < 2 * pow2 p) :
    lostBits p (q * pow2 s) = s := by
  have positive : 0 < pow2 s := pow2_pos s
  have below : q * pow2 s < pow2 (p + s + 1) := by
    rw [Nat.add_right_comm, pow2_add, pow2_succ]
    exact Nat.mul_lt_mul_of_pos_right bounded positive
  rcases normal with rfl | normal
  · by_cases zero : q = 0
    · simp [zero, lostBits]
    · have log := (Nat.log2_lt (Nat.mul_ne_zero zero (Nat.ne_of_gt positive))).mpr below
      unfold lostBits
      omega
  · have nonzero : q * pow2 s ≠ 0 :=
      Nat.mul_ne_zero (Nat.ne_of_gt (Nat.lt_of_lt_of_le (pow2_pos p) normal))
        (Nat.ne_of_gt positive)
    have above : pow2 (p + s) ≤ q * pow2 s := by
      rw [pow2_add]
      exact Nat.mul_le_mul_right _ normal
    have log := (Nat.log2_eq_iff nonzero).mpr ⟨above, below⟩
    rw [lostBits, log, Nat.add_sub_cancel_left]

theorem nearestCode_significand (normal : s = 0 ∨ pow2 p ≤ q) (bounded : q < 2 * pow2 p) :
    nearestCode p (q * pow2 s) 1 = s * pow2 p + q := by
  rw [nearestCode, Nat.div_one, lostBits_significand normal bounded, Nat.one_mul,
    roundHalfEven_mul q (pow2_pos s)]

theorem nearestCode_unitsOfCode (p code : Nat) : nearestCode p (unitsOfCode p code) 1 = code := by
  obtain ⟨s, q, rfl, normal, bounded⟩ := exists_significand p code
  rw [unitsOfCode_significand normal bounded, nearestCode_significand normal bounded]

/-- Whatever fits into a significand has a code at every exponent. -/
theorem exists_code (bounded : q < 2 * pow2 p) : ∃ code, unitsOfCode p code = q * pow2 s := by
  induction s generalizing q with
  | zero => exact ⟨0 * pow2 p + q, unitsOfCode_significand (.inl rfl) bounded⟩
  | succ s ih =>
    by_cases small : q < pow2 p
    · -- A bit is free, so one step of the exponent goes into the significand.
      obtain ⟨code, same⟩ := ih (q := 2 * q) (by omega)
      refine ⟨code, ?_⟩
      rw [same, pow2_succ, Nat.mul_comm 2 q, Nat.mul_assoc]
    · exact ⟨(s + 1) * pow2 p + q, unitsOfCode_significand (.inr (Nat.not_lt.mp small)) bounded⟩

/-! ### Quotients in other terms -/

theorem roundHalfEven_expand {k : Nat} (num den : Nat) (positive : 0 < k) :
    roundHalfEven (num * k) (den * k) = roundHalfEven num den := by
  have less : 2 * (num % den * k) < den * k ↔ 2 * (num % den) < den := by
    rw [← Nat.mul_assoc, Nat.mul_lt_mul_right positive]
  have halfway : 2 * (num % den * k) = den * k ↔ 2 * (num % den) = den := by
    rw [← Nat.mul_assoc, Nat.mul_right_cancel_iff positive]
  unfold roundHalfEven
  dsimp only
  rw [Nat.mul_div_mul_right _ _ positive, Nat.mul_mod_mul_right]
  simp only [less, halfway]

theorem nearestCode_expand {k : Nat} (p num den : Nat) (positive : 0 < k) :
    nearestCode p (num * k) (den * k) = nearestCode p num den := by
  unfold nearestCode
  dsimp only
  rw [Nat.mul_div_mul_right _ _ positive, Nat.mul_right_comm, roundHalfEven_expand _ _ positive]

/-! ### The sign bit -/

/-- A word of the bits below the sign bit and the sign bit itself holds a code and its sign. -/
theorem signedCode_fields {signBit code : Nat} (negative : Bool) (bounded : code < signBit) :
    signedCode signBit negative code % (2 * signBit) % signBit = code ∧
      decide (signBit ≤ signedCode signBit negative code % (2 * signBit)) = negative := by
  have fits : signedCode signBit negative code < 2 * signBit := by
    unfold signedCode
    split <;> omega
  rw [Nat.mod_eq_of_lt fits]
  cases negative with
  | false => exact ⟨Nat.mod_eq_of_lt bounded, decide_eq_false (Nat.not_le.mpr bounded)⟩
  | true =>
    refine ⟨?_, decide_eq_true (Nat.le_add_right signBit code)⟩
    exact (Nat.add_mod_left signBit code).trans (Nat.mod_eq_of_lt bounded)

end ScriptState.Number

import ScriptState.Number.Binary32

/-!
# Binary64 numbers

Enough of the wider format to carry a `Binary32` through a medium that knows only binary64
numbers: `Binary32.widen` is exact on finite numbers, `Binary64.narrow` rounds.
-/

namespace ScriptState.Number

structure Binary64 where
  bits : UInt64
deriving DecidableEq, Inhabited

namespace Binary64

def infinityCode : Nat := 0x7ff0000000000000

def unitsPerOne : Nat := pow2 1074

def code (x : Binary64) : Nat := x.bits.toNat % 0x8000000000000000
def negative (x : Binary64) : Bool := 0x8000000000000000 ≤ x.bits.toNat

def ofCode (negative : Bool) (code : Nat) : Binary64 :=
  ⟨.ofNat (signedCode 0x8000000000000000 negative code)⟩

def isFinite (x : Binary64) : Bool := x.code < infinityCode

/-- The magnitude in units of `2 ^ -1074`. -/
def units (x : Binary64) : Nat := unitsOfCode 52 x.code

def round (negative : Bool) (num den : Nat) : Binary64 :=
  ofCode negative (min infinityCode (nearestCode 52 num den))

def ofDecimal (negative : Bool) (digits : Nat) (exponent : Int) : Binary64 :=
  round negative (digits * Nat.pow 10 exponent.toNat * unitsPerOne) (Nat.pow 10 (-exponent).toNat)

/-- Units of this format in one unit of binary32. -/
def perUnit32 : Nat := pow2 925

/-- The nearest binary32 number; a NaN keeps its sign and the bits that fit, and becomes quiet. -/
def narrow (x : Binary64) : Binary32 :=
  if x.isFinite then .round x.negative x.units perUnit32
  else if x.code = infinityCode then .infinity x.negative
  else .ofCode x.negative (0x7fc00000 ||| x.code / 0x20000000 % 0x400000)

end Binary64

/-- The same number in the wider format; a NaN keeps its sign and payload, and becomes quiet. -/
def Binary32.widen (x : Binary32) : Binary64 :=
  if x.isFinite then .round x.negative (x.units * Binary64.perUnit32) 1
  else if x.isInfinite then .ofCode x.negative Binary64.infinityCode
  else .ofCode x.negative (0x7ff8000000000000 ||| x.code % 0x400000 * 0x20000000)

/-! ### Widening loses nothing -/

namespace Binary32

open Binary64 (perUnit32)

variable {x : Binary32}

theorem exists_code_widen (finite : x.isFinite = true) :
    ∃ code, code < Binary64.infinityCode ∧ x.widen = .ofCode x.negative code ∧
      unitsOfCode 52 code = x.units * perUnit32 := by
  obtain ⟨s, q, split, normal, bounded⟩ := exists_significand 23 x.code
  have units : x.units * perUnit32 = q * pow2 (s + 925) := by
    rw [Binary32.units, split, unitsOfCode_significand normal bounded, perUnit32, Nat.mul_assoc,
      ← pow2_add]
  have fits : q < 2 * pow2 52 := Nat.lt_trans bounded (by decide)
  obtain ⟨code, same⟩ := exists_code (s := s + 925) fits
  have less : code < Binary64.infinityCode := by
    have below : x.units < unitsOfCode 23 infinityCode :=
      unitsOfCode_lt (by simpa [isFinite] using finite)
    have room : unitsOfCode 23 infinityCode * perUnit32 ≤ unitsOfCode 52 Binary64.infinityCode := by
      decide +kernel
    rw [← unitsOfCode_lt_iff (p := 52), same, ← units]
    exact Nat.lt_of_lt_of_le (Nat.mul_lt_mul_of_pos_right below (pow2_pos 925)) room
  refine ⟨code, less, ?_, same.trans units.symm⟩
  rw [widen, if_pos finite, Binary64.round, units, ← same, nearestCode_unitsOfCode,
    Nat.min_eq_right (Nat.le_of_lt less)]

/-- A finite number is the same number in the wider format. -/
theorem widen_exact (finite : x.isFinite = true) :
    x.widen.isFinite = true ∧ x.widen.negative = x.negative ∧
      x.widen.units = x.units * perUnit32 := by
  obtain ⟨code, less, same, units⟩ := exists_code_widen finite
  have fields : x.widen.code = code ∧ x.widen.negative = x.negative :=
    same ▸ signedCode_fields x.negative (Nat.lt_trans less (by decide))
  rw [Binary64.isFinite, Binary64.units, fields.1]
  exact ⟨decide_eq_true less, fields.2, units⟩

/-- The least number of the format is no longer among the subnormal ones. -/
example : (⟨0x00000001⟩ : Binary32).widen = ⟨0x36a0000000000000⟩ := by decide +kernel

theorem narrow_widen (finite : x.isFinite = true) : x.widen.narrow = x := by
  obtain ⟨stillFinite, sign, units⟩ := widen_exact finite
  have expand := nearestCode_expand 23 x.units 1 (pow2_pos 925)
  rw [Nat.one_mul] at expand
  rw [Binary64.narrow, if_pos stillFinite, sign, units, round, perUnit32, expand]
  exact round_units finite

end Binary32

end ScriptState.Number

import ScriptState.Number.Rounding

/-!
# Binary32 numbers

A `Binary32` is its 32 bits, so NaN payloads and the sign of zero are kept. The numeric reading
is exact: a finite number is a whole number of `units` of `2 ^ -149` with a sign.
-/

namespace ScriptState.Number

structure Binary32 where
  bits : UInt32
deriving DecidableEq, Inhabited

namespace Binary32

def infinityCode : Nat := 0x7f800000

def unitsPerOne : Nat := pow2 149

def code (x : Binary32) : Nat := x.bits.toNat % 0x80000000

/-- The sign bit, which zeros and NaNs have too. -/
def negative (x : Binary32) : Bool := 0x80000000 ≤ x.bits.toNat

def ofCode (negative : Bool) (code : Nat) : Binary32 :=
  ⟨.ofNat (signedCode 0x80000000 negative code)⟩

def isNaN (x : Binary32) : Bool := infinityCode < x.code
def isInfinite (x : Binary32) : Bool := x.code == infinityCode
def isFinite (x : Binary32) : Bool := x.code < infinityCode
def isZero (x : Binary32) : Bool := x.code == 0

def nan : Binary32 := ⟨0x7fc00000⟩

def zero (negative : Bool) : Binary32 := ofCode negative 0
def infinity (negative : Bool) : Binary32 := ofCode negative infinityCode

def units (x : Binary32) : Nat := unitsOfCode 23 x.code

def signedUnits (x : Binary32) : Int := if x.negative then -(x.units : Int) else x.units

/-- The number nearest to `num / den` units; from halfway past the greatest finite one, infinity. -/
def round (negative : Bool) (num den : Nat) : Binary32 :=
  ofCode negative (min infinityCode (nearestCode 23 num den))

def ofInt (n : Int) : Binary32 := round (n < 0) (n.natAbs * unitsPerOne) 1

/-- Numeric equality: the two zeros are equal, a NaN equals nothing. -/
def numericallyEqual (a b : Binary32) : Bool :=
  !a.isNaN && !b.isNaN && a.signedUnits == b.signedUnits

/-! ### Arithmetic: the exact result, rounded -/

def negate (x : Binary32) : Binary32 := ofCode (!x.negative) x.code

/-- The sum. An exact zero is negative only if both terms are. -/
def add (a b : Binary32) : Binary32 :=
  if a.isNaN || b.isNaN then nan
  else if a.isInfinite then
    if b.isInfinite && a.negative != b.negative then nan else a
  else if b.isInfinite then b
  else
    let sum := a.signedUnits + b.signedUnits
    if sum = 0 then zero (a.negative && b.negative) else round (sum < 0) sum.natAbs 1

def sub (a b : Binary32) : Binary32 := add a b.negate

/-- The product. Zero times infinity is no number. -/
def mul (a b : Binary32) : Binary32 :=
  let negative := a.negative != b.negative
  if a.isNaN || b.isNaN then nan
  else if a.isInfinite || b.isInfinite then
    if a.isZero || b.isZero then nan else infinity negative
  else round negative (a.units * b.units) unitsPerOne

/-- The quotient. A zero divisor gives an infinity, and zero by zero or infinity by infinity no
number. -/
def div (a b : Binary32) : Binary32 :=
  let negative := a.negative != b.negative
  if a.isNaN || b.isNaN then nan
  else if a.isInfinite then
    if b.isInfinite then nan else infinity negative
  else if b.isInfinite then zero negative
  else if b.isZero then
    if a.isZero then nan else infinity negative
  else round negative (a.units * unitsPerOne) b.units

instance : Neg Binary32 := ⟨negate⟩
instance : Add Binary32 := ⟨add⟩
instance : Sub Binary32 := ⟨sub⟩
instance : Mul Binary32 := ⟨mul⟩
instance : Div Binary32 := ⟨div⟩

/-! ### Bits, codes and signs -/

theorem code_lt (x : Binary32) : x.code < 0x80000000 := Nat.mod_lt _ (by decide)

theorem code_ofCode {negative : Bool} {code : Nat} (bounded : code < 0x80000000) :
    (ofCode negative code).code = code :=
  (signedCode_fields negative bounded).1

theorem negative_ofCode {negative : Bool} {code : Nat} (bounded : code < 0x80000000) :
    (ofCode negative code).negative = negative :=
  (signedCode_fields negative bounded).2

theorem ofCode_eta (x : Binary32) : ofCode x.negative x.code = x := by
  obtain ⟨bits⟩ := x
  have less := bits.toNat_lt
  simp only [ofCode, signedCode, negative, code, decide_eq_true_eq, Binary32.mk.injEq]
  apply UInt32.toNat_inj.mp
  split <;> simp <;> omega

theorem ext_code {a b : Binary32} (sign : a.negative = b.negative) (code : a.code = b.code) :
    a = b := by
  rw [← ofCode_eta a, ← ofCode_eta b, sign, code]

theorem round_units {x : Binary32} (finite : x.isFinite = true) :
    round x.negative x.units 1 = x := by
  have less : x.code < infinityCode := by simpa [isFinite] using finite
  rw [round, units, nearestCode_unitsOfCode, Nat.min_eq_right (Nat.le_of_lt less), ofCode_eta]

end Binary32

end ScriptState.Number

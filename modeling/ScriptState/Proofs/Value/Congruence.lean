import ScriptState.Proofs.Value.Concatenation
import ScriptState.Proofs.Value.Keys

/-!
# Operators on equal operands

Scripts take the two zeros for equal, and all NaNs. `respects_equality` says how far an operator can
tell them apart after all: a quotient shows the sign of a zero that divides, and a text the sign of
a zero that is appended. Everything else an operator yields is equal for equal operands.
-/

namespace ScriptState

open Number (Binary32)

/-! ### Zeros and NaNs in float arithmetic -/

namespace Number.Binary32

/-- Numbers that scripts take for equal. -/
inductive Alike : Binary32 → Binary32 → Prop
  | same (x : Binary32) : Alike x x
  | zeros (negative : Bool) : Alike (zero negative) (zero !negative)
  | nans {x y : Binary32} (left : x.isNaN = true) (right : y.isNaN = true) : Alike x y

variable {x y z : Binary32}

theorem exists_zero (none : x.isZero = true) : ∃ negative, x = zero negative := by
  refine ⟨x.negative, ?_⟩
  have code : x.code = 0 := beq_iff_eq.mp none
  rw [zero, ← code, ofCode_eta]

theorem isZero_zero (negative : Bool) : (zero negative).isZero = true := by
  cases negative <;> decide

theorem isNaN_zero (negative : Bool) : (zero negative).isNaN = false :=
  not_isNaN_of_isZero (isZero_zero negative)

theorem isInfinite_zero (negative : Bool) : (zero negative).isInfinite = false := by
  cases negative <;> decide

theorem negative_zero (negative : Bool) : (zero negative).negative = negative :=
  negative_ofCode (by decide)

theorem units_zero (negative : Bool) : (zero negative).units = 0 :=
  isZero_iff.mp (isZero_zero negative)

theorem signedUnits_zero (negative : Bool) : (zero negative).signedUnits = 0 := by
  simp [signedUnits, units_zero]

theorem alike_zeros (m n : Bool) : Alike (zero m) (zero n) := by
  by_cases signs : n = m
  · rw [signs]
    exact .same _
  · rw [Bool.eq_not_of_ne signs]
    exact .zeros m

theorem alike_iff : Alike x y ↔ (Value.float x == Value.float y) = true := by
  rw [Value.beq_iff]
  constructor
  · intro alike
    cases alike with
    | same => exact .inl rfl
    | zeros m => exact .inr ⟨_, _, rfl, rfl, .inl ⟨isZero_zero m, isZero_zero !m⟩⟩
    | nans left right => exact .inr ⟨x, y, rfl, rfl, .inr ⟨left, right⟩⟩
  · intro equal
    obtain same | ⟨x, y, ⟨⟩, ⟨⟩, ⟨left, right⟩ | ⟨left, right⟩⟩ := equal
    · cases same
      exact .same x
    · obtain ⟨m, rfl⟩ := exists_zero left
      obtain ⟨n, rfl⟩ := exists_zero right
      exact alike_zeros m n
    · exact .nans left right

theorem Alike.trans (first : Alike x y) (second : Alike y z) : Alike x z :=
  alike_iff.mpr (BEq.trans (alike_iff.mp first) (alike_iff.mp second))

theorem round_zero {den : Nat} (negative : Bool) (positive : 0 < den) :
    round negative 0 den = zero negative := by
  have nothing : roundHalfEven 0 (den * pow2 0) = 0 := by
    have divided : roundHalfEven (0 * (den * pow2 0)) (den * pow2 0) = 0 :=
      roundHalfEven_mul 0 (Nat.mul_pos positive (pow2_pos 0))
    rwa [Nat.zero_mul] at divided
  have code : nearestCode 23 0 den = 0 := by
    have whole : lostBits 23 (0 / den) = 0 := by simp [lostBits]
    rw [nearestCode, whole, nothing, Nat.zero_mul]
  rw [round, code]
  rfl

theorem units_pos (nonzero : x.isZero = false) : 0 < x.units := by
  refine Nat.pos_of_ne_zero fun none => ?_
  rw [isZero_iff.mpr none] at nonzero
  cases nonzero

theorem add_comm (x y : Binary32) : x + y = y + x := by
  show add x y = add y x
  unfold add
  rw [Bool.or_comm y.isNaN, Int.add_comm y.signedUnits, Bool.and_comm y.negative]
  by_cases left : x.isInfinite = true
  · by_cases right : y.isInfinite = true
    · by_cases sign : x.negative = y.negative
      · have same : x = y := by
          unfold isInfinite at left right
          exact ext_code sign ((beq_iff_eq.mp left).trans (beq_iff_eq.mp right).symm)
        rw [same]
      · simp [left, right, sign, Ne.symm sign]
    · simp [left, right]
  · simp [left]

theorem mul_comm (x y : Binary32) : x * y = y * x := by
  show mul x y = mul y x
  unfold mul
  rw [Bool.or_comm y.isNaN, Bool.or_comm y.isInfinite, Bool.or_comm y.isZero, Nat.mul_comm y.units,
    bne_comm]

theorem isNaN_negate (x : Binary32) : x.negate.isNaN = x.isNaN := by
  rw [isNaN, negate, code_ofCode x.code_lt, isNaN]

theorem negate_zero (negative : Bool) : (zero negative).negate = zero !negative := by
  cases negative <;> decide

theorem zero_add_alike (m n : Bool) (y : Binary32) : Alike (zero m + y) (zero n + y) := by
  show Alike (add (zero m) y) (add (zero n) y)
  simp only [add, isNaN_zero, isInfinite_zero, signedUnits_zero, Bool.false_or, Bool.false_eq_true,
    if_false]
  split
  · exact .same _
  split
  · exact .same _
  split
  · exact alike_zeros _ _
  · exact .same _

/-- The sums may be the two zeros. -/
example : zero true + zero true = zero true ∧ zero false + zero true = zero false := by
  decide +kernel

theorem zero_mul_alike (m n : Bool) (y : Binary32) : Alike (zero m * y) (zero n * y) := by
  show Alike (mul (zero m) y) (mul (zero n) y)
  simp only [mul, isNaN_zero, isInfinite_zero, isZero_zero, units_zero, negative_zero,
    Bool.false_or, Bool.true_or, if_true, Nat.zero_mul]
  split
  · exact .same _
  split
  · exact .same _
  · have positive : 0 < unitsPerOne := pow2_pos 149
    rw [round_zero _ positive, round_zero _ positive]
    exact alike_zeros _ _

theorem zero_div_alike (m n : Bool) (y : Binary32) : Alike (zero m / y) (zero n / y) := by
  show Alike (div (zero m) y) (div (zero n) y)
  simp only [div, isNaN_zero, isInfinite_zero, isZero_zero, units_zero, negative_zero,
    Bool.false_or, Bool.false_eq_true, if_true, if_false, Nat.zero_mul]
  split
  · exact .same _
  split
  · exact alike_zeros _ _
  split
  · exact .same _
  · rename_i nonzero
    have positive := units_pos (Bool.eq_false_iff.mpr nonzero)
    rw [round_zero _ positive, round_zero _ positive]
    exact alike_zeros _ _

/-- Divided by a zero, what is neither zero nor NaN becomes infinite, with the sign of the
quotient. -/
theorem div_zero (nonzero : x.isZero = false) (number : x.isNaN = false) (negative : Bool) :
    x / zero negative = infinity (x.negative != negative) := by
  show div x (zero negative) = _
  simp only [div, isNaN_zero, isInfinite_zero, isZero_zero, negative_zero, nonzero, number,
    Bool.or_self, Bool.false_eq_true, if_true, if_false, ite_self]

theorem div_zero_of_isZero (none : x.isZero = true) (negative : Bool) :
    x / zero negative = nan := by
  obtain ⟨sign, rfl⟩ := exists_zero none
  show div (zero sign) (zero negative) = _
  simp only [div, isNaN_zero, isInfinite_zero, isZero_zero, Bool.or_self, Bool.false_eq_true,
    if_true, if_false]

end Number.Binary32

/-- The two zeros, in either order. -/
def Value.OppositeZeros (v w : Value) : Prop :=
  ∃ negative, v = .float (.zero negative) ∧ w = .float (.zero !negative)

namespace Arithmetic

variable {op : Arithmetic} {x y x' y' : Binary32}

theorem onFloats_of_isNaN (op : Arithmetic) (either : (x.isNaN || y.isNaN) = true) :
    op.onFloats x y = .nan := by
  cases op with
  | subtraction =>
    have negated : (x.isNaN || y.negate.isNaN) = true := by rwa [Binary32.isNaN_negate]
    exact if_pos negated
  | addition | multiplication | division => exact if_pos either

theorem onFloats_alike_left (op : Arithmetic) (y : Binary32) (alike : x.Alike x') :
    (op.onFloats x y).Alike (op.onFloats x' y) := by
  cases alike with
  | same => exact .same _
  | zeros m =>
    cases op with
    | addition => exact Binary32.zero_add_alike m (!m) y
    | subtraction => exact Binary32.zero_add_alike m (!m) y.negate
    | multiplication => exact Binary32.zero_mul_alike m (!m) y
    | division => exact Binary32.zero_div_alike m (!m) y
  | nans left right =>
    rw [op.onFloats_of_isNaN (by simp [left]), op.onFloats_of_isNaN (by simp [right])]
    exact .same _

theorem onFloats_alike_right (op : Arithmetic) (x : Binary32) (alike : y.Alike y')
    (apart : op = division → x.isZero = false → x.isNaN = false →
      ¬(Value.float y).OppositeZeros (.float y')) :
    (op.onFloats x y).Alike (op.onFloats x y') := by
  cases alike with
  | same => exact .same _
  | nans left right =>
    rw [op.onFloats_of_isNaN (by simp [left]), op.onFloats_of_isNaN (by simp [right])]
    exact .same _
  | zeros m =>
    cases op with
    | addition =>
      rw [onFloats, onFloats, x.add_comm, x.add_comm]
      exact Binary32.zero_add_alike m (!m) x
    | subtraction =>
      show (x + (Binary32.zero m).negate).Alike (x + (Binary32.zero !m).negate)
      rw [x.add_comm, x.add_comm, Binary32.negate_zero, Binary32.negate_zero]
      exact Binary32.zero_add_alike (!m) (!!m) x
    | multiplication =>
      rw [onFloats, onFloats, x.mul_comm, x.mul_comm]
      exact Binary32.zero_mul_alike m (!m) x
    | division =>
      cases number : x.isNaN with
      | true =>
        rw [onFloats_of_isNaN _ (by simp [number]), onFloats_of_isNaN _ (by simp [number])]
        exact .same _
      | false =>
        cases none : x.isZero with
        | true =>
          rw [onFloats, onFloats, Binary32.div_zero_of_isZero none,
            Binary32.div_zero_of_isZero none]
          exact .same _
        | false => exact absurd ⟨m, rfl, rfl⟩ (apart rfl none number)

end Arithmetic

/-! ### What operators read of equal values -/

namespace Value

variable {v w : Value}

theorem isFloat_eq_of_beq (equal : (v == w) = true) : v.isFloat = w.isFloat := by
  rw [isFloat, kind_eq_of_beq equal, isFloat]

theorem isStr_eq_of_beq (equal : (v == w) = true) : v.isStr = w.isStr := by
  rw [isStr, kind_eq_of_beq equal, isStr]

theorem intD_eq_of_beq (equal : (v == w) = true) (default : Int32) :
    v.intD default = w.intD default := by
  obtain rfl | ⟨x, y, rfl, rfl, -⟩ := beq_iff.mp equal
  · rfl
  · rfl

theorem boolD_eq_of_beq (equal : (v == w) = true) (default : Bool) :
    v.boolD default = w.boolD default := by
  obtain rfl | ⟨x, y, rfl, rfl, -⟩ := beq_iff.mp equal
  · rfl
  · rfl

theorem promote_alike (equal : (v == w) = true) : v.promote.Alike w.promote := by
  obtain rfl | ⟨x, y, rfl, rfl, -⟩ := beq_iff.mp equal
  · exact .same _
  · exact Binary32.alike_iff.mpr equal

theorem not_oppositeZeros_self : ¬v.OppositeZeros v := by
  rintro ⟨negative, rfl, signs⟩
  cases negative <;> exact absurd signs (by decide)

theorem not_oppositeZeros_of_isStr (isStr : v.isStr = true) : ¬v.OppositeZeros w := by
  rintro ⟨negative, rfl, -⟩
  cases isStr

theorem oppositeZeros_of_promote (equal : (v == w) = true)
    (opposite : (float v.promote).OppositeZeros (float w.promote)) : v.OppositeZeros w := by
  obtain rfl | ⟨x, y, rfl, rfl, -⟩ := beq_iff.mp equal
  · exact absurd opposite not_oppositeZeros_self
  · exact opposite

theorem text_eq_of_beq (equal : (v == w) = true) (apart : ¬v.OppositeZeros w) :
    v.text = w.text := by
  cases v with
  | float x =>
    cases w with
    | float y =>
      cases Binary32.alike_iff.mpr equal with
      | same => rfl
      | zeros m => exact absurd ⟨m, rfl, rfl⟩ apart
      | nans left right => exact (if_pos left).trans (if_pos right).symm
    | _ => cases equal
  | _ =>
    obtain rfl | ⟨x, y, ⟨⟩, -⟩ := beq_iff.mp equal
    rfl

end Value

/-! ### Results that differ -/

/-- The same failure, or equal values. -/
inductive SameResult : Except EvalError Value → Except EvalError Value → Prop
  | failure (e : EvalError) : SameResult (.error e) (.error e)
  | value {v w : Value} (equal : (v == w) = true) : SameResult (.ok v) (.ok w)

theorem SameResult.refl (r : Except EvalError Value) : SameResult r r := by
  cases r with
  | error e => exact .failure e
  | ok v => exact .value BEq.rfl

namespace BinaryOp

variable {op : BinaryOp} {a a' b b' : Value}

/-- Zeros of opposite sign divide a number that is neither zero nor NaN. -/
def SplitsQuotient (op : BinaryOp) (a b b' : Value) : Prop :=
  op = arithmetic .division ∧ a.promote.isZero = false ∧ a.promote.isNaN = false ∧
    b.OppositeZeros b'

/-- Zeros of opposite sign are appended to a string, or have one appended to them. -/
def SplitsText (op : BinaryOp) (a a' b b' : Value) : Prop :=
  op = arithmetic .addition ∧
    ((a.isStr = true ∧ b.OppositeZeros b') ∨ (b.isStr = true ∧ a.OppositeZeros a'))

def zeroText (negative : Bool) : String := if negative then "-0" else "0"

theorem text_zero (negative : Bool) : (Value.float (.zero negative)).text = zeroText negative := by
  cases negative <;> decide +kernel

theorem apply_of_splitsQuotient (left : (a == a') = true) (split : SplitsQuotient op a b b') :
    ∃ negative, op.apply a b = .ok (.float (.infinity negative)) ∧
      op.apply a' b' = .ok (.float (.infinity !negative)) := by
  obtain ⟨rfl, nonzero, number, m, rfl, rfl⟩ := split
  have same : a'.promote = a.promote := by
    have alike := Value.promote_alike left
    generalize a.promote = x at *
    generalize a'.promote = y at *
    cases alike with
    | same => rfl
    | zeros n => exact absurd (Binary32.isZero_zero n) (Bool.eq_false_iff.mp nonzero)
    | nans isNaN => exact absurd isNaN (Bool.eq_false_iff.mp number)
  have quotient (v : Value) (n : Bool) : (arithmetic .division).apply v (.float (.zero n)) =
      .ok (.float (v.promote / .zero n)) := by
    have isFloat : (v.isFloat || (Value.float (.zero n)).isFloat) = true := Bool.or_true _
    show Arithmetic.division.apply v (.float (.zero n)) = _
    unfold Arithmetic.apply
    rw [if_neg (by simp), if_pos isFloat]
    rfl
  refine ⟨a.promote.negative != m, ?_, ?_⟩
  · rw [quotient, Binary32.div_zero nonzero number]
  · rw [quotient, same, Binary32.div_zero nonzero number, Bool.bne_not]

theorem apply_of_splitsText (left : (a == a') = true) (right : (b == b') = true)
    (split : SplitsText op a a' b b') :
    ∃ front back negative, op.apply a b = .ok (.str (front ++ zeroText negative ++ back)) ∧
      op.apply a' b' = .ok (.str (front ++ zeroText (!negative) ++ back)) := by
  obtain ⟨rfl, ⟨isStr, m, rfl, rfl⟩ | ⟨isStr, m, rfl, rfl⟩⟩ := split
  · have same := Value.text_eq_of_beq left (Value.not_oppositeZeros_of_isStr isStr)
    have other : a'.isStr = true := (Value.isStr_eq_of_beq left).symm.trans isStr
    refine ⟨a.text, "", m, ?_, ?_⟩
    · rw [apply_addition (by simp [isStr]), text_zero, String.append_empty]
    · rw [apply_addition (by simp [other]), text_zero, String.append_empty, same]
  · have same := Value.text_eq_of_beq right (Value.not_oppositeZeros_of_isStr isStr)
    have other : b'.isStr = true := (Value.isStr_eq_of_beq right).symm.trans isStr
    refine ⟨"", b.text, m, ?_, ?_⟩
    · rw [apply_addition (by simp [isStr]), text_zero, String.empty_append]
    · rw [apply_addition (by simp [other]), text_zero, String.empty_append, same]

theorem infinities_differ (negative : Bool) : ¬SameResult (.ok (.float (.infinity negative)))
    (.ok (.float (.infinity !negative))) := by
  intro same
  cases same with
  | value equal => cases negative <;> exact absurd equal (by decide)

theorem texts_differ (front back : String) (negative : Bool) :
    ¬SameResult (.ok (.str (front ++ zeroText negative ++ back)))
      (.ok (.str (front ++ zeroText (!negative) ++ back))) := by
  intro same
  cases same with
  | value equal =>
    have lengths := congrArg String.length (beq_iff_eq.mp equal)
    simp only [String.length_append, Nat.add_right_cancel_iff, Nat.add_left_cancel_iff] at lengths
    cases negative <;> exact absurd lengths (by decide)

/-! ### Results that are the same -/

theorem arithmetic_sameResult {op : Arithmetic} (left : (a == a') = true) (right : (b == b') = true)
    (quotient : ¬SplitsQuotient (arithmetic op) a b b')
    (text : ¬SplitsText (arithmetic op) a a' b b') :
    SameResult (op.apply a b) (op.apply a' b') := by
  unfold Arithmetic.apply
  rw [← Value.isStr_eq_of_beq left, ← Value.isStr_eq_of_beq right, ← Value.isFloat_eq_of_beq left,
    ← Value.isFloat_eq_of_beq right]
  split
  · rename_i concatenates
    obtain ⟨rfl, isStr⟩ := concatenates
    obtain isStr | isStr := Bool.or_eq_true_iff.mp isStr
    · have apart : ¬b.OppositeZeros b' := fun zeros => text ⟨rfl, .inl ⟨isStr, zeros⟩⟩
      rw [Value.text_eq_of_beq left (Value.not_oppositeZeros_of_isStr isStr),
        Value.text_eq_of_beq right apart]
      exact .refl _
    · have apart : ¬a.OppositeZeros a' := fun zeros => text ⟨rfl, .inr ⟨isStr, zeros⟩⟩
      rw [Value.text_eq_of_beq left apart,
        Value.text_eq_of_beq right (Value.not_oppositeZeros_of_isStr isStr)]
      exact .refl _
  split
  · have first := op.onFloats_alike_right a.promote (Value.promote_alike right)
      fun divides nonzero number zeros => quotient ⟨congrArg arithmetic divides, nonzero, number,
        Value.oppositeZeros_of_promote right zeros⟩
    have second := op.onFloats_alike_left b'.promote (Value.promote_alike left)
    exact .value (Binary32.alike_iff.mp (first.trans second))
  · rw [Value.intD_eq_of_beq left, Value.intD_eq_of_beq right]
    exact .refl _

/-- Whether two operands are equal does not depend on which of equal ones they are. -/
theorem beq_congr (left : (a == a') = true) (right : (b == b') = true) :
    (a == b) = (a' == b') := by
  rw [BEq.congr_left left, BEq.congr_right right]

theorem logic_congr (op : Logic) (left : (a == a') = true) (right : (b == b') = true) :
    op.apply a b = op.apply a' b' := by
  have first := Value.boolD_eq_of_beq left false
  have second := Value.boolD_eq_of_beq right false
  cases op with
  | and | or => simp only [Logic.apply, Value.boolAnd, Value.boolOr, first, second]
  | xor => simp only [Logic.apply, Value.boolXor_eq, first, second]

theorem sameResult_iff (left : (a == a') = true) (right : (b == b') = true) :
    SameResult (op.apply a b) (op.apply a' b') ↔
      ¬SplitsQuotient op a b b' ∧ ¬SplitsText op a a' b b' := by
  constructor
  · intro same
    refine ⟨fun split => ?_, fun split => ?_⟩
    · obtain ⟨negative, first, second⟩ := apply_of_splitsQuotient left split
      rw [first, second] at same
      exact infinities_differ negative same
    · obtain ⟨front, back, negative, first, second⟩ := apply_of_splitsText left right split
      rw [first, second] at same
      exact texts_differ front back negative same
  · intro ⟨quotient, text⟩
    cases op with
    | arithmetic op => exact arithmetic_sameResult left right quotient text
    | logic op =>
      have same : (logic op).apply a b = (logic op).apply a' b' :=
        congrArg Except.ok (logic_congr op left right)
      rw [same]
      exact .refl _
    | equal =>
      unfold apply
      rw [beq_congr left right]
      exact .refl _
    | notEqual =>
      unfold apply
      rw [bne, beq_congr left right]
      exact .refl _

/-- On equal operands an operator fails for the same reason or yields equal values, but for two
cases. Numbers that are neither zero nor NaN, divided by the one zero and by the other, become
infinities of opposite sign; and the texts of the two zeros, joined with a string, differ by the
minus sign. -/
theorem respects_equality (op : BinaryOp) (left : (a == a') = true) (right : (b == b') = true) :
    (SameResult (op.apply a b) (op.apply a' b') ↔
        ¬SplitsQuotient op a b b' ∧ ¬SplitsText op a a' b b') ∧
      (SplitsQuotient op a b b' → ∃ negative,
        op.apply a b = .ok (.float (.infinity negative)) ∧
          op.apply a' b' = .ok (.float (.infinity !negative))) ∧
      (SplitsText op a a' b b' → ∃ front back negative,
        op.apply a b = .ok (.str (front ++ zeroText negative ++ back)) ∧
          op.apply a' b' = .ok (.str (front ++ zeroText (!negative) ++ back))) :=
  ⟨sameResult_iff left right, apply_of_splitsQuotient left, apply_of_splitsText left right⟩

theorem respects_equality_zeros :
    let plus : Value := .float (.zero false)
    let minus : Value := .float (.zero true)
    let quiet : Value := .float .nan
    let signaling : Value := .float ⟨0xff800001⟩
    SameResult ((arithmetic .multiplication).apply plus quiet)
        ((arithmetic .multiplication).apply minus signaling) ∧
      (∃ negative, (arithmetic .division).apply (.int 1) plus = .ok (.float (.infinity negative)) ∧
        (arithmetic .division).apply (.int 1) minus = .ok (.float (.infinity !negative))) ∧
      ¬SameResult ((arithmetic .addition).apply minus (.str "m"))
        ((arithmetic .addition).apply plus (.str "m")) := by
  intro plus minus quiet signaling
  have zeros : (plus == minus) = true := by decide
  have nans : (quiet == signaling) = true := by decide
  have same : (.int 1 == Value.int 1) = true := rfl
  have text : (.str "m" == Value.str "m") = true := rfl
  have product := respects_equality (arithmetic .multiplication) zeros nans
  have quotient := respects_equality (arithmetic .division) same zeros
  have sum := respects_equality (arithmetic .addition) (BEq.symm zeros) text
  refine ⟨product.1.mpr ⟨nofun, nofun⟩, quotient.2.1 ?_, fun equal => (sum.1.mp equal).2 ?_⟩
  · exact ⟨rfl, by decide +kernel, by decide +kernel, false, rfl, rfl⟩
  · exact ⟨rfl, .inr ⟨rfl, true, rfl, rfl⟩⟩

end BinaryOp

end ScriptState

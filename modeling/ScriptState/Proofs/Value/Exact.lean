import ScriptState.Value.Operator

/-!
# Whole-number arithmetic

Arithmetic that reads both operands as whole numbers yields the exact result, or it fails because
there is none or because it has no room in 32 bits. `exact_or_fails` says so for every operator and
that nothing else fails.
-/

namespace ScriptState

/-- The whole number that arithmetic reads in a value: a bool or a string counts as zero. -/
def Value.whole : Value → Int
  | .int n => n.toInt
  | _ => 0

/-- The numbers that have room in 32 bits with a sign. -/
def InInt32 (n : Int) : Prop := -0x80000000 ≤ n ∧ n ≤ 0x7fffffff

instance (n : Int) : Decidable (InInt32 n) := inferInstanceAs (Decidable (_ ∧ _))

namespace Arithmetic

/-- Whether the operator reads the value as a whole number. A float makes it float arithmetic, and
a string makes an addition a concatenation. -/
def readsWhole (op : Arithmetic) (v : Value) : Bool :=
  !v.isFloat && (op ≠ addition || !v.isStr)

/-- The exact result on whole numbers. What a quotient leaves over is smaller than the divisor and,
if it is not zero, has the sign of the dividend. -/
def HasResult : Arithmetic → Int → Int → Int → Prop
  | addition, a, b, n => n = a + b
  | subtraction, a, b, n => n = a - b
  | multiplication, a, b, n => n = a * b
  | division, a, b, n =>
    ∃ m : Int, a = n * b + m ∧ m.natAbs < b.natAbs ∧ (m = 0 ∨ m.sign = a.sign)

variable {op : Arithmetic} {l r v : Value} {e : EvalError} {a b n : Int}

/-! ### Exact results -/

theorem tdiv_eq_iff (nonzero : b ≠ 0) : a.tdiv b = n ↔ division.HasResult a b n := by
  constructor
  · intro quotient
    subst quotient
    refine ⟨a.tmod b, ?_, ?_, ?_⟩
    · rw [Int.mul_comm]
      exact (Int.mul_tdiv_add_tmod a b).symm
    · rw [Int.natAbs_tmod]
      exact Nat.mod_lt _ (Int.natAbs_pos.mpr nonzero)
    · rw [← Int.sign_eq_zero_iff_zero, Int.sign_tmod]
      split
      · exact .inl rfl
      · exact .inr rfl
  · intro ⟨m, whole, smaller, sign⟩
    have parts : m + b * n = a := by
      rw [whole, Int.mul_comm, Int.add_comm]
    -- The remainder lies on the side of zero that the dividend is on.
    rcases Int.le_total 0 a with positive | negative
    · have above : 0 ≤ m := by
        rcases sign with zero | same
        · omega
        · exact Int.sign_nonneg_iff.mp (same ▸ Int.sign_nonneg_iff.mpr positive)
      exact ((Int.tdiv_tmod_unique positive nonzero).mpr ⟨parts, above, by omega⟩).1
    · have below : m ≤ 0 := by
        rcases sign with zero | same
        · omega
        · exact Int.sign_nonpos_iff.mp (same ▸ Int.sign_nonpos_iff.mpr negative)
      exact ((Int.tdiv_tmod_unique' negative nonzero).mpr ⟨parts, by omega, below⟩).1

theorem hasResult_iff :
    op.HasResult a b n ↔ ¬(op = division ∧ b = 0) ∧ op.exact a b = n := by
  cases op with
  | division =>
    by_cases zero : b = 0
    · subst zero
      refine iff_of_false ?_ fun ⟨defined, _⟩ => defined ⟨rfl, rfl⟩
      intro ⟨m, _, smaller, _⟩
      exact Nat.not_lt_zero _ smaller
    · rw [← tdiv_eq_iff zero]
      exact (and_iff_right fun ⟨_, absurd⟩ => zero absurd).symm
  | addition | subtraction | multiplication =>
    refine Iff.trans eq_comm (and_iff_right ?_).symm
    intro ⟨other, _⟩
    cases other

/-! ### Room in 32 bits -/

theorem int32?_eq_some_iff {k : Int32} : int32? n = some k ↔ k.toInt = n := by
  constructor
  · intro found
    unfold int32? at found
    split at found
    · cases found
      exact Int32.toInt_ofInt_of_le (by omega) (by omega)
    · cases found
  · intro same
    subst same
    exact int32?_toInt k

theorem int32?_eq_none_iff : int32? n = none ↔ ¬InInt32 n := by
  unfold int32? InInt32
  split
  · exact iff_of_false (Option.some_ne_none _) fun outside => outside (by omega)
  · exact iff_of_true rfl (by omega)

theorem toInt_eq_zero_iff {k : Int32} : k.toInt = 0 ↔ k = 0 := Int32.toInt_inj (y := 0)

theorem onInts_eq_ok_iff {x y : Int32} :
    op.onInts x y = .ok v ↔ ∃ k : Int32, v = .int k ∧ op.HasResult x.toInt y.toInt k.toInt := by
  simp only [hasResult_iff, toInt_eq_zero_iff]
  unfold onInts
  split
  · rename_i undefined
    exact iff_of_false nofun fun ⟨_, _, defined, _⟩ => defined undefined
  · rename_i defined
    cases bounded : int32? (op.exact x.toInt y.toInt) with
    | none =>
      refine iff_of_false nofun fun ⟨k, _, _, exact⟩ => ?_
      rw [int32?_eq_some_iff.mpr exact.symm] at bounded
      cases bounded
    | some k =>
      have exact := int32?_eq_some_iff.mp bounded
      constructor
      · intro same
        cases same
        exact ⟨k, rfl, defined, exact.symm⟩
      · intro ⟨j, same, _, other⟩
        rw [same, Int32.toInt_inj.mp (exact.trans other)]

theorem onInts_eq_error_iff {x y : Int32} :
    op.onInts x y = .error e ↔
      (op = division ∧ y.toInt = 0 ∧ e = .divisionByZero) ∨
        ∃ n, op.HasResult x.toInt y.toInt n ∧ ¬InInt32 n ∧ e = .overflow op := by
  simp only [hasResult_iff, toInt_eq_zero_iff]
  unfold onInts
  split
  · rename_i undefined
    constructor
    · intro same
      cases same
      exact .inl ⟨undefined.1, undefined.2, rfl⟩
    · intro reason
      rcases reason with ⟨_, _, same⟩ | ⟨_, ⟨defined, _⟩, _⟩
      · rw [same]
      · exact absurd undefined defined
  · rename_i defined
    cases bounded : int32? (op.exact x.toInt y.toInt) with
    | some k =>
      refine iff_of_false nofun fun reason => ?_
      rcases reason with ⟨isDivision, zero, _⟩ | ⟨n, ⟨_, exact⟩, outside, _⟩
      · exact defined ⟨isDivision, zero⟩
      · rw [exact, int32?_eq_none_iff.mpr outside] at bounded
        cases bounded
    | none =>
      have outside := int32?_eq_none_iff.mp bounded
      constructor
      · intro same
        cases same
        exact .inr ⟨_, ⟨defined, rfl⟩, outside, rfl⟩
      · intro reason
        rcases reason with ⟨isDivision, zero, _⟩ | ⟨_, _, _, same⟩
        · exact absurd ⟨isDivision, zero⟩ defined
        · rw [same]

/-! ### Operands of any kind -/

theorem toInt_intD (v : Value) : (v.intD 0).toInt = v.whole := by
  cases v <;> rfl

theorem readsWhole_iff :
    op.readsWhole v = true ↔ v.isFloat = false ∧ (op = addition → v.isStr = false) := by
  unfold readsWhole
  simp only [Bool.and_eq_true, Bool.or_eq_true, Bool.not_eq_true', decide_eq_true_eq, ne_eq,
    ← Decidable.imp_iff_not_or]

theorem apply_of_readsWhole (left : op.readsWhole l = true) (right : op.readsWhole r = true) :
    op.apply l r = op.onInts (l.intD 0) (r.intD 0) := by
  obtain ⟨leftFloat, leftText⟩ := readsWhole_iff.mp left
  obtain ⟨rightFloat, rightText⟩ := readsWhole_iff.mp right
  have noText : ¬(op = addition ∧ (l.isStr || r.isStr) = true) := by
    intro ⟨isAddition, text⟩
    rw [leftText isAddition, rightText isAddition] at text
    cases text
  unfold apply
  rw [if_neg noText, leftFloat, rightFloat, Bool.or_false, if_neg Bool.false_ne_true]

/-- What is not read as whole numbers succeeds, and the result is not read as one either. -/
theorem apply_of_not_readsWhole (other : (op.readsWhole l && op.readsWhole r) = false) :
    ∃ v, op.apply l r = .ok v ∧ op.readsWhole v = false := by
  unfold apply
  split
  · rename_i text
    exact ⟨_, rfl, by rw [text.1]; rfl⟩
  · rename_i noText
    split
    · exact ⟨_, rfl, rfl⟩
    · rename_i noFloat
      simp only [Bool.or_eq_true, not_or, Bool.not_eq_true, not_and] at noText noFloat
      have left : op.readsWhole l = true :=
        readsWhole_iff.mpr ⟨noFloat.1, fun isAddition => (noText isAddition).1⟩
      have right : op.readsWhole r = true :=
        readsWhole_iff.mpr ⟨noFloat.2, fun isAddition => (noText isAddition).2⟩
      rw [left, right] at other
      cases other

theorem apply_eq_error_iff :
    op.apply l r = .error e ↔ op.readsWhole l = true ∧ op.readsWhole r = true ∧
      ((op = division ∧ r.whole = 0 ∧ e = .divisionByZero) ∨
        ∃ n, op.HasResult l.whole r.whole n ∧ ¬InInt32 n ∧ e = .overflow op) := by
  cases both : op.readsWhole l && op.readsWhole r with
  | false =>
    obtain ⟨v, succeeded, _⟩ := apply_of_not_readsWhole both
    rw [succeeded]
    refine iff_of_false nofun fun ⟨left, right, _⟩ => ?_
    rw [left, right] at both
    cases both
  | true =>
    obtain ⟨left, right⟩ := Bool.and_eq_true_iff.mp both
    rw [apply_of_readsWhole left right, onInts_eq_error_iff, toInt_intD, toInt_intD]
    exact ⟨fun reason => ⟨left, right, reason⟩, fun ⟨_, _, reason⟩ => reason⟩

theorem apply_eq_ok_iff (left : op.readsWhole l = true) (right : op.readsWhole r = true) :
    op.apply l r = .ok v ↔
      ∃ k : Int32, v = .int k ∧ op.HasResult l.whole r.whole k.toInt := by
  rw [apply_of_readsWhole left right, onInts_eq_ok_iff, toInt_intD, toInt_intD]

theorem apply_eq_ok_exact (left : op.readsWhole l = true) (right : op.readsWhole r = true)
    (defined : ¬(op = division ∧ r.whole = 0)) (bounded : InInt32 (op.exact l.whole r.whole)) :
    ∃ k : Int32, op.apply l r = .ok (.int k) ∧ k.toInt = op.exact l.whole r.whole := by
  cases found : int32? (op.exact l.whole r.whole) with
  | none => exact absurd bounded (int32?_eq_none_iff.mp found)
  | some k =>
    have exact := int32?_eq_some_iff.mp found
    refine ⟨k, (apply_eq_ok_iff left right).mpr ⟨k, rfl, ?_⟩, exact⟩
    exact hasResult_iff.mpr ⟨defined, exact.symm⟩

end Arithmetic

/-- An operator fails exactly if it is arithmetic that reads both operands as whole numbers and is
either a division by zero or has a result outside 32 bits. Whole numbers have one exact result
unless the second is zero and divides, and a result with room in 32 bits is what arithmetic
yields. -/
theorem BinaryOp.exact_or_fails (l r : Value) :
    (∀ (op : BinaryOp) (e : EvalError), op.apply l r = .error e ↔ ∃ a, op = .arithmetic a ∧
      a.readsWhole l = true ∧ a.readsWhole r = true ∧
        ((a = .division ∧ r.whole = 0 ∧ e = .divisionByZero) ∨
          ∃ n, a.HasResult l.whole r.whole n ∧ ¬InInt32 n ∧ e = .overflow a)) ∧
      ∀ a : Arithmetic, a.readsWhole l = true → a.readsWhole r = true →
        ¬(a = .division ∧ r.whole = 0) →
        ∃ n, (∀ m, a.HasResult l.whole r.whole m ↔ m = n) ∧
          (InInt32 n →
            ∃ k : Int32, (BinaryOp.arithmetic a).apply l r = .ok (.int k) ∧ k.toInt = n) := by
  constructor
  · intro op e
    cases op with
    | arithmetic a =>
      change a.apply l r = .error e ↔ _
      rw [Arithmetic.apply_eq_error_iff]
      constructor
      · intro reason
        exact ⟨a, rfl, reason⟩
      · intro ⟨_, same, reason⟩
        cases same
        exact reason
    | logic | equal | notEqual => exact iff_of_false nofun fun ⟨_, other, _⟩ => nomatch other
  · intro a left right defined
    refine ⟨a.exact l.whole r.whole, fun m => ?_, a.apply_eq_ok_exact left right defined⟩
    rw [Arithmetic.hasResult_iff, and_iff_right defined, eq_comm]

theorem BinaryOp.exact_or_fails_at_limits :
    let least : Value := .int (-0x80000000)
    (BinaryOp.arithmetic .multiplication).apply (.int (-1)) least =
        .error (.overflow .multiplication) ∧
      (BinaryOp.arithmetic .division).apply least (.int (-1)) = .error (.overflow .division) ∧
      (BinaryOp.arithmetic .division).apply least (.bool true) = .error .divisionByZero ∧
      ∃ k : Int32, (BinaryOp.arithmetic .division).apply (.int (-7)) (.int 2) = .ok (.int k) ∧
        k.toInt = -3 := by
  intro least
  have outside : ¬InInt32 0x80000000 := by decide
  refine ⟨?_, ?_, ?_, ?_⟩
  · exact ((exact_or_fails (.int (-1)) least).1 _ _).mpr
      ⟨.multiplication, rfl, rfl, rfl, .inr ⟨0x80000000, rfl, outside, rfl⟩⟩
  · exact ((exact_or_fails least (.int (-1))).1 _ _).mpr
      ⟨.division, rfl, rfl, rfl, .inr ⟨0x80000000, ⟨0, rfl, by decide, .inl rfl⟩, outside, rfl⟩⟩
  · exact ((exact_or_fails least (.bool true)).1 _ _).mpr
      ⟨.division, rfl, rfl, rfl, .inl ⟨rfl, rfl, rfl⟩⟩
  · obtain ⟨n, unique, yields⟩ :=
      (exact_or_fails (.int (-7)) (.int 2)).2 .division rfl rfl (by decide)
    have quotient : -3 = n := (unique (-3)).mp ⟨-1, rfl, by decide, .inr rfl⟩
    rw [← quotient] at yields
    exact yields (by decide)

end ScriptState

import Mathlib.Algebra.Ring.Int.Defs
import ScriptState.Proofs.Value.Exact

/-!
# Chained arithmetic

An operator put between the values of a list one after the other. `chain_exact` says that a chain
of arithmetic fails only while all values so far are whole numbers, and that each step of such a
chain is the exact result for all of them at once.
-/

namespace ScriptState

namespace BinaryOp

variable {op : BinaryOp} {acc next v : Value} {rest : List Value} {e : EvalError} {i : Nat}

theorem chain_of_ok (found : op.apply acc v = .ok next) :
    op.chain acc (v :: rest) = .ok next :: op.chain next rest := by
  simp only [chain, found]

theorem chain_of_error (failed : op.apply acc v = .error e) :
    op.chain acc (v :: rest) = [.error e] := by
  simp only [chain, failed]

/-- A chain has a step for each further value, unless one fails before. -/
theorem getElem?_chain_cases (acc : Value) (within : i < rest.length) :
    (∃ v, (op.chain acc rest)[i]? = some (.ok v)) ∨
      ∃ j ≤ i, ∃ e, (op.chain acc rest)[j]? = some (.error e) := by
  induction rest generalizing acc i with
  | nil => exact absurd within (Nat.not_lt_zero i)
  | cons v rest ih =>
    cases stepped : op.apply acc v with
    | error e =>
      rw [chain_of_error stepped]
      exact .inr ⟨0, Nat.zero_le i, e, rfl⟩
    | ok next =>
      rw [chain_of_ok stepped]
      cases i with
      | zero => exact .inl ⟨next, rfl⟩
      | succ i =>
        rcases ih next (Nat.lt_of_succ_lt_succ within) with found | ⟨j, before, failed⟩
        · exact .inl found
        · exact .inr ⟨j + 1, Nat.succ_le_succ before, failed⟩

end BinaryOp

namespace Arithmetic

variable {op : Arithmetic} {first next v : Value} {rest : List Value} {e : EvalError} {i : Nat}
  {ns : List Int}

/-! ### Values that are no whole numbers -/

theorem readsWhole_int (k : Int32) : op.readsWhole (.int k) = true :=
  readsWhole_iff.mpr ⟨rfl, fun _ => rfl⟩

theorem readsWhole_of_apply (found : op.apply first v = .ok next) :
    op.readsWhole next = (op.readsWhole first && op.readsWhole v) := by
  cases both : op.readsWhole first && op.readsWhole v with
  | false =>
    obtain ⟨other, succeeded, remains⟩ := apply_of_not_readsWhole both
    obtain rfl : other = next := Except.ok.inj (succeeded.symm.trans found)
    exact remains
  | true =>
    obtain ⟨left, right⟩ := Bool.and_eq_true_iff.mp both
    obtain ⟨k, rfl, _⟩ := (apply_eq_ok_iff left right).mp found
    exact readsWhole_int k

/-- Up to a step that fails, every value is read as a whole number. -/
theorem readsWhole_of_chain_error
    (failed : ((BinaryOp.arithmetic op).chain first rest)[i]? = some (.error e)) :
    ∀ v ∈ first :: rest.take (i + 1), op.readsWhole v = true := by
  induction rest generalizing first i with
  | nil => cases failed
  | cons v rest ih =>
    rw [List.take_succ_cons, List.forall_mem_cons, List.forall_mem_cons]
    cases stepped : (BinaryOp.arithmetic op).apply first v with
    | error reason =>
      obtain ⟨left, right, _⟩ := apply_eq_error_iff.mp stepped
      rw [BinaryOp.chain_of_error stepped] at failed
      cases i with
      | zero => exact ⟨left, right, List.forall_mem_nil _⟩
      | succ i => cases failed
    | ok next =>
      rw [BinaryOp.chain_of_ok stepped] at failed
      cases i with
      | zero => cases failed
      | succ i =>
        obtain ⟨accumulated, others⟩ := List.forall_mem_cons.mp (ih failed)
        rw [readsWhole_of_apply stepped] at accumulated
        obtain ⟨left, right⟩ := Bool.and_eq_true_iff.mp accumulated
        exact ⟨left, right, others⟩

/-! ### The exact result of a chain -/

/-- What the operator, without bounds, makes of a whole number and the further ones. -/
def total : Arithmetic → Int → List Int → Int
  | addition, a, ns => a + ns.sum
  | subtraction, a, ns => a - ns.sum
  | multiplication, a, ns => a * ns.prod
  | division, a, ns => a.tdiv ns.prod

/-- Why a chain that has come to the last of the further numbers fails there, if it does. -/
def fault? (op : Arithmetic) (a : Int) (ns : List Int) : Option EvalError :=
  if op = division ∧ ns.getLast? = some 0 then some .divisionByZero
  else if InInt32 (op.total a ns) then none
  else some (.overflow op)

theorem tdiv_tdiv (a b c : Int) : (a.tdiv b).tdiv c = a.tdiv (b * c) := by
  have unsigned (k m n : Nat) : ((k : Int).tdiv m).tdiv n = (k : Int).tdiv (m * n) := by
    rw [← Int.ofNat_tdiv, ← Int.ofNat_tdiv, Nat.div_div_eq_div_mul, Int.ofNat_tdiv,
      Int.natCast_mul]
  -- Each sign passes through the quotients, so only the magnitudes are left.
  obtain ⟨k, rfl | rfl⟩ := Int.eq_nat_or_neg a <;>
    obtain ⟨m, rfl | rfl⟩ := Int.eq_nat_or_neg b <;>
    obtain ⟨n, rfl | rfl⟩ := Int.eq_nat_or_neg c <;>
    simp only [Int.neg_tdiv, Int.tdiv_neg, Int.neg_mul, Int.mul_neg, Int.neg_neg, unsigned]

theorem total_cons (op : Arithmetic) (a b : Int) (ns : List Int) :
    op.total a (b :: ns) = op.total (op.exact a b) ns := by
  cases op with
  | addition => simp only [total, exact, List.sum_cons, Int.add_assoc]
  | subtraction =>
    simp only [total, exact, List.sum_cons]
    omega
  | multiplication => simp only [total, exact, List.prod_cons, Int.mul_assoc]
  | division => simp only [total, exact, List.prod_cons, tdiv_tdiv]

theorem total_singleton (op : Arithmetic) (a b : Int) : op.total a [b] = op.exact a b := by
  rw [total_cons]
  cases op with
  | addition => exact Int.add_zero _
  | subtraction => exact Int.sub_zero _
  | multiplication => exact Int.mul_one _
  | division => exact Int.tdiv_one _

theorem fault?_cons {a b : Int} (further : ns ≠ []) :
    op.fault? a (b :: ns) = op.fault? (op.exact a b) ns := by
  obtain ⟨c, ns, rfl⟩ := List.exists_cons_of_ne_nil further
  unfold fault?
  rw [List.getLast?_cons_cons, total_cons]

theorem fault?_singleton (op : Arithmetic) (a b : Int) :
    op.fault? a [b] = if op = division ∧ b = 0 then some .divisionByZero
      else if InInt32 (op.exact a b) then none else some (.overflow op) := by
  simp only [fault?, List.getLast?_singleton, Option.some_inj, total_singleton]

theorem apply_of_fault? (left : op.readsWhole first = true) (right : op.readsWhole v = true)
    (fault : op.fault? first.whole [v.whole] = some e) :
    (BinaryOp.arithmetic op).apply first v = .error e := by
  refine apply_eq_error_iff.mpr ⟨left, right, ?_⟩
  rw [fault?_singleton] at fault
  split at fault
  · rename_i undefined
    exact .inl ⟨undefined.1, undefined.2, (Option.some.inj fault).symm⟩
  · rename_i defined
    split at fault
    · cases fault
    · rename_i outside
      exact .inr ⟨_, hasResult_iff.mpr ⟨defined, rfl⟩, outside, (Option.some.inj fault).symm⟩

theorem apply_of_no_fault (left : op.readsWhole first = true) (right : op.readsWhole v = true)
    (faultless : op.fault? first.whole [v.whole] = none) :
    ∃ k : Int32, (BinaryOp.arithmetic op).apply first v = .ok (.int k) ∧
      k.toInt = op.exact first.whole v.whole := by
  rw [fault?_singleton] at faultless
  split at faultless
  · cases faultless
  · rename_i defined
    split at faultless
    · rename_i bounded
      exact apply_eq_ok_exact left right defined bounded
    · cases faultless

theorem chain_whole (whole : ∀ v ∈ first :: rest, op.readsWhole v = true) (within : i < rest.length)
    (faultless : ∀ j < i,
      op.fault? first.whole ((rest.take (j + 1)).map Value.whole) = none) :
    let steps := (BinaryOp.arithmetic op).chain first rest
    let ns := (rest.take (i + 1)).map Value.whole
    (∀ e, op.fault? first.whole ns = some e → steps[i]? = some (.error e) ∧ steps.length = i + 1) ∧
      (op.fault? first.whole ns = none →
        ∃ n : Int32, steps[i]? = some (.ok (.int n)) ∧ n.toInt = op.total first.whole ns) := by
  -- The accumulated value stands for all that came before it, so it takes the place of the first.
  induction rest generalizing first i with
  | nil => exact absurd within (Nat.not_lt_zero i)
  | cons v rest ih =>
    obtain ⟨left, others⟩ := List.forall_mem_cons.mp whole
    obtain ⟨right, further⟩ := List.forall_mem_cons.mp others
    cases i with
    | zero =>
      constructor
      · intro e fault
        rw [BinaryOp.chain_of_error (apply_of_fault? left right fault)]
        exact ⟨rfl, rfl⟩
      · intro faultless
        obtain ⟨k, found, exact⟩ := apply_of_no_fault left right faultless
        rw [BinaryOp.chain_of_ok found]
        exact ⟨k, rfl, exact.trans (total_singleton op _ _).symm⟩
    | succ i =>
      obtain ⟨k, found, accumulated⟩ :=
        apply_of_no_fault left right (faultless 0 (Nat.succ_pos i))
      have remaining : i < rest.length := Nat.lt_of_succ_lt_succ within
      have wholes : ∀ w ∈ Value.int k :: rest, op.readsWhole w = true :=
        List.forall_mem_cons.mpr ⟨readsWhole_int k, further⟩
      have nonempty (j : Nat) : (rest.take (j + 1)).map Value.whole ≠ [] := by
        intro empty
        have lengths := congrArg List.length empty
        rw [List.length_map, List.length_take, List.length_nil] at lengths
        omega
      have fault (j : Nat) :
          op.fault? first.whole (v.whole :: (rest.take (j + 1)).map Value.whole) =
            op.fault? k.toInt ((rest.take (j + 1)).map Value.whole) := by
        rw [fault?_cons (nonempty j), accumulated]
      have earlier : ∀ j < i, op.fault? k.toInt ((rest.take (j + 1)).map Value.whole) = none :=
        fun j before => (fault j).symm.trans (faultless (j + 1) (Nat.succ_lt_succ before))
      obtain ⟨failing, yielding⟩ := ih wholes remaining earlier
      dsimp only
      rw [BinaryOp.chain_of_ok found, List.take_succ_cons, List.map_cons, fault i, total_cons,
        ← accumulated]
      refine ⟨fun e faulty => ?_, yielding⟩
      obtain ⟨failed, last⟩ := failing e faulty
      exact ⟨failed, congrArg (· + 1) last⟩

/-- If a step of a chain of arithmetic fails, all values up to it are read as whole numbers, so
once another value is seen every step yields a value. As long as all values are read as whole
numbers, each step is the exact result for the whole chain up to it; at the first one that divides
by zero or has no room in 32 bits, the chain fails and ends. -/
theorem chain_exact (op : Arithmetic) (first : Value) (rest : List Value) :
    let steps := (BinaryOp.arithmetic op).chain first rest
    let ns := fun i => (rest.take (i + 1)).map Value.whole
    (∀ i e, steps[i]? = some (.error e) →
        ∀ v ∈ first :: rest.take (i + 1), op.readsWhole v = true) ∧
      (∀ i < rest.length, (∃ v, steps[i]? = some (.ok v)) ∨
        ∃ j ≤ i, ∃ e, steps[j]? = some (.error e)) ∧
      ((∀ v ∈ first :: rest, op.readsWhole v = true) →
        ∀ i < rest.length, (∀ j < i, op.fault? first.whole (ns j) = none) →
          (∀ e, op.fault? first.whole (ns i) = some e →
            steps[i]? = some (.error e) ∧ steps.length = i + 1) ∧
          (op.fault? first.whole (ns i) = none →
            ∃ n : Int32, steps[i]? = some (.ok (.int n)) ∧
              n.toInt = op.total first.whole (ns i))) :=
  ⟨fun _ _ => readsWhole_of_chain_error, fun _ => BinaryOp.getElem?_chain_cases first,
    fun whole _ => chain_whole whole⟩

theorem chain_exact_by_zero :
    let rest : List Value := [.int 7, .int (-3), .bool true, .float ⟨0x3f800000⟩]
    let steps := (BinaryOp.arithmetic .division).chain (.int (-100)) rest
    steps[2]? = some (.error .divisionByZero) ∧
      (∀ v ∈ Value.int (-100) :: rest.take 3, division.readsWhole v = true) ∧
      ∃ n : Int32, ((BinaryOp.arithmetic .division).chain (.int (-100)) (rest.take 2))[1]? =
        some (.ok (.int n)) ∧ n.toInt = 4 := by
  intro rest steps
  obtain ⟨reads, -, -⟩ := chain_exact .division (.int (-100)) rest
  obtain ⟨-, -, whole⟩ := chain_exact .division (.int (-100)) (rest.take 2)
  have failed : steps[2]? = some (.error .divisionByZero) := rfl
  obtain ⟨-, yields⟩ := whole (by decide) 1 (by decide) (by decide)
  obtain ⟨n, found, exact⟩ := yields (by decide)
  exact ⟨failed, reads 2 _ failed, n, found, exact.trans (by decide)⟩

end Arithmetic

end ScriptState

import ScriptState.Proofs.Value.Concatenation

/-!
# Chained logic

A chain of a logical operator cannot fail, whatever the kinds of its values. `chain_decides` says
that it decides whether all of its values are true, whether one is, or whether an odd number are, so
that neither their order nor, in the last two cases, a value that is no bool has a part in it.
-/

namespace ScriptState

namespace Logic

/-- What the operator says of several values at once. -/
def Holds : Logic → List Value → Prop
  | and, values => ∀ v ∈ values, v = .bool true
  | or, values => ∃ v ∈ values, v = .bool true
  | xor, values => values.countP (· = .bool true) % 2 = 1

instance : (op : Logic) → (values : List Value) → Decidable (op.Holds values)
  | and, values => inferInstanceAs (Decidable (∀ v ∈ values, v = .bool true))
  | or, values => inferInstanceAs (Decidable (∃ v ∈ values, v = .bool true))
  | xor, values => inferInstanceAs (Decidable (values.countP (· = .bool true) % 2 = 1))

variable {values others front back : List Value} {v : Value}

/-! ### One step -/

theorem boolD_false_iff : v.boolD false = true ↔ v = .bool true := by
  cases v <;> simp [Value.boolD]

/-- Exclusive or is disjunction without conjunction. -/
theorem xor_apply (l r : Value) : ∃ both either,
    (BinaryOp.logic and).apply l r = .ok both ∧ (BinaryOp.logic or).apply l r = .ok either ∧
      (BinaryOp.logic xor).apply l r = .ok (.bool (!both.boolD false && either.boolD false)) :=
  ⟨l.boolAnd r, l.boolOr r, rfl, rfl, rfl⟩

theorem holds_singleton (op : Logic) (b : Bool) : op.Holds [.bool b] ↔ b = true := by
  cases op <;> cases b <;> simp [Holds]

/-- The outcome for two values stands for both of them, of whatever kinds they are. -/
theorem holds_apply_cons (op : Logic) (l r : Value) (rest : List Value) :
    op.Holds (op.apply l r :: rest) ↔ op.Holds (l :: r :: rest) := by
  cases op with
  | and => simp [Holds, apply, Value.boolAnd, boolD_false_iff, and_assoc]
  | or =>
    simp [Holds, apply, Value.boolOr, boolD_false_iff, or_assoc, eq_comm (a := Value.bool true)]
  | xor =>
    simp only [Holds, apply, Value.boolXor_eq, List.countP_cons, decide_eq_true_eq,
      ← boolD_false_iff]
    cases l.boolD false <;> cases r.boolD false <;> simp [Value.boolD]
    omega

theorem apply_eq (op : Logic) (l r : Value) : op.apply l r = .bool (decide (op.Holds [l, r])) := by
  have isBool : ∃ b, op.apply l r = .bool b := by
    cases op <;> exact ⟨_, rfl⟩
  obtain ⟨b, outcome⟩ := isBool
  have holds := op.holds_apply_cons l r []
  rw [outcome, holds_singleton] at holds
  refine outcome.trans (congrArg Value.bool ?_)
  rw [Bool.eq_iff_iff, decide_eq_true_iff]
  exact holds

/-! ### The whole chain -/

theorem chain_eq (op : Logic) (acc : Value) (rest : List Value) :
    (BinaryOp.logic op).chain acc rest =
      (List.range rest.length).map fun i =>
        .ok (.bool (decide (op.Holds (acc :: rest.take (i + 1))))) := by
  induction rest generalizing acc with
  | nil => rfl
  | cons v rest ih =>
    -- From the first step on the accumulated value is a bool, which stands for all before it.
    have stepped : (BinaryOp.logic op).apply acc v = .ok (op.apply acc v) := rfl
    rw [BinaryOp.chain_of_ok stepped, ih, List.length_cons, List.range_succ_eq_map, List.map_cons,
      List.map_map]
    refine congrArg₂ List.cons (congrArg Except.ok (op.apply_eq acc v)) ?_
    refine List.map_congr_left fun i _ => ?_
    have same := op.holds_apply_cons acc v (rest.take (i + 1))
    exact congrArg Except.ok (congrArg Value.bool (decide_eq_decide.mpr same))

theorem steps_eq (op : Logic) (values : List Value) :
    (BinaryOp.logic op).steps values =
      (List.range (values.length - 1)).map fun i =>
        .ok (.bool (decide (op.Holds (values.take (i + 2))))) := by
  cases values with
  | nil => rfl
  | cons first rest => exact op.chain_eq first rest

theorem getLast?_steps (op : Logic) (several : 2 ≤ values.length) :
    ((BinaryOp.logic op).steps values).getLast? =
      some (.ok (.bool (decide (op.Holds values)))) := by
  have last : values.length - 1 ≠ 0 := by omega
  rw [steps_eq, List.getLast?_map, List.getLast?_range, if_neg last, Option.map_some,
    List.take_of_length_le (by omega)]

/-! ### Order, and values of other kinds -/

theorem holds_of_perm (op : Logic) (perm : others.Perm values) :
    op.Holds others ↔ op.Holds values := by
  cases op with
  | and | or => simp only [Holds, perm.mem_iff]
  | xor => simp only [Holds, perm.countP_eq]

theorem holds_insert (op : Logic) (noBool : v.isBool = false) :
    op.Holds (front ++ v :: back) ↔ op ≠ and ∧ op.Holds (front ++ back) := by
  have untrue : v ≠ .bool true := by
    rintro rfl
    cases noBool
  cases op with
  | and =>
    refine iff_of_false (fun all => untrue (all v ?_)) fun other => other.1 rfl
    simp
  | or => simp [Holds, untrue.symm]
  | xor => simp [Holds, untrue]

/-- A chain of a logical operator takes a step for each further value, and none fails: each says
whether the operator holds of the values up to it, so the last says it of all. Their order has no
part in that. A value that is no bool, wherever it is inserted, settles a conjunction and is nothing
to the other operators. -/
theorem chain_decides (op : Logic) (values : List Value) (several : 2 ≤ values.length) :
    let outcome := fun vs => ((BinaryOp.logic op).steps vs).getLast?
    (BinaryOp.logic op).steps values =
        (List.range (values.length - 1)).map (fun i =>
          .ok (.bool (decide (op.Holds (values.take (i + 2)))))) ∧
      outcome values = some (.ok (.bool (decide (op.Holds values)))) ∧
      (∀ others : List Value, others.Perm values → outcome others = outcome values) ∧
      (∀ (front back : List Value) (v : Value), front ++ back = values → v.isBool = false →
        outcome (front ++ v :: back) =
          if op = and then some (.ok (.bool false)) else outcome values) ∧
      ∀ l r : Value, ∃ both either,
        (BinaryOp.logic and).apply l r = .ok both ∧ (BinaryOp.logic or).apply l r = .ok either ∧
          (BinaryOp.logic xor).apply l r =
            .ok (.bool (!both.boolD false && either.boolD false)) := by
  intro outcome
  refine ⟨op.steps_eq values, op.getLast?_steps several, ?_, ?_, xor_apply⟩
  · intro others perm
    have enough : 2 ≤ others.length := perm.length_eq ▸ several
    simp only [outcome, getLast?_steps op enough, getLast?_steps op several, op.holds_of_perm perm]
  · intro front back v parts noBool
    subst parts
    have enough : 2 ≤ (front ++ v :: back).length := by
      simp only [List.length_append, List.length_cons] at several ⊢
      omega
    simp only [outcome, getLast?_steps op enough, getLast?_steps op several,
      op.holds_insert noBool]
    by_cases conjunction : op = and <;> simp [conjunction]

/-- Three of five values are true. -/
theorem chain_decides_odd :
    let values : List Value := [.int 1, .bool true, .str "true", .bool true, .bool true]
    let reversed : List Value := [.bool true, .bool true, .str "true", .bool true, .int 1]
    let outcome := fun (op : Logic) vs => ((BinaryOp.logic op).steps vs).getLast?
    outcome xor values = some (.ok (.bool true)) ∧ outcome xor reversed = outcome xor values ∧
      outcome xor ([.int 1] ++ .float .nan :: values.drop 1) = outcome xor values ∧
      outcome and ([.bool true] ++ .int 0 :: [.bool true]) = some (.ok (.bool false)) := by
  intro values reversed outcome
  obtain ⟨-, decided, unordered, inserted, -⟩ := chain_decides xor values (by decide)
  obtain ⟨-, -, -, settled, -⟩ := chain_decides and [.bool true, .bool true] (by decide)
  have odd : decide (xor.Holds values) = true := by decide
  have perm : reversed.Perm values := List.reverse_perm values
  rw [odd] at decided
  exact ⟨decided, unordered reversed perm, inserted [.int 1] (values.drop 1) _ rfl rfl,
    settled [.bool true] [.bool true] (.int 0) rfl rfl⟩

end Logic

end ScriptState

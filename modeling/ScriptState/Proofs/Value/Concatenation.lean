import ScriptState.Proofs.Value.Chain

/-!
# Chained concatenation

From the first string on, a chain of additions appends texts. `chain_concatenates` says to what
they are appended, and that nothing after the string can make the chain fail or yield a number.
-/

namespace ScriptState.BinaryOp

variable {op : BinaryOp} {acc a v : Value} {front back : List Value} {e : EvalError} {i : Nat}

/-- The steps of an operator between the values of a list. -/
def steps (op : BinaryOp) : List Value → List (Except EvalError Value)
  | [] => []
  | first :: rest => op.chain first rest

/-! ### Chains in two parts -/

theorem chain_append_of_ok (back : List Value) (found : front.foldlM op.apply acc = .ok a) :
    op.chain acc (front ++ back) = op.chain acc front ++ op.chain a back ∧
      (op.chain acc front).length = front.length := by
  induction front generalizing acc with
  | nil =>
    cases found
    exact ⟨rfl, rfl⟩
  | cons v front ih =>
    rw [List.foldlM_cons] at found
    cases stepped : op.apply acc v with
    | error reason =>
      rw [stepped] at found
      cases found
    | ok next =>
      rw [stepped] at found
      obtain ⟨parts, length⟩ := ih found
      rw [List.cons_append, chain_of_ok stepped, chain_of_ok stepped, parts]
      exact ⟨rfl, congrArg (· + 1) length⟩

theorem chain_append_of_error (back : List Value) (failed : front.foldlM op.apply acc = .error e) :
    op.chain acc (front ++ back) = op.chain acc front ∧
      (op.chain acc front).getLast? = some (.error e) := by
  induction front generalizing acc with
  | nil => cases failed
  | cons v front ih =>
    rw [List.foldlM_cons] at failed
    rw [List.cons_append]
    cases stepped : op.apply acc v with
    | error reason =>
      rw [stepped] at failed
      cases failed
      rw [chain_of_error stepped, chain_of_error stepped]
      exact ⟨rfl, rfl⟩
    | ok next =>
      rw [stepped] at failed
      obtain ⟨same, last⟩ := ih failed
      rw [chain_of_ok stepped, chain_of_ok stepped, same, List.getLast?_cons, last]
      exact ⟨rfl, rfl⟩

/-! ### Appending texts -/

theorem apply_addition (text : (acc.isStr || v.isStr) = true) :
    (arithmetic .addition).apply acc v = .ok (.str (acc.text ++ v.text)) :=
  if_pos ⟨rfl, text⟩

/-- In a chain of additions a string is appended to, or appends to what is there, and what comes of
it is a string again. -/
theorem getElem?_chain_text (acc : Value)
    (text : (acc.isStr || back.head?.any Value.isStr) = true) (within : i < back.length) :
    ((arithmetic .addition).chain acc back)[i]? =
      some (.ok (.str (acc.text ++ String.join ((back.take (i + 1)).map Value.text)))) := by
  induction back generalizing acc i with
  | nil => exact absurd within (Nat.not_lt_zero i)
  | cons v back ih =>
    have stepped : (arithmetic .addition).apply acc v = .ok (.str (acc.text ++ v.text)) :=
      apply_addition text
    rw [chain_of_ok stepped, List.take_succ_cons, List.map_cons, String.join_cons]
    cases i with
    | zero => rw [List.take_zero, List.map_nil, String.join_nil, String.append_empty]; rfl
    | succ i =>
      have following := ih (.str (acc.text ++ v.text)) rfl (Nat.lt_of_succ_lt_succ within)
      rw [List.getElem?_cons_succ, following, ← String.append_assoc]
      rfl

theorem getElem?_chain_from {rest : List Value} {n : Nat}
    (found : (rest.take n).foldlM (arithmetic .addition).apply acc = .ok a)
    (text : rest[n]?.any Value.isStr = true) (within : n + i < rest.length) :
    ((arithmetic .addition).chain acc rest)[n + i]? =
      some (.ok (.str (a.text ++ String.join (((rest.drop n).take (i + 1)).map Value.text)))) := by
  obtain ⟨parts, length⟩ := chain_append_of_ok (rest.drop n) found
  rw [List.take_append_drop] at parts
  rw [List.length_take_of_le (by omega)] at length
  have isText : (a.isStr || (rest.drop n).head?.any Value.isStr) = true := by
    rw [List.head?_drop, text, Bool.or_true]
  have remaining : i < (rest.drop n).length := by
    rw [List.length_drop]
    omega
  rw [parts, List.getElem?_append_right (by omega), length, Nat.add_sub_cancel_left]
  exact getElem?_chain_text a isText remaining

/-- The text that is there before a string is appended: that of what the values so far come to, and
none if there are no values. -/
def textBefore : List Value → Except EvalError String
  | [] => .ok ""
  | first :: rest => (rest.foldlM (arithmetic .addition).apply first).map Value.text

/-- If the values before the first string come to a failure, the whole chain of additions ends with
it. Otherwise each step from the string on yields a string: the text of what they come to and
behind it the texts of the values from the string to the step. -/
theorem chain_concatenates {values : List Value} {k : Nat}
    (found : values.findIdx? Value.isStr = some k) :
    match textBefore (values.take k) with
    | .error e =>
      (arithmetic .addition).steps values = (arithmetic .addition).steps (values.take k) ∧
        ((arithmetic .addition).steps values).getLast? = some (.error e)
    | .ok lead => ∀ i, k ≤ i → 1 ≤ i → i < values.length →
      ((arithmetic .addition).steps values)[i - 1]? =
        some (.ok (.str
          (lead ++ String.join (((values.take (i + 1)).drop k).map Value.text)))) := by
  obtain ⟨within, text, -⟩ := List.findIdx?_eq_some_iff_getElem.mp found
  cases values with
  | nil => exact absurd within (Nat.not_lt_zero k)
  | cons first rest =>
    cases k with
    | zero =>
      -- The first value is the string, so it is what the chain starts from.
      intro i _ positive inside
      obtain ⟨i, rfl⟩ := Nat.exists_eq_add_of_le' positive
      have isText : (first.isStr || rest.head?.any Value.isStr) = true := by
        rw [show first.isStr = true from text, Bool.true_or]
      have step := getElem?_chain_text first isText (Nat.lt_of_succ_lt_succ inside)
      rw [String.empty_append, List.drop_zero, List.take_succ_cons, List.map_cons,
        String.join_cons]
      exact step
    | succ n =>
      have bounded : n < rest.length := Nat.lt_of_succ_lt_succ within
      cases before : (rest.take n).foldlM (arithmetic .addition).apply first with
      | error e =>
        have lead : textBefore (first :: rest.take n) = .error e :=
          congrArg (Except.map Value.text) before
        obtain ⟨same, last⟩ := chain_append_of_error (rest.drop n) before
        rw [List.take_append_drop] at same
        rw [List.take_succ_cons, lead]
        exact ⟨same, (congrArg List.getLast? same).trans last⟩
      | ok a =>
        have lead : textBefore (first :: rest.take n) = .ok a.text :=
          congrArg (Except.map Value.text) before
        have isText : rest[n]?.any Value.isStr = true := by
          rw [List.getElem?_eq_getElem bounded]
          exact text
        rw [List.take_succ_cons, lead]
        intro i after _ inside
        obtain ⟨m, rfl⟩ := Nat.exists_eq_add_of_le after
        have index : n + 1 + m - 1 = n + m := by omega
        have appended : ((first :: rest).take (n + 1 + m + 1)).drop (n + 1) =
            (rest.drop n).take (m + 1) := by
          rw [List.drop_take, List.drop_succ_cons]
          congr 1
          omega
        rw [index, appended]
        rw [List.length_cons] at inside
        exact getElem?_chain_from before isText (by omega)

theorem chain_concatenates_at_second_and_third :
    let values : List Value := [.int 1, .int 2, .str "a", .float ⟨0x80000000⟩]
    let uncoerced : List Value := [.bool true, .str "a"]
    let failing : List Value := [.int 0x7fffffff, .int 1, .str "a"]
    ((arithmetic .addition).steps values)[2]? = some (.ok (.str "3a-0")) ∧
      ((arithmetic .addition).steps uncoerced)[0]? = some (.ok (.str "truea")) ∧
      (arithmetic .addition).steps failing = (arithmetic .addition).steps (failing.take 2) := by
  intro values uncoerced failing
  have third : values.findIdx? Value.isStr = some 2 := rfl
  have second : uncoerced.findIdx? Value.isStr = some 1 := rfl
  have afterFailure : failing.findIdx? Value.isStr = some 2 := rfl
  have sum : textBefore (values.take 2) = .ok "3" := rfl
  have bare : textBefore (uncoerced.take 1) = .ok "true" := rfl
  have overflow : textBefore (failing.take 2) = .error (.overflow .addition) := rfl
  have appended := chain_concatenates third
  have kept := chain_concatenates second
  have ended := chain_concatenates afterFailure
  rw [sum] at appended
  rw [bare] at kept
  rw [overflow] at ended
  refine ⟨(appended 3 (by decide) (by decide) (by decide)).trans ?_,
    (kept 1 (by decide) (by decide) (by decide)).trans ?_, ended.1⟩
  · have text : "3" ++ String.join (((values.take 4).drop 2).map Value.text) = "3a-0" := by
      decide +kernel
    rw [text]
  · have text : "true" ++ String.join (((uncoerced.take 2).drop 1).map Value.text) = "truea" := by
      decide +kernel
    rw [text]

end ScriptState.BinaryOp

import ScriptState.Saved.Form

/-!
# What readers accept

`bind_eq_ok_iff` and `map_eq_ok_iff` take a successful run of a reader apart, `bind_eq_error_iff`
and `map_eq_error_iff` one that fails; `times_eq_error_iff` says where a repetition stops. A number
that fits its width is read back (`number_writeNumber`), and what a number is read from is what is
written for it (`eq_writeNumber`).
-/

namespace ScriptState

/-! ### Results -/

theorem except_bind_eq_ok_iff {ε α β : Type} {r : Except ε α} {f : α → Except ε β} {y : β} :
    (r >>= f) = .ok y ↔ ∃ x, r = .ok x ∧ f x = .ok y := by
  cases r with
  | error e =>
    constructor
    · intro failed
      cases failed
    · rintro ⟨x, failed, -⟩
      cases failed
  | ok x =>
    constructor
    · intro following
      exact ⟨x, rfl, following⟩
    · rintro ⟨_, same, following⟩
      cases same
      exact following

theorem mapError_eq_ok_iff {ε δ α : Type} {r : Except ε α} {f : ε → δ} {x : α} :
    r.mapError f = .ok x ↔ r = .ok x := by
  cases r with
  | error e => constructor <;> intro failed <;> cases failed
  | ok y => constructor <;> intro same <;> cases same <;> rfl

theorem guard_eq_ok_iff {ε α : Type} {refused : Prop} [Decidable refused] {e : ε}
    {r : Except ε α} {x : α} :
    (if refused then .error e else r) = .ok x ↔ ¬refused ∧ r = .ok x := by
  split
  · rename_i failed
    constructor
    · intro same
      cases same
    · rintro ⟨passed, -⟩
      exact (passed failed).elim
  · rename_i passed
    exact (and_iff_right passed).symm

end ScriptState

namespace ScriptState.Reader

variable {α β : Type} {bytes rest : List UInt8}

/-! ### Readers in sequence -/

theorem bind_eq_ok_iff {r : Reader α} {f : α → Reader β} {y : β} :
    (r >>= f) bytes = .ok (y, rest) ↔
      ∃ x middle, r bytes = .ok (x, middle) ∧ f x middle = .ok (y, rest) := by
  rw [bind_apply]
  cases ran : r bytes with
  | error e => simp
  | ok found =>
    obtain ⟨x, middle⟩ := found
    constructor
    · intro last
      exact ⟨x, middle, rfl, last⟩
    · rintro ⟨_, _, same, last⟩
      obtain ⟨rfl, rfl⟩ := Prod.mk.inj (Except.ok.inj same)
      exact last

theorem map_eq_ok_iff {r : Reader α} {f : α → β} {y : β} :
    (f <$> r) bytes = .ok (y, rest) ↔ ∃ x, r bytes = .ok (x, rest) ∧ f x = y := by
  rw [map_apply]
  cases ran : r bytes with
  | error e => simp
  | ok found =>
    obtain ⟨x, middle⟩ := found
    simp only [Except.ok.injEq, Prod.mk.injEq]
    constructor
    · rintro ⟨rfl, rfl⟩
      exact ⟨x, ⟨rfl, rfl⟩, rfl⟩
    · rintro ⟨_, ⟨rfl, rfl⟩, rfl⟩
      exact ⟨rfl, rfl⟩

theorem bind_eq_error_iff {r : Reader α} {f : α → Reader β} {e : FormatError} :
    (r >>= f) bytes = .error e ↔
      r bytes = .error e ∨ ∃ x middle, r bytes = .ok (x, middle) ∧ f x middle = .error e := by
  rw [bind_apply]
  cases ran : r bytes with
  | error reason => simp
  | ok found =>
    obtain ⟨x, middle⟩ := found
    constructor
    · intro later
      exact .inr ⟨x, middle, rfl, later⟩
    · rintro (first | ⟨_, _, same, later⟩)
      · cases first
      · obtain ⟨rfl, rfl⟩ := Prod.mk.inj (Except.ok.inj same)
        exact later

theorem map_eq_error_iff {r : Reader α} {f : α → β} {e : FormatError} :
    (f <$> r) bytes = .error e ↔ r bytes = .error e := by
  rw [map_apply]
  cases ran : r bytes <;> simp

theorem take_eq_ok_iff {length : Nat} {taken : List UInt8} :
    take length bytes = .ok (taken, rest) ↔ taken.length = length ∧ bytes = taken ++ rest := by
  unfold take
  rw [guard_eq_ok_iff, Except.ok.injEq, Prod.mk.injEq]
  constructor
  · rintro ⟨enough, rfl, rfl⟩
    exact ⟨List.length_take_of_le (Nat.not_lt.mp enough), (List.take_append_drop _ _).symm⟩
  · rintro ⟨rfl, rfl⟩
    refine ⟨?_, List.take_left, List.drop_left⟩
    rw [List.length_append]
    exact Nat.not_lt.mpr (Nat.le_add_right _ _)

/-- Repetition stops at the first item that cannot be read, after those that could. -/
theorem times_eq_error_iff {item : Reader α} {n : Nat} {e : FormatError} :
    times item n bytes = .error e ↔
      ∃ k xs rest, k < n ∧ times item k bytes = .ok (xs, rest) ∧ item rest = .error e := by
  induction n generalizing bytes with
  | zero =>
    constructor
    · intro failed
      cases failed
    · rintro ⟨k, -, -, before, -⟩
      exact (Nat.not_lt_zero k before).elim
  | succ n ih =>
    constructor
    · intro failed
      rcases bind_eq_error_iff.mp failed with stopped | ⟨first, middle, ran, remaining⟩
      · exact ⟨0, [], bytes, Nat.succ_pos n, rfl, stopped⟩
      rcases bind_eq_error_iff.mp remaining with stopped | ⟨others, last, -, ended⟩
      · obtain ⟨k, xs, rest, before, following, failure⟩ := ih.mp stopped
        have one_more : times item (k + 1) bytes = .ok (first :: xs, rest) :=
          bind_eq_ok_iff.mpr ⟨first, middle, ran, bind_eq_ok_iff.mpr ⟨xs, rest, following, rfl⟩⟩
        exact ⟨k + 1, first :: xs, rest, Nat.succ_lt_succ before, one_more, failure⟩
      · cases ended
    · rintro ⟨k, xs, rest, before, ran, failure⟩
      cases k with
      | zero =>
        cases ran
        exact bind_eq_error_iff.mpr (.inl failure)
      | succ k =>
        obtain ⟨first, middle, head, remaining⟩ := bind_eq_ok_iff.mp ran
        obtain ⟨others, last, following, ended⟩ := bind_eq_ok_iff.mp remaining
        cases ended
        have stopped := ih.mpr ⟨k, others, rest, Nat.lt_of_succ_lt_succ before, following, failure⟩
        refine bind_eq_error_iff.mpr (.inr ⟨first, middle, head, ?_⟩)
        exact bind_eq_error_iff.mpr (.inl stopped)

/-! ### Numbers in a fixed width -/

theorem number_writeNumber {width n : Nat} (fits : n < Nat.pow 256 width) (rest : List UInt8) :
    number width (writeNumber width n ++ rest) = .ok (n, rest) := by
  induction width generalizing n with
  | zero =>
    have zero : n = 0 := by simpa using fits
    rw [zero]
    rfl
  | succ width ih =>
    have wider : Nat.pow 256 (width + 1) = Nat.pow 256 width * 256 := Nat.pow_succ 256 width
    have shorter : n / 256 < Nat.pow 256 width := by omega
    simp only [number, writeNumber, List.cons_append, bind_apply, pure_apply, byte, ih shorter,
      UInt8.toNat_ofNat', Nat.reducePow]
    rw [show n % 256 + 256 * (n / 256) = n by omega]

theorem eq_writeNumber {width n : Nat} {bytes rest : List UInt8}
    (read : number width bytes = .ok (n, rest)) :
    bytes = writeNumber width n ++ rest ∧ n < Nat.pow 256 width := by
  induction width generalizing n bytes with
  | zero =>
    obtain ⟨rfl, rfl⟩ : 0 = n ∧ bytes = rest := by
      simpa [number, pure_apply] using read
    exact ⟨rfl, by decide⟩
  | succ width ih =>
    cases bytes with
    | nil => simp [number, bind_apply, byte] at read
    | cons low bytes =>
      simp only [number, bind_apply, byte] at read
      cases high : number width bytes with
      | error e => simp [high] at read
      | ok found =>
        obtain ⟨m, left⟩ := found
        simp only [high, pure_apply, Except.ok.injEq, Prod.mk.injEq] at read
        obtain ⟨rfl, rfl⟩ := read
        obtain ⟨rfl, bounded⟩ := ih high
        have less := low.toNat_lt
        have wider : Nat.pow 256 (width + 1) = Nat.pow 256 width * 256 := Nat.pow_succ 256 width
        refine ⟨?_, by omega⟩
        rw [writeNumber, show (low.toNat + 256 * m) / 256 = m by omega, List.cons_append]
        congr 1
        apply UInt8.toNat_inj.mp
        rw [UInt8.toNat_ofNat']
        omega

theorem number_eq_ok_iff {width n : Nat} :
    number width bytes = .ok (n, rest) ↔
      n < Nat.pow 256 width ∧ bytes = writeNumber width n ++ rest := by
  constructor
  · intro read
    exact (eq_writeNumber read).symm
  · rintro ⟨fits, rfl⟩
    exact number_writeNumber fits rest

theorem number_eq_error_iff {width : Nat} {e : FormatError} :
    number width bytes = .error e ↔ bytes.length < width ∧ e = .endOfInput := by
  induction width generalizing bytes with
  | zero =>
    constructor
    · intro failed
      cases failed
    · rintro ⟨shorter, -⟩
      exact (Nat.not_lt_zero _ shorter).elim
  | succ width ih =>
    cases bytes with
    | nil =>
      constructor
      · intro failed
        cases failed
        exact ⟨Nat.succ_pos width, rfl⟩
      · rintro ⟨-, rfl⟩
        rfl
    | cons low bytes =>
      rw [List.length_cons, Nat.succ_lt_succ_iff, ← ih]
      constructor
      · intro failed
        rcases bind_eq_error_iff.mp failed with stopped | ⟨_, _, ran, remaining⟩
        · cases stopped
        cases ran
        rcases bind_eq_error_iff.mp remaining with stopped | ⟨_, _, -, ended⟩
        · exact stopped
        · cases ended
      · intro stopped
        refine bind_eq_error_iff.mpr (.inr ⟨low, bytes, rfl, ?_⟩)
        exact bind_eq_error_iff.mpr (.inl stopped)

end ScriptState.Reader

namespace ScriptState

open SavedForm

/-! ### Whole inputs -/

variable {α : Type} [SavedForm α] {bytes rest : List UInt8} {x : α}

theorem decode_of_error {e : FormatError} (failed : (read : Reader α) bytes = .error e) :
    (decode bytes : Except _ α) = .error e := by
  unfold decode
  rw [failed]
  rfl

theorem decode_of_ok (found : (read : Reader α) bytes = .ok (x, rest)) :
    decode bytes = if rest = [] then .ok x else .error .trailingBytes := by
  unfold decode
  rw [found]
  cases rest <;> rfl

theorem decode_eq_error_iff {e : FormatError} :
    (decode bytes : Except _ α) = .error e ↔
      (read : Reader α) bytes = .error e ∨
        e = .trailingBytes ∧ ∃ x rest, (read : Reader α) bytes = .ok (x, rest) ∧ rest ≠ [] := by
  cases ran : (read : Reader α) bytes with
  | error reason =>
    rw [decode_of_error ran]
    simp
  | ok found =>
    obtain ⟨x, rest⟩ := found
    rw [decode_of_ok ran]
    by_cases ended : rest = []
    · simp [ended]
    · rw [if_neg ended]
      constructor
      · intro failed
        cases failed
        exact .inr ⟨rfl, x, rest, rfl, ended⟩
      · rintro (stopped | ⟨rfl, -⟩)
        · cases stopped
        · rfl

theorem decode_eq_ok_iff_read :
    decode bytes = .ok x ↔ (read : Reader α) bytes = .ok (x, []) := by
  unfold decode
  rw [except_bind_eq_ok_iff]
  constructor
  · rintro ⟨⟨y, rest⟩, found, checked⟩
    cases rest with
    | nil =>
      cases checked
      exact found
    | cons b rest => cases checked
  · intro found
    exact ⟨(x, []), found, rfl⟩

end ScriptState

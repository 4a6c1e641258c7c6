import ScriptState.Proofs.Saved.Text
import ScriptState.Proofs.Scope.Refusal

/-!
# Counts beyond the input

A sequence starts with a count, which comes from the input and may be anything. Each item takes at
least a byte, so a repetition ends with the input at the latest (`Reader.attempts_le`), and beyond
the items that are there the count does not matter (`Reader.exists_exhausts`). `oversized_counts`
says so for every place of a count in a saved structure, however deep.
-/

namespace ScriptState

open SavedForm
open Sized (Fits)

variable {bytes rest before front : List UInt8} {e : FormatError} {present n : Nat}

namespace Reader

variable {α β : Type} {item r : Reader α} {items : List α}

/-! ### Repetitions end -/

/-- What is read takes at least a byte off the input. -/
def Consumes (r : Reader α) : Prop :=
  ∀ {bytes rest : List UInt8} {x : α}, r bytes = .ok (x, rest) → rest.length < bytes.length

/-- How often an item is tried in reading `n` of them. -/
def attempts (item : Reader α) : (n : Nat) → List UInt8 → Nat
  | 0, _ => 0
  | n + 1, bytes =>
    match item bytes with
    | .ok (_, rest) => attempts item n rest + 1
    | .error _ => 1

theorem attempts_le (consumes : item.Consumes) (n : Nat) (bytes : List UInt8) :
    item.attempts n bytes ≤ bytes.length + 1 := by
  induction n generalizing bytes with
  | zero => exact Nat.zero_le _
  | succ n ih =>
    rw [attempts]
    split
    · rename_i rest ran
      have shorter := consumes ran
      have others := ih rest
      omega
    · exact Nat.le_add_left 1 _

/-- The input begins with these items, and `e` is why none follows them. -/
def Exhausts (item : Reader α) (bytes : List UInt8) (items : List α) (e : FormatError) : Prop :=
  ∃ rest, times item items.length bytes = .ok (items, rest) ∧ item rest = .error e

theorem Exhausts.times_eq (exhausts : item.Exhausts bytes items e) (more : items.length < n) :
    times item n bytes = .error e := by
  obtain ⟨rest, ran, failed⟩ := exhausts
  exact times_eq_error_iff.mpr ⟨items.length, items, rest, more, ran, failed⟩

theorem Exhausts.attempts_eq (exhausts : item.Exhausts bytes items e) (more : items.length < n) :
    item.attempts n bytes = items.length + 1 := by
  induction items generalizing bytes n with
  | nil =>
    obtain ⟨n, rfl⟩ := Nat.exists_eq_add_of_lt more
    obtain ⟨rest, ran, failed⟩ := exhausts
    cases ran
    rw [attempts, failed]
    rfl
  | cons x items ih =>
    obtain ⟨rest, ran, failed⟩ := exhausts
    obtain ⟨first, middle, head, remaining⟩ := bind_eq_ok_iff.mp ran
    obtain ⟨others, last, following, ended⟩ := bind_eq_ok_iff.mp remaining
    cases ended
    obtain ⟨n, rfl⟩ := Nat.exists_eq_add_one_of_ne_zero (Nat.ne_zero_of_lt more)
    have later := ih ⟨rest, following, failed⟩ (Nat.lt_of_succ_lt_succ more)
    rw [attempts, head]
    exact congrArg (· + 1) later

theorem exists_exhausts (consumes : item.Consumes) (bytes : List UInt8) :
    ∃ items e, item.Exhausts bytes items e ∧ items.length ≤ bytes.length := by
  -- The measure is what is left of the input, not the count.
  induction hlength : bytes.length using Nat.strongRecOn generalizing bytes with
  | ind length ih =>
    subst hlength
    cases ran : item bytes with
    | error e => exact ⟨[], e, ⟨bytes, rfl, ran⟩, Nat.zero_le _⟩
    | ok found =>
      obtain ⟨x, middle⟩ := found
      have shorter := consumes ran
      obtain ⟨items, e, ⟨rest, following, failed⟩, bounded⟩ := ih middle.length shorter middle rfl
      refine ⟨x :: items, e, ⟨rest, ?_, failed⟩, Nat.lt_of_le_of_lt bounded shorter⟩
      exact bind_eq_ok_iff.mpr ⟨x, middle, ran, bind_eq_ok_iff.mpr ⟨items, rest, following, rfl⟩⟩

/-! ### Readers that refuse every large count -/

/-- Every length above `present` that stands between `before` and `rest` is refused because of
`e`. -/
def RefusesAbove (r : Reader α) (before rest : List UInt8) (present : Nat) (e : FormatError) :
    Prop :=
  ∀ n, present < n → n < lengthLimit → r (before ++ (writeLength n ++ rest)) = .error e

theorem RefusesAbove.bind (refuses : r.RefusesAbove before rest present e) (f : α → Reader β) :
    (r >>= f).RefusesAbove before rest present e :=
  fun n large fits => bind_eq_error_iff.mpr (.inl (refuses n large fits))

theorem RefusesAbove.map (refuses : r.RefusesAbove before rest present e) (f : α → β) :
    (f <$> r).RefusesAbove before rest present e :=
  fun n large fits => map_eq_error_iff.mpr (refuses n large fits)

theorem RefusesAbove.after {f : α → Reader β} {x : α}
    (ran : ∀ more, r (front ++ more) = .ok (x, more))
    (refuses : (f x).RefusesAbove before rest present e) :
    (r >>= f).RefusesAbove (front ++ before) rest present e := by
  intro n large fits
  rw [List.append_assoc]
  exact bind_eq_error_iff.mpr (.inr ⟨x, _, ran _, refuses n large fits⟩)

theorem RefusesAbove.times {count : Nat} (settled : item.Local)
    (ran : times item items.length front = .ok (items, [])) (within : items.length < count)
    (refuses : item.RefusesAbove before rest present e) :
    (times item count).RefusesAbove (front ++ before) rest present e := by
  intro n large fits
  rw [List.append_assoc]
  have others := (settled.times items.length).ok (before ++ (writeLength n ++ rest)) ran
  exact times_eq_error_iff.mpr ⟨_, items, _, within, others, refuses n large fits⟩

end Reader

open Reader (RefusesAbove)

/-! ### Items take bytes -/

theorem consumes_of_canonical {α : Type} [SavedForm α] [Sized α] [Canonical α]
    (written : ∀ x : α, write x ≠ []) : (read : Reader α).Consumes := by
  intro bytes rest x found
  obtain ⟨-, rfl⟩ := Canonical.read_eq_ok_iff.mp found
  have positive := List.length_pos_iff.mpr (written x)
  rw [List.length_append]
  omega

theorem consumes_text : (read : Reader String).Consumes :=
  consumes_of_canonical fun _ => List.append_ne_nil_of_left_ne_nil (List.cons_ne_nil _ _) _

theorem consumes_value : (read : Reader Value).Consumes := by
  refine consumes_of_canonical fun v => ?_
  cases v <;> exact List.append_ne_nil_of_left_ne_nil (List.cons_ne_nil _ _) _

theorem consumes_snapshot : (read : Reader Snapshot).Consumes := by
  refine consumes_of_canonical fun p => ?_
  exact List.append_ne_nil_of_left_ne_nil
    (List.append_ne_nil_of_left_ne_nil (List.cons_ne_nil _ _) _) _

theorem consumes_scope : (read : Reader Scope).Consumes := by
  intro bytes rest s found
  obtain ⟨p, ran, -⟩ := Scope.read_eq_ok_iff.mp found
  exact consumes_snapshot ran

/-! ### Every place of a length -/

/-- Where lengths stand in a saved structure: those of texts, those of sequences, and those within
the items of a sequence, however many items come before. -/
class Lengths (α : Type) [SavedForm α] where
  /-- A length stands after these bytes. -/
  Follows : List UInt8 → Prop

open Lengths (Follows)

instance : Lengths String := ⟨fun before => before = []⟩

instance : Lengths Value := ⟨fun before => before = write (3 : UInt32)⟩

instance {α : Type} [SavedForm α] [Lengths α] : Lengths (List α) where
  Follows before := before = [] ∨
    ∃ (count : Nat) (items : List α) (front inner : List UInt8),
      count < lengthLimit ∧ items.length < count ∧
        Reader.times read items.length front = .ok (items, []) ∧ Follows α inner ∧
        before = writeLength count ++ (front ++ inner)

instance : Lengths Snapshot where
  Follows before := ∃ (version : UInt32) (inner : List UInt8),
    (Follows (List String) inner ∧ before = write version ++ inner) ∨
      ∃ names : List String, Fits names ∧ Follows (List Value) inner ∧
        before = write version ++ (write names ++ inner)

instance : Lengths Scope := ⟨Follows Snapshot⟩

/-- Wherever a length stands, all that go beyond the input are refused alike. -/
class SettledLengths (α : Type) [SavedForm α] [Lengths α] : Prop where
  exists_refusesAbove {before : List UInt8} (follows : Follows α before) (rest : List UInt8) :
    ∃ present e, present ≤ rest.length ∧ (read : Reader α).RefusesAbove before rest present e

open SettledLengths (exists_refusesAbove)

theorem read_write {α : Type} [SavedForm α] [Sized α] [Canonical α] {x : α} (fits : Fits x)
    (more : List UInt8) : read (write x ++ more) = .ok (x, more) :=
  Canonical.read_eq_ok_iff.mpr ⟨fits, rfl⟩

instance : SettledLengths String where
  exists_refusesAbove follows rest := by
    subst follows
    refine ⟨rest.length, .shortText, Nat.le_refl _, fun n large fits => ?_⟩
    rw [List.nil_append, read_writeLength fits, if_pos large]

instance : SettledLengths Value where
  exists_refusesAbove follows rest := by
    subst follows
    obtain ⟨present, e, bounded, refuses⟩ := exists_refusesAbove (α := String) rfl rest
    refine ⟨present, e, bounded, ?_⟩
    have string : (Value.readPayload 3).RefusesAbove [] rest present e := refuses.map Value.str
    exact List.append_nil (write (3 : UInt32)) ▸ string.after (read_write trivial)

section Sequences

variable {α : Type} [SavedForm α] {items : List α}

theorem refusesAbove_sequence (exhausts : (read : Reader α).Exhausts rest items e) :
    (read : Reader (List α)).RefusesAbove [] rest items.length e := by
  intro n large fits
  have counted : readLength (writeLength n ++ rest) = .ok (n, rest) :=
    readLength_eq_ok_iff.mpr ⟨fits, rfl⟩
  exact Reader.bind_eq_error_iff.mpr (.inr ⟨n, rest, counted, exhausts.times_eq large⟩)

theorem settledLengths_sequence [LocalForm α] [Lengths α] [SettledLengths α]
    (consumes : (read : Reader α).Consumes) : SettledLengths (List α) where
  exists_refusesAbove follows rest := by
    rcases follows with rfl | ⟨count, items, front, inner, bounded, within, ran, follows, rfl⟩
    · obtain ⟨items, e, exhausts, present⟩ := Reader.exists_exhausts consumes rest
      exact ⟨items.length, e, present, refusesAbove_sequence exhausts⟩
    · obtain ⟨present, e, enough, refuses⟩ := exists_refusesAbove follows rest
      refine ⟨present, e, enough, ?_⟩
      refine RefusesAbove.after (fun more => readLength_eq_ok_iff.mpr ⟨bounded, rfl⟩) ?_
      exact refuses.times LocalForm.local_read ran within

end Sequences

instance : SettledLengths (List String) := settledLengths_sequence consumes_text
instance : SettledLengths (List Value) := settledLengths_sequence consumes_value

theorem refusesAbove_names (version : UInt32)
    (refuses : (read : Reader (List String)).RefusesAbove before rest present e) :
    (read : Reader Snapshot).RefusesAbove (write version ++ before) rest present e :=
  (refuses.bind _).after (read_write trivial)

theorem refusesAbove_values (version : UInt32) {names : List String} (fits : Fits names)
    (refuses : (read : Reader (List Value)).RefusesAbove before rest present e) :
    (read : Reader Snapshot).RefusesAbove (write version ++ (write names ++ before)) rest
      present e :=
  ((refuses.bind _).after (read_write fits)).after (read_write trivial)

instance : SettledLengths Snapshot where
  exists_refusesAbove follows rest := by
    obtain ⟨version, inner, ⟨follows, rfl⟩ | ⟨names, fits, follows, rfl⟩⟩ := follows
    · obtain ⟨present, e, bounded, refuses⟩ := exists_refusesAbove follows rest
      exact ⟨present, e, bounded, refusesAbove_names _ refuses⟩
    · obtain ⟨present, e, bounded, refuses⟩ := exists_refusesAbove follows rest
      exact ⟨present, e, bounded, refusesAbove_values _ fits refuses⟩

instance : SettledLengths Scope where
  exists_refusesAbove follows rest := by
    obtain ⟨present, e, bounded, refuses⟩ := exists_refusesAbove (α := Snapshot) follows rest
    exact ⟨present, e, bounded, refuses.bind _⟩

instance : SettledLengths (List Scope) := settledLengths_sequence consumes_scope

/-! ### Whole inputs -/

/-- The items that `rest` begins with, no more than its bytes, settle what becomes of every count
before it that is larger: no item is tried after the one that cannot be read, and `outcome` is
always what is wrong with that one. -/
def SettledByItems {α β : Type} (item : Reader α) (rest : List UInt8)
    (outcome : Nat → Except FormatError β) : Prop :=
  ∃ items e, item.Exhausts rest items e ∧ items.length ≤ rest.length ∧
    ∀ n, items.length < n → n < lengthLimit →
      item.attempts n rest = items.length + 1 ∧ outcome n = .error e

theorem settledByItems {α β : Type} [SavedForm α] [SavedForm β] (before rest : List UInt8)
    (consumes : (read : Reader α).Consumes)
    (refuses : ∀ {items e}, (read : Reader α).Exhausts rest items e →
      (read : Reader β).RefusesAbove before rest items.length e) :
    SettledByItems (read : Reader α) rest fun n =>
      (decode (before ++ (writeLength n ++ rest)) : Except _ β) := by
  obtain ⟨items, e, exhausts, bounded⟩ := Reader.exists_exhausts consumes rest
  refine ⟨items, e, exhausts, bounded, fun n large fits => ⟨exhausts.attempts_eq large, ?_⟩⟩
  exact decode_of_error (refuses exhausts n large fits)

/-- Wherever a length stands in the input, all that go beyond the input yield one failure. -/
def RefusesOversized (α : Type) [SavedForm α] [Lengths α] : Prop :=
  ∀ before, Follows α before → ∀ rest, ∃ e, ∀ n, rest.length < n → n < lengthLimit →
    (decode (before ++ (writeLength n ++ rest)) : Except _ α) = .error e

theorem refusesOversized (α : Type) [SavedForm α] [Lengths α] [SettledLengths α] :
    RefusesOversized α := by
  intro before follows rest
  obtain ⟨present, e, bounded, refuses⟩ := exists_refusesAbove follows rest
  refine ⟨e, fun n large fits => decode_of_error (refuses n ?_ fits)⟩
  exact Nat.lt_of_le_of_lt bounded large

/-- A count that the input cannot meet is refused, and it does not matter how large it is. Reading a
sequence tries at most one item more than there are bytes, whatever its count. What is wrong with a
sequence of values, with the names or the values of a snapshot, or with a sequence of scopes is
settled by the items that are there, and the same holds for the lengths within them. -/
theorem oversized_counts :
    (∀ n bytes, (read : Reader String).attempts n bytes ≤ bytes.length + 1 ∧
        (read : Reader Value).attempts n bytes ≤ bytes.length + 1 ∧
        (read : Reader Scope).attempts n bytes ≤ bytes.length + 1) ∧
      (∀ rest, SettledByItems (read : Reader Value) rest fun n =>
        (decode (writeLength n ++ rest) : Except _ (List Value))) ∧
      (∀ (version : UInt32) rest, SettledByItems (read : Reader String) rest fun n =>
        (decode (write version ++ (writeLength n ++ rest)) : Except _ Snapshot)) ∧
      (∀ (version : UInt32) (names : List String) rest, Fits names →
        SettledByItems (read : Reader Value) rest fun n =>
          (decode ((write version ++ write names) ++ (writeLength n ++ rest)) :
            Except _ Snapshot)) ∧
      (∀ rest, SettledByItems (read : Reader Scope) rest fun n =>
        (decode (writeLength n ++ rest) : Except _ (List Scope))) ∧
      RefusesOversized (List Value) ∧ RefusesOversized Snapshot ∧
      RefusesOversized (List Scope) := by
  refine ⟨fun n bytes => ⟨Reader.attempts_le consumes_text n bytes,
      Reader.attempts_le consumes_value n bytes, Reader.attempts_le consumes_scope n bytes⟩,
    fun rest => settledByItems [] rest consumes_value refusesAbove_sequence,
    fun version rest => ?_, fun version names rest fits => ?_,
    fun rest => settledByItems [] rest consumes_scope refusesAbove_sequence,
    refusesOversized _, refusesOversized _, refusesOversized _⟩
  · refine settledByItems (write version) rest consumes_text fun exhausts => ?_
    have names := refusesAbove_names version (refusesAbove_sequence exhausts)
    rwa [List.append_nil] at names
  · refine settledByItems (write version ++ write names) rest consumes_value fun exhausts => ?_
    have values := refusesAbove_values version fits (refusesAbove_sequence exhausts)
    rwa [List.append_nil] at values

theorem oversized_counts_within_second_item :
    let rest := write (Value.int 7) ++ [3, 0, 0]
    let before := writeLength 2 ++ (encode (Snapshot.mk 1 [] []) ++ write (1 : UInt32))
    (decode (writeLength 0xffffffffffffffff ++ rest) : Except _ (List Value)) =
        .error .endOfInput ∧
      (read : Reader Value).attempts 0xffffffffffffffff rest = 2 ∧
      ∃ e, ∀ n, 3 < n → n < lengthLimit →
        (decode (before ++ (writeLength n ++ [0, 0, 0])) : Except _ (List Scope)) = .error e := by
  intro rest before
  obtain ⟨-, values, -, -, -, -, -, scopes⟩ := oversized_counts
  obtain ⟨items, e, -, bounded, settled⟩ := values rest
  have short : items.length < 12 := Nat.lt_of_le_of_lt bounded (by decide)
  have small := settled 12 short (by decide)
  have huge := settled 0xffffffffffffffff (Nat.lt_trans short (by decide)) (by decide)
  have tried : (read : Reader Value).attempts 12 rest = 2 := by decide +kernel
  have failed : (decode (writeLength 12 ++ rest) : Except _ (List Value)) = .error .endOfInput :=
    rfl
  have follows : Follows (List Scope) before :=
    .inr ⟨2, [.empty], encode (Snapshot.mk 1 [] []), write (1 : UInt32), by decide, by decide, rfl,
      ⟨1, [], .inl ⟨.inl rfl, rfl⟩⟩, rfl⟩
  refine ⟨huge.2.trans (small.2.symm.trans failed), huge.1.trans (small.1.symm.trans tried), ?_⟩
  exact scopes before follows [0, 0, 0]

end ScriptState

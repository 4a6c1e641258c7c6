import ScriptState.Proofs.Saved.Canonical

/-!
# Input that is cut short or continued

A reader sees its input only as far as it reads. `Reader.Local` says so: unless a reader asks for
more input, what follows does not change its result. Every saved form has a local reader, and with
one spelling for each structure (`Canonical`) this settles what becomes of an encoding that is cut
short or continued (`delimited`).
-/

namespace ScriptState

open SavedForm
open Sized (Fits)

/-- Whether a byte that was read is at fault: no flag, no text, or no kind of value. -/
def FormatError.isFault : FormatError → Bool
  | .badBool _ | .badText _ | .unknownKind _ => true
  | _ => false

variable {bytes rest : List UInt8} {e : FormatError}

theorem FormatError.not_isTruncation (fault : e.isFault = true) : e.isTruncation = false := by
  cases e with
  | badBool | badText | unknownKind => rfl
  | _ => cases fault

namespace Reader

variable {α β : Type} {r : Reader α}

/-- A result stands whatever follows the input, and so does a failure that more input does not
mend. -/
structure Local (r : Reader α) : Prop where
  ok {bytes rest : List UInt8} {x : α} (more : List UInt8) :
    r bytes = .ok (x, rest) → r (bytes ++ more) = .ok (x, rest ++ more)
  error {bytes : List UInt8} {e : FormatError} (more : List UInt8) :
    r bytes = .error e → e.isTruncation = false → r (bytes ++ more) = .error e

/-! ### Local readers in sequence -/

theorem local_pure (x : α) : (pure x : Reader α).Local where
  ok more found := by
    cases found
    rfl
  error more failed := by cases failed

theorem local_fail (e : FormatError) : (fail e : Reader α).Local where
  ok more found := by cases found
  error more failed _ := by
    cases failed
    rfl

theorem Local.bind {f : α → Reader β} (first : r.Local) (next : ∀ x, (f x).Local) :
    (r >>= f).Local where
  ok more found := by
    obtain ⟨x, middle, ran, last⟩ := bind_eq_ok_iff.mp found
    exact bind_eq_ok_iff.mpr ⟨x, middle ++ more, first.ok more ran, (next x).ok more last⟩
  error more failed lasting := by
    rcases bind_eq_error_iff.mp failed with stopped | ⟨x, middle, ran, stopped⟩
    · exact bind_eq_error_iff.mpr (.inl (first.error more stopped lasting))
    · have later := (next x).error more stopped lasting
      exact bind_eq_error_iff.mpr (.inr ⟨x, middle ++ more, first.ok more ran, later⟩)

theorem Local.map (f : α → β) (settled : r.Local) : (f <$> r).Local where
  ok more found := by
    obtain ⟨x, ran, same⟩ := map_eq_ok_iff.mp found
    exact map_eq_ok_iff.mpr ⟨x, settled.ok more ran, same⟩
  error more failed lasting := by
    have stopped := map_eq_error_iff.mp failed
    exact map_eq_error_iff.mpr (settled.error more stopped lasting)

/-! ### Bytes, numbers and repetition -/

theorem local_byte : byte.Local where
  ok {bytes rest x} more found := by
    cases bytes with
    | nil => cases found
    | cons head tail =>
      cases found
      rfl
  error {bytes e} more failed lasting := by
    cases bytes with
    | nil =>
      cases failed
      cases lasting
    | cons head tail => cases failed

theorem local_number (width : Nat) : (number width).Local := by
  induction width with
  | zero => exact local_pure 0
  | succ width ih =>
    unfold number
    exact local_byte.bind fun low => ih.bind fun high => local_pure _

theorem local_take (length : Nat) : (take length).Local where
  ok {bytes rest taken} more found := by
    obtain ⟨counted, rfl⟩ := take_eq_ok_iff.mp found
    exact take_eq_ok_iff.mpr ⟨counted, List.append_assoc _ _ _⟩
  error {bytes e} more failed lasting := by
    -- Taking fails only where the input is too short.
    unfold take at failed
    split at failed
    · cases failed
      cases lasting
    · cases failed

theorem Local.times (item : r.Local) (n : Nat) : (r.times n).Local := by
  induction n with
  | zero => exact local_pure []
  | succ n ih =>
    unfold Reader.times
    exact item.bind fun first => ih.bind fun others => local_pure _

end Reader

/-! ### Saved forms -/

/-- What is read of a structure is settled by its own bytes. -/
class LocalForm (α : Type) [SavedForm α] : Prop where
  local_read : (read : Reader α).Local

open LocalForm (local_read)
open Reader (local_pure local_fail)

instance : LocalForm Bool where
  local_read := by
    refine Reader.local_byte.bind fun byte => ?_
    split
    · exact local_pure false
    · exact local_pure true
    · exact local_fail _

instance : LocalForm UInt32 where
  local_read := (Reader.local_number 4).map _

instance : LocalForm Int32 where
  local_read := (local_read (α := UInt32)).map _

instance : LocalForm Number.Binary32 where
  local_read := (local_read (α := UInt32)).map _

instance : LocalForm String where
  local_read := by
    refine (Reader.local_number 8).bind fun length => ?_
    refine (Reader.local_take length).bind fun text => ?_
    split
    · exact local_pure _
    · exact local_fail _

instance {α : Type} [SavedForm α] [LocalForm α] : LocalForm (List α) where
  local_read := (Reader.local_number 8).bind fun length => local_read.times length

instance : LocalForm Value where
  local_read := by
    refine (local_read (α := UInt32)).bind fun tag => ?_
    unfold Value.readPayload
    split
    · exact local_read.map _
    · exact local_read.map _
    · exact local_read.map _
    · exact local_read.map _
    · exact local_fail _

instance : LocalForm Snapshot where
  local_read := by
    refine local_read.bind fun version => ?_
    refine local_read.bind fun names => ?_
    exact local_read.bind fun values => local_pure _

instance : LocalForm Scope where
  local_read := by
    refine (local_read (α := Snapshot)).bind fun p => ?_
    split
    · exact local_pure _
    · exact local_fail _

/-! ### Whole inputs -/

variable {α : Type} [SavedForm α]

theorem decode_append_of_fault [LocalForm α] (failed : (decode bytes : Except _ α) = .error e)
    (fault : e.isFault = true) (more : List UInt8) :
    (decode (bytes ++ more) : Except _ α) = .error e := by
  rcases decode_eq_error_iff.mp failed with stopped | ⟨rfl, -⟩
  · exact decode_of_error (local_read.error more stopped (FormatError.not_isTruncation fault))
  · cases fault

variable [Sized α] [Canonical α] {x : α}

theorem decode_of_continued {more : List UInt8} (fits : Fits x) (further : more ≠ []) :
    (decode (encode x ++ more) : Except _ α) = .error .trailingBytes := by
  have found : read (encode x ++ more) = .ok (x, more) :=
    Canonical.read_eq_ok_iff.mpr ⟨fits, rfl⟩
  rw [decode_of_ok found, if_neg further]

theorem decode_of_cut [LocalForm α] {part : List UInt8} (fits : Fits x) (cut : part <+: encode x)
    (proper : part ≠ encode x) :
    ∃ e, (decode part : Except _ α) = .error e ∧ e.isTruncation = true := by
  obtain ⟨missing, whole⟩ := cut
  have found : read (part ++ missing) = .ok (x, []) := by
    rw [whole]
    exact Canonical.read_eq_ok_iff.mpr ⟨fits, (List.append_nil _).symm⟩
  cases ran : (read : Reader α) part with
  | error e =>
    refine ⟨e, decode_of_error ran, ?_⟩
    -- A lasting failure would be that of the whole encoding.
    rw [← Bool.not_eq_false]
    intro lasting
    rw [local_read.error missing ran lasting] at found
    cases found
  | ok read =>
    -- Nothing of the whole encoding is left over, so nothing is missing.
    obtain ⟨y, rest⟩ := read
    rw [local_read.ok missing ran, Except.ok.injEq, Prod.mk.injEq] at found
    obtain ⟨-, rfl⟩ := List.append_eq_nil_iff.mp found.2
    rw [List.append_nil] at whole
    exact (proper whole).elim

/-- Where an encoding ends can be told from its bytes: one that is cut short asks for more input,
one that is continued has bytes left over, and a fault is the same whatever follows it. -/
structure Delimited (α : Type) [SavedForm α] [Sized α] : Prop where
  cut (x : α) (part : List UInt8) : Fits x → part <+: encode x → part ≠ encode x →
    ∃ e, (decode part : Except _ α) = .error e ∧ e.isTruncation = true
  continued (x : α) (more : List UInt8) : Fits x → more ≠ [] →
    (decode (encode x ++ more) : Except _ α) = .error .trailingBytes
  fault (bytes more : List UInt8) (e : FormatError) : (decode bytes : Except _ α) = .error e →
    e.isFault = true → (decode (bytes ++ more) : Except _ α) = .error e

theorem delimited (α : Type) [SavedForm α] [Sized α] [Canonical α] [LocalForm α] :
    Delimited α where
  cut _ _ fits cut proper := decode_of_cut fits cut proper
  continued _ _ fits further := decode_of_continued fits further
  fault _ more _ failed fault := decode_append_of_fault failed fault more

end ScriptState

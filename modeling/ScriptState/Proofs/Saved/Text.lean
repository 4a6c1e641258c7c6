import ScriptState.Proofs.Saved.Canonical
import ScriptState.Proofs.Text.Utf8.Diagnosis

/-!
# Saved strings

The bytes of a string follow their length. `decode_savedText_exact` says what becomes of them,
whatever they are: a text is accepted, bytes that are none are refused with their diagnosis, which
what follows does not change, and a length beyond the input is refused before the bytes are looked
at.
-/

namespace ScriptState

open SavedForm

/-- The kind of a string and a length, and then any bytes. -/
def savedText (length : Nat) (rest : List UInt8) : List UInt8 :=
  write (3 : UInt32) ++ (writeLength length ++ rest)

variable {length : Nat} {rest : List UInt8}

theorem read_writeLength (fits : length < lengthLimit) (rest : List UInt8) :
    (read : Reader String) (writeLength length ++ rest) =
      if rest.length < length then .error .shortText
      else match Utf8.decode (rest.take length) with
        | .ok text => .ok (String.ofList text, rest.drop length)
        | .error fault => .error (.badText fault) := by
  have counted : readLength (writeLength length ++ rest) = .ok (length, rest) :=
    readLength_eq_ok_iff.mpr ⟨fits, rfl⟩
  show (readLength >>= _) _ = _
  rw [Reader.bind_apply, counted]
  show (Reader.take length >>= _) rest = _
  rw [Reader.bind_apply, Reader.take]
  by_cases short : rest.length < length
  · rw [if_pos short, if_pos short]
  · rw [if_neg short, if_neg short]
    dsimp only
    cases Utf8.decode (rest.take length) <;> rfl

theorem read_savedText : (read : Reader Value) (savedText length rest) =
    (Value.str <$> (read : Reader String)) (writeLength length ++ rest) := by
  have kind : (read : Reader UInt32) (savedText length rest) = .ok (3, writeLength length ++ rest) :=
    Canonical.read_eq_ok_iff.mpr ⟨trivial, rfl⟩
  show Value.read (savedText length rest) = _
  rw [Value.read, Reader.bind_apply, kind]
  rfl

theorem decode_savedText_of_short (fits : length < lengthLimit) (short : rest.length < length) :
    (decode (savedText length rest) : Except _ Value) = .error .shortText := by
  apply decode_of_error
  rw [read_savedText, Reader.map_eq_error_iff, read_writeLength fits, if_pos short]

variable {bytes : List UInt8}

theorem read_writeLength_append (fits : bytes.length < lengthLimit) (rest : List UInt8) :
    (read : Reader String) (writeLength bytes.length ++ (bytes ++ rest)) =
      match Utf8.decode bytes with
      | .ok text => .ok (String.ofList text, rest)
      | .error fault => .error (.badText fault) := by
  have enough : ¬(bytes ++ rest).length < bytes.length := by simp
  rw [read_writeLength fits, if_neg enough, List.take_left, List.drop_left]

theorem decode_savedText_of_text {text : List Char} (fits : (Utf8.encode text).length < lengthLimit)
    (rest : List UInt8) :
    (decode (savedText (Utf8.encode text).length (Utf8.encode text ++ rest)) : Except _ Value) =
      if rest = [] then .ok (.str (String.ofList text)) else .error .trailingBytes := by
  apply decode_of_ok
  rw [read_savedText, Reader.map_eq_ok_iff]
  refine ⟨String.ofList text, ?_, rfl⟩
  rw [read_writeLength_append fits, Utf8.decode_encode]

theorem decode_savedText_of_fault {fault : Utf8.Fault} (fits : bytes.length < lengthLimit)
    (failed : Utf8.decode bytes = .error fault) (rest : List UInt8) :
    (decode (savedText bytes.length (bytes ++ rest)) : Except _ Value) =
      .error (.badText fault) := by
  apply decode_of_error
  rw [read_savedText, Reader.map_eq_error_iff, read_writeLength_append fits, failed]

theorem decode_savedText_eq_badText_iff {fault : Utf8.Fault} (fits : bytes.length < lengthLimit)
    (rest : List UInt8) :
    (decode (savedText bytes.length (bytes ++ rest)) : Except _ Value) = .error (.badText fault) ↔
      Utf8.Diagnosis bytes fault := by
  rw [← Utf8.decode_eq_error_iff]
  constructor
  · intro failed
    cases decoded : Utf8.decode bytes with
    | ok text =>
      obtain rfl := Utf8.decode_eq_ok_iff.mp decoded
      rw [decode_savedText_of_text fits] at failed
      split at failed <;> cases failed
    | error other =>
      rw [decode_savedText_of_fault fits decoded] at failed
      cases failed
      rfl
  · intro failed
    exact decode_savedText_of_fault fits failed rest

/-- Bytes that are a text are accepted as a string, unless more follow. Bytes that are none are
refused with the one diagnosis that they have, whatever follows. A length that is beyond the input
is refused as such, whatever the bytes. -/
theorem decode_savedText_exact :
    (∀ bytes : List UInt8, bytes.length < lengthLimit →
      (∀ text, bytes = Utf8.encode text → ∀ rest,
        (decode (savedText bytes.length (bytes ++ rest)) : Except _ Value) =
          if rest = [] then .ok (.str (String.ofList text)) else .error .trailingBytes) ∧
      (¬Utf8.IsText bytes → ∃ fault, ∀ rest,
        (decode (savedText bytes.length (bytes ++ rest)) : Except _ Value) =
          .error (.badText fault)) ∧
      ∀ fault rest,
        (decode (savedText bytes.length (bytes ++ rest)) : Except _ Value) =
          .error (.badText fault) ↔ Utf8.Diagnosis bytes fault) ∧
    ∀ length rest, length < lengthLimit → rest.length < length →
      (decode (savedText length rest) : Except _ Value) = .error .shortText := by
  refine ⟨fun bytes fits => ⟨?_, fun none => ?_, fun fault rest => ?_⟩,
    fun length rest fits short => decode_savedText_of_short fits short⟩
  · intro text same rest
    subst same
    exact decode_savedText_of_text fits rest
  · obtain ⟨fault, diagnosis⟩ := Utf8.exists_diagnosis none
    exact ⟨fault, fun rest => (decode_savedText_eq_badText_iff fits rest).mpr diagnosis⟩
  · exact decode_savedText_eq_badText_iff fits rest

theorem decode_savedText_exact_at_each_kind :
    (decode (savedText 3 ([0x61, 0xc3, 0xa9] ++ [])) : Except _ Value) = .ok (.str "aé") ∧
      (∀ rest, (decode (savedText 4 ([0x61, 0xed, 0xa0, 0x80] ++ rest)) : Except _ Value) =
        .error (.badText (.invalid 1 1))) ∧
      Utf8.Diagnosis [0x61, 0xf0, 0x9f, 0x98, 0x61] (.invalid 1 3) ∧
      Utf8.Diagnosis [0x61, 0xf0, 0x9f, 0x98] (.incomplete 1) ∧
      (decode (savedText 2 [0xff]) : Except _ Value) = .error .shortText := by
  obtain ⟨settled, short⟩ := decode_savedText_exact
  obtain ⟨accepted, -, -⟩ := settled [0x61, 0xc3, 0xa9] (by decide)
  obtain ⟨-, -, surrogate⟩ := settled [0x61, 0xed, 0xa0, 0x80] (by decide)
  obtain ⟨-, -, broken⟩ := settled [0x61, 0xf0, 0x9f, 0x98, 0x61] (by decide)
  obtain ⟨-, -, cut⟩ := settled [0x61, 0xf0, 0x9f, 0x98] (by decide)
  have stray := (surrogate (.invalid 1 1) []).mp rfl
  exact ⟨accepted ['a', 'é'] rfl [], fun rest => (surrogate _ rest).mpr stray,
    (broken (.invalid 1 3) []).mp rfl, (cut (.incomplete 1) []).mp rfl,
    short 2 [0xff] (by decide) (by decide)⟩

end ScriptState

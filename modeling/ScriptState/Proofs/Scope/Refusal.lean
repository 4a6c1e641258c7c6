import ScriptState.Proofs.Saved.Locality
import ScriptState.Proofs.Scope.Loading

/-!
# Which bytes hold no scope

Bytes are read as a scope in two ways: by `Scope.decode`, which looks at the snapshot when the
whole input is read, and through the saved form, as a part of a larger structure is, where the
snapshot is looked at as soon as it is read. `decode_agrees` says how far the two differ, and
`delimited_saves` what becomes of bytes that were cut short or continued.
-/

namespace ScriptState

open SavedForm
open Sized (Fits)

variable {bytes rest : List UInt8} {s : Scope} {p : Snapshot} {e : FormatError}
  {reason : SnapshotError}

namespace Scope

theorem fits_empty : Fits empty := by
  refine empty.lists_entries.fits_iff.mpr ?_
  rw [entries_empty]
  decide +kernel

/-! ### Through the saved form -/

theorem read_eq_ok_iff :
    (read : Reader Scope) bytes = .ok (s, rest) ↔
      ∃ p : Snapshot, read bytes = .ok (p, rest) ∧ p.toScope = .ok s := by
  constructor
  · intro found
    obtain ⟨p, middle, ran, checked⟩ := Reader.bind_eq_ok_iff.mp found
    cases described : p.toScope with
    | error reason =>
      rw [described] at checked
      cases checked
    | ok t =>
      rw [described] at checked
      cases checked
      exact ⟨p, ran, described⟩
  · rintro ⟨p, ran, valid⟩
    refine Reader.bind_eq_ok_iff.mpr ⟨p, rest, ran, ?_⟩
    rw [valid]
    rfl

theorem read_eq_error_iff :
    (read : Reader Scope) bytes = .error e ↔
      (read : Reader Snapshot) bytes = .error e ∨
        ∃ (p : Snapshot) (rest : List UInt8) (reason : SnapshotError),
          read bytes = .ok (p, rest) ∧ p.toScope = .error reason ∧ e = .refused reason := by
  constructor
  · intro failed
    rcases Reader.bind_eq_error_iff.mp failed with stopped | ⟨p, middle, ran, checked⟩
    · exact .inl stopped
    · cases described : p.toScope with
      | error reason =>
        rw [described] at checked
        cases checked
        exact .inr ⟨p, middle, reason, ran, described, rfl⟩
      | ok t =>
        rw [described] at checked
        cases checked
  · rintro (stopped | ⟨p, middle, reason, ran, refused, rfl⟩)
    · exact Reader.bind_eq_error_iff.mpr (.inl stopped)
    · refine Reader.bind_eq_error_iff.mpr (.inr ⟨p, middle, ran, ?_⟩)
      rw [refused]
      rfl

/-! ### As a whole input -/

theorem decode_of_unread (failed : (ScriptState.decode bytes : Except _ Snapshot) = .error e) :
    Scope.decode bytes = .error (.format e) := by
  unfold Scope.decode
  rw [failed]
  rfl

theorem decode_of_refused (found : ScriptState.decode bytes = .ok p)
    (refused : p.toScope = .error reason) : Scope.decode bytes = .error (.snapshot reason) := by
  unfold Scope.decode
  rw [found]
  change p.toScope.mapError LoadError.snapshot = _
  rw [refused]
  rfl

/-- Both ways of reading take the same bytes for the same scope. Bytes from which no snapshot can
be read are refused for the same reason, and so are bytes that go on after a valid one. For an
invalid snapshot the reason is the same unless the bytes go on, which only `Scope.decode` sees
before the snapshot is looked at. -/
theorem decode_agrees (bytes : List UInt8) :
    (∀ s, Scope.decode bytes = .ok s ↔ ScriptState.decode bytes = .ok s) ∧
      (∀ e, (read : Reader Snapshot) bytes = .error e →
        Scope.decode bytes = .error (.format e) ∧
          (ScriptState.decode bytes : Except _ Scope) = .error e) ∧
      (∀ (p : Snapshot) rest s, read bytes = .ok (p, rest) → p.toScope = .ok s → rest ≠ [] →
        Scope.decode bytes = .error (.format .trailingBytes) ∧
          (ScriptState.decode bytes : Except _ Scope) = .error .trailingBytes) ∧
      ∀ (p : Snapshot) rest reason, read bytes = .ok (p, rest) → p.toScope = .error reason →
        Scope.decode bytes =
            .error (if rest = [] then .snapshot reason else .format .trailingBytes) ∧
          (ScriptState.decode bytes : Except _ Scope) = .error (.refused reason) ∧
          (FormatError.refused reason).message = reason.message := by
  refine ⟨fun s => ?_, fun e failed => ⟨?_, ?_⟩, fun p rest s ran valid further => ⟨?_, ?_⟩,
    fun p rest reason ran refused => ⟨?_, ?_, rfl⟩⟩
  · simp only [decode_eq_ok_iff_toScope, decode_eq_ok_iff_read, read_eq_ok_iff]
  · exact decode_of_unread (decode_of_error failed)
  · exact decode_of_error (read_eq_error_iff.mpr (.inl failed))
  · refine decode_of_unread ?_
    rw [decode_of_ok ran, if_neg further]
  · rw [decode_of_ok (read_eq_ok_iff.mpr ⟨p, ran, valid⟩), if_neg further]
  · have whole := decode_of_ok ran
    split
    · rename_i ended
      rw [if_pos ended] at whole
      exact decode_of_refused whole refused
    · rename_i further
      rw [if_neg further] at whole
      exact decode_of_unread whole
  · exact decode_of_error (read_eq_error_iff.mpr (.inr ⟨p, rest, reason, ran, refused, rfl⟩))

theorem decode_agrees_at_each_end :
    let invalid : Snapshot := ⟨2, ["é"], []⟩
    (Scope.decode [1] = .error (.format .endOfInput) ∧
        (ScriptState.decode [1] : Except _ Scope) = .error .endOfInput) ∧
      (Scope.decode (Scope.empty.encode ++ [0]) = .error (.format .trailingBytes) ∧
        (ScriptState.decode (Scope.empty.encode ++ [0]) : Except _ Scope) =
          .error .trailingBytes) ∧
      (Scope.decode (ScriptState.encode invalid) = .error (.snapshot (.version 2)) ∧
        (ScriptState.decode (ScriptState.encode invalid) : Except _ Scope) =
          .error (.refused (.version 2))) ∧
      Scope.decode (ScriptState.encode invalid ++ [0]) = .error (.format .trailingBytes) ∧
        (ScriptState.decode (ScriptState.encode invalid ++ [0]) : Except _ Scope) =
          .error (.refused (.version 2)) := by
  intro invalid
  have fits : Fits invalid := by decide +kernel
  have valid : Scope.empty.snapshot.toScope = .ok .empty :=
    Snapshot.toScope_eq_ok_iff_lists.mpr ⟨_, Scope.empty.snapshot_eq, Scope.empty.lists_entries⟩
  have refused : invalid.toScope = .error (.version 2) := rfl
  have ended : read (ScriptState.encode invalid) = .ok (invalid, []) :=
    Canonical.read_eq_ok_iff.mpr ⟨fits, (List.append_nil _).symm⟩
  have further : read (ScriptState.encode invalid ++ [0]) = .ok (invalid, [0]) :=
    Canonical.read_eq_ok_iff.mpr ⟨fits, rfl⟩
  have unread := (decode_agrees [1]).2.1 .endOfInput rfl
  have continued := (decode_agrees (Scope.empty.encode ++ [0])).2.2.1 Scope.empty.snapshot [0]
    .empty (Canonical.read_eq_ok_iff.mpr ⟨fits_empty, rfl⟩) valid (by decide)
  have whole := (decode_agrees _).2.2.2 invalid [] _ ended refused
  have partly := (decode_agrees _).2.2.2 invalid [0] _ further refused
  exact ⟨unread, continued, ⟨whole.1, whole.2.1⟩, partly.1, partly.2.1⟩

end Scope

/-! ### Saves that were cut short or continued -/

/-- No save decodes after it was cut short or continued, and a fault within it is reported
whatever follows. -/
theorem delimited_saves :
    Delimited Value ∧ Delimited (List Value) ∧ Delimited Snapshot ∧
      (∀ s : Scope, Fits s →
        (∀ part, part <+: s.encode → part ≠ s.encode →
          ∃ e, Scope.decode part = .error (.format e) ∧ e.isTruncation = true) ∧
        ∀ more, more ≠ [] → Scope.decode (s.encode ++ more) = .error (.format .trailingBytes)) ∧
      FormatError.trailingBytes.message = "Slice had bytes remaining after deserialization" := by
  refine ⟨delimited Value, delimited (List Value), delimited Snapshot,
    fun s fits => ⟨?_, ?_⟩, rfl⟩
  · intro part cut proper
    obtain ⟨e, failed, truncated⟩ := (delimited Snapshot).cut s.snapshot part fits cut proper
    exact ⟨e, Scope.decode_of_unread failed, truncated⟩
  · intro more further
    exact Scope.decode_of_unread ((delimited Snapshot).continued s.snapshot more fits further)

theorem delimited_saves_within_character :
    let v : Value := .str "é"
    let part : List UInt8 := [3, 0, 0, 0, 2, 0, 0, 0, 0, 0, 0, 0, 0xc3]
    (∃ e, (decode part : Except _ Value) = .error e ∧ e.isTruncation = true) ∧
      (decode (encode [v] ++ [0]) : Except _ (List Value)) = .error .trailingBytes ∧
      (decode ([0, 0, 0, 0, 2] ++ [0]) : Except _ Value) = .error (.badBool 2) ∧
      (∃ e, Scope.decode (Scope.empty.encode.take 11) = .error (.format e) ∧
        e.isTruncation = true) ∧
      Scope.decode (Scope.empty.encode ++ [0]) = .error (.format .trailingBytes) := by
  intro v part
  obtain ⟨value, list, -, scope, -⟩ := delimited_saves
  have written : encode v = part ++ [0xa9] := by decide +kernel
  have fits : Fits v := by decide +kernel
  have fitsList : Fits [v] := by decide +kernel
  have length : Scope.empty.encode.length = 20 := by
    rw [Scope.encode, Scope.snapshot_eq, Scope.entries_empty]
    rfl
  refine ⟨?_, list.continued [v] [0] fitsList (by decide), ?_, ?_, ?_⟩
  · refine value.cut v part fits ⟨[0xa9], written.symm⟩ ?_
    rw [written]
    decide
  · exact value.fault [0, 0, 0, 0, 2] [0] (.badBool 2) rfl rfl
  · refine (scope .empty Scope.fits_empty).1 _ (List.take_prefix 11 _) fun same => ?_
    have shorter := congrArg List.length same
    rw [List.length_take, length] at shorter
    omega
  · exact (scope .empty Scope.fits_empty).2 [0] (by decide)

end ScriptState

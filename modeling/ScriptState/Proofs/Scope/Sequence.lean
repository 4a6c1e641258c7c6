import Mathlib.Data.List.Forall2
import ScriptState.Proofs.Scope.Refusal

/-!
# Scopes in a sequence

A sequence of scopes is read as a sequence of snapshots, each of which is looked at before the next
one is read. So what is wrong with a snapshot is reported before anything that follows it, and
`decode_list_settled` says which bytes hold a sequence and which failure the others yield.
-/

namespace ScriptState

open SavedForm
open Sized (Fits)

def Snapshot.Describes (p : Snapshot) (s : Scope) : Prop := p.toScope = .ok s

namespace Scope

variable {bytes rest left : List UInt8} {e : FormatError} {ps : List Snapshot}
  {scopes : List Scope} {n : Nat}

theorem fits_of_describes {p : Snapshot} {s : Scope} (describes : p.Describes s) (fits : Fits p) :
    Fits s := by
  obtain ⟨listing, rfl, lists⟩ := Snapshot.toScope_eq_ok_iff_lists.mp describes
  exact lists.fits_iff.mpr fits

theorem fits_of_describe (describe : List.Forall₂ Snapshot.Describes ps scopes) (fits : Fits ps) :
    Fits scopes := by
  obtain ⟨short, fitting⟩ := fits
  refine ⟨describe.length_eq ▸ short, ?_⟩
  clear short
  induction describe with
  | nil => exact List.forall_mem_nil _
  | cons first _ ih =>
    obtain ⟨fits, others⟩ := List.forall_mem_cons.mp fitting
    exact List.forall_mem_cons.mpr ⟨fits_of_describes first fits, ih others⟩

/-! ### Snapshots first, scopes second -/

theorem times_read_eq_ok_iff :
    Reader.times (read : Reader Scope) n bytes = .ok (scopes, rest) ↔
      ∃ ps : List Snapshot, Reader.times read n bytes = .ok (ps, rest) ∧
        List.Forall₂ Snapshot.Describes ps scopes := by
  induction n generalizing bytes scopes with
  | zero =>
    constructor
    · intro found
      cases found
      exact ⟨[], rfl, .nil⟩
    · rintro ⟨ps, found, describe⟩
      cases found
      cases describe
      rfl
  | succ n ih =>
    constructor
    · intro found
      obtain ⟨s, middle, first, remaining⟩ := Reader.bind_eq_ok_iff.mp found
      obtain ⟨others, last, following, ended⟩ := Reader.bind_eq_ok_iff.mp remaining
      cases ended
      obtain ⟨p, ran, describes⟩ := read_eq_ok_iff.mp first
      obtain ⟨ps, snapshots, describe⟩ := ih.mp following
      refine ⟨p :: ps, ?_, .cons describes describe⟩
      exact Reader.bind_eq_ok_iff.mpr
        ⟨p, middle, ran, Reader.bind_eq_ok_iff.mpr ⟨ps, rest, snapshots, rfl⟩⟩
    · rintro ⟨_, found, describe⟩
      obtain ⟨p, middle, ran, remaining⟩ := Reader.bind_eq_ok_iff.mp found
      obtain ⟨ps, last, snapshots, ended⟩ := Reader.bind_eq_ok_iff.mp remaining
      cases ended
      cases describe with
      | @cons _ s _ others describes describe =>
        have first := read_eq_ok_iff.mpr ⟨p, ran, describes⟩
        have following := ih.mpr ⟨ps, snapshots, describe⟩
        exact Reader.bind_eq_ok_iff.mpr
          ⟨s, middle, first, Reader.bind_eq_ok_iff.mpr ⟨others, rest, following, rfl⟩⟩

theorem read_list_eq_ok_iff :
    (read : Reader (List Scope)) bytes = .ok (scopes, rest) ↔
      ∃ ps : List Snapshot, Fits ps ∧ List.Forall₂ Snapshot.Describes ps scopes ∧
        bytes = writeLength scopes.length ++ ps.flatMap ScriptState.encode ++ rest := by
  constructor
  · intro found
    obtain ⟨count, middle, counted, items⟩ := Reader.bind_eq_ok_iff.mp found
    obtain ⟨ps, snapshots, describe⟩ := times_read_eq_ok_iff.mp items
    have read_list : (read : Reader (List Snapshot)) bytes = .ok (ps, rest) :=
      Reader.bind_eq_ok_iff.mpr ⟨count, middle, counted, snapshots⟩
    obtain ⟨fits, rfl⟩ := Canonical.read_eq_ok_iff.mp read_list
    rw [← describe.length_eq]
    exact ⟨ps, fits, describe, rfl⟩
  · rintro ⟨ps, fits, describe, rfl⟩
    rw [← describe.length_eq]
    have read_list : (read : Reader (List Snapshot)) (write ps ++ rest) = .ok (ps, rest) :=
      Canonical.read_eq_ok_iff.mpr ⟨fits, rfl⟩
    obtain ⟨count, middle, counted, items⟩ := Reader.bind_eq_ok_iff.mp read_list
    refine Reader.bind_eq_ok_iff.mpr ⟨count, middle, counted, ?_⟩
    exact times_read_eq_ok_iff.mpr ⟨ps, items, describe⟩

theorem decode_list_eq_ok_iff :
    ScriptState.decode bytes = .ok scopes ↔
      ∃ ps : List Snapshot, Fits ps ∧ List.Forall₂ Snapshot.Describes ps scopes ∧
        bytes = writeLength scopes.length ++ ps.flatMap ScriptState.encode := by
  rw [decode_eq_ok_iff_read, read_list_eq_ok_iff]
  simp only [List.append_nil]

/-- Scopes survive saving in a sequence exactly if their lengths can be written. -/
theorem decode_encode_list_iff :
    ScriptState.decode (ScriptState.encode scopes) = .ok scopes ↔ Fits scopes := by
  rw [decode_list_eq_ok_iff]
  constructor
  · rintro ⟨ps, fits, describe, -⟩
    exact fits_of_describe describe fits
  · rintro ⟨short, fits⟩
    refine ⟨scopes.map snapshot, ⟨?_, ?_⟩, ?_, ?_⟩
    · rw [List.length_map]
      exact short
    · exact List.forall_mem_map.mpr fits
    · rw [List.forall₂_map_left_iff, List.forall₂_same]
      exact fun s _ => Snapshot.toScope_snapshot s
    · rw [List.flatMap_map]
      rfl

/-! ### Where reading stops -/

/-- Why a sequence of `count` scopes is refused at the bytes `left`, which follow the snapshots of
`done` scopes. -/
inductive StopsAt (count done : Nat) (left : List UInt8) : FormatError → Prop
  /-- The next snapshot cannot be read. -/
  | unread {e : FormatError} (missing : done < count)
      (failed : (read : Reader Snapshot) left = .error e) : StopsAt count done left e
  /-- The next snapshot is no scope, whatever follows it. -/
  | refused {p : Snapshot} {more : List UInt8} {reason : SnapshotError} (missing : done < count)
      (found : read left = .ok (p, more)) (refused : p.toScope = .error reason) :
      StopsAt count done left (.refused reason)
  /-- All scopes are read, and the input goes on. -/
  | trailing (complete : done = count) (further : left ≠ []) :
      StopsAt count done left .trailingBytes

theorem stopsAt_iff {count done : Nat} (within : done < count) :
    StopsAt count done left e ↔ (read : Reader Scope) left = .error e := by
  rw [read_eq_error_iff]
  constructor
  · intro stops
    cases stops with
    | unread _ failed => exact .inl failed
    | refused _ found refused => exact .inr ⟨_, _, _, found, refused, rfl⟩
    | trailing complete _ => omega
  · rintro (failed | ⟨p, more, reason, found, refused, rfl⟩)
    · exact .unread within failed
    · exact .refused within found refused

theorem decode_list_eq_error_iff :
    (ScriptState.decode bytes : Except _ (List Scope)) = .error e ↔
      (bytes.length < 8 ∧ e = .endOfInput) ∨
        ∃ count ps done left, count < lengthLimit ∧ (∀ p ∈ ps, Fits p) ∧
          List.Forall₂ Snapshot.Describes ps done ∧
          bytes = writeLength count ++ (ps.flatMap ScriptState.encode ++ left) ∧
          StopsAt count ps.length left e := by
  rw [decode_eq_error_iff]
  constructor
  · rintro (failed | ⟨rfl, scopes, left, found, further⟩)
    · rcases Reader.bind_eq_error_iff.mp failed with uncounted | ⟨count, middle, counted, stopped⟩
      · exact .inl (Reader.number_eq_error_iff.mp uncounted)
      obtain ⟨bounded, rfl⟩ := readLength_eq_ok_iff.mp counted
      obtain ⟨k, done, left, before, ran, failure⟩ := Reader.times_eq_error_iff.mp stopped
      obtain ⟨ps, snapshots, describe⟩ := times_read_eq_ok_iff.mp ran
      obtain ⟨rfl, fits, rfl⟩ := times_eq_ok_iff.mp snapshots
      exact .inr ⟨count, ps, done, left, bounded, fits, describe, rfl,
        (stopsAt_iff before).mpr failure⟩
    · obtain ⟨ps, fits, describe, rfl⟩ := read_list_eq_ok_iff.mp found
      rw [← describe.length_eq, List.append_assoc]
      exact .inr ⟨ps.length, ps, scopes, left, fits.1, fits.2, describe, rfl,
        .trailing rfl further⟩
  · rintro (uncounted | ⟨count, ps, done, left, bounded, fits, describe, rfl, stops⟩)
    · have uncounted := Reader.number_eq_error_iff.mpr uncounted
      exact .inl (Reader.bind_eq_error_iff.mpr (.inl uncounted))
    have snapshots : Reader.times read ps.length (ps.flatMap write ++ left) = .ok (ps, left) :=
      times_eq_ok_iff.mpr ⟨rfl, fits, rfl⟩
    have ran := times_read_eq_ok_iff.mpr ⟨ps, snapshots, describe⟩
    by_cases within : ps.length < count
    · have failure := (stopsAt_iff within).mp stops
      have counted : readLength (writeLength count ++ (ps.flatMap write ++ left)) =
          .ok (count, ps.flatMap write ++ left) := readLength_eq_ok_iff.mpr ⟨bounded, rfl⟩
      refine .inl (Reader.bind_eq_error_iff.mpr (.inr ⟨count, _, counted, ?_⟩))
      exact Reader.times_eq_error_iff.mpr ⟨ps.length, done, left, within, ran, failure⟩
    · cases stops with
      | unread missing _ | refused missing _ _ => exact (within missing).elim
      | trailing complete further =>
        subst complete
        refine .inr ⟨rfl, done, left, read_list_eq_ok_iff.mpr ⟨ps, ⟨bounded, fits⟩, describe, ?_⟩,
          further⟩
        rw [describe.length_eq, List.append_assoc]

/-- A sequence of scopes is read from its length and, for each scope, a snapshot that describes it,
and from no other bytes. Otherwise, if the length is there, the first snapshot that cannot be read
or is no scope settles the failure, whatever follows it, and bytes that are left over are reported
only if there is none. What is written for scopes whose lengths can be written is read back as
these scopes. -/
theorem decode_list_settled :
    (∀ (bytes : List UInt8) (scopes : List Scope), ScriptState.decode bytes = .ok scopes ↔
      ∃ ps : List Snapshot, Fits ps ∧ List.Forall₂ Snapshot.Describes ps scopes ∧
        bytes = writeLength scopes.length ++ ps.flatMap ScriptState.encode) ∧
      (∀ (bytes : List UInt8) (e : FormatError),
        (ScriptState.decode bytes : Except _ (List Scope)) = .error e ↔
          (bytes.length < 8 ∧ e = .endOfInput) ∨
            ∃ count ps done left, count < lengthLimit ∧ (∀ p ∈ ps, Fits p) ∧
              List.Forall₂ Snapshot.Describes ps done ∧
              bytes = writeLength count ++ (ps.flatMap ScriptState.encode ++ left) ∧
              StopsAt count ps.length left e) ∧
      (∀ (bytes more : List UInt8) (e : FormatError), e.isTruncation = false → e ≠ .trailingBytes →
        (ScriptState.decode bytes : Except _ (List Scope)) = .error e →
        (ScriptState.decode (bytes ++ more) : Except _ (List Scope)) = .error e) ∧
      (∀ reason : SnapshotError, (FormatError.refused reason).message = reason.message) ∧
      ∀ scopes : List Scope,
        ScriptState.decode (ScriptState.encode scopes) = .ok scopes ↔ Fits scopes := by
  refine ⟨fun _ _ => decode_list_eq_ok_iff, fun _ _ => decode_list_eq_error_iff, ?_, fun _ => rfl,
    fun _ => decode_encode_list_iff⟩
  intro bytes more e lasting notTrailing failed
  rcases decode_eq_error_iff.mp failed with stopped | ⟨trailing, -⟩
  · exact decode_of_error (LocalForm.local_read.error more stopped lasting)
  · exact (notTrailing trailing).elim

theorem decode_list_settled_by_second :
    let first : Snapshot := ⟨1, ["é"], [.float ⟨0x80000000⟩]⟩
    let second : Snapshot := ⟨1, ["x", "x"], [.int 1, .int 2]⟩
    let bytes := writeLength 3 ++ (ScriptState.encode first ++ ScriptState.encode second)
    (ScriptState.decode bytes : Except _ (List Scope)) = .error (.refused (.repeated "x")) ∧
      (ScriptState.decode (bytes ++ [4, 0, 0]) : Except _ (List Scope)) =
        .error (.refused (.repeated "x")) := by
  intro first second bytes
  have fitsFirst : Fits first := by decide +kernel
  have fitsSecond : Fits second := by decide +kernel
  have describes : first.Describes (empty.set "é" (.float ⟨0x80000000⟩)) :=
    Snapshot.toScope_eq_ok_iff_lists.mpr ⟨_, rfl, lists_singleton _ _⟩
  have found : read (ScriptState.encode second) = .ok (second, []) :=
    Canonical.read_eq_ok_iff.mpr ⟨fitsSecond, (List.append_nil _).symm⟩
  have refused : second.toScope = .error (.repeated "x") := by decide +kernel
  have failed := (decode_list_settled.2.1 bytes (.refused (.repeated "x"))).mpr
    (.inr ⟨3, [first], _, ScriptState.encode second, by decide,
      List.forall_mem_singleton.mpr fitsFirst, .cons describes .nil, by simp [bytes],
      .refused (by decide) found refused⟩)
  exact ⟨failed, decode_list_settled.2.2.1 bytes [4, 0, 0] _ rfl (by decide) failed⟩

end Scope

end ScriptState

import ScriptState.Proofs.Text.Utf8.Strict
import ScriptState.Saved.Form.Lemmas
import ScriptState.Scope.Snapshot

/-!
# One saved form for each structure

A `Canonical` form is read from the bytes that are written for a structure and from no others,
whatever follows them. Every type that is saved has such a form, a sequence by induction on its
length. `decode_eq_ok_iff_eq_encode` puts this together for whole inputs.
-/

namespace ScriptState

open SavedForm

/-- Lengths are written in eight bytes, as many as a length in memory has. -/
def lengthLimit : Nat := 0x10000000000000000

/-- Which structures can be saved: those whose lengths can all be written. -/
class Sized (α : Type) where
  Fits : α → Prop
  decidable : DecidablePred Fits

open Sized (Fits)

instance {α : Type} [Sized α] (x : α) : Decidable (Fits x) := Sized.decidable x

instance : Sized Bool := ⟨fun _ => True, fun _ => instDecidableTrue⟩
instance : Sized UInt32 := ⟨fun _ => True, fun _ => instDecidableTrue⟩
instance : Sized Int32 := ⟨fun _ => True, fun _ => instDecidableTrue⟩
instance : Sized Number.Binary32 := ⟨fun _ => True, fun _ => instDecidableTrue⟩

instance : Sized String :=
  ⟨fun text => (Utf8.encode text.toList).length < lengthLimit, fun _ => Nat.decLt _ _⟩

instance {α : Type} [Sized α] : Sized (List α) :=
  ⟨fun xs => xs.length < lengthLimit ∧ ∀ x ∈ xs, Fits x, fun _ => inferInstance⟩

instance : Sized Value where
  Fits
    | .bool _ | .int _ | .float _ => True
    | .str text => Fits text
  decidable
    | .bool _ | .int _ | .float _ => instDecidableTrue
    | .str text => inferInstanceAs (Decidable (Fits text))

instance : Sized Snapshot := ⟨fun p => Fits p.names ∧ Fits p.values, fun _ => inferInstance⟩

theorem fits_iff_of_perm {α : Type} [Sized α] {xs ys : List α} (perm : xs.Perm ys) :
    Fits xs ↔ Fits ys := by
  refine and_congr ?_ (forall_congr' fun x => ?_)
  · rw [perm.length_eq]
  · rw [perm.mem_iff]

/-- A structure is read from the bytes that are written for it and from no others. -/
class Canonical (α : Type) [SavedForm α] [Sized α] : Prop where
  read_eq_ok_iff {x : α} {bytes rest : List UInt8} :
    (read : Reader α) bytes = .ok (x, rest) ↔ Fits x ∧ bytes = write x ++ rest

open Canonical

variable {bytes rest : List UInt8}

/-! ### Flags and numbers -/

instance : Canonical Bool where
  read_eq_ok_iff {x bytes rest} := by
    constructor
    · intro found
      obtain ⟨byte, middle, first, matched⟩ := Reader.bind_eq_ok_iff.mp found
      cases bytes with
      | nil => cases first
      | cons head tail =>
        cases first
        split at matched
        · cases matched
          exact ⟨trivial, rfl⟩
        · cases matched
          exact ⟨trivial, rfl⟩
        · cases matched
    · rintro ⟨-, rfl⟩
      cases x <;> rfl

instance : Canonical UInt32 where
  read_eq_ok_iff {x bytes rest} := by
    constructor
    · intro found
      obtain ⟨n, number, rfl⟩ := Reader.map_eq_ok_iff.mp found
      obtain ⟨bounded, rfl⟩ := Reader.number_eq_ok_iff.mp number
      have same : (UInt32.ofNat n).toNat = n := UInt32.toNat_ofNat_of_lt' bounded
      refine ⟨trivial, ?_⟩
      simp only [write, same]
    · rintro ⟨-, rfl⟩
      refine Reader.map_eq_ok_iff.mpr ⟨x.toNat, ?_, UInt32.ofNat_toNat⟩
      exact Reader.number_eq_ok_iff.mpr ⟨x.toNat_lt, rfl⟩

instance : Canonical Int32 where
  read_eq_ok_iff {x bytes rest} := by
    constructor
    · intro found
      obtain ⟨n, number, rfl⟩ := Reader.map_eq_ok_iff.mp found
      have written := (read_eq_ok_iff (α := UInt32)).mp number
      exact written
    · intro written
      have number := (read_eq_ok_iff (α := UInt32)).mpr written
      exact Reader.map_eq_ok_iff.mpr ⟨x.toUInt32, number, rfl⟩

instance : Canonical Number.Binary32 where
  read_eq_ok_iff {x bytes rest} := by
    constructor
    · intro found
      obtain ⟨bits, number, rfl⟩ := Reader.map_eq_ok_iff.mp found
      have written := (read_eq_ok_iff (α := UInt32)).mp number
      exact written
    · intro written
      have number := (read_eq_ok_iff (α := UInt32)).mpr written
      exact Reader.map_eq_ok_iff.mpr ⟨x.bits, number, rfl⟩

theorem readLength_eq_ok_iff {n : Nat} :
    readLength bytes = .ok (n, rest) ↔ n < lengthLimit ∧ bytes = writeLength n ++ rest :=
  Reader.number_eq_ok_iff

/-! ### Texts and sequences -/

instance : Canonical String where
  read_eq_ok_iff {x bytes rest} := by
    constructor
    · intro found
      obtain ⟨length, middle, counted, others⟩ := Reader.bind_eq_ok_iff.mp found
      obtain ⟨text, last, taken, decoded⟩ := Reader.bind_eq_ok_iff.mp others
      obtain ⟨bounded, rfl⟩ := readLength_eq_ok_iff.mp counted
      obtain ⟨rfl, rfl⟩ := Reader.take_eq_ok_iff.mp taken
      cases valid : Utf8.decode text with
      | error fault =>
        rw [valid] at decoded
        cases decoded
      | ok chars =>
        rw [valid] at decoded
        cases decoded
        rw [Utf8.decode_eq_ok_iff.mp valid] at bounded ⊢
        simp only [Fits, write, String.toList_ofList, List.append_assoc]
        exact ⟨bounded, trivial⟩
    · rintro ⟨bounded, rfl⟩
      refine Reader.bind_eq_ok_iff.mpr
        ⟨(Utf8.encode x.toList).length, Utf8.encode x.toList ++ rest, ?_, ?_⟩
      · exact readLength_eq_ok_iff.mpr ⟨bounded, List.append_assoc _ _ _⟩
      refine Reader.bind_eq_ok_iff.mpr ⟨_, rest, Reader.take_eq_ok_iff.mpr ⟨rfl, rfl⟩, ?_⟩
      rw [Utf8.decode_encode]
      dsimp only
      rw [String.ofList_toList]
      rfl

variable {α : Type} [SavedForm α] [Sized α] [Canonical α]

theorem times_eq_ok_iff {n : Nat} {xs : List α} :
    Reader.times (read : Reader α) n bytes = .ok (xs, rest) ↔
      xs.length = n ∧ (∀ x ∈ xs, Fits x) ∧ bytes = xs.flatMap write ++ rest := by
  induction n generalizing xs bytes with
  | zero =>
    constructor
    · intro found
      cases found
      simp
    · rintro ⟨none, -, rfl⟩
      obtain rfl := List.eq_nil_of_length_eq_zero none
      rfl
  | succ n ih =>
    constructor
    · intro found
      obtain ⟨x, middle, first, remaining⟩ := Reader.bind_eq_ok_iff.mp found
      obtain ⟨others, last, following, ended⟩ := Reader.bind_eq_ok_iff.mp remaining
      cases ended
      obtain ⟨fits, rfl⟩ := read_eq_ok_iff.mp first
      obtain ⟨rfl, fitting, rfl⟩ := ih.mp following
      exact ⟨rfl, List.forall_mem_cons.mpr ⟨fits, fitting⟩, by simp⟩
    · rintro ⟨count, fitting, rfl⟩
      cases xs with
      | nil => cases count
      | cons x others =>
        obtain ⟨fits, fitting⟩ := List.forall_mem_cons.mp fitting
        refine Reader.bind_eq_ok_iff.mpr ⟨x, others.flatMap write ++ rest, ?_, ?_⟩
        · refine read_eq_ok_iff.mpr ⟨fits, ?_⟩
          rw [List.flatMap_cons, List.append_assoc]
        · have following := ih.mpr ⟨Nat.succ.inj count, fitting, rfl⟩
          exact Reader.bind_eq_ok_iff.mpr ⟨others, rest, following, rfl⟩

instance : Canonical (List α) where
  read_eq_ok_iff {xs bytes rest} := by
    constructor
    · intro found
      obtain ⟨length, middle, counted, items⟩ := Reader.bind_eq_ok_iff.mp found
      obtain ⟨bounded, rfl⟩ := readLength_eq_ok_iff.mp counted
      obtain ⟨rfl, fitting, rfl⟩ := times_eq_ok_iff.mp items
      exact ⟨⟨bounded, fitting⟩, (List.append_assoc _ _ _).symm⟩
    · rintro ⟨⟨bounded, fitting⟩, rfl⟩
      refine Reader.bind_eq_ok_iff.mpr ⟨xs.length, xs.flatMap write ++ rest, ?_, ?_⟩
      · exact readLength_eq_ok_iff.mpr ⟨bounded, List.append_assoc _ _ _⟩
      · exact times_eq_ok_iff.mpr ⟨rfl, fitting, rfl⟩

/-! ### Values and snapshots -/

theorem map_read_eq_ok_iff {β : Type} {f : α → β} {y : β} :
    (f <$> (read : Reader α)) bytes = .ok (y, rest) ↔
      ∃ x, f x = y ∧ Fits x ∧ bytes = write x ++ rest := by
  rw [Reader.map_eq_ok_iff]
  constructor
  · rintro ⟨x, found, rfl⟩
    exact ⟨x, rfl, read_eq_ok_iff.mp found⟩
  · rintro ⟨x, rfl, written⟩
    exact ⟨x, read_eq_ok_iff.mpr written, rfl⟩

theorem Value.read_of_payload {tag : UInt32} {v : Value} {payload : List UInt8}
    (kind : bytes = SavedForm.write tag ++ payload)
    (found : readPayload tag payload = .ok (v, rest)) : Value.read bytes = .ok (v, rest) :=
  Reader.bind_eq_ok_iff.mpr ⟨tag, payload, read_eq_ok_iff.mpr ⟨trivial, kind⟩, found⟩

instance : Canonical Value where
  read_eq_ok_iff {v bytes rest} := by
    constructor
    · intro found
      obtain ⟨tag, middle, kind, payload⟩ := Reader.bind_eq_ok_iff.mp found
      obtain ⟨-, rfl⟩ := read_eq_ok_iff.mp kind
      unfold Value.readPayload at payload
      split at payload
      iterate 4
        · obtain ⟨x, rfl, fits, rfl⟩ := map_read_eq_ok_iff.mp payload
          exact ⟨fits, (List.append_assoc _ _ _).symm⟩
      · cases payload
    · rintro ⟨fits, rfl⟩
      cases v with
      | bool b =>
        refine Value.read_of_payload (List.append_assoc _ _ _) ?_
        exact map_read_eq_ok_iff.mpr ⟨b, rfl, fits, rfl⟩
      | int n =>
        refine Value.read_of_payload (List.append_assoc _ _ _) ?_
        exact map_read_eq_ok_iff.mpr ⟨n, rfl, fits, rfl⟩
      | float x =>
        refine Value.read_of_payload (List.append_assoc _ _ _) ?_
        exact map_read_eq_ok_iff.mpr ⟨x, rfl, fits, rfl⟩
      | str text =>
        refine Value.read_of_payload (List.append_assoc _ _ _) ?_
        exact map_read_eq_ok_iff.mpr ⟨text, rfl, fits, rfl⟩

instance : Canonical Snapshot where
  read_eq_ok_iff {p bytes rest} := by
    constructor
    · intro found
      obtain ⟨version, afterVersion, first, others⟩ := Reader.bind_eq_ok_iff.mp found
      obtain ⟨names, afterNames, second, last⟩ := Reader.bind_eq_ok_iff.mp others
      obtain ⟨values, afterValues, third, ended⟩ := Reader.bind_eq_ok_iff.mp last
      cases ended
      obtain ⟨-, rfl⟩ := read_eq_ok_iff.mp first
      obtain ⟨fitNames, rfl⟩ := read_eq_ok_iff.mp second
      obtain ⟨fitValues, rfl⟩ := read_eq_ok_iff.mp third
      refine ⟨⟨fitNames, fitValues⟩, ?_⟩
      simp only [write, List.append_assoc]
    · rintro ⟨⟨fitNames, fitValues⟩, rfl⟩
      refine Reader.bind_eq_ok_iff.mpr ⟨p.version, write p.names ++ (write p.values ++ rest), ?_, ?_⟩
      · exact read_eq_ok_iff.mpr ⟨trivial, by simp only [write, List.append_assoc]⟩
      refine Reader.bind_eq_ok_iff.mpr ⟨p.names, write p.values ++ rest, ?_, ?_⟩
      · exact read_eq_ok_iff.mpr ⟨fitNames, rfl⟩
      refine Reader.bind_eq_ok_iff.mpr ⟨p.values, rest, ?_, rfl⟩
      exact read_eq_ok_iff.mpr ⟨fitValues, rfl⟩

/-! ### Whole inputs -/

theorem decode_eq_ok_iff {x : α} : decode bytes = .ok x ↔ Fits x ∧ bytes = encode x := by
  rw [decode_eq_ok_iff_read, read_eq_ok_iff, List.append_nil, encode]

/-- The kind, the length and the bytes of a text. -/
example : decode [3, 0, 0, 0, 2, 0, 0, 0, 0, 0, 0, 0, 0xc3, 0xa9] = .ok (Value.str "é") := by cbv

theorem decode_encode {x : α} (fits : Fits x) : decode (encode x) = .ok x :=
  decode_eq_ok_iff.mpr ⟨fits, rfl⟩

theorem encode_inj {x y : α} (fitsX : Fits x) (fitsY : Fits y) : encode x = encode y ↔ x = y := by
  refine ⟨fun same => ?_, fun same => same ▸ rfl⟩
  have back := decode_encode fitsX
  rw [same, decode_encode fitsY] at back
  exact (Except.ok.inj back).symm

/-- Values, lists of values and snapshots are each decoded from their encoding and from no other
bytes, whatever the bytes. Lengths have to fit into eight bytes, and they do in what is decoded. -/
theorem decode_eq_ok_iff_eq_encode (bytes : List UInt8) :
    (∀ v : Value, decode bytes = .ok v ↔ Fits v ∧ bytes = encode v) ∧
      (∀ vs : List Value, decode bytes = .ok vs ↔ Fits vs ∧ bytes = encode vs) ∧
      (∀ p : Snapshot, decode bytes = .ok p ↔ Fits p ∧ bytes = encode p) :=
  ⟨fun _ => decode_eq_ok_iff, fun _ => decode_eq_ok_iff, fun _ => decode_eq_ok_iff⟩

end ScriptState

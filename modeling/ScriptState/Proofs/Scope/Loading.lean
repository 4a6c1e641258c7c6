import ScriptState.Proofs.Saved.Canonical
import ScriptState.Proofs.Scope.Listing

/-!
# Which bytes hold a scope

`decode_iff_valid_snapshot` says which bytes a scope is loaded from and what saving it again
yields: the order of the names is lost, nothing else.
-/

namespace ScriptState

open Sized (Fits)

variable {s t : Scope} {bytes : List UInt8} {listing : List (String × Value)}

/-! ### Snapshots that describe a scope -/

namespace Snapshot

theorem bindAll_eq_ok_iff {pairs : List (String × Value)} :
    bindAll s pairs = .ok t ↔ t.Lists (pairs ++ s.entries) := by
  -- Binding a pair moves it behind the others, where the bindings so far stand.
  induction pairs generalizing s with
  | nil =>
    rw [bindAll, List.nil_append, Except.ok.injEq]
    constructor
    · rintro rfl
      exact s.lists_entries
    · intro lists
      exact s.lists_entries.unique lists
  | cons pair rest ih =>
    obtain ⟨name, v⟩ := pair
    rw [bindAll, guard_eq_ok_iff, ih, Bool.not_eq_true]
    have moved (fresh : s.has name = false) :
        (rest ++ (s.set name v).entries).Perm ((name, v) :: rest ++ s.entries) := by
      have added := Scope.lists_iff_perm.mp (s.lists_entries.set (v := v) fresh)
      exact (added.symm.append_left rest).trans List.perm_middle
    constructor
    · rintro ⟨fresh, lists⟩
      exact lists.of_perm (moved fresh).symm
    · intro lists
      have new : name ∉ (rest ++ s.entries).map Prod.fst := (List.nodup_cons.mp lists.1).1
      rw [List.map_append, List.mem_append, not_or] at new
      have fresh := s.lists_entries.fresh new.2
      exact ⟨fresh, lists.of_perm (moved fresh)⟩

theorem bindAll_append {front : List (String × Value)} (bound : bindAll s front = .ok t)
    (back : List (String × Value)) : bindAll s (front ++ back) = bindAll t back := by
  induction front generalizing s with
  | nil =>
    cases bound
    rfl
  | cons pair rest ih =>
    obtain ⟨name, v⟩ := pair
    obtain ⟨fresh, following⟩ := guard_eq_ok_iff.mp bound
    rw [List.cons_append, bindAll, if_neg fresh, ih following]

theorem toScope_eq_ok_iff {p : Snapshot} :
    p.toScope = .ok s ↔
      p.version = snapshotVersion ∧ p.names.length = p.values.length ∧ s.Lists p.entries := by
  unfold toScope
  simp only [guard_eq_ok_iff, Decidable.not_not, bindAll_eq_ok_iff, Scope.entries_empty,
    List.append_nil]

theorem toScope_eq_ok_iff_lists {p : Snapshot} :
    p.toScope = .ok s ↔ ∃ listing, p = .ofEntries listing ∧ s.Lists listing := by
  rw [toScope_eq_ok_iff]
  constructor
  · rintro ⟨version, lengths, lists⟩
    exact ⟨p.entries, (ofEntries_entries version lengths).symm, lists⟩
  · rintro ⟨listing, rfl, lists⟩
    rw [entries_ofEntries]
    exact ⟨rfl, by simp [ofEntries], lists⟩

theorem toScope_snapshot (s : Scope) : s.snapshot.toScope = .ok s :=
  toScope_eq_ok_iff_lists.mpr ⟨s.entries, s.snapshot_eq, s.lists_entries⟩

theorem exists_toScope_iff {p : Snapshot} :
    (∃ s, p.toScope = .ok s) ↔
      p.version = snapshotVersion ∧ p.names.length = p.values.length ∧ p.names.Nodup := by
  have names (lengths : p.names.length = p.values.length) : p.entries.map Prod.fst = p.names :=
    List.map_fst_zip (Nat.le_of_eq lengths)
  simp only [toScope_eq_ok_iff]
  constructor
  · rintro ⟨s, version, lengths, lists⟩
    exact ⟨version, lengths, names lengths ▸ lists.1⟩
  · rintro ⟨version, lengths, distinct⟩
    rw [← names lengths] at distinct
    obtain ⟨s, lists⟩ := Scope.exists_lists distinct
    exact ⟨s, version, lengths, lists⟩

end Snapshot

/-! ### Loading -/

/-- A scope can be saved if its snapshot can. -/
instance : Sized Scope := ⟨fun s => Fits s.snapshot, fun s => Sized.decidable s.snapshot⟩

namespace Scope

theorem decode_eq_ok_iff_toScope :
    Scope.decode bytes = .ok s ↔
      ∃ p : Snapshot, ScriptState.decode bytes = .ok p ∧ p.toScope = .ok s := by
  unfold Scope.decode
  simp only [except_bind_eq_ok_iff, mapError_eq_ok_iff]

theorem Lists.fits_iff (lists : s.Lists listing) : Fits s ↔ Fits (Snapshot.ofEntries listing) := by
  have perm := lists_iff_perm.mp lists
  have names : Fits (listing.map Prod.fst) ↔ Fits (s.entries.map Prod.fst) :=
    fits_iff_of_perm (perm.map Prod.fst)
  have values : Fits (listing.map Prod.snd) ↔ Fits (s.entries.map Prod.snd) :=
    fits_iff_of_perm (perm.map Prod.snd)
  exact (and_congr names values).symm

/-- A scope survives saving exactly if its lengths can be written. -/
theorem decode_encode_iff : Scope.decode s.encode = .ok s ↔ Fits s := by
  rw [decode_eq_ok_iff_toScope]
  constructor
  · rintro ⟨p, decoded, described⟩
    obtain ⟨listing, rfl, lists⟩ := Snapshot.toScope_eq_ok_iff_lists.mp described
    exact lists.fits_iff.mpr (decode_eq_ok_iff.mp decoded).1
  · intro fits
    exact ⟨s.snapshot, ScriptState.decode_encode fits, Snapshot.toScope_snapshot s⟩

theorem encode_inj (fitsS : Fits s) (fitsT : Fits t) : s.encode = t.encode ↔ s = t := by
  refine ⟨fun same => ?_, fun same => same ▸ rfl⟩
  have back := decode_encode_iff.mpr fitsS
  rw [same, decode_encode_iff.mpr fitsT] at back
  exact (Except.ok.inj back).symm

/-- A listing is saved in the bytes of its scope exactly if its names are in ascending order. -/
theorem Lists.encode_eq_iff (lists : s.Lists listing) (fits : Fits (Snapshot.ofEntries listing)) :
    s.encode = ScriptState.encode (Snapshot.ofEntries listing) ↔
      Ascending (listing.map Prod.fst) := by
  have fitsSnapshot : Fits s.snapshot := lists.fits_iff.mpr fits
  rw [encode, ScriptState.encode_inj fitsSnapshot fits, s.snapshot_eq, Snapshot.ofEntries_inj,
    eq_comm, lists.eq_entries_iff]

/-- Bytes hold a scope exactly if they encode a snapshot of version 1 with as many names as values
whose pairs are the bindings of the scope in some order. Saved again, the scope has the pairs in
ascending order of the names; the bytes are the same exactly if they were so before. -/
theorem decode_iff_valid_snapshot (bytes : List UInt8) (s : Scope) :
    (Scope.decode bytes = .ok s ↔
      ∃ p : Snapshot, Fits p ∧ bytes = ScriptState.encode p ∧ p.version = 1 ∧
        p.names.length = p.values.length ∧ p.entries.Perm s.entries) ∧
    (Scope.decode bytes = .ok s →
      ∃ p : Snapshot, ScriptState.decode bytes = .ok p ∧
        s.encode = ScriptState.encode (Snapshot.ofBindings p.entries) ∧
        Scope.decode s.encode = .ok s ∧ (s.encode = bytes ↔ Ascending p.names)) := by
  constructor
  · rw [decode_eq_ok_iff_toScope]
    constructor
    · rintro ⟨p, decoded, described⟩
      obtain ⟨fits, written⟩ := decode_eq_ok_iff.mp decoded
      obtain ⟨version, lengths, lists⟩ := Snapshot.toScope_eq_ok_iff.mp described
      exact ⟨p, fits, written, version, lengths, lists_iff_perm.mp lists⟩
    · rintro ⟨p, fits, written, version, lengths, perm⟩
      exact ⟨p, decode_eq_ok_iff.mpr ⟨fits, written⟩,
        Snapshot.toScope_eq_ok_iff.mpr ⟨version, lengths, lists_iff_perm.mpr perm⟩⟩
  · intro loaded
    obtain ⟨p, decoded, described⟩ := decode_eq_ok_iff_toScope.mp loaded
    obtain ⟨fits, rfl⟩ := decode_eq_ok_iff.mp decoded
    obtain ⟨listing, rfl, lists⟩ := Snapshot.toScope_eq_ok_iff_lists.mp described
    refine ⟨_, decoded, ?_, decode_encode_iff.mpr (lists.fits_iff.mpr fits),
      lists.encode_eq_iff fits⟩
    rw [encode, Snapshot.entries_ofEntries, lists.snapshot]

theorem decode_iff_valid_snapshot_unsorted :
    let p : Snapshot := ⟨1, ["b", "a"], [.int 1, .int 2]⟩
    let s := (Scope.empty.set "b" (.int 1)).set "a" (.int 2)
    Scope.decode (ScriptState.encode p) = .ok s ∧ s.encode ≠ ScriptState.encode p := by
  intro p s
  have fits : Fits p := by decide +kernel
  have lists : s.Lists p.entries := by
    refine ⟨by decide, fun name v => ?_⟩
    simp only [s, p, get?_set, get?_empty, Snapshot.entries, List.zip_cons_cons,
      List.zip_nil_left, List.mem_cons, List.not_mem_nil, Prod.mk.injEq]
    grind
  have loaded : Scope.decode (ScriptState.encode p) = .ok s :=
    (decode_iff_valid_snapshot _ s).1.mpr ⟨p, fits, rfl, rfl, rfl, lists_iff_perm.mp lists⟩
  obtain ⟨q, decoded, -, -, same⟩ := (decode_iff_valid_snapshot _ s).2 loaded
  obtain rfl : p = q := Except.ok.inj ((ScriptState.decode_encode fits).symm.trans decoded)
  have descending : ¬Ascending p.names := by
    unfold Ascending
    decide +kernel
  exact ⟨loaded, fun equal => descending (same.mp equal)⟩

end Scope

end ScriptState

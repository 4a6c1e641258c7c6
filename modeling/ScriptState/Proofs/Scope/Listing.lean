import ScriptState.Scope.Snapshot

/-!
# Listings of a scope

A table hands out its bindings in an order of its own. `Scope.Lists` allows every order, and
`Lists.sorted` shows that sorting by name leaves nothing of it: the entries of the scope are the
only listing with ascending names.
-/

namespace ScriptState

open Utf8 (compareBytes)

/-- Names in strictly ascending order of their bytes. -/
def Ascending (names : List String) : Prop :=
  names.Pairwise fun a b => compareBytes a b = .lt

/-- What a sort by name promises: no pair stands before one with a smaller name. -/
def SortedByName (bindings : List (String × Value)) : Prop :=
  bindings.Pairwise fun a b => (compareBytes a.1 b.1).isLE = true

theorem ascending_iff {names : List String} :
    Ascending names ↔
      names.Nodup ∧ names.Pairwise fun a b => (compareBytes a b).isLE = true := by
  constructor
  · intro ascending
    refine ⟨ascending.imp ?_, ascending.imp Ordering.isLE_of_eq_lt⟩
    intro a b less same
    rw [Utf8.compareBytes_eq_eq.mpr same] at less
    cases less
  · intro ⟨distinct, sorted⟩
    exact (sorted.and distinct).imp fun ⟨ordered, different⟩ =>
      Utf8.compareBytes_eq_lt ordered different

theorem sortedByName_of_ascending {bindings : List (String × Value)}
    (ascending : Ascending (bindings.map Prod.fst)) : SortedByName bindings :=
  List.pairwise_map.mp (ascending_iff.mp ascending).2

/-- Names in ascending order are the only order of theirs that ascends. -/
theorem Ascending.eq_of_perm {xs ys : List String} (ascendingX : Ascending xs)
    (ascendingY : Ascending ys) (perm : xs.Perm ys) : xs = ys := by
  refine perm.eq_of_pairwise ?_ ascendingX ascendingY
  intro a b _ _ forward backward
  exact absurd backward (Std.OrientedCmp.not_lt_of_lt forward)

namespace Scope

/-- Every binding of the scope stands in the list, and no name stands there twice. -/
def Lists (s : Scope) (listing : List (String × Value)) : Prop :=
  (listing.map Prod.fst).Nodup ∧ ∀ name v, (name, v) ∈ listing ↔ s.get? name = some v

variable {s t : Scope} {listing : List (String × Value)}

theorem lists_entries (s : Scope) : s.Lists s.entries :=
  ⟨s.nodup_names_entries, fun _ _ => mem_entries⟩

theorem entries_empty : empty.entries = [] := by
  rw [← List.length_eq_zero_iff, length_entries]
  rfl

theorem Lists.nodup (lists : s.Lists listing) : listing.Nodup :=
  (List.pairwise_map.mp lists.1).imp fun different same => different (congrArg Prod.fst same)

theorem Lists.perm {other : List (String × Value)} (lists : s.Lists listing)
    (same : s.Lists other) : listing.Perm other := by
  apply (List.perm_ext_iff_of_nodup lists.nodup same.nodup).mpr
  rintro ⟨name, v⟩
  rw [lists.2, same.2]

theorem Lists.of_perm {other : List (String × Value)} (lists : s.Lists listing)
    (perm : other.Perm listing) : s.Lists other := by
  refine ⟨(perm.map Prod.fst).nodup_iff.mpr lists.1, fun name v => ?_⟩
  rw [perm.mem_iff, lists.2]

theorem lists_iff_perm : s.Lists listing ↔ listing.Perm s.entries :=
  ⟨fun lists => lists.perm s.lists_entries, fun perm => s.lists_entries.of_perm perm⟩

theorem Lists.unique (lists : s.Lists listing) (same : t.Lists listing) : s = t := by
  apply ext
  intro name
  apply Option.ext
  intro v
  rw [← lists.2, ← same.2]

theorem Lists.eq_entries (lists : s.Lists listing) (sorted : SortedByName listing) :
    listing = s.entries := by
  refine List.Perm.eq_of_pairwise ?_ sorted (sortedByName_of_ascending s.entries_ascending)
    (lists_iff_perm.mp lists)
  rintro ⟨name, v⟩ ⟨other, w⟩ memberV memberW forward backward
  have equal : compareBytes name other = .eq := Std.OrientedCmp.isLE_antisymm forward backward
  obtain rfl := Utf8.compareBytes_eq_eq.mp equal
  have found := (lists.2 name v).mp memberV
  have listed := mem_entries.mp memberW
  rw [found] at listed
  cases listed
  rfl

theorem Lists.sorted (lists : s.Lists listing) : sortByName listing = s.entries :=
  (lists.of_perm (List.mergeSort_perm _ _)).eq_entries (sortByName_ascending _)

theorem Lists.eq_entries_iff (lists : s.Lists listing) :
    listing = s.entries ↔ Ascending (listing.map Prod.fst) := by
  constructor
  · rintro rfl
    exact s.entries_ascending
  · intro ascending
    exact lists.eq_entries (sortedByName_of_ascending ascending)

theorem Lists.has_iff {name : String} (lists : s.Lists listing) :
    s.has name = true ↔ name ∈ listing.map Prod.fst := by
  rw [has_eq, Option.isSome_iff_exists, List.mem_map]
  constructor
  · rintro ⟨v, found⟩
    exact ⟨(name, v), (lists.2 name v).mpr found, rfl⟩
  · rintro ⟨⟨_, v⟩, listed, rfl⟩
    exact ⟨v, (lists.2 _ v).mp listed⟩

theorem Lists.fresh {name : String} (lists : s.Lists listing)
    (new : name ∉ listing.map Prod.fst) : s.has name = false :=
  Bool.eq_false_iff.mpr fun bound => new (lists.has_iff.mp bound)

theorem Lists.lookup_eq (lists : s.Lists listing) (name : String) :
    listing.lookup name = s.get? name := by
  cases found : listing.lookup name with
  | none =>
    have absent := List.lookup_eq_none_iff.mp found
    refine (Option.eq_none_iff_forall_ne_some.mpr fun v bound => ?_).symm
    have different := absent _ ((lists.2 name v).mpr bound)
    exact absurd rfl (bne_iff_ne.mp different)
  | some v =>
    obtain ⟨before, after, rfl, -⟩ := List.lookup_eq_some_iff.mp found
    exact ((lists.2 name v).mp (by simp)).symm

theorem Lists.set {name : String} {v : Value} (lists : s.Lists listing)
    (fresh : s.has name = false) : (s.set name v).Lists ((name, v) :: listing) := by
  have unbound : s.get? name = none := by simpa [has_eq] using fresh
  constructor
  · rw [List.map_cons, List.nodup_cons]
    refine ⟨?_, lists.1⟩
    intro member
    obtain ⟨⟨_, w⟩, listed, rfl⟩ := List.mem_map.mp member
    have found := (lists.2 _ w).mp listed
    rw [unbound] at found
    cases found
  · intro other w
    rw [List.mem_cons, lists.2, get?_set]
    by_cases same : other = name
    · subst same
      simp [unbound, eq_comm]
    · simp [same]

theorem lists_singleton (name : String) (v : Value) : (empty.set name v).Lists [(name, v)] := by
  have lists : empty.Lists [] := entries_empty ▸ lists_entries .empty
  refine lists.set ?_
  rw [has_eq, get?_empty, Option.isSome_none]

theorem exists_lists (distinct : (listing.map Prod.fst).Nodup) : ∃ s : Scope, s.Lists listing := by
  induction listing with
  | nil => exact ⟨.empty, entries_empty ▸ lists_entries .empty⟩
  | cons binding rest ih =>
    obtain ⟨name, v⟩ := binding
    obtain ⟨new, distinct⟩ := List.nodup_cons.mp distinct
    obtain ⟨s, lists⟩ := ih distinct
    exact ⟨s.set name v, lists.set (lists.fresh new)⟩

end Scope

/-! ### Snapshots of listings -/

namespace Snapshot

theorem ofEntries_entries {p : Snapshot} (version : p.version = snapshotVersion)
    (lengths : p.names.length = p.values.length) : .ofEntries p.entries = p := by
  obtain ⟨number, names, values⟩ := p
  simp only at version lengths
  simp only [ofEntries, entries, Snapshot.mk.injEq]
  exact ⟨version.symm, List.map_fst_zip (Nat.le_of_eq lengths),
    List.map_snd_zip (Nat.le_of_eq lengths.symm)⟩

theorem entries_ofEntries (bindings : List (String × Value)) :
    (ofEntries bindings).entries = bindings := by
  rw [entries, ofEntries, List.zip_map', List.map_id']

theorem ofEntries_inj {a b : List (String × Value)} : ofEntries a = ofEntries b ↔ a = b := by
  refine ⟨fun same => ?_, fun same => same ▸ rfl⟩
  rw [← entries_ofEntries a, same, entries_ofEntries]

end Snapshot

theorem Scope.snapshot_eq (s : Scope) : s.snapshot = .ofEntries s.entries := rfl

theorem Scope.Lists.snapshot {s : Scope} {listing : List (String × Value)}
    (lists : s.Lists listing) : Snapshot.ofBindings listing = s.snapshot := by
  rw [Snapshot.ofBindings, lists.sorted, s.snapshot_eq]

end ScriptState

import ScriptState.Proofs.Scope.Loading

/-!
# Which snapshots describe a scope

A snapshot is checked for its version, then for its lengths, then name by name. `validation_exact`
says which snapshots each check refuses, that the name reported as repeated is the first that stands
in front of itself, and what is bound if nothing is refused.
-/

namespace ScriptState

open Number (natText)

/-! ### Names that stand twice -/

/-- The name at the index stands at an earlier one too. -/
def RepeatsAt (names : List String) (j : Nat) : Prop :=
  ∃ (i : Nat) (before : i < j) (inside : j < names.length), names[i] = names[j]

/-- The name stands at the least index whose name stands at an earlier one too. -/
def FirstRepeated (names : List String) (name : String) : Prop :=
  ∃ j, names[j]? = some name ∧ RepeatsAt names j ∧ ∀ k < j, ¬RepeatsAt names k

variable {names : List String} {name : String} {n : Nat}

theorem repeatsAt_iff : RepeatsAt names n ↔ ∃ name ∈ names.take n, names[n]? = some name := by
  constructor
  · intro ⟨i, before, inside, same⟩
    have member : names[i] ∈ names.take n :=
      List.mem_take_iff_getElem.mpr ⟨i, by omega, rfl⟩
    exact ⟨names[i], member, by rw [List.getElem?_eq_getElem inside, same]⟩
  · intro ⟨name, member, found⟩
    obtain ⟨inside, rfl⟩ := List.getElem?_eq_some_iff.mp found
    obtain ⟨i, before, same⟩ := List.mem_take_iff_getElem.mp member
    exact ⟨i, by omega, inside, same⟩

theorem nodup_take_iff : (names.take n).Nodup ↔ ∀ k < n, ¬RepeatsAt names k := by
  rw [List.Nodup, List.pairwise_iff_getElem]
  simp only [List.getElem_take, List.length_take]
  constructor
  · rintro different k within ⟨i, before, inside, same⟩
    exact different i k (by omega) (by omega) before same
  · intro unrepeated i k _ within before same
    exact unrepeated k (by omega) ⟨i, before, by omega, same⟩

theorem nodup_iff_not_repeatsAt : names.Nodup ↔ ∀ k, ¬RepeatsAt names k := by
  have whole : (names.take names.length).Nodup ↔ _ := nodup_take_iff
  rw [List.take_length] at whole
  rw [whole]
  refine ⟨fun unrepeated k found => ?_, fun unrepeated k _ => unrepeated k⟩
  obtain ⟨i, before, inside, same⟩ := found
  exact unrepeated k inside ⟨i, before, inside, same⟩

theorem exists_firstRepeated (repeats : RepeatsAt names n) : ∃ name, FirstRepeated names name := by
  induction n using Nat.strongRecOn with
  | ind n ih =>
    by_cases earlier : ∃ k < n, RepeatsAt names k
    · obtain ⟨k, before, repeatsBefore⟩ := earlier
      exact ih k before repeatsBefore
    · obtain ⟨i, before, inside, same⟩ := repeats
      exact ⟨names[n], n, List.getElem?_eq_getElem inside, ⟨i, before, inside, same⟩,
        fun k within found => earlier ⟨k, within, found⟩⟩

/-! ### What is bound -/

namespace Scope

variable {s : Scope} {values : List Value}

/-- Each name is bound to the value at its place, and no other name is bound. -/
structure Pairs (s : Scope) (names : List String) (values : List Value) : Prop where
  bound (i : Nat) (name : String) : names[i]? = some name → s.get? name = values[i]?
  unbound (name : String) : name ∉ names → s.get? name = none
  size : s.size = names.length

theorem lists_zip_iff (lengths : names.length = values.length) :
    s.Lists (names.zip values) ↔ names.Nodup ∧ s.Pairs names values := by
  have first : (names.zip values).map Prod.fst = names := List.map_fst_zip (Nat.le_of_eq lengths)
  have listed (name : String) (v : Value) : (name, v) ∈ names.zip values ↔
      ∃ i : Nat, names[i]? = some name ∧ values[i]? = some v := by
    simp only [List.mem_iff_getElem?, List.getElem?_zip_eq_some]
  constructor
  · intro lists
    refine ⟨first ▸ lists.1, fun i name found => ?_, fun name absent => ?_, ?_⟩
    · obtain ⟨inside, -⟩ := List.getElem?_eq_some_iff.mp found
      have value := List.getElem?_eq_getElem (lengths ▸ inside)
      rw [value]
      exact (lists.2 name _).mp ((listed name _).mpr ⟨i, found, value⟩)
    · have fresh : s.has name = false := lists.fresh (first.symm ▸ absent)
      simpa [has_eq] using fresh
    · rw [← length_entries, ← (lists_iff_perm.mp lists).length_eq, List.length_zip, lengths,
        Nat.min_self]
  · intro ⟨distinct, pairs⟩
    refine ⟨first.symm ▸ distinct, fun name v => ⟨fun member => ?_, fun found => ?_⟩⟩
    · obtain ⟨i, named, value⟩ := (listed name v).mp member
      rw [pairs.bound i name named, value]
    · have member : name ∈ names := Decidable.byContradiction fun absent => by
        rw [pairs.unbound name absent] at found
        cases found
      obtain ⟨i, named⟩ := List.mem_iff_getElem?.mp member
      exact (listed name v).mpr ⟨i, named, (pairs.bound i name named).symm.trans found⟩

end Scope

/-! ### What is refused -/

namespace Snapshot

variable {s : Scope} {p : Snapshot} {e : SnapshotError} {pairs : List (String × Value)}

/-- Binding stops at the first name that those before it have bound. -/
theorem bindAll_eq_error_iff : bindAll s pairs = .error e ↔
    ∃ front name v back t, pairs = front ++ (name, v) :: back ∧ bindAll s front = .ok t ∧
      t.has name = true ∧ e = .repeated name := by
  constructor
  · intro failed
    induction pairs generalizing s with
    | nil => cases failed
    | cons pair rest ih =>
      obtain ⟨name, v⟩ := pair
      rw [bindAll] at failed
      split at failed
      · rename_i bound
        cases failed
        exact ⟨[], name, v, rest, s, rfl, rfl, bound, rfl⟩
      · rename_i fresh
        obtain ⟨front, other, w, back, t, rfl, passed, bound, same⟩ := ih failed
        refine ⟨(name, v) :: front, other, w, back, t, rfl, ?_, bound, same⟩
        rw [bindAll, if_neg fresh, passed]
  · rintro ⟨front, name, v, back, t, rfl, passed, bound, rfl⟩
    rw [bindAll_append passed, bindAll, if_pos bound]

theorem bindAll_empty_eq_error_iff :
    bindAll .empty pairs = .error e ↔
      ∃ name, e = .repeated name ∧ FirstRepeated (pairs.map Prod.fst) name := by
  rw [bindAll_eq_error_iff]
  constructor
  · rintro ⟨front, name, v, back, t, rfl, passed, bound, rfl⟩
    rw [bindAll_eq_ok_iff, Scope.entries_empty, List.append_nil] at passed
    have named : ((front ++ (name, v) :: back).map Prod.fst)[front.length]? = some name := by simp
    have before : ((front ++ (name, v) :: back).map Prod.fst).take front.length =
        front.map Prod.fst := by simp
    refine ⟨name, rfl, front.length, named, repeatsAt_iff.mpr ⟨name, ?_, named⟩,
      nodup_take_iff.mp ?_⟩
    · exact before ▸ passed.has_iff.mp bound
    · exact before ▸ passed.1
  · rintro ⟨name, rfl, j, named, repeats, least⟩
    obtain ⟨inside, same⟩ := List.getElem?_eq_some_iff.mp named
    obtain ⟨other, member, found⟩ := repeatsAt_iff.mp repeats
    cases named.symm.trans found
    have distinct := nodup_take_iff.mpr least
    rw [← List.map_take] at distinct member
    rw [List.length_map] at inside
    rw [List.getElem_map] at same
    obtain ⟨t, lists⟩ := Scope.exists_lists distinct
    refine ⟨pairs.take j, name, pairs[j].2, pairs.drop (j + 1), t, ?_, ?_, lists.has_iff.mpr member,
      rfl⟩
    · rw [← same, ← List.drop_eq_getElem_cons inside, List.take_append_drop]
    · rw [bindAll_eq_ok_iff, Scope.entries_empty, List.append_nil]
      exact lists

theorem toScope_eq_error_iff : p.toScope = .error e ↔
    (p.version ≠ 1 ∧ e = .version p.version) ∨
      (p.version = 1 ∧ p.names.length ≠ p.values.length ∧
        e = .lengths p.names.length p.values.length) ∨
      (p.version = 1 ∧ p.names.length = p.values.length ∧
        ∃ name, e = .repeated name ∧ FirstRepeated p.names name) := by
  have expected : snapshotVersion = 1 := rfl
  rw [toScope, expected]
  by_cases version : p.version = 1
  · rw [if_neg (not_not_intro version)]
    by_cases lengths : p.names.length = p.values.length
    · have names : p.entries.map Prod.fst = p.names := List.map_fst_zip (Nat.le_of_eq lengths)
      rw [if_neg (not_not_intro lengths), bindAll_empty_eq_error_iff, names]
      simp [version, lengths]
    · rw [if_pos lengths]
      simp [version, lengths, eq_comm]
  · rw [if_pos version]
    simp [version, eq_comm]

theorem message_version (found : UInt32) : (SnapshotError.version found).message =
    "unsupported snapshot version " ++ natText found.toNat ++ " (expected 1)" := by
  have expected : natText snapshotVersion.toNat = "1" := by decide +kernel
  have closing : " (expected " ++ ("1" ++ ")") = " (expected 1)" := by decide +kernel
  show "unsupported snapshot version " ++ natText found.toNat ++ " (expected " ++
    natText snapshotVersion.toNat ++ ")" = _
  rw [expected, ← closing]
  generalize "unsupported snapshot version " ++ natText found.toNat = opening
  rw [String.append_assoc, String.append_assoc]

/-- A snapshot is refused for its version exactly if that is not 1; otherwise for its lengths
exactly if they differ; otherwise for a name exactly if one stands twice, and the name reported is
the one at the least index whose name stands at an earlier index too. A snapshot that is not
refused describes the one scope that binds each name to the value at its place and nothing else. -/
theorem validation_exact (p : Snapshot) :
    (∀ found, p.toScope = .error (.version found) ↔ p.version ≠ 1 ∧ found = p.version) ∧
      (∀ found, (SnapshotError.version found).message =
        "unsupported snapshot version " ++ natText found.toNat ++ " (expected 1)") ∧
      (∀ n m, p.toScope = .error (.lengths n m) ↔ p.version = 1 ∧
        p.names.length ≠ p.values.length ∧ n = p.names.length ∧ m = p.values.length) ∧
      (∀ name, p.toScope = .error (.repeated name) ↔
        p.version = 1 ∧ p.names.length = p.values.length ∧ FirstRepeated p.names name) ∧
      ((∃ name, p.toScope = .error (.repeated name)) ↔
        p.version = 1 ∧ p.names.length = p.values.length ∧ ∃ j, RepeatsAt p.names j) ∧
      ((∃ s, p.toScope = .ok s) ↔
        p.version = 1 ∧ p.names.length = p.values.length ∧ ∀ j, ¬RepeatsAt p.names j) ∧
      ∀ s, p.toScope = .ok s → s.Pairs p.names p.values := by
  refine ⟨fun found => ?_, fun found => ?_, fun n m => ?_, fun name => ?_, ?_, ?_,
    fun s described => ?_⟩
  · simp [toScope_eq_error_iff]
  · exact message_version found
  · simp [toScope_eq_error_iff]
  · simp [toScope_eq_error_iff]
  · simp only [toScope_eq_error_iff, reduceCtorEq, and_false, false_or, SnapshotError.repeated.injEq,
      exists_eq_left', exists_and_left]
    refine and_congr_right fun _ => and_congr_right fun _ => ⟨?_, ?_⟩
    · intro ⟨name, j, _, repeats, _⟩
      exact ⟨j, repeats⟩
    · intro ⟨j, repeats⟩
      exact exists_firstRepeated repeats
  · have expected : snapshotVersion = 1 := rfl
    rw [exists_toScope_iff, nodup_iff_not_repeatsAt, expected]
  · obtain ⟨-, lengths, lists⟩ := toScope_eq_ok_iff.mp described
    exact ((Scope.lists_zip_iff lengths).mp lists).2

theorem validation_exact_at_each_check :
    let values : List Value := [.int 1, .int 2, .int 3, .int 4]
    (Snapshot.mk 2 ["x"] []).toScope = .error (.version 2) ∧
      (Snapshot.mk 1 ["x", "x"] []).toScope = .error (.lengths 2 0) ∧
      (Snapshot.mk 1 ["x", "y", "y", "x"] values).toScope = .error (.repeated "y") ∧
      ∃ s, (Snapshot.mk 1 ["d", "a", "c", "b"] values).toScope = .ok s ∧
        s.get? "a" = some (.int 2) ∧ s.get? "x" = none ∧ s.size = 4 := by
  intro values
  have unknown := (validation_exact ⟨2, ["x"], []⟩).1 2
  have uneven := (validation_exact ⟨1, ["x", "x"], []⟩).2.2.1 2 0
  have repeated := (validation_exact ⟨1, ["x", "y", "y", "x"], values⟩).2.2.2.1 "y"
  obtain ⟨-, -, -, -, -, valid, pairs⟩ := validation_exact ⟨1, ["d", "a", "c", "b"], values⟩
  refine ⟨unknown.mpr ⟨by decide, rfl⟩, uneven.mpr ⟨rfl, by decide, rfl, rfl⟩,
    repeated.mpr ⟨rfl, rfl, 2, rfl, ⟨1, by decide, by decide, rfl⟩, ?_⟩, ?_⟩
  · exact nodup_take_iff.mp (by decide)
  · obtain ⟨s, described⟩ := valid.mpr ⟨rfl, rfl, nodup_iff_not_repeatsAt.mp (by decide)⟩
    have bindings := pairs s described
    exact ⟨s, described, bindings.bound 1 "a" rfl, bindings.unbound "x" (by decide), bindings.size⟩

end Snapshot

end ScriptState

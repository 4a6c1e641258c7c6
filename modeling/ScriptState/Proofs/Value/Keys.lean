import ScriptState.Value.Equality

/-!
# Values as keys

The equality that scripts see is an equivalence that keeps the kinds apart, and equal values are
those that are hashed as one (`key_laws`). So a map that is keyed by values has one entry for all
values equal to each other: the first that was inserted (`lookup_insertAll`).
-/

namespace ScriptState

theorem countP_eq_of_distinct {κ : Type} [BEq κ] [EquivBEq κ] {keys : List κ}
    (distinct : keys.Pairwise fun a b => (a == b) = false) (k : κ) :
    keys.countP (fun other => other == k) = if keys.contains k then 1 else 0 := by
  induction keys with
  | nil => rfl
  | cons a keys ih =>
    obtain ⟨different, distinct⟩ := List.pairwise_cons.mp distinct
    rw [List.countP_cons, ih distinct, List.contains_cons]
    by_cases same : (a == k) = true
    · have absent : keys.contains k = false := by
        rw [← List.contains_congr same]
        simpa [List.contains_eq_any_beq] using different
      simp [same, BEq.symm same, absent]
    · have other : (k == a) = false := by
        rw [BEq.comm]
        exact Bool.eq_false_iff.mpr same
      simp [same, other]

/-! ### Maps that keep the first entry for each key -/

section
variable {κ β γ : Type} [BEq κ] [Hashable κ] [EquivBEq κ] [LawfulHashable κ]

/-- Inserts the entries in order, each unless its key is there already. -/
def insertAll (seen : Std.HashMap κ β) (entries : List (κ × β)) : Std.HashMap κ β :=
  entries.foldl (fun seen entry => seen.insertIfNew entry.1 entry.2) seen

/-- What is looked up for a key, be it the key that is kept or the value that is kept with it,
belongs to the first entry with an equal key. -/
theorem lookup_insertAll (look : Std.HashMap κ β → Option γ) (part : κ × β → γ) {k : κ}
    (bound : ∀ seen, (look seen).isSome = true ↔ k ∈ seen)
    (inserted : ∀ (seen : Std.HashMap κ β) entry, look (seen.insertIfNew entry.1 entry.2) =
      if (entry.1 == k) = true ∧ entry.1 ∉ seen then some (part entry) else look seen)
    (seen : Std.HashMap κ β) (entries : List (κ × β)) :
    look (insertAll seen entries) =
      (look seen).or ((entries.find? fun entry => entry.1 == k).map part) := by
  -- Each entry goes into a map that holds those before it, so the map stays general.
  induction entries generalizing seen with
  | nil => simp [insertAll]
  | cons entry rest ih =>
    have following : insertAll seen (entry :: rest) =
        insertAll (seen.insertIfNew entry.1 entry.2) rest := rfl
    rw [following, ih, inserted, List.find?_cons]
    by_cases same : (entry.1 == k) = true
    · have member : entry.1 ∈ seen ↔ (look seen).isSome = true := by
        rw [bound, Std.HashMap.mem_congr same]
      cases found : look seen with
      | none => simp [same, member, found]
      | some x => simp [same, member, found]
    · simp [same]

theorem getElem?_insertAll (seen : Std.HashMap κ β) (entries : List (κ × β)) (k : κ) :
    (insertAll seen entries)[k]? =
      seen[k]?.or ((entries.find? fun entry => entry.1 == k).map Prod.snd) :=
  lookup_insertAll (fun seen => seen[k]?) Prod.snd
    (fun _ => Std.HashMap.mem_iff_isSome_getElem?.symm)
    (fun _ _ => Std.HashMap.getElem?_insertIfNew) seen entries

theorem getKey?_insertAll (seen : Std.HashMap κ β) (entries : List (κ × β)) (k : κ) :
    (insertAll seen entries).getKey? k =
      (seen.getKey? k).or ((entries.find? fun entry => entry.1 == k).map Prod.fst) :=
  lookup_insertAll (fun seen => seen.getKey? k) Prod.fst
    (fun _ => Std.HashMap.mem_iff_isSome_getKey?.symm)
    (fun _ _ => Std.HashMap.getKey?_insertIfNew) seen entries

/-- No two keys are equal, so of each class of equal keys at most one is there. -/
theorem countP_keys (m : Std.HashMap κ β) (k : κ) :
    m.keys.countP (fun other => other == k) = if m.contains k then 1 else 0 := by
  rw [countP_eq_of_distinct Std.HashMap.distinct_keys, Std.HashMap.contains_keys]

end

open Number (Binary32)

/-! ### What is hashed of a float -/

namespace Number.Binary32

theorem isZero_iff_bits {x : Binary32} : x.isZero = true ↔ x.bits = 0 ∨ x.bits = 0x80000000 := by
  have less := x.bits.toNat_lt
  rw [isZero, beq_iff_eq, code, ← UInt32.toNat_inj, ← UInt32.toNat_inj]
  simp only [UInt32.reduceToNat]
  omega

/-- The pattern that is hashed: one for all NaNs, one for both zeros, else that of the number. -/
theorem bits_representative (x : Binary32) :
    x.representative.bits =
      if x.isNaN then 0x7fc00000 else if x.bits = 0x80000000 then 0 else x.bits := by
  unfold representative
  split
  · rfl
  · split
    · rename_i zero
      rcases isZero_iff_bits.mp zero with plus | minus
      · rw [plus]
        rfl
      · rw [minus]
        rfl
    · rename_i nonzero
      rw [if_neg fun minus => nonzero (isZero_iff_bits.mpr (.inr minus))]

end Number.Binary32

namespace Value

theorem kind_hashKey (v : Value) : v.hashKey.kind = v.kind := by
  cases v <;> rfl

theorem kind_eq_of_beq {a b : Value} (equal : (a == b) = true) : a.kind = b.kind := by
  rw [← kind_hashKey a, hashKey_eq_iff.mpr equal, kind_hashKey]

/-! ### The first of all values that are equal -/

theorem firstIndex_eq (values : List Value) : firstIndex values = insertAll ∅ values.zipIdx := rfl

/-- The first of the values that is equal to `v`, with its index. -/
def first? (values : List Value) (v : Value) : Option (Value × Nat) :=
  values.zipIdx.find? fun entry => entry.1 == v

variable {values : List Value} {v w : Value} {j : Nat}

theorem first?_eq_some_iff :
    first? values v = some (w, j) ↔
      ∃ inside : j < values.length, values[j] = w ∧ (w == v) = true ∧
        ∀ k (before : k < j), (values[k] == v) = false := by
  rw [first?, List.find?_eq_some_iff_getElem]
  simp only [List.getElem_zipIdx, Nat.zero_add, Prod.mk.injEq, List.length_zipIdx,
    Bool.not_eq_true']
  constructor
  · rintro ⟨equal, _, inside, ⟨rfl, rfl⟩, least⟩
    exact ⟨inside, rfl, equal, least⟩
  · rintro ⟨inside, rfl, equal, least⟩
    exact ⟨equal, j, inside, ⟨rfl, rfl⟩, least⟩

theorem isSome_first? : (first? values v).isSome = values.contains v :=
  calc (first? values v).isSome
    _ = values.zipIdx.any fun entry => entry.1 == v := List.isSome_find?
    _ = (values.zipIdx.map Prod.fst).any fun w => w == v := by
      rw [List.any_map]
      rfl
    _ = values.any fun w => v == w := by
      rw [List.zipIdx_map_fst]
      congr 1
      funext w
      exact BEq.comm
    _ = values.contains v := List.contains_eq_any_beq.symm

theorem first?_of_mem (member : v ∈ values) :
    ∃ (j : Nat) (inside : j < values.length), first? values v = some (values[j], j) ∧
      (values[j] == v) = true ∧ ∀ k (before : k < j), (values[k] == v) = false := by
  have bound : (first? values v).isSome = true := by
    rw [isSome_first?]
    exact List.contains_iff_exists_mem_beq.mpr ⟨v, member, BEq.rfl⟩
  obtain ⟨⟨w, j⟩, found⟩ := Option.isSome_iff_exists.mp bound
  obtain ⟨inside, rfl, equal, least⟩ := first?_eq_some_iff.mp found
  exact ⟨j, inside, found, equal, least⟩

theorem getElem?_firstIndex : (firstIndex values)[v]? = (first? values v).map Prod.snd := by
  rw [firstIndex_eq, getElem?_insertAll, Std.HashMap.getElem?_empty, Option.none_or, first?]

theorem getKey?_firstIndex : (firstIndex values).getKey? v = (first? values v).map Prod.fst := by
  rw [firstIndex_eq, getKey?_insertAll, Std.HashMap.getKey?_empty, Option.none_or, first?]

theorem contains_firstIndex : (firstIndex values).contains v = values.contains v := by
  rw [Std.HashMap.contains_eq_isSome_getElem?, getElem?_firstIndex, Option.isSome_map,
    isSome_first?]

/-- Looking values up in the map finds what comparing their keys finds. -/
theorem firstEqual_eq_firstSameKey (values : List Value) :
    firstEqual values = firstSameKey values := by
  refine List.map_congr_left fun v member => ?_
  obtain ⟨j, inside, found, equal, least⟩ := first?_of_mem member
  rw [Std.HashMap.getD_eq_getD_getElem?, getElem?_firstIndex, found]
  refine ((List.findIdx_eq inside).mpr ⟨?_, fun k before => ?_⟩).symm
  · exact decide_eq_true (hashKey_eq_iff.mpr equal)
  · refine decide_eq_false fun same => ?_
    have other := least k before
    rw [hashKey_eq_iff.mp same] at other
    cases other

/-- Equality is an equivalence that keeps the kinds apart, and what is hashed of two values, their
kind and the payload that stands for all equal ones, is the same exactly if they are equal. So a
map keyed by values has one entry for each class of equal ones among those inserted, and finds for
each of them the first. -/
theorem key_laws :
    (∀ a : Value, (a == a) = true) ∧
      (∀ a b : Value, (a == b) = true → (b == a) = true) ∧
      (∀ a b c : Value, (a == b) = true → (b == c) = true → (a == c) = true) ∧
      (∀ a b : Value, a.kind ≠ b.kind → (a == b) = false) ∧
      (∀ x : Binary32, (float x).hashKey =
        float ⟨if x.isNaN then 0x7fc00000 else if x.bits = 0x80000000 then 0 else x.bits⟩) ∧
      (∀ a b : Value, a.hashKey = b.hashKey ↔ (a == b) = true) ∧
      ∀ values : List Value,
        (∀ v, (firstIndex values).keys.countP (fun key => key == v) =
          if values.contains v then 1 else 0) ∧
        ∀ i (inside : i < values.length), ∃ (j : Nat) (first : j < values.length),
          (firstIndex values)[values[i]]? = some j ∧
          (firstIndex values).getKey? values[i] = some values[j] ∧
          (values[j] == values[i]) = true ∧
          ∀ k (before : k < j), (values[k] == values[i]) = false := by
  refine ⟨fun a => BEq.rfl, fun a b equal => BEq.symm equal,
    fun a b c first second => BEq.trans first second, ?_, ?_, fun a b => hashKey_eq_iff,
    fun values => ⟨fun v => ?_, fun i inside => ?_⟩⟩
  · intro a b apart
    exact Bool.eq_false_iff.mpr fun equal => apart (kind_eq_of_beq equal)
  · intro x
    rw [hashKey, ← Binary32.bits_representative]
  · rw [countP_keys, contains_firstIndex]
  · obtain ⟨j, first, found, equal, least⟩ := first?_of_mem (List.getElem_mem inside)
    refine ⟨j, first, ?_, ?_, equal, least⟩
    · rw [getElem?_firstIndex, found]
      rfl
    · rw [getKey?_firstIndex, found]
      rfl

theorem key_laws_zeros :
    let values : List Value := [float ⟨0⟩, float ⟨0x7f800001⟩, float ⟨0x80000000⟩, int 0]
    (float ⟨0x80000000⟩ == float ⟨0⟩) = true ∧
      (float ⟨0x7f800001⟩ == float ⟨0xffc00000⟩) = true ∧
      (float ⟨0⟩ == int 0) = false ∧
      ∃ (j : Nat) (first : j < values.length),
        (firstIndex values)[values[2]]? = some j ∧ (values[j] == values[2]) = true ∧
        ∀ k (before : k < j), (values[k] == values[2]) = false := by
  intro values
  obtain ⟨-, symm, trans, apart, -, -, keys⟩ := key_laws
  obtain ⟨j, first, found, -, equal, least⟩ := (keys values).2 2 (by decide)
  have quiet : (float ⟨0x7f800001⟩ == float .nan) = true := by decide
  have other : (float .nan == float ⟨0xffc00000⟩) = true := by decide
  exact ⟨symm _ _ (by decide), trans _ _ _ quiet other, apart _ _ (by decide), j, first, found,
    equal, least⟩

end Value

end ScriptState

import Mathlib.Data.List.Perm.Subperm
import ScriptState.Proofs.Scope.Loading

/-!
# Scopes that scripts see as equal

Scopes are equal for scripts if they bind the same names to equal values (`beq_iff`). A save keeps
the bits of each float, which equality does not look at where both are zeros or both are NaNs. So
equal scopes need not be saved in the same bytes (`not_encode_eq_of_beq`), but they are exactly if
their floats have the same bits (`encode_eq_iff_of_beq`).
-/

namespace ScriptState

open Number (Binary32)
open Sized (Fits)

/-! ### Equal values -/

namespace Value

variable {v w : Value}

theorem fits_iff_of_beq (equal : (v == w) = true) : Fits v ↔ Fits w := by
  rcases beq_iff.mp equal with rfl | ⟨x, y, rfl, rfl, -⟩
  · rfl
  · rfl

end Value

/-! ### Equal scopes -/

/-- What a name may stand for in equal scopes: nothing in both, or equal values. -/
inductive SameBinding : Option Value → Option Value → Prop
  | unbound : SameBinding none none
  | bound {v w : Value} (equal : (v == w) = true) : SameBinding (some v) (some w)

namespace SameBinding

variable {left right : Option Value}

theorem isSome_eq (binding : SameBinding left right) : left.isSome = right.isSome := by
  cases binding <;> rfl

theorem beq (binding : SameBinding left right) : (left == right) = true := by
  cases binding with
  | unbound => rfl
  | bound equal => exact equal

theorem symm (binding : SameBinding left right) : SameBinding right left := by
  cases binding with
  | unbound => exact .unbound
  | bound equal => exact .bound (BEq.symm equal)

theorem trans {other : Option Value} (first : SameBinding left right)
    (second : SameBinding right other) : SameBinding left other := by
  cases first with
  | unbound => exact second
  | bound equal =>
    cases second with
    | bound further => exact .bound (PartialEquivBEq.trans equal further)

theorem some_iff {v : Value} :
    SameBinding (some v) right ↔ ∃ w, right = some w ∧ (v == w) = true := by
  constructor
  · intro binding
    cases binding with
    | bound equal => exact ⟨_, rfl, equal⟩
  · rintro ⟨w, rfl, equal⟩
    exact .bound equal

end SameBinding

namespace Scope

variable {a b s : Scope}

theorem mem_names_entries {name : String} :
    name ∈ s.entries.map Prod.fst ↔ (s.get? name).isSome = true := by
  rw [List.mem_map, Option.isSome_iff_exists]
  constructor
  · rintro ⟨⟨_, v⟩, member, rfl⟩
    exact ⟨v, mem_entries.mp member⟩
  · rintro ⟨v, found⟩
    exact ⟨(name, v), mem_entries.mpr found, rfl⟩

/-- A scope that binds all names of another of its size binds no others. -/
theorem names_perm (sizes : a.size = b.size)
    (included : ∀ name, (a.get? name).isSome = true → (b.get? name).isSome = true) :
    (a.entries.map Prod.fst).Perm (b.entries.map Prod.fst) := by
  have subset : a.entries.map Prod.fst ⊆ b.entries.map Prod.fst := fun name member =>
    mem_names_entries.mpr (included name (mem_names_entries.mp member))
  refine (a.nodup_names_entries.subperm subset).perm_of_length_le ?_
  simp only [List.length_map, length_entries, sizes, Nat.le_refl]

theorem same_iff :
    (a == b) = true ↔ a.size = b.size ∧
      ∀ name v, a.get? name = some v → ∃ w, b.get? name = some w ∧ (v == w) = true := by
  change a.same b = true ↔ _
  rw [same, Bool.and_eq_true, beq_iff_eq, List.all_eq_true]
  refine and_congr_right fun _ => ?_
  constructor
  · intro every name v found
    have entry := every (name, v) (mem_entries.mpr found)
    dsimp only at entry
    split at entry
    · rename_i w other
      exact ⟨w, other, entry⟩
    · cases entry
  · rintro every ⟨name, v⟩ member
    obtain ⟨w, other, equal⟩ := every name v (mem_entries.mp member)
    rw [other]
    exact equal

/-- Scopes are equal if they bind the same names, to equal values. -/
theorem beq_iff : (a == b) = true ↔ ∀ name, SameBinding (a.get? name) (b.get? name) := by
  rw [same_iff]
  constructor
  · rintro ⟨sizes, every⟩ name
    -- Only the names of one scope are looked up in the other; the sizes make up for the rest.
    have included : ∀ name, (a.get? name).isSome = true → (b.get? name).isSome = true := by
      intro name bound
      obtain ⟨v, found⟩ := Option.isSome_iff_exists.mp bound
      obtain ⟨w, other, -⟩ := every name v found
      exact Option.isSome_iff_exists.mpr ⟨w, other⟩
    have names : (a.get? name).isSome = true ↔ (b.get? name).isSome = true := by
      rw [← mem_names_entries, ← mem_names_entries, (names_perm sizes included).mem_iff]
    cases left : a.get? name with
    | none =>
      have unbound : b.get? name = none := by simpa [left] using names
      rw [unbound]
      exact .unbound
    | some v =>
      obtain ⟨w, right, equal⟩ := every name v left
      rw [right]
      exact .bound equal
  · intro agree
    refine ⟨?_, fun name v found => ?_⟩
    · have perm : (a.entries.map Prod.fst).Perm (b.entries.map Prod.fst) := by
        apply (List.perm_ext_iff_of_nodup a.nodup_names_entries b.nodup_names_entries).mpr
        intro name
        rw [mem_names_entries, mem_names_entries, (agree name).isSome_eq]
      simpa only [List.length_map, length_entries] using perm.length_eq
    · have binding := agree name
      rw [found] at binding
      exact SameBinding.some_iff.mp binding

theorem beq_symm (equal : (a == b) = true) : (b == a) = true :=
  beq_iff.mpr fun name => (beq_iff.mp equal name).symm

theorem beq_trans {c : Scope} (first : (a == b) = true) (second : (b == c) = true) :
    (a == c) = true :=
  beq_iff.mpr fun name => (beq_iff.mp first name).trans (beq_iff.mp second name)

/-- What is left is equal, and so is what was removed. -/
theorem beq_remove {name : String} (scopes : (a == b) = true) :
    (a.remove name == b.remove name) = true := by
  have left : ((a.remove name).1 == (b.remove name).1) = true := by
    refine beq_iff.mpr fun other => ?_
    rw [get?_remove, get?_remove]
    split
    · exact .unbound
    · exact beq_iff.mp scopes other
  have removed : ((a.remove name).2 == (b.remove name).2) = true := by
    rw [remove_snd, remove_snd]
    exact (beq_iff.mp scopes name).beq
  exact Bool.and_eq_true_iff.mpr ⟨left, removed⟩

theorem beq_set {name : String} {v w : Value} (scopes : (a == b) = true)
    (values : (v == w) = true) : (a.set name v == b.set name w) = true := by
  refine beq_iff.mpr fun other => ?_
  rw [get?_set, get?_set]
  split
  · exact .bound values
  · exact beq_iff.mp scopes other

/-! ### Saves of equal scopes -/

theorem fits_iff : Fits s ↔
    s.size < lengthLimit ∧ ∀ name v, s.get? name = some v → Fits name ∧ Fits v := by
  let names := s.entries.map Prod.fst
  let values := s.entries.map Prod.snd
  change (names.length < lengthLimit ∧ ∀ name ∈ names, Fits name) ∧
    (values.length < lengthLimit ∧ ∀ v ∈ values, Fits v) ↔ _
  unfold names values
  simp only [List.length_map, length_entries, List.forall_mem_map, Prod.forall, mem_entries]
  constructor
  · rintro ⟨⟨short, names⟩, -, values⟩
    exact ⟨short, fun name v found => ⟨names name v found, values name v found⟩⟩
  · rintro ⟨short, bindings⟩
    exact ⟨⟨short, fun name v found => (bindings name v found).1⟩, short,
      fun name v found => (bindings name v found).2⟩

theorem fits_of_beq (equal : (a == b) = true) (fits : Fits a) : Fits b := by
  obtain ⟨sizes, every⟩ := same_iff.mp (beq_symm equal)
  obtain ⟨short, bindings⟩ := fits_iff.mp fits
  refine fits_iff.mpr ⟨sizes ▸ short, fun name w found => ?_⟩
  obtain ⟨v, other, same⟩ := every name w found
  obtain ⟨fitsName, fitsValue⟩ := bindings name v other
  exact ⟨fitsName, (Value.fits_iff_of_beq same).mpr fitsValue⟩

theorem eq_of_beq (equal : (a == b) = true)
    (bits : ∀ name x y, a.get? name = some (.float x) → b.get? name = some (.float y) → x = y) :
    a = b := by
  apply ext
  intro name
  have binding := beq_iff.mp equal name
  have bits := bits name
  generalize a.get? name = left at *
  generalize b.get? name = right at *
  cases binding with
  | unbound => rfl
  | bound same =>
    rcases Value.beq_iff.mp same with rfl | ⟨x, y, rfl, rfl, -⟩
    · rfl
    · rw [bits x y rfl rfl]

/-- Two equal scopes are saved in the same bytes exactly if every float that both bind to a name
has the same bits in both. -/
theorem encode_eq_iff_of_beq (a b : Scope) (equal : (a == b) = true) (fits : Fits a) :
    a.encode = b.encode ↔ ∀ name x y,
      a.get? name = some (.float x) → b.get? name = some (.float y) → x = y := by
  rw [encode_inj fits (fits_of_beq equal fits)]
  constructor
  · rintro rfl name x y left right
    rw [left] at right
    cases right
    rfl
  · exact eq_of_beq equal

theorem encode_eq_iff_of_beq_nans :
    let a := empty.set "x" (.float .nan)
    let b := empty.set "x" (.float ⟨0x7f800001⟩)
    (a == b) = true ∧ Fits a ∧ a.encode ≠ b.encode := by
  intro a b
  have equal : (a == b) = true := beq_set (beq_self _) (by decide)
  have fits : Fits a := (lists_singleton "x" _).fits_iff.mpr (by decide +kernel)
  have saved := encode_eq_iff_of_beq a b equal fits
  have foundA : a.get? "x" = some (.float .nan) := by rw [get?_set, if_pos rfl]
  have foundB : b.get? "x" = some (.float ⟨0x7f800001⟩) := by rw [get?_set, if_pos rfl]
  refine ⟨equal, fits, fun same => ?_⟩
  exact absurd (saved.mp same "x" _ _ foundA foundB) (by decide)

/-- The two zeros are equal and have different bits. -/
theorem not_encode_eq_of_beq : ¬∀ a b : Scope, (a == b) = true → a.encode = b.encode := by
  intro same
  let plus := empty.set "x" (.float (.zero false))
  let minus := empty.set "x" (.float (.zero true))
  have equal : (plus == minus) = true := beq_set (beq_self _) (by decide)
  have fits : Fits plus := (lists_singleton "x" _).fits_iff.mpr (by decide +kernel)
  have identical := (encode_inj fits (fits_of_beq equal fits)).mp (same plus minus equal)
  have found := congrArg (fun s => s.get? "x") identical
  simp only [plus, minus, get?_set, if_pos] at found
  exact absurd found (by decide)

end Scope

end ScriptState

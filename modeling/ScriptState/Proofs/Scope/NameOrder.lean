import ScriptState.Proofs.Scope.Listing
import ScriptState.Proofs.Text.Utf8.Order

/-!
# The order of names

The entries of a scope and of its snapshot are sorted by the bytes of the names. `name_order` says
that this is the order of the names by their characters, that it is total and takes no two names for
one, and that it leaves one way to list the names of a scope.
-/

namespace ScriptState

open Utf8 (compareBytes compareChars compareBytes_eq_compareChars)

namespace Scope

theorem eq_names_iff {s : Scope} {names : List String} :
    (names.Nodup ∧ (∀ name, name ∈ names ↔ s.has name = true) ∧
        names.Pairwise fun a b => (compareBytes a b).isLE = true) ↔
      names = s.entries.map Prod.fst := by
  rw [and_left_comm, ← ascending_iff]
  constructor
  · intro ⟨bound, ascending⟩
    have distinct := (ascending_iff.mp ascending).1
    have perm : names.Perm (s.entries.map Prod.fst) := by
      refine (List.perm_ext_iff_of_nodup distinct s.nodup_names_entries).mpr fun name => ?_
      rw [bound, s.lists_entries.has_iff]
    exact ascending.eq_of_perm s.entries_ascending perm
  · intro same
    subst same
    exact ⟨fun name => s.lists_entries.has_iff.symm, s.entries_ascending⟩

/-- Names are in the same order by their bytes as by their characters. Of two names one is less, or
they are the same name, and a name that is less than a lesser one is less. So there is one list of
all names of a scope, each once, that is sorted by their characters: the names of its entries, which
are those of its snapshot. -/
theorem name_order :
    (∀ a b : String, compareBytes a b = compareChars a b) ∧
      (∀ a b : String, compareBytes a b = .eq ↔ a = b) ∧
      (∀ a b : String, compareBytes b a = (compareBytes a b).swap) ∧
      (∀ a b c : String, (compareBytes a b).isLE = true → (compareBytes b c).isLE = true →
        (compareBytes a c).isLE = true) ∧
      ∀ s : Scope, s.snapshot.names = s.entries.map Prod.fst ∧
        ∀ names : List String,
          (names.Nodup ∧ (∀ name, name ∈ names ↔ s.has name = true) ∧
              names.Pairwise fun a b => (compareChars a b).isLE = true) ↔
            names = s.entries.map Prod.fst := by
  refine ⟨compareBytes_eq_compareChars, fun a b => Utf8.compareBytes_eq_eq,
    fun a b => Std.OrientedCmp.eq_swap, fun a b c => Std.TransCmp.isLE_trans,
    fun s => ⟨rfl, fun names => ?_⟩⟩
  simp only [← compareBytes_eq_compareChars]
  exact eq_names_iff

/-- The last character below the supplementary ones, which takes three bytes, and one of them. -/
theorem name_order_supplementary :
    (compareBytes "z" "\uffff").isLE = true ∧ (compareBytes "\uffff" "😀").isLE = true ∧
      (compareBytes "z" "😀").isLE = true ∧ compareBytes "\uffff" "😀" = .lt ∧
      compareChars "\uffff" "😀" = .lt := by
  obtain ⟨same, -, -, trans, -⟩ := name_order
  have first : (compareBytes "z" "\uffff").isLE = true := by decide +kernel
  have less : compareChars "\uffff" "😀" = .lt := by decide +kernel
  have bytes : compareBytes "\uffff" "😀" = .lt := (same _ _).trans less
  have second : (compareBytes "\uffff" "😀").isLE = true := by
    rw [bytes]
    rfl
  exact ⟨first, second, trans _ _ _ first second, bytes, less⟩

end Scope

end ScriptState

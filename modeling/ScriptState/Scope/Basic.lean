import ScriptState.Text.Utf8.Lemmas
import ScriptState.Value.Equality
import Std.Data.ExtTreeMap

/-!
# Scopes

A scope binds names to values. It is flat, and it is a finite map: two scopes with the same
bindings are equal (`Scope.ext`). Its entries are listed in ascending order of the names, which
are compared by their UTF-8 bytes.
-/

namespace ScriptState

open Utf8 (compareBytes)

/-- Bindings in ascending order of the names. -/
def sortByName (bindings : List (String × Value)) : List (String × Value) :=
  bindings.mergeSort fun a b => (compareBytes a.1 b.1).isLE

theorem sortByName_ascending (bindings : List (String × Value)) :
    (sortByName bindings).Pairwise fun a b => (compareBytes a.1 b.1).isLE = true := by
  refine List.pairwise_mergeSort ?_ ?_ bindings
  · intro a b c first second
    exact Std.TransCmp.isLE_trans first second
  · intro a b
    have swapped : compareBytes b.1 a.1 = (compareBytes a.1 b.1).swap := Std.OrientedCmp.eq_swap
    rw [swapped]
    cases compareBytes a.1 b.1 <;> rfl

structure Scope where
  bindings : Std.ExtTreeMap String Value

namespace Scope

def empty : Scope := ⟨∅⟩

instance : EmptyCollection Scope := ⟨empty⟩
instance : Inhabited Scope := ⟨empty⟩

def get? (s : Scope) (name : String) : Option Value := s.bindings[name]?

def has (s : Scope) (name : String) : Bool := s.bindings.contains name

def set (s : Scope) (name : String) (v : Value) : Scope := ⟨s.bindings.insert name v⟩

/-- Unbinds the name, and gives what it was bound to. -/
def remove (s : Scope) (name : String) : Scope × Option Value :=
  match s.get? name with
  | some v => (⟨s.bindings.erase name⟩, some v)
  | none => (s, none)

/-- Removes every binding. A flat scope has no layers, so clearing all of them is the same. -/
def clear (_ : Scope) (_recursive : Bool) : Scope := empty

def size (s : Scope) : Nat := s.bindings.size

def isEmpty (s : Scope) : Bool := s.bindings.isEmpty

def entries (s : Scope) : List (String × Value) := sortByName s.bindings.toList

/-- Every name bound in one is bound in the other, to values that scripts see as equal. -/
def same (a b : Scope) : Bool :=
  a.size == b.size &&
    a.entries.all fun entry =>
      match b.get? entry.1 with
      | some v => entry.2 == v
      | none => false

instance : BEq Scope := ⟨same⟩

/-! ### Lookup after each operation -/

theorem ext {a b : Scope} (agree : ∀ name, a.get? name = b.get? name) : a = b := by
  obtain ⟨a⟩ := a
  obtain ⟨b⟩ := b
  exact congrArg mk (Std.ExtTreeMap.ext_getElem? fun name => agree name)

theorem get?_empty (name : String) : empty.get? name = none := by simp [empty, get?]

theorem get?_set (s : Scope) (name other : String) (v : Value) :
    (s.set name v).get? other = if other = name then some v else s.get? other := by
  simp [set, get?, Std.ExtTreeMap.getElem?_insert, eq_comm (a := other)]

theorem remove_snd (s : Scope) (name : String) : (s.remove name).2 = s.get? name := by
  unfold remove
  cases s.get? name <;> rfl

theorem get?_remove (s : Scope) (name other : String) :
    (s.remove name).1.get? other = if other = name then none else s.get? other := by
  unfold remove
  cases found : s.get? name with
  | some v => simp [get?, Std.ExtTreeMap.getElem?_erase, eq_comm (a := other)]
  | none =>
    by_cases same : other = name
    · rw [if_pos same, same]
      exact found
    · rw [if_neg same]

theorem clear_eq (s : Scope) (recursive : Bool) : s.clear recursive = empty := rfl

theorem has_eq (s : Scope) (name : String) : s.has name = (s.get? name).isSome := by
  simp [has, get?]

/-! ### Entries -/

theorem mem_entries {s : Scope} {name : String} {v : Value} :
    (name, v) ∈ s.entries ↔ s.get? name = some v := by
  simp [entries, sortByName, get?]

theorem entries_inj {a b : Scope} : a.entries = b.entries ↔ a = b := by
  refine ⟨fun same => ext fun name => Option.ext fun v => ?_, fun same => same ▸ rfl⟩
  rw [← mem_entries, ← mem_entries, same]

instance : DecidableEq Scope := fun _ _ => decidable_of_iff _ entries_inj

theorem beq_self (s : Scope) : (s == s) = true := by
  change s.same s = true
  rw [same, beq_self_eq_true, Bool.true_and, List.all_eq_true]
  rintro ⟨name, v⟩ member
  rw [mem_entries.mp member]
  exact BEq.rfl

theorem length_entries (s : Scope) : s.entries.length = s.size := by
  simp [entries, sortByName, size]

theorem isEmpty_iff {s : Scope} : s.isEmpty = true ↔ s.size = 0 := by
  simp [isEmpty, size, Std.ExtTreeMap.isEmpty_eq_size_beq_zero]

theorem entries_perm (s : Scope) : s.entries.Perm s.bindings.toList := List.mergeSort_perm _ _

theorem nodup_names_entries (s : Scope) : (s.entries.map Prod.fst).Nodup := by
  have distinct : (s.bindings.toList.map Prod.fst).Nodup := by
    rw [Std.ExtTreeMap.map_fst_toList_eq_keys]
    exact Std.ExtTreeMap.nodup_keys
  exact (s.entries_perm.map Prod.fst).nodup_iff.mpr distinct

theorem entries_ascending (s : Scope) :
    (s.entries.map Prod.fst).Pairwise fun a b => compareBytes a b = .lt := by
  rw [List.pairwise_map]
  have distinct := List.pairwise_map.mp s.nodup_names_entries
  exact ((sortByName_ascending _).and distinct).imp fun ⟨ordered, different⟩ =>
    Utf8.compareBytes_eq_lt ordered different

end Scope

end ScriptState

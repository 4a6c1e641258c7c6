import Mathlib.Data.List.Forall2
import ScriptState.Proofs.Scope.Equality
import ScriptState.Proofs.Scope.History

/-!
# Scopes are what their names stand for

Scopes are compared by their sizes and by looking up the names of the one in the other.
`equality_extensional` says that this is the same as to compare what every name stands for. It is
an equivalence; neither the order in which a table lists its bindings nor the way in which they came
about has a part in it; snapshots are equal exactly if their scopes are; and equal scopes stay equal
under the same change.
-/

namespace ScriptState

/-! ### Bindings side by side -/

/-- Two bindings of one name, to equal values. -/
def SamePair (left right : String × Value) : Prop :=
  left.1 = right.1 ∧ (left.2 == right.2) = true

variable {left right : List (String × Value)}

theorem Snapshot.ofEntries_beq_iff :
    (Snapshot.ofEntries left == .ofEntries right) = true ↔ List.Forall₂ SamePair left right := by
  change (Snapshot.ofEntries left).same (.ofEntries right) = true ↔ _
  simp only [same, ofEntries, beq_self_eq_true, Bool.true_and, Bool.and_eq_true]
  induction left generalizing right with
  | nil => cases right <;> simp
  | cons first others ih =>
    cases right with
    | nil => simp
    | cons second rest =>
      rw [List.forall₂_cons, ← ih]
      simp only [List.map_cons, List.cons_beq_cons, Bool.and_eq_true, beq_iff_eq, SamePair]
      exact and_and_and_comm

theorem sameBinding_lookup (pairs : List.Forall₂ SamePair left right) (name : String) :
    SameBinding (left.lookup name) (right.lookup name) := by
  induction pairs with
  | nil => exact .unbound
  | @cons first second _ _ pair _ ih =>
    obtain ⟨key, v⟩ := first
    obtain ⟨_, w⟩ := second
    obtain ⟨rfl, equal⟩ := pair
    rw [List.lookup_cons, List.lookup_cons]
    cases name == key with
    | true => exact .bound equal
    | false => exact ih

namespace Scope

variable {a b : Scope}

theorem forall₂_entries_iff : List.Forall₂ SamePair a.entries b.entries ↔ (a == b) = true := by
  constructor
  · intro pairs
    refine beq_iff.mpr fun name => ?_
    rw [← a.lists_entries.lookup_eq, ← b.lists_entries.lookup_eq]
    exact sameBinding_lookup pairs name
  · intro equal
    obtain ⟨sizes, every⟩ := same_iff.mp equal
    have included : ∀ name, (a.get? name).isSome = true → (b.get? name).isSome = true :=
      fun name bound => (beq_iff.mp equal name).isSome_eq ▸ bound
    -- Sorting leaves no choice: the same names stand at the same places.
    have names : a.entries.map Prod.fst = b.entries.map Prod.fst :=
      Ascending.eq_of_perm a.entries_ascending b.entries_ascending (names_perm sizes included)
    have aligned : List.Forall₂ (fun x y => x.1 = y.1) a.entries b.entries := by
      rw [← List.forall₂_eq_eq_eq, List.forall₂_map_left_iff, List.forall₂_map_right_iff] at names
      exact names
    rw [List.forall₂_iff_zip] at aligned ⊢
    refine ⟨aligned.1, ?_⟩
    rintro ⟨name, v⟩ ⟨other, w⟩ paired
    obtain rfl : name = other := aligned.2 paired
    obtain ⟨memberV, memberW⟩ := List.of_mem_zip paired
    obtain ⟨found, bound, same⟩ := every name v (mem_entries.mp memberV)
    rw [mem_entries.mp memberW] at bound
    cases bound
    exact ⟨rfl, same⟩

theorem snapshot_beq : (a.snapshot == b.snapshot) = (a == b) := by
  rw [Bool.eq_iff_iff, snapshot_eq, snapshot_eq, Snapshot.ofEntries_beq_iff, forall₂_entries_iff]

/-- The comparison may go through the bindings in any order. -/
theorem Lists.beq_eq {listing : List (String × Value)} (lists : a.Lists listing) (b : Scope) :
    (a == b) =
      (a.size == b.size && listing.all fun entry => (b.get? entry.1).any (entry.2 == ·)) := by
  rw [Bool.eq_iff_iff, same_iff, Bool.and_eq_true, beq_iff_eq, List.all_eq_true]
  simp only [Prod.forall, lists.2, Option.any_eq_true]

/-! ### Equality and histories -/

theorem beq_after_iff {first second : List Command}
    (plainFirst : ∀ command ∈ first, command.isPlain = true)
    (plainSecond : ∀ command ∈ second, command.isPlain = true) :
    ((Session.start.after first).scope == (Session.start.after second).scope) = true ↔
      ∀ name, SameBinding (lastBinding name first) (lastBinding name second) := by
  rw [beq_iff]
  simp only [Session.get?_after_start plainFirst, Session.get?_after_start plainSecond]

/-- Scopes are equal if each name is unbound in both or bound in both to equal values. This is an
equivalence. The order in which the bindings are gone through does not matter, nor do the runs that
led to the scopes but for what they leave the names bound to. The snapshots are equal exactly if
the scopes are. The same change keeps equal scopes equal, and a removal gives equal values. -/
theorem equality_extensional :
    (∀ a b : Scope, (a == b) = true ↔ ∀ name, SameBinding (a.get? name) (b.get? name)) ∧
      Equivalence (fun a b : Scope => (a == b) = true) ∧
      (∀ (a b : Scope) listing, a.Lists listing → (a == b) =
        (a.size == b.size && listing.all fun entry => (b.get? entry.1).any (entry.2 == ·))) ∧
      (∀ first second : List Command, (∀ command ∈ first ++ second, command.isPlain = true) →
        (((Session.start.after first).scope == (Session.start.after second).scope) = true ↔
          ∀ name, SameBinding (lastBinding name first) (lastBinding name second))) ∧
      (∀ a b : Scope, (a.snapshot == b.snapshot) = (a == b)) ∧
      ∀ a b : Scope, (a == b) = true →
        (∀ name v, (a.set name v == b.set name v) = true) ∧
        (∀ name, (a.remove name == b.remove name) = true) ∧
        ∀ recursive, (a.clear recursive == b.clear recursive) = true := by
  refine ⟨fun _ _ => beq_iff, ⟨beq_self, beq_symm, beq_trans⟩, fun _ b _ lists => lists.beq_eq b,
    fun first second plain => ?_, fun _ _ => snapshot_beq, fun a b equal => ⟨?_, ?_, ?_⟩⟩
  · obtain ⟨plainFirst, plainSecond⟩ := List.forall_mem_append.mp plain
    exact beq_after_iff plainFirst plainSecond
  · exact fun name v => beq_set equal BEq.rfl
  · exact fun name => beq_remove equal
  · exact fun recursive => beq_self empty

theorem equality_extensional_zeros :
    let first : List Command := [.set "x" (.float (.zero false)), .set "y" (.float .nan)]
    let second : List Command := [.set "y" (.float ⟨0x7f800001⟩), .set "z" (.int 1),
      .set "x" (.float (.zero true)), .remove "z"]
    let a := (Session.start.after first).scope
    let b := (Session.start.after second).scope
    (a == b) = true ∧ (a.snapshot == b.snapshot) = true ∧ a ≠ b ∧
      (a.set "x" (.str "") == b.set "x" (.str "")) = true ∧
      (a.remove "y" == b.remove "y") = true ∧ (a.clear true == b.clear true) = true := by
  intro first second a b
  obtain ⟨-, -, -, byRuns, snapshots, kept⟩ := equality_extensional
  have equal : (a == b) = true := by
    refine (byRuns first second (by decide)).mpr fun name => ?_
    by_cases x : name = "x"
    · subst x
      exact .bound (by decide)
    by_cases y : name = "y"
    · subst y
      exact .bound (by decide)
    have unbound : lastBinding name first = none ∧ lastBinding name second = none := by
      by_cases z : name = "z"
      · subst z
        decide
      · simp [lastBinding, first, second, Command.leaves?, Ne.symm x, Ne.symm y, Ne.symm z]
    rw [unbound.1, unbound.2]
    exact .unbound
  obtain ⟨set, remove, clear⟩ := kept a b equal
  refine ⟨equal, (snapshots a b).trans equal, fun same => ?_, set _ _, remove _, clear _⟩
  -- The bits of the two zeros differ.
  have plainFirst : ∀ command ∈ first, command.isPlain = true := by decide
  have plainSecond : ∀ command ∈ second, command.isPlain = true := by decide
  have foundA : a.get? "x" = some (.float (.zero false)) := Session.get?_after_start plainFirst
  have foundB : b.get? "x" = some (.float (.zero true)) := Session.get?_after_start plainSecond
  rw [same, foundB] at foundA
  exact absurd foundA (by decide)

end Scope

end ScriptState

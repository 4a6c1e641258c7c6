import ScriptState.Proofs.Scope.Loading
import ScriptState.Scope.Session

/-!
# What a session saves

The bytes of a scope stand for its bindings and for nothing else: `encode_after_eq_iff` compares
what two sessions save, and `reload_invisible` shows that a session does not notice when its scope
is saved and loaded again between two commands.
-/

namespace ScriptState

open Sized (Fits)

namespace Scope

namespace Session

/-- Two sessions save the same bytes exactly if they end with the same bindings. What a scope
lists is the same in every view: however the table orders the bindings and however they are then
sorted, these are the entries, in ascending order of the names, and the pairs of the snapshot. -/
theorem encode_after_eq_iff (first second : List Command) :
    let a := (start.after first).scope
    let b := (start.after second).scope
    (Fits a → Fits b → (a.encode = b.encode ↔ ∀ name, a.get? name = b.get? name)) ∧
      (∀ listing sorted, a.Lists listing → sorted.Perm listing → SortedByName sorted →
        sorted = a.entries ∧ Snapshot.ofEntries sorted = a.snapshot ∧
          Snapshot.ofBindings listing = a.snapshot) ∧
      a.snapshot.entries = a.entries ∧ Ascending (a.entries.map Prod.fst) ∧
      ScriptState.encode a = a.encode := by
  intro a b
  refine ⟨?_, ?_, Snapshot.entries_ofEntries _, a.entries_ascending, rfl⟩
  · intro fitsA fitsB
    rw [encode_inj fitsA fitsB]
    exact ⟨fun same name => same ▸ rfl, ext⟩
  · intro listing sorted lists perm ordered
    obtain rfl := (lists.of_perm perm).eq_entries ordered
    exact ⟨rfl, rfl, lists.snapshot⟩

theorem encode_after_eq_iff_orders :
    let first : List Command := [.set "a" (.int 1), .set "b" (.int 2)]
    let second : List Command :=
      [.set "b" (.int 2), .set "c" (.int 3), .set "a" (.int 1), .remove "c"]
    Fits (start.after first).scope ∧ Fits (start.after second).scope ∧
      (start.after first).scope.encode = (start.after second).scope.encode := by
  intro first second
  let listing : List (String × Value) := [("a", .int 1), ("b", .int 2)]
  have firstLists : (start.after first).scope.Lists listing := by
    refine ⟨by decide, fun name v => ?_⟩
    simp only [first, listing, start, after, List.foldl, step, get?_set, get?_empty, List.mem_cons,
      List.not_mem_nil, Prod.mk.injEq]
    grind
  have secondLists : (start.after second).scope.Lists listing := by
    refine ⟨by decide, fun name v => ?_⟩
    simp only [second, listing, start, after, List.foldl, step, get?_set, get?_remove, get?_empty,
      List.mem_cons, List.not_mem_nil, Prod.mk.injEq]
    grind
  have fits : Fits (Snapshot.ofEntries listing) := by decide +kernel
  have fitsFirst := firstLists.fits_iff.mpr fits
  have fitsSecond := secondLists.fits_iff.mpr fits
  have saved := (encode_after_eq_iff first second).1 fitsFirst fitsSecond
  refine ⟨fitsFirst, fitsSecond, saved.mpr fun name => ?_⟩
  rw [firstLists.unique secondLists]

/-! ### Reloads put in among the commands -/

theorem step_reload {s : Session} (fits : Fits s.scope) : s.step .reload = (s, .flag true) := by
  rw [step, load, decode_encode_iff.mpr fits]
  dsimp only
  rw [beq_self]

/-- The commands in which each `none` is a reload that was put in. -/
def withReloads (marked : List (Option Command)) : List Command := marked.map (·.getD .reload)

/-- The commands before any reload was put in. -/
def withoutReloads (marked : List (Option Command)) : List Command := marked.filterMap id

/-- The results of the commands that were not put in. -/
def ownResults {α : Type} (marked : List (Option Command)) (results : List α) : List α :=
  (marked.zip results).filterMap fun step => step.1.map fun _ => step.2

theorem run_withReloads {s : Session} {marked : List (Option Command)}
    (fits : ∀ t ∈ s :: (s.run (withoutReloads marked)).map Prod.fst, Fits t.scope) :
    ownResults marked (s.run (withReloads marked)) = s.run (withoutReloads marked) ∧
      s.after (withReloads marked) = s.after (withoutReloads marked) := by
  -- A reload leaves the very session, so the rest of both runs starts from one state.
  induction marked generalizing s with
  | nil => exact ⟨rfl, rfl⟩
  | cons mark rest ih =>
    cases mark with
    | none =>
      have same := step_reload (fits s List.mem_cons_self)
      have unseen := ih fits
      simp only [withReloads, List.map_cons, Option.getD_none, run, after, List.foldl_cons, same]
      exact unseen
    | some command =>
      have following := ih fun t member => fits t (List.mem_cons_of_mem _ member)
      refine ⟨?_, following.2⟩
      exact congrArg (s.step command :: ·) following.1

/-- A scope whose lengths can be written is loaded as it was saved. So reloads that are put in
anywhere in a session change neither what another command replies, nor the session it leaves, nor
the session in the end. -/
theorem reload_invisible :
    (∀ s : Scope, Scope.decode s.encode = .ok s ↔ Fits s) ∧
      ∀ (s : Session) (marked : List (Option Command)),
        (∀ t ∈ s :: (s.run (withoutReloads marked)).map Prod.fst, Fits t.scope) →
        ownResults marked (s.run (withReloads marked)) = s.run (withoutReloads marked) ∧
          s.after (withReloads marked) = s.after (withoutReloads marked) :=
  ⟨fun _ => decode_encode_iff, fun _ _ fits => run_withReloads fits⟩

theorem reload_invisible_between :
    let append : Operation := .binary (.arithmetic .addition) (.var "x") (.value (.str "é"))
    let marked := [some (.set "x" (.float ⟨0x7fa00001⟩)), none, some (.evaluate "y" append), none,
      none, some .encode]
    (∀ t ∈ start :: (start.run (withoutReloads marked)).map Prod.fst, Fits t.scope) ∧
      ownResults marked (start.run (withReloads marked)) =
        start.run (withoutReloads marked) := by
  intro append marked
  let s := Scope.empty.set "x" (.float ⟨0x7fa00001⟩)
  let t := s.set "y" (.str "NaNé")
  have bound : (Session.mk s .empty).step (.evaluate "y" append) =
      (⟨t, .empty⟩, .value (.str "NaNé")) := by
    have found : s.get? "x" = some (.float ⟨0x7fa00001⟩) := by simp [s, get?_set]
    simp only [step, append, Operation.evaluate, Operand.resolve, found]
    rfl
  have states : (start.run (withoutReloads marked)).map Prod.fst =
      [⟨s, .empty⟩, ⟨t, .empty⟩, ⟨t, .empty⟩] := by
    change [_, ((Session.mk s .empty).step (.evaluate "y" append)).1,
      ((Session.mk s .empty).step (.evaluate "y" append)).1] = _
    rw [bound]
    rfl
  have listsEmpty : Scope.empty.Lists [] := entries_empty ▸ lists_entries .empty
  have listsS : s.Lists _ := listsEmpty.set (by simp [has_eq, get?_empty])
  have listsT : t.Lists _ := listsS.set (by simp [s, has_eq, get?_set, get?_empty])
  have fits : ∀ t ∈ start :: (start.run (withoutReloads marked)).map Prod.fst, Fits t.scope := by
    have fitsEmpty : Fits Scope.empty := listsEmpty.fits_iff.mpr (by decide +kernel)
    have fitsS : Fits s := listsS.fits_iff.mpr (by decide +kernel)
    have fitsT : Fits t := listsT.fits_iff.mpr (by decide +kernel)
    rw [states]
    simp only [List.forall_mem_cons]
    exact ⟨fitsEmpty, fitsS, fitsT, fitsT, List.forall_mem_nil _⟩
  exact ⟨fits, (reload_invisible.2 start marked fits).1⟩

end Session

end Scope

end ScriptState

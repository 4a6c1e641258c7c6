import ScriptState.Proofs.Scope.Listing
import ScriptState.Proofs.ScopeStack.Layers

/-!
# The flat scope of a stack

A name in an inner layer hides the same name in the layers outside it, so a lookup cannot tell a
stack from one scope with the same visible bindings. `refines_flat` says that this scope is
`flatten`, what the operations do to it, and that a run which uncovers nothing replies as the flat
scope alone would.
-/

namespace ScriptState

namespace Scope

/-- Bindings that are set one after the other lie over the ones that were there. -/
theorem get?_foldl_set {listing : List (String × Value)}
    (distinct : (listing.map Prod.fst).Nodup) (outer : Scope) (name : String) :
    (listing.foldl (fun t e => t.set e.1 e.2) outer).get? name =
      (listing.lookup name).or (outer.get? name) := by
  induction listing generalizing outer with
  | nil => rfl
  | cons binding rest ih =>
    obtain ⟨bound, v⟩ := binding
    obtain ⟨new, distinct⟩ := List.nodup_cons.mp distinct
    rw [List.foldl_cons, ih distinct, get?_set, List.lookup_cons]
    by_cases same : name = bound
    · subst same
      have absent : rest.lookup name = none := by
        apply List.lookup_eq_none_iff.mpr
        intro other member
        exact bne_iff_ne.mpr fun equal => new (List.mem_map.mpr ⟨other, member, equal.symm⟩)
      simp [absent]
    · have skipped : (name == bound) = false := beq_eq_false_iff_ne.mpr same
      rw [if_neg same, skipped]

end Scope

namespace ScopeStack

variable {s t : ScopeStack} {global scope : Scope} {name other : String} {v : Value}

/-! ### Lookup after each operation -/

theorem get?_base : (ofScope global).get? name = global.get? name := by
  simp [get?, layers, ofScope]

theorem get?_cover : (cover scope s).get? name = (scope.get? name).or (s.get? name) := by
  simp only [get?, layers, cover, List.cons_append, List.findSome?_cons]
  cases scope.get? name <;> rfl

theorem has_eq (s : ScopeStack) (name : String) : s.has name = (s.get? name).isSome := by
  simp only [has, get?, List.isSome_findSome?, Scope.has_eq]

theorem get?_push : s.push.get? name = s.get? name := by
  rw [push_eq, get?_cover, Scope.get?_empty, Option.none_or]

theorem get?_set :
    (s.set name v).get? other = if other = name then some v else s.get? other := by
  cases s using layered with
  | base global =>
    change (ofScope (global.set name v)).get? other = _
    rw [get?_base, get?_base, Scope.get?_set]
  | cover scope s =>
    rw [set, mapCurrent_cover, get?_cover, get?_cover, Scope.get?_set]
    split <;> rfl

/-- An assignment succeeds if some layer binds the name. -/
theorem assign_cases (s : ScopeStack) (name : String) (v : Value) :
    (s.has name = true ∧ ∃ t, s.assign name v = .ok t) ∨
      (s.has name = false ∧ s.assign name v = .error (.undefined name)) := by
  induction s using layered with
  | base global =>
    rw [has_eq, get?_base, assign_base, ← Scope.has_eq]
    cases global.has name with
    | true => exact .inl ⟨rfl, _, rfl⟩
    | false => exact .inr ⟨rfl, rfl⟩
  | cover scope s ih =>
    rw [has_eq, get?_cover, Option.isSome_or, ← Scope.has_eq, ← has_eq, assign_cover]
    cases scope.has name with
    | true => exact .inl ⟨rfl, _, rfl⟩
    | false =>
      obtain ⟨bound, t, assigned⟩ | ⟨unbound, failed⟩ := ih
      · exact .inl ⟨bound, cover scope t, by rw [assigned]; rfl⟩
      · exact .inr ⟨unbound, by rw [failed]; rfl⟩

theorem get?_assign (assigned : s.assign name v = .ok t) :
    t.get? other = if other = name then some v else s.get? other := by
  induction s using layered generalizing t with
  | base global =>
    rw [assign_base] at assigned
    split at assigned
    · cases assigned
      rw [get?_base, get?_base, Scope.get?_set]
    · cases assigned
  | cover scope s ih =>
    rw [assign_cover] at assigned
    split at assigned
    · cases assigned
      rw [get?_cover, get?_cover, Scope.get?_set]
      split <;> rfl
    · rename_i unbound
      cases inner : s.assign name v with
      | error e => rw [inner] at assigned; cases assigned
      | ok u =>
        rw [inner] at assigned
        cases assigned
        rw [get?_cover, get?_cover, ih inner]
        by_cases same : other = name
        · -- The assignment went past this layer, so this layer does not hide its effect.
          subst same
          have hidden : scope.get? other = none := by simpa [Scope.has_eq] using unbound
          simp [hidden]
        · simp [same]

theorem reply_assign (s : ScopeStack) (name : String) (v : Value) :
    (s.step (.assign name v)).2 = if s.has name then .done else .undefined (.undefined name) := by
  obtain ⟨bound, t, assigned⟩ | ⟨unbound, failed⟩ := s.assign_cases name v
  · simp only [step, assigned, bound, if_true]
  · simp only [step, failed, unbound, Bool.false_eq_true, if_false]

/-! ### The flat scope -/

theorem flatten_cover :
    (cover scope s).flatten = scope.entries.foldl (fun t e => t.set e.1 e.2) s.flatten := rfl

/-- The flat scope binds what a lookup in the stack finds. -/
theorem get?_flatten (s : ScopeStack) (name : String) : s.flatten.get? name = s.get? name := by
  induction s using layered with
  | base global => exact get?_base.symm
  | cover scope s ih =>
    rw [flatten_cover, Scope.get?_foldl_set scope.nodup_names_entries,
      scope.lists_entries.lookup_eq, ih, get?_cover]

theorem flatten_eq_iff {flat : Scope} :
    s.flatten = flat ↔ ∀ name, s.get? name = flat.get? name := by
  constructor
  · intro same name
    rw [← same, get?_flatten]
  · intro agree
    exact Scope.ext fun name => by rw [get?_flatten, agree]

theorem flatten_push : s.push.flatten = s.flatten := by
  apply flatten_eq_iff.mpr
  intro name
  rw [get?_push, get?_flatten]

theorem flatten_eq_set
    (bound : ∀ other, t.get? other = if other = name then some v else s.get? other) :
    t.flatten = s.flatten.set name v := by
  apply flatten_eq_iff.mpr
  intro other
  rw [bound, Scope.get?_set, get?_flatten]

theorem flatten_set : (s.set name v).flatten = s.flatten.set name v :=
  flatten_eq_set fun _ => get?_set

theorem flatten_assign : (s.step (.assign name v)).1.flatten =
    if s.has name then s.flatten.set name v else s.flatten := by
  obtain ⟨bound, t, assigned⟩ | ⟨unbound, failed⟩ := s.assign_cases name v
  · simp only [step, assigned, bound, if_true]
    exact flatten_eq_set fun _ => get?_assign assigned
  · simp only [step, failed, unbound, Bool.false_eq_true, if_false]

theorem flatten_clear : (s.clear true).flatten = .empty := rfl

/-! ### Runs that uncover nothing -/

/-- Commands that uncover no hidden binding and single out no layer for their reply. -/
def Command.isFlat : Command → Bool
  | .push | .set _ _ | .assign _ _ | .get _ | .has _ | .clear true | .evaluate _ _ => true
  | _ => false

theorem step_flatten {command : Command} (isFlat : command.isFlat = true)
    (same : s.flatten = t.flatten) :
    (s.step command).1.flatten = (t.step command).1.flatten ∧
      (s.step command).2 = (t.step command).2 := by
  have lookups : s.get? = t.get? := by
    funext name
    rw [← get?_flatten, same, get?_flatten]
  have bindings (name : String) : s.has name = t.has name := by rw [has_eq, has_eq, lookups]
  cases command with
  | push => exact ⟨by simp only [step, flatten_push, same], rfl⟩
  | set name v => exact ⟨by simp only [step, flatten_set, same], rfl⟩
  | assign name v => simp only [flatten_assign, reply_assign, bindings, same, and_self]
  | get name => exact ⟨same, congrArg Reply.binding (congrFun lookups name)⟩
  | has name => exact ⟨same, congrArg Reply.flag (bindings name)⟩
  | clear recursive =>
    cases recursive with
    | true => exact ⟨rfl, rfl⟩
    | false => cases isFlat
  | evaluate name operation =>
    simp only [step, lookups]
    cases operation.evaluate t.get? with
    | ok v => exact ⟨by simp only [flatten_set, same], rfl⟩
    | error reason => exact ⟨same, rfl⟩
  | _ => cases isFlat

/-- What the commands reply, with the flat scope that each leaves. -/
def flatRun (s : ScopeStack) (commands : List Command) : List (Scope × Reply) :=
  (s.run commands).map fun after => (after.1.flatten, after.2)

theorem flatRun_eq {commands : List Command}
    (isFlat : ∀ command ∈ commands, command.isFlat = true) (same : s.flatten = t.flatten) :
    s.flatRun commands = t.flatRun commands := by
  induction commands generalizing s t with
  | nil => rfl
  | cons command rest ih =>
    obtain ⟨first, others⟩ := List.forall_mem_cons.mp isFlat
    obtain ⟨left, replies⟩ := step_flatten first same
    change ((s.step command).1.flatten, (s.step command).2) :: (s.step command).1.flatRun rest =
      ((t.step command).1.flatten, (t.step command).2) :: (t.step command).1.flatRun rest
    rw [left, replies, ih others left]

/-- Every stack is looked up in as its flat scope is. Pushing leaves the flat scope alone, binding
and assigning bind in it, and clearing all layers empties it. Run from the stack or from the flat
scope alone, commands that uncover nothing give the same replies and the same flat scopes. -/
theorem refines_flat (s : ScopeStack) :
    (∀ name, s.get? name = s.flatten.get? name ∧
      (s.has name = true ↔ (s.get? name).isSome = true)) ∧
    s.push.flatten = s.flatten ∧
    (∀ name v t, t = s.set name v ∨ s.assign name v = .ok t →
      t.flatten = s.flatten.set name v ∧ ∀ other, other ≠ name → t.get? other = s.get? other) ∧
    (s.clear true).flatten = .empty ∧ (s.clear true).depth = 1 ∧
    ∀ commands, (∀ command ∈ commands, command.isFlat = true) →
      s.flatRun commands = (ofScope s.flatten).flatRun commands := by
  refine ⟨fun name => ⟨(s.get?_flatten name).symm, by rw [has_eq]⟩, flatten_push, ?_, flatten_clear,
    rfl, fun commands isFlat => flatRun_eq isFlat rfl⟩
  intro name v t reached
  have lookups (other : String) :
      t.get? other = if other = name then some v else s.get? other := by
    obtain rfl | assigned := reached
    · exact get?_set
    · exact get?_assign assigned
  exact ⟨flatten_eq_set lookups, fun other different => (lookups other).trans (if_neg different)⟩

theorem refines_flat_shadowed :
    let inner := Scope.empty.set "x" (.int 3)
    let s : ScopeStack := ⟨(Scope.empty.set "x" (.int 1)).set "y" (.int 2), [inner]⟩
    let commands : List Command :=
      [.assign "y" (.int 4), .push, .set "x" (.int 5), .assign "z" (.int 6), .get "x"]
    (∃ t, s.assign "y" (.int 4) = .ok t ∧ t.flatten = s.flatten.set "y" (.int 4) ∧
      t.get? "x" = some (.int 3)) ∧
    s.flatRun commands = (ofScope s.flatten).flatRun commands := by
  intro inner s commands
  obtain ⟨-, -, bindings, -, -, runs⟩ := refines_flat s
  have isFlat : ∀ command ∈ commands, command.isFlat = true := by decide
  have bound : s.has "y" = true := by decide +kernel
  have visible : s.get? "x" = some (.int 3) := by decide +kernel
  refine ⟨?_, runs commands isFlat⟩
  obtain ⟨-, t, assigned⟩ | ⟨unbound, -⟩ := s.assign_cases "y" (.int 4)
  · obtain ⟨flat, others⟩ := bindings "y" (.int 4) t (.inr assigned)
    exact ⟨t, assigned, flat, (others "x" (by decide)).trans visible⟩
  · rw [bound] at unbound
    cases unbound

end ScopeStack

end ScriptState

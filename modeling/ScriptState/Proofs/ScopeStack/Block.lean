import ScriptState.Proofs.ScopeStack.Layers

/-!
# Blocks

A block pushes a layer, runs commands that stay inside, and pops what is left of its layers.
`block_discipline` says what a block leaves of the stack around it: each layer binds the names it
did before, and a binding is changed only by the assignments that reach it, of which the last one
counts.
-/

namespace ScriptState.ScopeStack

/-- Commands that change the innermost layer at most, but for assignments. -/
def Command.isLocal : Command → Bool
  | .globalSet _ _ | .globalRemove _ | .clear true | .intoGlobal | .decode _ => false
  | _ => true

/-- What a command assigns to the name as it is bound by the layer at the height. The assignment
gets there if no layer inside binds the name. -/
def assigned? (s : ScopeStack) (height : Nat) (name : String) : Command → Option Value
  | .assign other v => if other = name ∧ s.hasInside height name = false then some v else none
  | _ => none

/-- All that a run assigns to the name at the height, in order. -/
def assignments (s : ScopeStack) (height : Nat) (name : String) : List Command → List Value
  | [] => []
  | command :: rest =>
    (s.assigned? height name command).toList ++ (s.step command).1.assignments height name rest

variable {s : ScopeStack} {height : Nat} {name : String} {commands : List Command}

/-! ### One command -/

theorem getAt?_mapCurrent (f : Scope → Scope) (inner : height + 1 < s.depth) :
    (s.mapCurrent f).getAt? height name = s.getAt? height name := by
  obtain ⟨scope, t, rfl, within⟩ := exists_cover inner
  rw [mapCurrent_cover, getAt?_cover_of_lt within, getAt?_cover_of_lt within]

theorem getAt?_pop (inner : height + 1 < s.depth) :
    s.pop.1.getAt? height name = s.getAt? height name := by
  obtain ⟨scope, t, rfl, within⟩ := exists_cover inner
  rw [pop_cover, getAt?_cover_of_lt within]

theorem getAt?_push (within : height < s.depth) :
    s.push.getAt? height name = s.getAt? height name := by
  rw [push_eq, getAt?_cover_of_lt within]

theorem getAt?_step {command : Command} (isLocal : command.isLocal = true)
    (inner : height + 1 < s.depth) :
    (s.step command).1.getAt? height name =
      (s.getAt? height name).map fun bound => (s.assigned? height name command).getD bound := by
  cases command with
  | assign other v =>
    rw [getAt?_assign, assigned?]
    split
    · rfl
    · rfl
  | push => simp [step, assigned?, getAt?_push (Nat.lt_of_succ_lt inner)]
  | pop => simp [step, assigned?, getAt?_pop inner]
  | set other v => simp [step, assigned?, set, getAt?_mapCurrent _ inner]
  | clear recursive =>
    cases recursive with
    | true => cases isLocal
    | false => simp [step, assigned?, clear, getAt?_mapCurrent _ inner]
  | evaluate other operation =>
    simp only [step, assigned?, Option.getD_none, Option.map_id_fun', id]
    split
    · exact getAt?_mapCurrent _ inner
    · rfl
  | globalSet | globalRemove | intoGlobal | decode => cases isLocal
  | get | has | currentHas | globalGet | encodeGlobal | encodeCurrent => simp [step, assigned?]

/-! ### A run that stays inside -/

theorem getLastD_append_toList {α : Type} (first : Option α) (rest : List α) (default : α) :
    (first.toList ++ rest).getLastD default = rest.getLastD (first.getD default) := by
  cases first with
  | none => rfl
  | some x => exact List.getLastD_cons

theorem getAt?_after (isLocal : ∀ command ∈ commands, command.isLocal = true)
    (inner : ∀ t ∈ s :: (s.run commands).map Prod.fst, height + 1 < t.depth) :
    (s.after commands).getAt? height name =
      (s.getAt? height name).map fun bound =>
        (s.assignments height name commands).getLastD bound := by
  induction commands generalizing s with
  | nil => simp [after, assignments]
  | cons command rest ih =>
    obtain ⟨first, others⟩ := List.forall_mem_cons.mp isLocal
    obtain ⟨here, later⟩ := List.forall_mem_cons.mp inner
    have following := ih others later
    change ((s.step command).1.after rest).getAt? height name = _
    rw [following, getAt?_step first here, Option.map_map]
    simp only [assignments, getLastD_append_toList, Function.comp_def]

theorem assignments_eq_nil
    (unassigned : ∀ command ∈ commands, ∀ other v, command ≠ .assign other v) :
    s.assignments height name commands = [] := by
  induction commands generalizing s with
  | nil => rfl
  | cons command rest ih =>
    obtain ⟨first, others⟩ := List.forall_mem_cons.mp unassigned
    have none : s.assigned? height name command = none := by
      cases command with
      | assign other v => exact absurd rfl (first other v)
      | _ => rfl
    rw [assignments, none, ih others]
    rfl

theorem after_mem_run : s.after commands ∈ s :: (s.run commands).map Prod.fst := by
  induction commands generalizing s with
  | nil => exact List.mem_cons_self
  | cons command rest ih => exact List.mem_cons_of_mem _ ih

/-! ### Popping what is left -/

theorem depth_pop (several : 1 < s.depth) : s.pop.1.depth = s.depth - 1 := by
  obtain ⟨scope, t, rfl, -⟩ := exists_cover several
  rfl

theorem depth_pops {k : Nat} (within : k < s.depth) :
    (s.after (List.replicate k .pop)).depth = s.depth - k := by
  induction k generalizing s with
  | zero => rfl
  | succ k ih =>
    have popped := depth_pop (s := s) (by omega)
    change (s.pop.1.after (List.replicate k .pop)).depth = _
    rw [ih (by omega), popped, Nat.sub_sub, Nat.add_comm 1]

theorem getAt?_pops {k : Nat} (inner : height + k < s.depth) :
    (s.after (List.replicate k .pop)).getAt? height name = s.getAt? height name := by
  induction k generalizing s with
  | zero => rfl
  | succ k ih =>
    have popped := depth_pop (s := s) (by omega)
    change (s.pop.1.after (List.replicate k .pop)).getAt? height name = _
    rw [ih (by omega), getAt?_pop (by omega)]

/-- After a block has pushed a layer, has run commands that stay inside and is popped again, the
stack around it has the layers it had. Each binds the names it did, a name to the last value that
was assigned to it while no layer inside bound it, or as before if there was no such assignment.
Without assignments the stack is the same. -/
theorem block_discipline (s : ScopeStack) (body : List Command)
    (isLocal : ∀ command ∈ body, command.isLocal = true)
    (within : ∀ t ∈ (s.push.run body).map Prod.fst, s.depth < t.depth) :
    let t := s.push.after body
    let u := t.after (List.replicate (t.depth - s.depth) .pop)
    u.depth = s.depth ∧
      (∀ height name, u.getAt? height name =
        (s.getAt? height name).map fun bound =>
          (s.push.assignments height name body).getLastD bound) ∧
      ((∀ command ∈ body, ∀ name v, command ≠ .assign name v) → u = s) := by
  intro t u
  have inside : ∀ t ∈ s.push :: (s.push.run body).map Prod.fst, s.depth < t.depth :=
    List.forall_mem_cons.mpr ⟨Nat.lt_succ_self _, within⟩
  have deeper : s.depth < t.depth := inside t after_mem_run
  have depths : u.depth = s.depth := by
    have positive := s.depth_pos
    change (t.after _).depth = _
    rw [depth_pops (by omega)]
    omega
  have bindings : ∀ height name, u.getAt? height name =
      (s.getAt? height name).map fun bound =>
        (s.push.assignments height name body).getLastD bound := by
    intro height name
    by_cases outside : s.depth ≤ height
    · rw [getAt?_eq_none outside, getAt?_eq_none (depths ▸ outside)]
      rfl
    · have inner : ∀ t ∈ s.push :: (s.push.run body).map Prod.fst, height + 1 < t.depth :=
        fun t member => by have depth := inside t member; omega
      rw [getAt?_pops (by omega), getAt?_after isLocal inner, getAt?_push (by omega)]
  refine ⟨depths, bindings, fun unassigned => ext_getAt? depths fun height name => ?_⟩
  rw [bindings, assignments_eq_nil unassigned]
  exact Option.map_id'

theorem block_discipline_shadowed :
    let inner := Scope.empty.set "x" (.int 3)
    let s : ScopeStack := ⟨(Scope.empty.set "x" (.int 1)).set "y" (.int 2), [inner]⟩
    let body : List Command := [.set "x" (.int 10), .assign "x" (.int 11), .push,
      .assign "y" (.int 12), .pop, .clear false, .assign "x" (.int 13), .push]
    let u := (s.push.after body).after (List.replicate 2 .pop)
    u.getAt? 1 "x" = some (.int 13) ∧ u.getAt? 0 "x" = some (.int 1) ∧
      u.getAt? 0 "y" = some (.int 12) := by
  intro inner s body u
  have isLocal : ∀ command ∈ body, command.isLocal = true := by decide
  have within : ∀ t ∈ (s.push.run body).map Prod.fst, s.depth < t.depth := by decide +kernel
  obtain ⟨-, bindings, -⟩ := block_discipline s body isLocal within
  have left : (s.push.after body).depth - s.depth = 2 := by decide +kernel
  rw [left] at bindings
  refine ⟨(bindings 1 "x").trans ?_, (bindings 0 "x").trans ?_, (bindings 0 "y").trans ?_⟩ <;>
    decide +kernel

end ScriptState.ScopeStack

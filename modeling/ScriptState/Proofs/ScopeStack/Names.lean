import Mathlib.Data.List.Forall2
import ScriptState.Proofs.ScopeStack.Flat

/-!
# Names do not interfere

What a stack does with a name depends on what its layers bind that name to, and on nothing else
about them (`view_step`, `sameReply_step`). So `names_independent` lets the commands that bind other
names be left out of a run: what the run says and keeps of the name is the same without them.
-/

namespace ScriptState.ScopeStack

variable {s t : ScopeStack} {global scope : Scope} {name other : String} {v : Value}

/-! ### What the layers bind a name to -/

/-- What each layer binds the name to, from the innermost layer outwards. -/
def view (s : ScopeStack) (name : String) : List (Option Value) := s.layers.map (·.get? name)

theorem view_base : (ofScope global).view name = [global.get? name] := rfl

theorem view_cover : (cover scope s).view name = scope.get? name :: s.view name := rfl

theorem length_view (s : ScopeStack) (name : String) : (s.view name).length = s.depth := by
  simp [view, layers, depth]

theorem view_mapCurrent (f : Scope → Scope) :
    (s.mapCurrent f).view name = (f s.current).get? name :: (s.view name).tail := by
  cases s using layered with
  | base global => rfl
  | cover scope s => rfl

theorem view_eq_cons (s : ScopeStack) (name : String) :
    s.view name = s.current.get? name :: (s.view name).tail := by
  cases s using layered with
  | base global => rfl
  | cover scope s => rfl

theorem view_mapGlobal (f : Scope → Scope) :
    (s.mapGlobal f).view name = (s.view name).dropLast ++ [(f s.global).get? name] := by
  simp [view, layers, mapGlobal]

theorem view_eq_concat (s : ScopeStack) (name : String) :
    s.view name = (s.view name).dropLast ++ [s.global.get? name] := by
  simp [view, layers]

theorem get?_eq_view : s.get? name = (s.view name).findSome? id := by
  rw [view, List.findSome?_map]
  rfl

/-! ### Commands on the view of a name -/

/-- The first of the bindings with another value. -/
def rebind (v : Value) : List (Option Value) → List (Option Value)
  | [] => []
  | some _ :: outer => some v :: outer
  | none :: outer => none :: rebind v outer

/-- What a command makes of the view of a name, unless it evaluates an operation into it. -/
def Command.onView (name : String) (view : List (Option Value)) : Command → List (Option Value)
  | .push => none :: view
  | .pop => if view.length = 1 then view else view.tail
  | .set other v => if other = name then some v :: view.tail else view
  | .assign other v => if other = name then rebind v view else view
  | .globalSet other v => if other = name then view.dropLast ++ [some v] else view
  | .globalRemove other => if other = name then view.dropLast ++ [none] else view
  | .clear recursive => if recursive then [none] else none :: view.tail
  | .intoGlobal => view.getLast?.toList
  | .decode bytes =>
    match Scope.decode bytes with
    | .ok loaded => [loaded.get? name]
    | .error _ => view
  | _ => view

theorem view_set : (s.set other v).view name =
    if other = name then some v :: (s.view name).tail else s.view name := by
  rw [set, view_mapCurrent, Scope.get?_set]
  by_cases same : other = name
  · rw [if_pos same, if_pos same.symm]
  · rw [if_neg same, if_neg (Ne.symm same), ← view_eq_cons]

theorem view_writeGlobal {f : Scope → Scope} {bound : Option Value}
    (written : (f s.global).get? name = if name = other then bound else s.global.get? name) :
    (s.mapGlobal f).view name =
      if other = name then (s.view name).dropLast ++ [bound] else s.view name := by
  rw [view_mapGlobal, written]
  by_cases same : other = name
  · rw [if_pos same, if_pos same.symm]
  · rw [if_neg same, if_neg (Ne.symm same), ← view_eq_concat]

theorem view_assign : (s.step (.assign other v)).1.view name =
    if other = name then rebind v (s.view name) else s.view name := by
  induction s using layered with
  | base global =>
    rw [step_assign_base, view_base, view_base, get?_rebind]
    split
    · cases global.get? name <;> rfl
    · rw [Option.map_id']
  | cover scope s ih =>
    rw [step_assign_cover]
    by_cases same : other = name
    · subst same
      rw [if_pos rfl] at ih ⊢
      rw [Scope.has_eq, view_cover]
      cases found : scope.get? other with
      | none => rw [Option.isSome_none, if_neg Bool.false_ne_true, view_cover, found, ih, rebind]
      | some bound =>
        rw [Option.isSome_some, if_pos rfl, view_cover, Scope.get?_set, if_pos rfl, rebind]
    · rw [if_neg same] at ih ⊢
      split
      · rw [view_cover, view_cover, Scope.get?_set, if_neg (Ne.symm same)]
      · rw [view_cover, view_cover, ih]

theorem view_pop : s.pop.1.view name =
    if (s.view name).length = 1 then s.view name else (s.view name).tail := by
  cases s using layered with
  | base global => rfl
  | cover scope s =>
    have deeper := s.depth_pos
    rw [pop_cover, length_view, depth_cover, if_neg (by omega)]
    rfl

theorem view_step {command : Command}
    (direct : ∀ operation, command ≠ .evaluate name operation) :
    (s.step command).1.view name = command.onView name (s.view name) := by
  cases command with
  | push =>
    change Scope.empty.get? name :: s.view name = _
    rw [Scope.get?_empty]
    rfl
  | pop => exact view_pop
  | set other v => exact view_set
  | assign other v => exact view_assign
  | globalSet other v => exact view_writeGlobal (Scope.get?_set ..)
  | globalRemove other =>
    exact view_writeGlobal (f := fun global => (global.remove other).1) (Scope.get?_remove ..)
  | clear recursive =>
    cases recursive with
    | true =>
      change [Scope.empty.get? name] = _
      rw [Scope.get?_empty]
      rfl
    | false =>
      change (s.mapCurrent (·.clear false)).view name = _
      rw [view_mapCurrent, Scope.clear_eq, Scope.get?_empty]
      rfl
  | evaluate other operation =>
    have different : other ≠ name := fun same => direct operation (same ▸ rfl)
    simp only [step, Command.onView]
    split
    · rw [view_set, if_neg different]
    · rfl
  | intoGlobal =>
    change [s.global.get? name] = (s.view name).getLast?.toList
    rw [view_eq_concat, List.getLast?_concat]
    rfl
  | decode bytes =>
    simp only [step, Command.onView]
    cases Scope.decode bytes with
    | ok loaded => rfl
    | error reason => rfl
  | _ => rfl

/-! ### What is said of a name -/

/-- Replies to a command that say the same of the name: what is found under it, whether it could be
assigned to, what a layer that was taken off binds it to. -/
def SameReply (name : String) : Command → Reply → Reply → Prop
  | .get other, r, q | .has other, r, q | .assign other _, r, q | .currentHas other, r, q
  | .globalGet other, r, q | .globalRemove other, r, q => other = name → r = q
  | .pop, .popped r, .popped q => r.map (·.get? name) = q.map (·.get? name)
  | .intoGlobal, .global r, .global q => r.get? name = q.get? name
  | .encodeGlobal, _, _ | .encodeCurrent, _, _ | .evaluate _ _, _, _ => True
  | _, r, q => r = q

theorem popped_get? : s.pop.2.map (·.get? name) =
    if (s.view name).length = 1 then none else (s.view name).head? := by
  cases s using layered with
  | base global => rfl
  | cover scope s =>
    have deeper := s.depth_pos
    rw [pop_cover, length_view, depth_cover, if_neg (by omega)]
    rfl

theorem sameReply_step (same : s.view name = t.view name) (command : Command) :
    SameReply name command (s.step command).2 (t.step command).2 := by
  have found : s.get? name = t.get? name := by rw [get?_eq_view, get?_eq_view, same]
  have bound : s.has name = t.has name := by rw [has_eq, has_eq, found]
  have current : s.current.get? name = t.current.get? name := by
    rw [view_eq_cons, view_eq_cons t] at same
    exact (List.cons.inj same).1
  have global : s.global.get? name = t.global.get? name := by
    rw [view_eq_concat, view_eq_concat t] at same
    exact List.singleton_inj.mp (List.append_inj' same rfl).2
  cases command with
  | pop =>
    change s.pop.2.map (·.get? name) = t.pop.2.map (·.get? name)
    rw [popped_get?, popped_get?, same]
  | assign other v =>
    rintro rfl
    rw [reply_assign, reply_assign, bound]
  | get other =>
    rintro rfl
    exact congrArg Reply.binding found
  | has other =>
    rintro rfl
    exact congrArg Reply.flag bound
  | currentHas other =>
    rintro rfl
    simp only [step, Scope.has_eq, current]
  | globalGet other =>
    rintro rfl
    exact congrArg Reply.binding global
  | globalRemove other =>
    rintro rfl
    simp only [step, Scope.remove_snd, global]
  | intoGlobal => exact global
  | decode bytes =>
    simp only [step]
    cases Scope.decode bytes with
    | ok loaded => rfl
    | error reason => rfl
  | evaluate | encodeGlobal | encodeCurrent => trivial
  | _ => rfl

/-! ### Runs without the commands on other names -/

/-- Commands that bind a name other than this one, or unbind it. -/
def Command.bindsOther (name : String) : Command → Bool
  | .set other _ | .assign other _ | .evaluate other _ | .globalSet other _ | .globalRemove other =>
    other != name
  | _ => false

theorem view_step_of_bindsOther {command : Command} (binds : command.bindsOther name = true) :
    (s.step command).1.view name = s.view name := by
  have direct : ∀ operation, command ≠ .evaluate name operation := by
    rintro operation rfl
    exact absurd rfl (bne_iff_ne.mp binds)
  rw [view_step direct]
  cases command with
  | set other v => exact if_neg (bne_iff_ne.mp binds)
  | assign other v => exact if_neg (bne_iff_ne.mp binds)
  | globalSet other v => exact if_neg (bne_iff_ne.mp binds)
  | globalRemove other => exact if_neg (bne_iff_ne.mp binds)
  | evaluate other operation => rfl
  | _ => cases binds

/-- The commands of a run, each with the stack it leaves and the reply to it. -/
def steps (s : ScopeStack) (commands : List Command) : List (Command × ScopeStack × Reply) :=
  commands.zip (s.run commands)

/-- Steps of two runs that cannot be told apart by this name: the same command leaves as many
layers, with the same bindings of the name, and is replied to with the same about it. -/
structure Agree (name : String) (first second : Command × ScopeStack × Reply) : Prop where
  command : first.1 = second.1
  depth : first.2.1.depth = second.2.1.depth
  view : first.2.1.view name = second.2.1.view name
  reply : SameReply name first.1 first.2.2 second.2.2

theorem depth_eq_of_view (same : s.view name = t.view name) : s.depth = t.depth := by
  rw [← s.length_view name, same, length_view]

theorem steps_agree {commands : List Command} (same : s.view name = t.view name)
    (direct : ∀ command ∈ commands, ∀ operation, command ≠ .evaluate name operation) :
    let kept := commands.filter fun command => !command.bindsOther name
    List.Forall₂ (Agree name) ((s.steps commands).filter fun step => !step.1.bindsOther name)
        (t.steps kept) ∧
      (s.after commands).view name = (t.after kept).view name := by
  -- The stacks of the two runs keep one view of the name; only the first run takes the steps that
  -- bind other names.
  induction commands generalizing s t with
  | nil => exact ⟨.nil, same⟩
  | cons command rest ih =>
    obtain ⟨first, others⟩ := List.forall_mem_cons.mp direct
    intro kept
    cases binds : command.bindsOther name with
    | true =>
      have unseen : (s.step command).1.view name = t.view name :=
        (view_step_of_bindsOther binds).trans same
      have left : kept = rest.filter fun command => !command.bindsOther name :=
        List.filter_cons_of_neg (by simp [binds])
      have following := ih unseen others
      rw [left]
      refine ⟨?_, following.2⟩
      change List.Forall₂ (Agree name) (((command, s.step command) ::
        (s.step command).1.steps rest).filter _) _
      rw [List.filter_cons_of_neg (by simp [binds])]
      exact following.1
    | false =>
      have stepped : (s.step command).1.view name = (t.step command).1.view name := by
        rw [view_step first, view_step first, same]
      have left : kept = command :: rest.filter fun command => !command.bindsOther name :=
        List.filter_cons_of_pos (by simp [binds])
      have following := ih stepped others
      rw [left]
      refine ⟨?_, following.2⟩
      change List.Forall₂ (Agree name) (((command, s.step command) ::
        (s.step command).1.steps rest).filter _) ((command, t.step command) ::
        (t.step command).1.steps _)
      rw [List.filter_cons_of_pos (by simp [binds])]
      exact .cons ⟨rfl, depth_eq_of_view stepped, stepped, sameReply_step same command⟩ following.1

/-- The commands that bind other names can be left out of a run which evaluates no operation into
the name. Of the commands that stay, each leaves as many layers as before, with the same bindings
of the name, and says the same of the name; and so it is with the stack in the end. -/
theorem names_independent (s : ScopeStack) (name : String) (commands : List Command)
    (direct : ∀ command ∈ commands, ∀ operation, command ≠ .evaluate name operation) :
    let kept := commands.filter fun command => !command.bindsOther name
    List.Forall₂ (Agree name) ((s.steps commands).filter fun step => !step.1.bindsOther name)
        (s.steps kept) ∧
      (s.after commands).depth = (s.after kept).depth ∧
      (s.after commands).view name = (s.after kept).view name := by
  intro kept
  obtain ⟨agree, final⟩ := steps_agree (s := s) rfl direct
  exact ⟨agree, depth_eq_of_view final, final⟩

theorem names_independent_popped :
    let s := ofScope (Scope.empty.set "x" (.int 1))
    let commands : List Command := [.push, .set "y" (.int 2), .set "x" (.int 3),
      .assign "y" (.int 4), .assign "z" (.int 5), .pop, .assign "x" (.int 6), .set "y" (.int 7)]
    let kept : List Command := [.push, .set "x" (.int 3), .pop, .assign "x" (.int 6)]
    List.Forall₂ (Agree "x") ((s.steps commands).filter fun step => !step.1.bindsOther "x")
        (s.steps kept) ∧
      (s.after commands).view "x" = (s.after kept).view "x" ∧
      (s.after kept).view "x" = [some (.int 6)] := by
  intro s commands kept
  have direct : ∀ command ∈ commands, ∀ operation, command ≠ .evaluate "x" operation := by
    simp [commands]
  have left : commands.filter (fun command => !command.bindsOther "x") = kept := rfl
  have independent := names_independent s "x" commands direct
  rw [left] at independent
  obtain ⟨agree, -, final⟩ := independent
  exact ⟨agree, final, by decide +kernel⟩

end ScriptState.ScopeStack

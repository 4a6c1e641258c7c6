import ScriptState.ScopeStack.Session

/-!
# Layers of a stack

A stack is a global scope, or a layer over a stack (`ScopeStack.layered`), and each operation is
given by what it does in these two cases. Layers are counted from the global scope inwards, so that
a layer keeps its height while others come and go inside it. `getAt?_assign` says which layer an
assignment reaches.
-/

namespace ScriptState.ScopeStack

/-- The stack with one more layer, which becomes the innermost. -/
def cover (scope : Scope) (s : ScopeStack) : ScopeStack := { s with locals := scope :: s.locals }

@[elab_as_elim]
theorem layered {motive : ScopeStack → Prop} (base : ∀ global, motive (ofScope global))
    (cover : ∀ scope s, motive s → motive (cover scope s)) (s : ScopeStack) : motive s := by
  obtain ⟨global, locals⟩ := s
  induction locals with
  | nil => exact base global
  | cons scope outer ih => exact cover scope ⟨global, outer⟩ ih

variable {s t : ScopeStack} {global scope : Scope} {name other : String} {v : Value}

theorem depth_base : (ofScope global).depth = 1 := rfl

theorem depth_cover : (cover scope s).depth = s.depth + 1 := rfl

theorem depth_pos (s : ScopeStack) : 0 < s.depth := Nat.succ_pos _

theorem exists_cover {height : Nat} (inner : height + 1 < s.depth) :
    ∃ scope t, s = cover scope t ∧ height < t.depth := by
  obtain ⟨global, locals⟩ := s
  cases locals with
  | nil => exact absurd (Nat.lt_of_succ_lt_succ inner) (Nat.not_lt_zero height)
  | cons scope outer => exact ⟨scope, ⟨global, outer⟩, rfl, Nat.lt_of_succ_lt_succ inner⟩

theorem push_eq : s.push = cover .empty s := rfl

theorem pop_cover : (cover scope s).pop = (s, some scope) := rfl

theorem mapCurrent_cover (f : Scope → Scope) :
    (cover scope s).mapCurrent f = cover (f scope) s := rfl

theorem assign_base : (ofScope global).assign name v =
    if global.has name then .ok (ofScope (global.set name v)) else .error (.undefined name) := rfl

theorem assign_cover : (cover scope s).assign name v =
    if scope.has name then .ok (cover (scope.set name v) s)
    else (cover scope) <$> s.assign name v := by
  by_cases bound : scope.has name = true
  · simp only [assign, cover, assignFirst?, if_pos bound]
  · simp only [assign, cover, assignFirst?, if_neg bound]
    cases assignFirst? name v s.locals with
    | some locals => rfl
    | none =>
      let assigned := s.mapGlobal (·.set name v)
      change (if s.global.has name = true then Except.ok (cover scope assigned)
        else Except.error (AssignError.undefined name)) = cover scope <$>
          if s.global.has name = true then Except.ok assigned
          else Except.error (AssignError.undefined name)
      split <;> rfl

/-! ### Heights -/

/-- The layers from the global scope inwards. -/
def inwards (s : ScopeStack) : List Scope := s.global :: s.locals.reverse

/-- What the layer at the height binds the name to. The global scope is at height 0. -/
def getAt? (s : ScopeStack) (height : Nat) (name : String) : Option Value :=
  s.inwards[height]?.bind (·.get? name)

/-- Whether a layer inside the one at the height binds the name. -/
def hasInside (s : ScopeStack) (height : Nat) (name : String) : Bool :=
  (s.inwards.drop (height + 1)).any (·.has name)

variable {height : Nat}

theorem inwards_base : (ofScope global).inwards = [global] := rfl

theorem inwards_cover : (cover scope s).inwards = s.inwards ++ [scope] := by
  simp [inwards, cover]

theorem length_inwards (s : ScopeStack) : s.inwards.length = s.depth := by
  simp [inwards, depth]

theorem inwards_inj (same : s.inwards = t.inwards) : s = t := by
  obtain ⟨global, locals⟩ := List.cons.inj same
  obtain ⟨_, _⟩ := s
  obtain ⟨_, _⟩ := t
  cases global
  cases List.reverse_inj.mp locals
  rfl

theorem getAt?_base : (ofScope global).getAt? height name =
    if height = 0 then global.get? name else none := by
  rw [getAt?, inwards_base]
  cases height <;> rfl

theorem getAt?_eq_none (outside : s.depth ≤ height) : s.getAt? height name = none := by
  rw [getAt?, List.getElem?_eq_none (s.length_inwards ▸ outside), Option.bind_none]

theorem getAt?_cover : (cover scope s).getAt? height name =
    if height = s.depth then scope.get? name else s.getAt? height name := by
  unfold getAt?
  rw [inwards_cover]
  split
  · rename_i innermost
    rw [innermost, ← s.length_inwards, List.getElem?_concat_length, Option.bind_some]
  · rename_i other
    rcases Nat.lt_or_gt_of_ne other with outer | outside
    · rw [List.getElem?_append_left (s.length_inwards ▸ outer)]
    · rw [List.getElem?_eq_none, List.getElem?_eq_none] <;> simp [length_inwards] <;> omega

theorem getAt?_cover_of_lt (within : height < s.depth) :
    (cover scope s).getAt? height name = s.getAt? height name := by
  rw [getAt?_cover, if_neg (Nat.ne_of_lt within)]

theorem hasInside_base : (ofScope global).hasInside height name = false := by
  simp [hasInside, inwards_base]

theorem hasInside_cover (within : height < s.depth) :
    (cover scope s).hasInside height name = (s.hasInside height name || scope.has name) := by
  have enough : height + 1 ≤ s.inwards.length := by
    rw [length_inwards]
    exact within
  rw [hasInside, inwards_cover, List.drop_append_of_le_length enough, List.any_append, hasInside]
  simp

theorem hasInside_eq_false (innermost : s.depth ≤ height + 1) :
    s.hasInside height name = false := by
  rw [hasInside, List.drop_eq_nil_of_le (s.length_inwards ▸ innermost), List.any_nil]

/-- A stack is its depth and what each layer binds. -/
theorem ext_getAt? (depths : s.depth = t.depth)
    (agree : ∀ height name, s.getAt? height name = t.getAt? height name) : s = t := by
  refine inwards_inj (List.ext_getElem ?_ fun height left right => Scope.ext fun name => ?_)
  · rw [length_inwards, length_inwards, depths]
  · have bindings := agree height name
    rw [getAt?, getAt?, List.getElem?_eq_getElem left, List.getElem?_eq_getElem right] at bindings
    exact bindings

/-! ### Which layer an assignment reaches -/

theorem step_assign_base : ((ofScope global).step (.assign name v)).1 =
    ofScope (if global.has name then global.set name v else global) := by
  simp only [step, assign_base]
  cases global.has name <;> rfl

theorem step_assign_cover : ((cover scope s).step (.assign name v)).1 =
    if scope.has name then cover (scope.set name v) s
    else cover scope (s.step (.assign name v)).1 := by
  simp only [step, assign_cover]
  cases scope.has name with
  | true => rfl
  | false => cases s.assign name v <;> rfl

theorem depth_assign : (s.step (.assign name v)).1.depth = s.depth := by
  induction s using layered with
  | base global =>
    rw [step_assign_base, depth_base, depth_base]
  | cover scope s ih =>
    rw [step_assign_cover]
    split
    · rfl
    · rw [depth_cover, ih, depth_cover]

theorem get?_rebind : (if scope.has other then scope.set other v else scope).get? name =
    (scope.get? name).map fun bound => if other = name then v else bound := by
  rw [scope.has_eq]
  by_cases same : other = name
  · subst same
    cases found : scope.get? other with
    | none => simp [found]
    | some bound => simp [Scope.get?_set]
  · have unchanged : (scope.set other v).get? name = scope.get? name := by
      rw [Scope.get?_set, if_neg (Ne.symm same)]
    simp only [if_neg same, Option.map_id_fun', id]
    split
    · exact unchanged
    · rfl

/-- An assignment binds the name anew in the layer that binds it and has none inside that does. -/
theorem getAt?_assign : (s.step (.assign other v)).1.getAt? height name =
    (s.getAt? height name).map fun bound =>
      if other = name ∧ s.hasInside height name = false then v else bound := by
  induction s using layered generalizing height with
  | base global =>
    rw [step_assign_base, getAt?_base, getAt?_base, hasInside_base]
    split
    · simp only [get?_rebind, and_true]
    · rfl
  | cover scope s ih =>
    rw [step_assign_cover, apply_ite (getAt? · height name), getAt?_cover, getAt?_cover,
      getAt?_cover, depth_assign, ih]
    by_cases innermost : height = s.depth
    · have free : (cover scope s).hasInside height name = false :=
        hasInside_eq_false (Nat.succ_le_succ (Nat.le_of_eq innermost.symm))
      simp only [if_pos innermost, free, and_true]
      rw [← get?_rebind, apply_ite (Scope.get? · name)]
    simp only [if_neg innermost]
    rcases Nat.lt_or_gt_of_ne innermost with within | outside
    · rw [hasInside_cover within]
      by_cases same : other = name
      · subst same
        cases scope.has other <;> simp
      · simp [same]
    · simp [getAt?_eq_none (Nat.le_of_lt outside)]

end ScriptState.ScopeStack

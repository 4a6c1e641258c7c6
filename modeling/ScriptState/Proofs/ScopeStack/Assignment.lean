import ScriptState.Proofs.ScopeStack.Block
import ScriptState.Proofs.ScopeStack.Flat

/-!
# Assignments

An assignment looks for the name from the innermost layer outwards and stops at the first layer
that binds it. `assign_exact` says that this one binding changes and nothing else, that lookups
find it until its layer is popped, and that an assignment fails only for want of such a layer.
-/

namespace ScriptState.ScopeStack

/-- The layer at the height binds the name, and no layer inside it does. -/
structure BindsInnermost (s : ScopeStack) (height : Nat) (name : String) : Prop where
  bound : (s.getAt? height name).isSome = true
  uncovered : ∀ inner, height < inner → s.getAt? inner name = none

variable {s t : ScopeStack} {global scope : Scope} {height : Nat} {name : String} {v : Value}

/-! ### The layer that a lookup stops at -/

theorem BindsInnermost.lt_depth (innermost : s.BindsInnermost height name) : height < s.depth := by
  by_cases within : height < s.depth
  · exact within
  have bound := innermost.bound
  rw [getAt?_eq_none (Nat.le_of_not_lt within)] at bound
  cases bound

theorem BindsInnermost.congr (agree : ∀ layer, s.getAt? layer name = t.getAt? layer name)
    (innermost : s.BindsInnermost height name) : t.BindsInnermost height name where
  bound := agree height ▸ innermost.bound
  uncovered inner deeper := agree inner ▸ innermost.uncovered inner deeper

theorem bindsInnermost_base :
    (ofScope global).BindsInnermost height name ↔ height = 0 ∧ global.has name = true := by
  constructor
  · intro innermost
    have outermost : height = 0 := Nat.lt_one_iff.mp innermost.lt_depth
    have bound := innermost.bound
    rw [getAt?_base, if_pos outermost, ← Scope.has_eq] at bound
    exact ⟨outermost, bound⟩
  · intro ⟨outermost, bound⟩
    refine ⟨?_, fun inner deeper => getAt?_eq_none ?_⟩
    · rw [getAt?_base, if_pos outermost, ← Scope.has_eq, bound]
    · rw [depth_base]
      exact Nat.lt_of_le_of_lt (Nat.zero_le height) deeper

theorem bindsInnermost_cover : (cover scope s).BindsInnermost height name ↔
    if scope.has name then height = s.depth else s.BindsInnermost height name := by
  have atTop : (cover scope s).getAt? s.depth name = scope.get? name := by
    rw [getAt?_cover, if_pos rfl]
  by_cases covered : scope.has name = true
  · rw [if_pos covered]
    rw [Scope.has_eq, ← atTop] at covered
    constructor
    · intro innermost
      by_cases within : height < s.depth
      · rw [innermost.uncovered s.depth within] at covered
        cases covered
      · exact Nat.le_antisymm (Nat.le_of_lt_succ innermost.lt_depth) (Nat.le_of_not_lt within)
    · intro top
      subst top
      exact ⟨covered, fun inner deeper => getAt?_eq_none deeper⟩
  · rw [if_neg covered]
    -- A layer that does not bind the name looks like no layer at all.
    have same (layer : Nat) : (cover scope s).getAt? layer name = s.getAt? layer name := by
      rw [getAt?_cover]
      split
      · rename_i top
        rw [top, getAt?_eq_none (Nat.le_refl _)]
        simpa [Scope.has_eq] using covered
      · rfl
    exact ⟨.congr same, .congr fun layer => (same layer).symm⟩

theorem exists_bindsInnermost (bound : s.has name = true) :
    ∃ height, s.BindsInnermost height name := by
  induction s using layered with
  | base global =>
    rw [has_eq, get?_base, ← Scope.has_eq] at bound
    exact ⟨0, bindsInnermost_base.mpr ⟨rfl, bound⟩⟩
  | cover scope s ih =>
    by_cases covered : scope.has name = true
    · exact ⟨s.depth, bindsInnermost_cover.mpr (by rw [if_pos covered])⟩
    · rw [has_eq, get?_cover, Option.isSome_or, ← Scope.has_eq, ← has_eq] at bound
      obtain ⟨height, innermost⟩ := ih (by simpa [covered] using bound)
      exact ⟨height, bindsInnermost_cover.mpr (by rwa [if_neg covered])⟩

theorem get?_of_bindsInnermost (innermost : s.BindsInnermost height name) :
    s.get? name = s.getAt? height name := by
  induction s using layered with
  | base global =>
    obtain ⟨outermost, -⟩ := bindsInnermost_base.mp innermost
    rw [get?_base, getAt?_base, if_pos outermost]
  | cover scope s ih =>
    have found := bindsInnermost_cover.mp innermost
    rw [get?_cover]
    split at found
    · rename_i covered
      rw [Scope.has_eq] at covered
      rw [getAt?_cover, if_pos found, Option.or_of_isSome covered]
    · rename_i covered
      have free : scope.get? name = none := by simpa [Scope.has_eq] using covered
      rw [getAt?_cover_of_lt found.lt_depth, free, Option.none_or, ih found]

theorem hasInside_eq_false_iff : s.hasInside height name = false ↔
    ∀ inner, height < inner → s.getAt? inner name = none := by
  unfold hasInside getAt?
  rw [List.any_eq_false]
  constructor
  · intro free inner deeper
    cases found : s.inwards[inner]? with
    | none => rfl
    | some scope =>
      have member : scope ∈ s.inwards.drop (height + 1) := by
        apply List.mem_of_getElem? (i := inner - (height + 1))
        rw [List.getElem?_drop, Nat.add_sub_cancel' deeper, found]
      simpa [Scope.has_eq] using free scope member
  · intro free scope member
    obtain ⟨k, found⟩ := List.getElem?_of_mem member
    rw [List.getElem?_drop] at found
    have hidden := free (height + 1 + k) (by omega)
    rw [found, Option.bind_some] at hidden
    simp [Scope.has_eq, hidden]

/-! ### The binding that an assignment changes -/

theorem exists_assign_iff : (∃ t, s.assign name v = .ok t) ↔ s.has name = true := by
  obtain ⟨bound, t, assigned⟩ | ⟨unbound, failed⟩ := s.assign_cases name v
  · exact ⟨fun _ => bound, fun _ => ⟨t, assigned⟩⟩
  · simp [unbound, failed]

theorem eq_undefined_of_assign {e : AssignError} (failed : s.assign name v = .error e) :
    e = .undefined name := by
  obtain ⟨-, t, assigned⟩ | ⟨-, unbound⟩ := s.assign_cases name v
  · rw [assigned] at failed
    cases failed
  · rw [unbound] at failed
    cases failed
    rfl

theorem step_of_assign (assigned : s.assign name v = .ok t) :
    s.step (.assign name v) = (t, .done) := by
  simp only [step, assigned]

theorem getAt?_of_assign (assigned : s.assign name v = .ok t) (layer : Nat) (other : String) :
    t.getAt? layer other = (s.getAt? layer other).map fun bound =>
      if name = other ∧ s.hasInside layer other = false then v else bound := by
  rw [← show (s.step (.assign name v)).1 = t by rw [step_of_assign assigned]]
  exact getAt?_assign

theorem getAt?_of_assign_innermost (assigned : s.assign name v = .ok t)
    (innermost : s.BindsInnermost height name) (layer : Nat) (other : String) :
    t.getAt? layer other =
      if layer = height ∧ other = name then some v else s.getAt? layer other := by
  rw [getAt?_of_assign assigned]
  by_cases same : other = name
  · subst same
    rcases Nat.lt_trichotomy layer height with outside | here | inside
    · -- The layer that is reached hides this one.
      have hidden : s.hasInside layer other ≠ false := by
        intro free
        have bound := innermost.bound
        rw [hasInside_eq_false_iff.mp free height outside] at bound
        cases bound
      simp [hidden, Nat.ne_of_lt outside]
    · subst here
      obtain ⟨bound, found⟩ := Option.isSome_iff_exists.mp innermost.bound
      simp [found, hasInside_eq_false_iff.mpr innermost.uncovered]
    · simp [innermost.uncovered layer inside, Nat.ne_of_gt inside]
  · simp [same, Ne.symm same]

/-- Popping what lies inside a layer leaves that layer innermost. -/
theorem get?_pops (within : height < s.depth) (found : s.getAt? height name = some v) :
    let u := s.after (List.replicate (s.depth - (height + 1)) .pop)
    u.depth = height + 1 ∧ u.get? name = some v := by
  intro u
  have depths : u.depth = height + 1 := by
    show (s.after _).depth = _
    rw [depth_pops (by omega)]
    omega
  have kept : u.getAt? height name = some v := by
    show (s.after _).getAt? _ _ = _
    rw [getAt?_pops (by omega), found]
  have innermost : u.BindsInnermost height name :=
    ⟨by rw [kept]; rfl, fun inner deeper => getAt?_eq_none (depths ▸ deeper)⟩
  exact ⟨depths, (get?_of_bindsInnermost innermost).trans kept⟩

theorem assign_eq_set (bound : s.current.has name = true) :
    s.assign name v = .ok (s.set name v) := by
  cases s using layered with
  | base global => exact assign_base.trans (if_pos bound)
  | cover scope s => exact assign_cover.trans (if_pos bound)

/-- An assignment succeeds if some layer binds the name. It then changes one binding, the one of
the name in the innermost layer that has one, as binding in the innermost layer does if that is
the one. All layers stay and bind the names they did. A lookup finds the new value, also when the
layers inside are popped. An assignment that fails names what is unbound and changes nothing. -/
theorem assign_exact (s : ScopeStack) (name : String) (v : Value) :
    ((∃ t, s.assign name v = .ok t) ↔ s.has name = true) ∧
    (∀ t, s.assign name v = .ok t →
      s.step (.assign name v) = (t, .done) ∧ t.depth = s.depth ∧
      (∀ layer other, (t.getAt? layer other).isSome = (s.getAt? layer other).isSome) ∧
      (∃ height, s.BindsInnermost height name ∧
        (∀ layer other, t.getAt? layer other =
          if layer = height ∧ other = name then some v else s.getAt? layer other) ∧
        let u := t.after (List.replicate (t.depth - (height + 1)) .pop)
        u.depth = height + 1 ∧ u.get? name = some v) ∧
      t.get? name = some v ∧ (s.current.has name = true → t = s.set name v)) ∧
    ∀ e, s.assign name v = .error e →
      e = .undefined name ∧ s.step (.assign name v) = (s, .undefined e) := by
  refine ⟨exists_assign_iff, fun t assigned => ?_, fun e failed => ?_⟩
  · have bound : s.has name = true := exists_assign_iff.mp ⟨t, assigned⟩
    have stepped := step_of_assign assigned
    have depths : (s.step (.assign name v)).1.depth = s.depth := depth_assign
    rw [stepped] at depths
    obtain ⟨height, innermost⟩ := exists_bindsInnermost bound
    have bindings := getAt?_of_assign_innermost assigned innermost
    have reached : t.getAt? height name = some v := by rw [bindings, if_pos ⟨rfl, rfl⟩]
    have names (layer : Nat) (other : String) :
        (t.getAt? layer other).isSome = (s.getAt? layer other).isSome := by
      rw [getAt?_of_assign assigned, Option.isSome_map]
    refine ⟨stepped, depths, names, ⟨height, innermost, bindings, ?_⟩, ?_, fun current => ?_⟩
    · exact get?_pops (depths ▸ innermost.lt_depth) reached
    · rw [get?_assign assigned, if_pos rfl]
    · exact Except.ok.inj (assigned.symm.trans (assign_eq_set current))
  · exact ⟨eq_undefined_of_assign failed, by simp only [step, failed]⟩

theorem assign_exact_shadowed :
    let outer := (Scope.empty.set "x" (.int 1)).set "y" (.int 2)
    let s : ScopeStack := ⟨outer, [Scope.empty.set "y" (.int 4), Scope.empty.set "x" (.int 3)]⟩
    let t : ScopeStack := ⟨outer, [Scope.empty.set "y" (.int 4), Scope.empty.set "x" (.int 9)]⟩
    s.assign "x" (.int 9) = .ok t ∧ t.depth = s.depth ∧ t.get? "x" = some (.int 9) ∧
      s.step (.assign "x" (.int 9)) = (t, .done) ∧
      s.assign "y" (.int 9) = .ok (s.set "y" (.int 9)) ∧
      s.step (.assign "z" (.int 9)) = (s, .undefined (.undefined "z")) := by
  intro outer s t
  have reached : s.assign "x" (.int 9) = .ok t := by rfl
  obtain ⟨-, found, -⟩ := assign_exact s "x" (.int 9)
  obtain ⟨stepped, depths, -, -, looked, -⟩ := found t reached
  obtain ⟨succeeds, current, -⟩ := assign_exact s "y" (.int 9)
  obtain ⟨u, assigned⟩ := succeeds.mpr (by decide +kernel)
  obtain ⟨-, -, -, -, -, same⟩ := current u assigned
  obtain ⟨-, -, fails⟩ := assign_exact s "z" (.int 9)
  obtain ⟨-, unchanged⟩ := fails (.undefined "z") rfl
  exact ⟨reached, depths, looked, stepped, same (by decide +kernel) ▸ assigned, unchanged⟩

end ScriptState.ScopeStack

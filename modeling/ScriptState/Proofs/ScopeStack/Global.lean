import Mathlib.Data.List.DropRight
import ScriptState.Proofs.ScopeStack.Layers

/-!
# The global scope of a stack

What is bound in local layers is gone when they are popped. `global_isolated` says how deep a stack
is, that its global scope is never popped, and which of the actions on a stack reach the global
scope: replayed on the scope alone, they give the global scope in the end.
-/

namespace ScriptState.ScopeStack

/-- What is done with a stack: a command, or a change to the global scope, which a host can hold
and write to. -/
inductive Action
  | command (command : Command)
  | writeGlobal (write : Scope → Scope)

def act (s : ScopeStack) : Action → ScopeStack × Reply
  | .command command => s.step command
  | .writeGlobal write => (s.mapGlobal write, .done)

/-- The stack after all the actions. -/
def afterActions (s : ScopeStack) (actions : List Action) : ScopeStack :=
  actions.foldl (fun t action => (t.act action).1) s

/-- The actions, each with the reply to it. -/
def log (s : ScopeStack) : List Action → List (Action × Reply)
  | [] => []
  | action :: rest => (action, (s.act action).2) :: (s.act action).1.log rest

variable {s : ScopeStack} {name : String} {v : Value}

theorem log_concat (actions : List Action) (action : Action) :
    s.log (actions ++ [action]) =
      s.log actions ++ [(action, ((s.afterActions actions).act action).2)] := by
  induction actions generalizing s with
  | nil => rfl
  | cons first rest ih =>
    rw [List.cons_append, log, ih]
    rfl

/-! ### Depth -/

def opens : Action × Reply → Bool
  | (.command .push, _) => true
  | _ => false

/-- Pops that took a layer off. -/
def closes : Action × Reply → Bool
  | (.command .pop, .popped (some _)) => true
  | _ => false

/-- Actions that leave nothing but a global scope: all layers are cleared, or a new stack is begun
from a scope. -/
def restarts : Action × Reply → Bool
  | (.command (.clear true), _) | (.command .intoGlobal, _) => true
  | (.command (.decode _), .flag loaded) => loaded
  | _ => false

/-- What was done since the last restart. -/
def sinceRestart (log : List (Action × Reply)) : List (Action × Reply) :=
  log.rtakeWhile fun entry => !restarts entry

theorem depth_mapCurrent (f : Scope → Scope) : (s.mapCurrent f).depth = s.depth := by
  cases s using layered with
  | base global => rfl
  | cover scope s => rfl

theorem depth_act (action : Action) :
    (s.act action).1.depth + (if closes (action, (s.act action).2) then 1 else 0) =
      if restarts (action, (s.act action).2) then 1
      else s.depth + if opens (action, (s.act action).2) then 1 else 0 := by
  cases action with
  | writeGlobal write => rfl
  | command command =>
    cases command with
    | pop =>
      cases s using layered with
      | base global => rfl
      | cover scope s => rfl
    | set name v => exact depth_mapCurrent _
    | assign name v => exact depth_assign
    | clear recursive =>
      cases recursive with
      | true => rfl
      | false => exact depth_mapCurrent _
    | evaluate name operation =>
      simp only [act, step]
      split
      · exact depth_mapCurrent _
      · rfl
    | decode bytes =>
      cases decoded : Scope.decode bytes with
      | ok loaded =>
        have begun : s.act (.command (.decode bytes)) = (ofScope loaded, .flag true) := by
          simp only [act, step, decoded]
        rw [begun]
        rfl
      | error reason =>
        have kept : s.act (.command (.decode bytes)) = (s, .rejected reason) := by
          simp only [act, step, decoded]
        rw [kept]
        rfl
    | _ => rfl

theorem depth_afterActions (global : Scope) (actions : List Action) :
    ((ofScope global).afterActions actions).depth +
        (sinceRestart ((ofScope global).log actions)).countP closes =
      1 + (sinceRestart ((ofScope global).log actions)).countP opens := by
  -- On actions from the last backwards: what happened since the restart grows at its end.
  induction actions using List.reverseRecOn with
  | nil => rfl
  | append_singleton actions action ih =>
    have stepped := depth_act (s := (ofScope global).afterActions actions) action
    have positive := (((ofScope global).afterActions actions).act action).1.depth_pos
    rw [log_concat, sinceRestart, List.rtakeWhile_concat, ← sinceRestart, afterActions,
      List.foldl_concat, ← afterActions]
    split
    · rename_i continued
      rw [Bool.not_eq_true'] at continued
      rw [if_neg (Bool.eq_false_iff.mp continued)] at stepped
      simp only [List.countP_append, List.countP_singleton]
      omega
    · rename_i restarted
      rw [Bool.not_eq_true', Bool.not_eq_false] at restarted
      rw [if_pos restarted] at stepped
      simp only [List.countP_nil]
      omega

theorem pop_eq_none_iff : s.pop.2 = none ↔ s.depth = 1 := by
  cases s using layered with
  | base global => exact iff_of_true rfl rfl
  | cover scope s =>
    have deeper := s.depth_pos
    rw [pop_cover, depth_cover]
    exact iff_of_false (Option.some_ne_none scope) (by omega)

theorem pop_eq_self_iff : s.pop = (s, none) ↔ s.depth = 1 := by
  rw [← pop_eq_none_iff]
  constructor
  · intro unchanged
    rw [unchanged]
  · intro none
    cases s using layered with
    | base global => rfl
    | cover scope s => cases none

/-! ### Actions that reach the global scope -/

/-- What an action does to the global scope; none if it does not reach it. -/
def reaching? (s : ScopeStack) : Action → Option (Scope → Scope)
  | .writeGlobal write => some write
  | .command (.globalSet name v) => some (·.set name v)
  | .command (.globalRemove name) => some fun global => (global.remove name).1
  | .command (.set name v) => if s.depth = 1 then some (·.set name v) else none
  | .command (.assign name v) =>
    if s.locals.any (·.has name) = false ∧ s.global.has name = true then some (·.set name v)
    else none
  | .command (.clear recursive) =>
    if recursive = true ∨ s.depth = 1 then some (·.clear false) else none
  | .command (.evaluate name operation) =>
    if s.depth = 1 then (operation.evaluate s.get?).toOption.map fun v => (·.set name v) else none
  | .command (.decode bytes) => (Scope.decode bytes).toOption.map fun loaded _ => loaded
  | .command _ => none

/-- All that the actions do to the global scope, in order. -/
def globalWrites (s : ScopeStack) : List Action → List (Scope → Scope)
  | [] => []
  | action :: rest => (s.reaching? action).toList ++ (s.act action).1.globalWrites rest

/-- The scope after the writes. -/
def replay (global : Scope) (writes : List (Scope → Scope)) : Scope :=
  writes.foldl (fun scope write => write scope) global

theorem assignFirst?_eq_none_iff {scopes : List Scope} :
    assignFirst? name v scopes = none ↔ scopes.any (·.has name) = false := by
  induction scopes with
  | nil => exact iff_of_true rfl rfl
  | cons scope outer ih =>
    rw [assignFirst?, List.any_cons]
    cases scope.has name with
    | true => simp
    | false => simpa using ih

theorem global_mapCurrent (f : Scope → Scope) :
    (s.mapCurrent f).global = if s.depth = 1 then f s.global else s.global := by
  cases s using layered with
  | base global => rfl
  | cover scope s =>
    have deeper := s.depth_pos
    rw [depth_cover, if_neg (by omega)]
    rfl

theorem global_assign : (s.step (.assign name v)).1.global =
    if s.locals.any (·.has name) = false ∧ s.global.has name = true then s.global.set name v
    else s.global := by
  simp only [step, assign]
  cases found : assignFirst? name v s.locals with
  | some locals =>
    have bound : ¬s.locals.any (·.has name) = false := by
      rw [← assignFirst?_eq_none_iff (v := v), found]
      exact Option.some_ne_none locals
    exact (if_neg fun reached => bound reached.1).symm
  | none =>
    have unbound := assignFirst?_eq_none_iff.mp found
    cases s.global.has name with
    | true => simp [unbound, mapGlobal]
    | false => simp

theorem global_act (action : Action) :
    (s.act action).1.global = replay s.global (s.reaching? action).toList := by
  cases action with
  | writeGlobal write => rfl
  | command command =>
    cases command with
    | set name v =>
      rw [act, step, set, global_mapCurrent, reaching?]
      split <;> rfl
    | assign name v =>
      rw [act, global_assign, reaching?]
      split <;> rfl
    | pop =>
      cases s using layered with
      | base global => rfl
      | cover scope s => rfl
    | clear recursive =>
      cases recursive with
      | true => rfl
      | false =>
        simp only [act, step, clear, global_mapCurrent, reaching?, Bool.false_eq_true, if_false,
          false_or]
        split <;> rfl
    | evaluate name operation =>
      simp only [act, step, reaching?]
      cases operation.evaluate s.get? with
      | ok v =>
        simp only [set, global_mapCurrent]
        split <;> rfl
      | error reason =>
        simp only [Except.toOption, Option.map_none, ite_self]
        rfl
    | decode bytes =>
      simp only [act, step, reaching?]
      cases Scope.decode bytes with
      | ok loaded => rfl
      | error reason => rfl
    | _ => rfl

theorem global_afterActions (actions : List Action) :
    (s.afterActions actions).global = replay s.global (s.globalWrites actions) := by
  induction actions generalizing s with
  | nil => rfl
  | cons action rest ih =>
    change ((s.act action).1.afterActions rest).global = _
    rw [ih, global_act, globalWrites, replay, replay, replay, List.foldl_append]

/-- However a stack is used, its depth is that of the global scope and of the layers that were
pushed and not popped since the last restart; only a stack of depth 1 has nothing to pop and stays
as it is; and what becomes of the global scope is told by the actions that reach it. -/
theorem global_isolated (global : Scope) (actions : List Action) :
    let s := (ofScope global).afterActions actions
    let recent := sinceRestart ((ofScope global).log actions)
    s.depth + recent.countP closes = 1 + recent.countP opens ∧
      (s.pop.2 = none ↔ s.depth = 1) ∧ (s.pop = (s, none) ↔ s.depth = 1) ∧
      (s.step .intoGlobal).2 =
        .global (replay global ((ofScope global).globalWrites actions)) :=
  ⟨depth_afterActions global actions, pop_eq_none_iff, pop_eq_self_iff,
    congrArg Reply.global (global_afterActions actions)⟩

end ScriptState.ScopeStack

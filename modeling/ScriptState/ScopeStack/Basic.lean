import ScriptState.Scope.Snapshot

/-!
# Stacks of scopes

A global scope with local layers over it, the innermost first. Lookup goes from the innermost
layer outwards; binding is in the innermost layer; assigning is where the name is bound already.
The global scope is never popped.
-/

namespace ScriptState

structure ScopeStack where
  global : Scope
  locals : List Scope
deriving DecidableEq

inductive AssignError
  | undefined (name : String)
deriving DecidableEq

def AssignError.message : AssignError → String
  | undefined name => "undefined variable: " ++ name

namespace ScopeStack

def ofScope (global : Scope) : ScopeStack := ⟨global, []⟩

def empty : ScopeStack := ofScope .empty

instance : EmptyCollection ScopeStack := ⟨empty⟩
instance : Inhabited ScopeStack := ⟨empty⟩

def depth (s : ScopeStack) : Nat := s.locals.length + 1

def layers (s : ScopeStack) : List Scope := s.locals ++ [s.global]

def current (s : ScopeStack) : Scope := s.locals.headD s.global

def mapGlobal (s : ScopeStack) (f : Scope → Scope) : ScopeStack := { s with global := f s.global }

def mapCurrent (s : ScopeStack) (f : Scope → Scope) : ScopeStack :=
  match s.locals with
  | [] => s.mapGlobal f
  | scope :: outer => { s with locals := f scope :: outer }

def push (s : ScopeStack) : ScopeStack := { s with locals := .empty :: s.locals }

/-- Takes off the innermost layer, unless it is the global one. -/
def pop (s : ScopeStack) : ScopeStack × Option Scope :=
  match s.locals with
  | [] => (s, none)
  | scope :: outer => ({ s with locals := outer }, some scope)

def get? (s : ScopeStack) (name : String) : Option Value := s.layers.findSome? (·.get? name)

def has (s : ScopeStack) (name : String) : Bool := s.layers.any (·.has name)

def set (s : ScopeStack) (name : String) (v : Value) : ScopeStack := s.mapCurrent (·.set name v)

/-- The first of the scopes that binds the name, bound anew; none if none does. -/
def assignFirst? (name : String) (v : Value) : List Scope → Option (List Scope)
  | [] => none
  | scope :: outer =>
    if scope.has name then some (scope.set name v :: outer)
    else (assignFirst? name v outer).map (scope :: ·)

/-- Binds the name anew in the innermost layer that binds it. -/
def assign (s : ScopeStack) (name : String) (v : Value) : Except AssignError ScopeStack :=
  match assignFirst? name v s.locals with
  | some locals => .ok { s with locals := locals }
  | none =>
    if s.global.has name then .ok (s.mapGlobal (·.set name v)) else .error (.undefined name)

/-- Clears the innermost layer, or all of them, dropping the local ones. -/
def clear (s : ScopeStack) (recursive : Bool) : ScopeStack :=
  if recursive then ⟨s.global.clear false, []⟩ else s.mapCurrent (·.clear false)

/-- The scope that holds what a lookup finds: each layer bound over the ones outside it. -/
def flatten (s : ScopeStack) : Scope :=
  s.locals.foldr (fun scope outer => scope.entries.foldl (fun t e => t.set e.1 e.2) outer) s.global

end ScopeStack

end ScriptState

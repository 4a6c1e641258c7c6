import ScriptState.ScopeStack.Basic
import ScriptState.Value.Operation

/-!
# Sessions over a stack of scopes

`step` carries out one command on a stack; a command that fails leaves the stack as it was. `run`
carries out a list of them.
-/

namespace ScriptState

namespace ScopeStack

inductive Command
  | push
  | pop
  | set (name : String) (v : Value)
  | assign (name : String) (v : Value)
  | get (name : String)
  | has (name : String)
  | currentHas (name : String)
  | globalGet (name : String)
  | globalSet (name : String) (v : Value)
  | globalRemove (name : String)
  | clear (recursive : Bool)
  /-- Binds the name to what the operation yields, in the innermost layer. -/
  | evaluate (name : String) (operation : Operation)
  /-- Drops the local layers. -/
  | intoGlobal
  | encodeGlobal
  | encodeCurrent
  /-- Replaces the stack by the global scope that the bytes hold. -/
  | decode (bytes : List UInt8)

inductive Reply
  | done
  | popped (scope : Option Scope)
  | undefined (error : AssignError)
  | binding (found : Option Value)
  | flag (b : Bool)
  | value (v : Value)
  | failed (reason : Failure)
  | global (scope : Scope)
  | bytes (bytes : List UInt8)
  | rejected (reason : LoadError)

def step (s : ScopeStack) : Command → ScopeStack × Reply
  | .push => (s.push, .done)
  | .pop =>
    let (rest, scope) := s.pop
    (rest, .popped scope)
  | .set name v => (s.set name v, .done)
  | .assign name v =>
    match s.assign name v with
    | .ok t => (t, .done)
    | .error e => (s, .undefined e)
  | .get name => (s, .binding (s.get? name))
  | .has name => (s, .flag (s.has name))
  | .currentHas name => (s, .flag (s.current.has name))
  | .globalGet name => (s, .binding (s.global.get? name))
  | .globalSet name v => (s.mapGlobal (·.set name v), .done)
  | .globalRemove name =>
    let (global, removed) := s.global.remove name
    ({ s with global := global }, .binding removed)
  | .clear recursive => (s.clear recursive, .done)
  | .evaluate name operation =>
    match operation.evaluate s.get? with
    | .ok v => (s.set name v, .value v)
    | .error reason => (s, .failed reason)
  | .intoGlobal => (.ofScope s.global, .global s.global)
  | .encodeGlobal => (s, .bytes s.global.encode)
  | .encodeCurrent => (s, .bytes s.current.encode)
  | .decode bytes =>
    match Scope.decode bytes with
    | .ok loaded => (.ofScope loaded, .flag true)
    | .error reason => (s, .rejected reason)

/-- The stack after all the commands. -/
def after (s : ScopeStack) (commands : List Command) : ScopeStack :=
  commands.foldl (fun t command => (t.step command).1) s

/-- The stack after each command, with the reply to it. -/
def run (s : ScopeStack) : List Command → List (ScopeStack × Reply)
  | [] => []
  | command :: rest =>
    let after := s.step command
    after :: after.1.run rest

end ScopeStack

end ScriptState

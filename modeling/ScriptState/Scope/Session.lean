import ScriptState.Json.Scope
import ScriptState.Value.Operation

/-!
# Sessions over one scope

A session holds a scope and a saved copy of it. `step` carries out one command; a command that
fails leaves the session as it was. `run` carries out a list of them.
-/

namespace ScriptState

namespace Scope

structure Session where
  scope : Scope
  saved : Scope
deriving DecidableEq

inductive Command
  | set (name : String) (v : Value)
  | get (name : String)
  | has (name : String)
  | remove (name : String)
  | clear (recursive : Bool)
  /-- Binds the name to what the operation yields. -/
  | evaluate (name : String) (operation : Operation)
  | save
  | restore
  | equalsSaved
  | encode
  /-- The bytes of the scope as a part of a larger structure. -/
  | encodePart
  | snapshot
  /-- Replaces the scope by the one that the bytes hold. -/
  | decode (bytes : List UInt8)
  /-- Replaces the scope by the one that its own bytes hold. -/
  | reload
  | json

inductive Reply
  | done
  | binding (found : Option Value)
  | flag (b : Bool)
  | value (v : Value)
  | failed (reason : Failure)
  | bytes (bytes : List UInt8)
  | rejected (reason : LoadError)
  | snapshot (p : Snapshot)
  | json (j : Json)

namespace Session

def start : Session := ⟨.empty, .empty⟩

/-- The scope that the bytes hold, if they hold one, in place of the present one. -/
def load (s : Session) (bytes : List UInt8) (reply : Scope → Reply) : Session × Reply :=
  match Scope.decode bytes with
  | .ok loaded => ({ s with scope := loaded }, reply loaded)
  | .error reason => (s, .rejected reason)

def step (s : Session) : Command → Session × Reply
  | .set name v => ({ s with scope := s.scope.set name v }, .done)
  | .get name => (s, .binding (s.scope.get? name))
  | .has name => (s, .flag (s.scope.has name))
  | .remove name =>
    let (scope, removed) := s.scope.remove name
    ({ s with scope := scope }, .binding removed)
  | .clear recursive =>
    let cleared := s.scope.clear recursive
    ({ s with scope := cleared }, .flag (cleared == .empty))
  | .evaluate name operation =>
    match operation.evaluate s.scope.get? with
    | .ok v => ({ s with scope := s.scope.set name v }, .value v)
    | .error reason => (s, .failed reason)
  | .save => ({ s with saved := s.scope }, .done)
  | .restore => ({ s with scope := s.saved }, .done)
  | .equalsSaved => (s, .flag (s.scope == s.saved))
  | .encode => (s, .bytes s.scope.encode)
  | .encodePart => (s, .bytes (ScriptState.encode s.scope))
  | .snapshot => (s, .snapshot s.scope.snapshot)
  | .decode bytes => s.load bytes fun _ => .flag true
  | .reload => s.load s.scope.encode fun loaded => .flag (loaded == s.scope)
  | .json => (s, .json s.scope.toJson)

/-- The session after all the commands. -/
def after (s : Session) (commands : List Command) : Session :=
  commands.foldl (fun t command => (t.step command).1) s

/-- The session after each command, with the reply to it. -/
def run (s : Session) : List Command → List (Session × Reply)
  | [] => []
  | command :: rest =>
    let after := s.step command
    after :: after.1.run rest

end Session

end Scope

end ScriptState

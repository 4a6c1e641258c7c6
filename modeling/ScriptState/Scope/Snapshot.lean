import ScriptState.Saved.Value
import ScriptState.Scope.Basic

/-!
# Snapshots

A snapshot is a scope as two sequences, paired by position. A scope's own snapshot lists the names
in ascending order; a snapshot is taken for a scope whatever its order, provided its version is
known, the sequences are of one length and no name is repeated.
-/

namespace ScriptState

structure Snapshot where
  version : UInt32
  names : List String
  values : List Value
deriving DecidableEq

namespace Snapshot

def same (p q : Snapshot) : Bool :=
  p.version == q.version && p.names == q.names && p.values == q.values

instance : BEq Snapshot := ⟨same⟩

/-- The snapshot of a list of bindings, in the order of the list. -/
def ofEntries (entries : List (String × Value)) : Snapshot :=
  ⟨snapshotVersion, entries.map Prod.fst, entries.map Prod.snd⟩

/-- The snapshot of bindings that come in any order. -/
def ofBindings (bindings : List (String × Value)) : Snapshot := .ofEntries (sortByName bindings)

def entries (p : Snapshot) : List (String × Value) := p.names.zip p.values

/-! ### From a snapshot to a scope -/

/-- Binds one name after the other; the first that is bound already is refused. -/
def bindAll (s : Scope) : List (String × Value) → Except SnapshotError Scope
  | [] => .ok s
  | (name, v) :: rest =>
    if s.has name then .error (.repeated name) else bindAll (s.set name v) rest

/-- The scope that a snapshot describes. Its version is looked at first, then the lengths, then
the names. -/
def toScope (p : Snapshot) : Except SnapshotError Scope :=
  if p.version ≠ snapshotVersion then .error (.version p.version)
  else if p.names.length ≠ p.values.length then
    .error (.lengths p.names.length p.values.length)
  else bindAll .empty p.entries

/-! ### Text -/

def listText (items : List String) : String := "[" ++ ", ".intercalate items ++ "]"

def inspect (p : Snapshot) : String :=
  "ScopeSnapshot \x7b version: " ++ Number.natText p.version.toNat ++
    ", names: " ++ listText (p.names.map quote) ++
    ", values: " ++ listText (p.values.map Value.inspect) ++ " \x7d"

/-! ### Saved form: version, names, values -/

instance : SavedForm Snapshot where
  write p := SavedForm.write p.version ++ SavedForm.write p.names ++ SavedForm.write p.values
  read := do
    let version ← SavedForm.read
    let names ← SavedForm.read
    let values ← SavedForm.read
    pure ⟨version, names, values⟩

end Snapshot

namespace Scope

def snapshot (s : Scope) : Snapshot := .ofBindings s.bindings.toList

def encode (s : Scope) : List UInt8 := ScriptState.encode s.snapshot

/-- The scope whose snapshot the bytes hold. That nothing is left over is checked before the
snapshot is. -/
def decode (bytes : List UInt8) : Except LoadError Scope := do
  let p ← (ScriptState.decode bytes : Except _ Snapshot).mapError LoadError.format
  p.toScope.mapError LoadError.snapshot

/-- A scope inside a larger structure is saved as its snapshot, which is checked as soon as it is
read. -/
instance : SavedForm Scope where
  write s := SavedForm.write s.snapshot
  read := do
    let p ← (SavedForm.read : Reader Snapshot)
    match p.toScope with
    | .ok s => pure s
    | .error reason => Reader.fail (.refused reason)

end Scope

end ScriptState

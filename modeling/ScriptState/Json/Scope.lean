import ScriptState.Json.Basic
import ScriptState.Scope.Snapshot
import ScriptState.Value.Operator

/-!
# Values and scopes as JSON

A value is an object with its kind as the only key, a scope its snapshot: an object with the three
parts as fields, or a list of them. JSON has no infinities and no NaN, so such a float is written
as `null`, which no float is read from. Reading converts nothing but a number to a float.
-/

namespace ScriptState

namespace Value

def toJson : Value → Json
  | bool b => .object [("Bool", .bool b)]
  | int n => .object [("Int", .number (.int n.toInt))]
  | float x => .object [("Float", if x.isFinite then .number (.real x.widen) else .null)]
  | str text => .object [("Str", .text text)]

/-- The value of a kind with this payload. -/
def ofField? (kind : String) (payload : Json) : Option Value :=
  match kind with
  | "Bool" => bool <$> payload.bool?
  | "Int" => int <$> (payload.int? >>= int32?)
  | "Float" => (fun n => float n.toBinary32) <$> payload.number?
  | "Str" => str <$> payload.text?
  | _ => none

def ofJson? : Json → Option Value
  | .object [(kind, payload)] => ofField? kind payload
  | _ => none

end Value

namespace Snapshot

def toJson (p : Snapshot) : Json :=
  .object [
    ("version", .number (.int p.version.toNat)),
    ("names", .array (p.names.map .text)),
    ("values", .array (p.values.map Value.toJson))]

def version? (j : Json) : Option UInt32 := do
  let n ← j.int?
  if 0 ≤ n ∧ n < 0x100000000 then some (.ofNat n.toNat) else none

def ofParts? (version names values : Json) : Option Snapshot := do
  let version ← version? version
  let names ← (← names.array?).mapM Json.text?
  let values ← (← values.array?).mapM Value.ofJson?
  some ⟨version, names, values⟩

/-- An object may have other fields; a list has just the three parts. -/
def ofJson? : Json → Option Snapshot
  | .object fields => do
    let version ← Json.field? fields "version"
    let names ← Json.field? fields "names"
    let values ← Json.field? fields "values"
    ofParts? version names values
  | .array [version, names, values] => ofParts? version names values
  | _ => none

end Snapshot

namespace Scope

def toJson (s : Scope) : Json := s.snapshot.toJson

def ofJson? (j : Json) : Option Scope := do
  let p ← Snapshot.ofJson? j
  p.toScope.toOption

end Scope

end ScriptState

import ScriptState.Number.Shortest
import ScriptState.Text.Quoted

/-!
# Values

What a script expression yields: one of four kinds of scalar. `=` on values is identity, down to
the bits of a float; the equality that scripts see is in `Value/Equality`.
-/

namespace ScriptState

open Number (Binary32)

inductive Value
  | bool (b : Bool)
  | int (n : Int32)
  | float (x : Binary32)
  | str (text : String)
deriving DecidableEq

namespace Value

inductive Kind
  | bool | int | float | str
deriving DecidableEq

def kind : Value → Kind
  | bool _ => .bool
  | int _ => .int
  | float _ => .float
  | str _ => .str

def Kind.name : Kind → String
  | bool => "bool"
  | int => "int"
  | float => "float"
  | str => "string"

def isBool (v : Value) : Bool := v.kind = .bool
def isInt (v : Value) : Bool := v.kind = .int
def isFloat (v : Value) : Bool := v.kind = .float
def isStr (v : Value) : Bool := v.kind = .str

/-! ### Payloads: a value of another kind yields the default, and nothing is converted -/

def boolD (v : Value) (default : Bool) : Bool :=
  match v with
  | bool b => b
  | _ => default

def intD (v : Value) (default : Int32) : Int32 :=
  match v with
  | int n => n
  | _ => default

def floatD (v : Value) (default : Binary32) : Binary32 :=
  match v with
  | float x => x
  | _ => default

def strD (v : Value) (default : String) : String :=
  match v with
  | str text => text
  | _ => default

/-! ### Text -/

def boolText (b : Bool) : String := if b then "true" else "false"

/-- Bare text, which concatenation uses. A string is its own text. -/
def text : Value → String
  | bool b => boolText b
  | int n => Number.intText n.toInt
  | float x => x.text
  | str text => text

/-- Inspection text: kind and payload, with strings quoted. -/
def inspect : Value → String
  | bool b => "Bool(" ++ boolText b ++ ")"
  | int n => "Int(" ++ Number.intText n.toInt ++ ")"
  | float x => "Float(" ++ x.inspect ++ ")"
  | str text => "Str(" ++ quote text ++ ")"

end Value

end ScriptState

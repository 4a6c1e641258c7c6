import ScriptState.Value.Equality

/-!
# Operators

Mismatched kinds are never an error. Arithmetic reads a bool or a string as zero, a float on
either side makes it float arithmetic, and addition with a string on either side concatenates
bare texts. Logic reads all but a bool as false. What can fail is whole-number arithmetic alone:
division by zero, and a result outside 32 bits.
-/

namespace ScriptState

open Number (Binary32)

inductive Arithmetic
  | addition | subtraction | multiplication | division
deriving DecidableEq

inductive Logic
  | and | or | xor
deriving DecidableEq

inductive BinaryOp
  | arithmetic (op : Arithmetic)
  | logic (op : Logic)
  | equal
  | notEqual
deriving DecidableEq

inductive UnaryOp
  | not
deriving DecidableEq

inductive EvalError
  | divisionByZero
  | overflow (op : Arithmetic)
deriving DecidableEq

/-! ### Names and symbols -/

def Arithmetic.noun : Arithmetic → String
  | .addition => "addition"
  | .subtraction => "subtraction"
  | .multiplication => "multiplication"
  | .division => "division"

namespace BinaryOp

def all : List BinaryOp :=
  [.arithmetic .addition, .arithmetic .subtraction, .arithmetic .multiplication,
    .arithmetic .division, .logic .and, .logic .or, .logic .xor, .equal, .notEqual]

def name : BinaryOp → String
  | arithmetic .addition => "Add"
  | arithmetic .subtraction => "Subtract"
  | arithmetic .multiplication => "Multiply"
  | arithmetic .division => "Divide"
  | logic .and => "BoolAnd"
  | logic .or => "BoolOr"
  | logic .xor => "BoolXor"
  | equal => "Equal"
  | notEqual => "NotEqual"

def symbol : BinaryOp → String
  | arithmetic .addition => "+"
  | arithmetic .subtraction => "-"
  | arithmetic .multiplication => "*"
  | arithmetic .division => "/"
  | logic .and => "&&"
  | logic .or => "||"
  | logic .xor => "^"
  | equal => "=="
  | notEqual => "!="

def ofName? (name : String) : Option BinaryOp := all.find? (·.name = name)

theorem mem_all (op : BinaryOp) : op ∈ all := by
  rcases op with op | op | _ | _ <;> (try cases op) <;> decide

theorem ofName?_name (op : BinaryOp) : ofName? op.name = some op := by
  rcases op with op | op | _ | _ <;> (try cases op) <;> decide

end BinaryOp

namespace UnaryOp

def all : List UnaryOp := [.not]

def name : UnaryOp → String
  | not => "Not"

def symbol : UnaryOp → String
  | not => "!"

def ofName? (name : String) : Option UnaryOp := all.find? (·.name = name)

end UnaryOp

namespace EvalError

def message : EvalError → String
  | divisionByZero => "division by zero"
  | overflow op => "integer overflow in " ++ op.noun

def inspect : EvalError → String
  | divisionByZero => "DivisionByZero"
  | overflow op => "IntegerOverflow \x7b operation: " ++ quote op.noun ++ " \x7d"

end EvalError

/-! ### Arithmetic -/

def int32? (n : Int) : Option Int32 :=
  if -0x80000000 ≤ n ∧ n < 0x80000000 then some (.ofInt n) else none

theorem int32?_toInt (n : Int32) : int32? n.toInt = some n := by
  rw [int32?, if_pos ⟨n.le_toInt, n.toInt_lt⟩, Int32.ofInt_toInt]

namespace Arithmetic

/-- The exact whole-number result. The quotient is cut toward zero. -/
def exact : Arithmetic → Int → Int → Int
  | addition, a, b => a + b
  | subtraction, a, b => a - b
  | multiplication, a, b => a * b
  | division, a, b => a.tdiv b

def onInts (op : Arithmetic) (a b : Int32) : Except EvalError Value :=
  if op = division ∧ b = 0 then .error .divisionByZero
  else
    match int32? (op.exact a.toInt b.toInt) with
    | some n => .ok (.int n)
    | none => .error (.overflow op)

def onFloats : Arithmetic → Binary32 → Binary32 → Binary32
  | addition, a, b => a + b
  | subtraction, a, b => a - b
  | multiplication, a, b => a * b
  | division, a, b => a / b

end Arithmetic

/-- A value as a term of float arithmetic: a whole number is rounded, a bool or a string counts
as zero. -/
def Value.promote : Value → Binary32
  | .float x => x
  | .int n => .ofInt n.toInt
  | .bool _ | .str _ => .zero false

def Arithmetic.apply (op : Arithmetic) (l r : Value) : Except EvalError Value :=
  if op = addition ∧ (l.isStr || r.isStr) then .ok (.str (l.text ++ r.text))
  else if l.isFloat || r.isFloat then .ok (.float (op.onFloats l.promote r.promote))
  else op.onInts (l.intD 0) (r.intD 0)

/-! ### Logic and evaluation -/

namespace Value

/-- Whether both are true. Here and in the next two, what is no bool counts as false. -/
def boolAnd (l r : Value) : Value := .bool (l.boolD false && r.boolD false)

def boolOr (l r : Value) : Value := .bool (l.boolD false || r.boolD false)

/-- Exclusive or, by way of the other two. -/
def boolXor (l r : Value) : Value :=
  .bool (!(l.boolAnd r).boolD false && (l.boolOr r).boolD false)

theorem boolXor_eq (l r : Value) : l.boolXor r = .bool (l.boolD false ^^ r.boolD false) := by
  unfold boolXor boolAnd boolOr
  cases l.boolD false <;> cases r.boolD false <;> rfl

end Value

def Logic.apply : Logic → Value → Value → Value
  | and => Value.boolAnd
  | or => Value.boolOr
  | xor => Value.boolXor

def BinaryOp.apply (op : BinaryOp) (l r : Value) : Except EvalError Value :=
  match op with
  | arithmetic op => op.apply l r
  | logic op => .ok (op.apply l r)
  | equal => .ok (.bool (l == r))
  | notEqual => .ok (.bool (l != r))

def UnaryOp.apply (op : UnaryOp) (v : Value) : Value :=
  match op with
  | not => .bool (!v.boolD false)

/-- The operator between an accumulated value and each further one in turn: every result, up to
and with the first error. -/
def BinaryOp.chain (op : BinaryOp) (acc : Value) : List Value → List (Except EvalError Value)
  | [] => []
  | v :: rest =>
    match op.apply acc v with
    | .ok next => .ok next :: op.chain next rest
    | .error e => [.error e]

end ScriptState

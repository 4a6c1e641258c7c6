import ScriptState.Value.Operator

/-!
# Operations on named values

An operator with its operands, each a value or the name of one. Operands are looked up from left
to right before the operator is applied.
-/

namespace ScriptState

inductive Operand
  | value (v : Value)
  | var (name : String)

inductive Operation
  | unary (op : UnaryOp) (operand : Operand)
  | binary (op : BinaryOp) (left right : Operand)

/-- Why an operation yields no value. -/
inductive Failure
  | unbound (name : String)
  | arithmetic (error : EvalError)
deriving DecidableEq

variable (lookup : String → Option Value)

def Operand.resolve : Operand → Except Failure Value
  | value v => .ok v
  | var name =>
    match lookup name with
    | some v => .ok v
    | none => .error (.unbound name)

def Operation.evaluate : Operation → Except Failure Value
  | unary op operand => do
    let v ← operand.resolve lookup
    pure (op.apply v)
  | binary op left right => do
    let l ← left.resolve lookup
    let r ← right.resolve lookup
    (op.apply l r).mapError Failure.arithmetic

end ScriptState

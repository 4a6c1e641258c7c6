import ScriptState.Number.Binary64

/-!
# JSON trees

A number keeps whether it was spelled as a whole number: one with a point or an exponent never
counts as one, whatever its value.
-/

namespace ScriptState

open Number (Binary32 Binary64)

namespace Json

inductive Number
  | int (n : Int)
  | real (x : Binary64)
deriving DecidableEq

/-- The nearest binary32 number, rounded once. -/
def Number.toBinary32 : Number → Binary32
  | int n => .ofInt n
  | real x => x.narrow

/-- A number as it is spelled: `digits * 10 ^ exponent` with a sign. -/
structure Literal where
  negative : Bool
  digits : Nat
  exponent : Int
  /-- Neither a point nor an exponent is written. -/
  plain : Bool

/-- The nearest binary64 number, unless the literal is out of its range. Exponents far outside are
decided without the power of ten. -/
def Literal.real? (l : Literal) : Option Number :=
  let size : Int := l.digits.log2
  if l.digits = 0 ∨ l.exponent + size < -400 then some (.real (.ofCode l.negative 0))
  else if 400 < l.exponent then none
  else
    let x := Binary64.ofDecimal l.negative l.digits l.exponent
    if x.isFinite then some (.real x) else none

/-- A plain literal is a whole number if it fits into 64 bits, with or without a sign; minus zero
is none. -/
def Literal.number? (l : Literal) : Option Number :=
  if !l.plain then l.real?
  else if !l.negative && l.digits < 0x10000000000000000 then some (.int l.digits)
  else if l.negative && 0 < l.digits && l.digits ≤ 0x8000000000000000 then some (.int (-l.digits))
  else l.real?

end Json

inductive Json
  | null
  | bool (b : Bool)
  | number (n : Json.Number)
  | text (s : String)
  | array (items : List Json)
  | object (fields : List (String × Json))

namespace Json

/-- An object from its fields as they are written: of those with one key the last counts. -/
def ofFields (fields : List (String × Json)) : Json :=
  .object (fields.foldr
    (fun field later => if later.any (·.1 = field.1) then later else field :: later) [])

def field? (fields : List (String × Json)) (key : String) : Option Json :=
  (fields.find? (·.1 = key)).map Prod.snd

def bool? : Json → Option Bool
  | bool b => some b
  | _ => none

def text? : Json → Option String
  | text s => some s
  | _ => none

def int? : Json → Option Int
  | number (.int n) => some n
  | _ => none

def number? : Json → Option Number
  | number n => some n
  | _ => none

def array? : Json → Option (List Json)
  | array items => some items
  | _ => none

end Json

end ScriptState

/-!
# Decimal text

A nonnegative decimal `digits * 10 ^ exponent` and its two notations: positional, where every
digit stands at its place, and scientific, with one digit before the point.
-/

namespace ScriptState.Number

def digitChars (n : Nat) : List Char := Nat.toDigits 10 n

def natText (n : Nat) : String := String.ofList (digitChars n)

def intText (n : Int) : String :=
  String.ofList (if n < 0 then '-' :: digitChars n.natAbs else digitChars n.natAbs)

/-- The number `digits * 10 ^ exponent`. -/
structure Decimal where
  digits : Nat
  exponent : Int
deriving DecidableEq

namespace Decimal

def zeros (n : Nat) : List Char := List.replicate n '0'

/-- How many digits stand before the point; negative if zeros follow it first. -/
def point (d : Decimal) : Int := (digitChars d.digits).length + d.exponent

def whole (d : Decimal) : List Char :=
  if d.point ≤ 0 then ['0']
  else (digitChars d.digits).take d.point.toNat ++ zeros d.exponent.toNat

def fraction (d : Decimal) : List Char :=
  zeros (-d.point).toNat ++ (digitChars d.digits).drop d.point.toNat

/-- Every digit at its place. The point is left out if nothing follows it. -/
def positional (d : Decimal) : List Char :=
  if d.fraction.isEmpty then d.whole else d.whole ++ '.' :: d.fraction

/-- Every digit at its place, with at least one after the point. -/
def pointed (d : Decimal) : List Char :=
  if d.fraction.isEmpty then d.whole ++ ['.', '0'] else d.positional

/-- One digit, the others after a point if there are any, and the exponent after `e`. -/
def scientific (d : Decimal) : List Char :=
  let exponent := 'e' :: (intText (d.point - 1)).toList
  match digitChars d.digits with
  | [] => exponent
  | [c] => c :: exponent
  | c :: rest => c :: '.' :: rest ++ exponent

end Decimal

end ScriptState.Number

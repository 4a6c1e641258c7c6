import ScriptState.Number.Binary32
import ScriptState.Number.Decimal

/-!
# The shortest decimal that reads back

A decimal *reads back* as a number if the number is the one nearest to it. The grids of the
multiples of `10 ^ e` are tried from coarse to fine, each at the two points around the number.
The first grid with such a point has the fewest digits, and `10 ^ -149` has the number itself.
-/

namespace ScriptState.Number

namespace Shortest

/-- Decimals are counted in units of `10 ^ -149`, of which a unit of binary32 has `5 ^ 149`. -/
def perUnit : Nat := Nat.pow 5 149

/-- The grids run from `10 ^ 38`, since no finite number reaches `10 ^ 39`, to `10 ^ -149`. -/
def finest : Int := -149
def gridCount : Nat := 187

/-- Whether the number nearest to `d * 10 ^ (finest + m)` has this code. -/
def readsBack (code d m : Nat) : Bool := code == nearestCode 23 (d * Nat.pow 10 m) perUnit

/-- The point of the grid `10 ^ (finest + m)` that reads back; of two the nearer, and of two as
near the greater. -/
def onGrid? (code units m : Nat) : Option Nat :=
  let exact := units * perUnit
  let step := Nat.pow 10 m
  let low := exact / step
  let high := low + 1
  match readsBack code low m, readsBack code high m with
  | true, true => some (if exact - low * step < high * step - exact then low else high)
  | true, false => some low
  | false, true => some high
  | false, false => none

def search (code units : Nat) : Nat → Decimal
  | 0 => ⟨units * perUnit, finest⟩
  | m + 1 =>
    match onGrid? code units (m + 1) with
    | some digits => ⟨digits, finest + (m + 1)⟩
    | none => search code units m

end Shortest

namespace Binary32

def shortest (x : Binary32) : Decimal :=
  if x.isZero then ⟨0, 0⟩ else Shortest.search x.code x.units Shortest.gridCount

/-- The sign, which a NaN does not show. -/
def signed (x : Binary32) (magnitude : List Char) : String :=
  String.ofList (if x.negative then '-' :: magnitude else magnitude)

/-- Bare text: always positional, and a whole number has no point. -/
def text (x : Binary32) : String :=
  if x.isNaN then "NaN"
  else x.signed (if x.isInfinite then ['i', 'n', 'f'] else x.shortest.positional)

/-- Inspection text is scientific below `10 ^ -4` and from `10 ^ 16` on, zero apart. The limits
are the numbers nearest to these powers. -/
def scientificBelow : Binary32 := ⟨0x38d1b717⟩
def scientificFrom : Binary32 := ⟨0x5a0e1bca⟩

def isScientific (x : Binary32) : Bool :=
  !x.isZero && (x.code < scientificBelow.code || scientificFrom.code ≤ x.code)

/-- Inspection text: it has a point or an exponent, so it is no whole number. -/
def inspect (x : Binary32) : String :=
  if x.isNaN then "NaN"
  else x.signed (
    if x.isInfinite then ['i', 'n', 'f']
    else if x.isScientific then x.shortest.scientific
    else x.shortest.pointed)

end Binary32

end ScriptState.Number

import ScriptState.Value.Basic
import Std.Data.HashMap

/-!
# Equality and hashing of values

Scripts compare values by `==`: kinds never mix, the two zeros are equal, and every NaN equals
every NaN, so a value can be a key. Hashing goes through `hashKey`, which replaces the payloads
that `==` does not tell apart by one of them. Main statement: `hashKey_eq_iff`.
-/

namespace ScriptState

open Number (Binary32)

/-- The number that stands for all that scripts take for it: NaNs and zeros have one pattern
each. -/
def Number.Binary32.representative (x : Binary32) : Binary32 :=
  if x.isNaN then .nan else if x.isZero then .zero false else x

namespace Value

/-- The equality that scripts see. -/
def same : Value → Value → Bool
  | bool a, bool b => a == b
  | int a, int b => a == b
  | float a, float b => a.numericallyEqual b || (a.isNaN && b.isNaN)
  | str a, str b => a == b
  | _, _ => false

instance : BEq Value := ⟨same⟩

/-- The value that stands for all those equal to it. -/
def hashKey : Value → Value
  | float x => float x.representative
  | v => v

def hashOf : Value → UInt64
  | bool b => mixHash 0 (hash b)
  | int n => mixHash 1 (hash n.toUInt32)
  | float x => mixHash 2 (hash x.bits)
  | str text => mixHash 3 (hash text)

instance : Hashable Value := ⟨fun v => v.hashKey.hashOf⟩

end Value

/-! ### Which payloads are told apart -/

namespace Number.Binary32

theorem isZero_iff {x : Binary32} : x.isZero = true ↔ x.units = 0 := by
  have zero : unitsOfCode 23 0 = 0 := rfl
  rw [isZero, units, beq_iff_eq, ← zero, unitsOfCode_inj, zero]

theorem numericallyEqual_iff {a b : Binary32} : a.numericallyEqual b = true ↔
    a.isNaN = false ∧ b.isNaN = false ∧ ((a.isZero = true ∧ b.isZero = true) ∨ a = b) := by
  simp only [numericallyEqual, Bool.and_eq_true, Bool.not_eq_true', beq_iff_eq, and_assoc]
  refine and_congr_right fun _ => and_congr_right fun _ => ?_
  rw [isZero_iff, isZero_iff]
  constructor
  · intro equal
    by_cases sign : a.negative = b.negative
    · have magnitude : a.units = b.units := by
        unfold signedUnits at equal
        rw [sign] at equal
        split at equal <;> omega
      exact .inr (ext_code sign (unitsOfCode_inj.mp magnitude))
    · left
      unfold signedUnits at equal
      cases ha : a.negative <;> cases hb : b.negative <;>
        simp only [ha, hb, not_true_eq_false, if_true, if_false, Bool.false_eq_true] at sign equal
          <;> omega
  · rintro (⟨za, zb⟩ | rfl)
    · simp [signedUnits, za, zb]
    · rfl

theorem representative_eq_iff {x y : Binary32} : x.representative = y.representative ↔
    x.numericallyEqual y = true ∨ (x.isNaN = true ∧ y.isNaN = true) := by
  have nanIsNaN : nan.isNaN = true := by decide
  have zeroNotNaN : (zero false).isNaN = false := by decide
  have zeroIsZero : (zero false).isZero = true := by decide
  rw [numericallyEqual_iff]
  unfold representative
  grind

theorem not_isNaN_of_isZero {x : Binary32} (zero : x.isZero = true) : x.isNaN = false := by
  have none : x.code = 0 := by simpa [isZero] using zero
  simp [isNaN, none]

end Number.Binary32

namespace Value

theorem beq_def (a b : Value) : (a == b) = same a b := rfl

/-- Two values have the same key exactly if scripts see them as equal. -/
theorem hashKey_eq_iff {a b : Value} : a.hashKey = b.hashKey ↔ (a == b) = true := by
  rw [beq_def]
  cases a <;> cases b <;>
    simp [hashKey, same, Binary32.representative_eq_iff]

instance : EquivBEq Value where
  rfl := hashKey_eq_iff.mp rfl
  symm h := hashKey_eq_iff.mp (hashKey_eq_iff.mpr h).symm
  trans h h' := hashKey_eq_iff.mp ((hashKey_eq_iff.mpr h).trans (hashKey_eq_iff.mpr h'))

instance : LawfulHashable Value where
  hash_eq _ _ h := congrArg hashOf (hashKey_eq_iff.mpr h)

/-- Values are equal if they are identical, both zeros or both NaNs. -/
theorem beq_iff {v w : Value} :
    (v == w) = true ↔ v = w ∨ ∃ x y, v = .float x ∧ w = .float y ∧
      ((x.isZero = true ∧ y.isZero = true) ∨ (x.isNaN = true ∧ y.isNaN = true)) := by
  constructor
  · intro equal
    rw [beq_def] at equal
    cases v with
    | float x =>
      cases w with
      | float y =>
        simp only [same, Bool.or_eq_true, Bool.and_eq_true] at equal
        rcases equal with numbers | nans
        · rcases (Binary32.numericallyEqual_iff.mp numbers).2.2 with zeros | rfl
          · exact .inr ⟨x, y, rfl, rfl, .inl zeros⟩
          · exact .inl rfl
        · exact .inr ⟨x, y, rfl, rfl, .inr nans⟩
      | _ => cases equal
    | _ =>
      left
      cases w <;> simp_all [same]
  · rintro (rfl | ⟨x, y, rfl, rfl, alike⟩)
    · exact BEq.rfl
    · refine hashKey_eq_iff.mp (congrArg float (Binary32.representative_eq_iff.mpr ?_))
      rcases alike with ⟨zeroX, zeroY⟩ | nans
      · have notX := Binary32.not_isNaN_of_isZero zeroX
        have notY := Binary32.not_isNaN_of_isZero zeroY
        exact .inl (Binary32.numericallyEqual_iff.mpr ⟨notX, notY, .inl ⟨zeroX, zeroY⟩⟩)
      · exact .inr nans

/-! ### Values as keys -/

/-- Each distinct value with the index of its first occurrence. -/
def firstIndex (values : List Value) : Std.HashMap Value Nat :=
  values.zipIdx.foldl (fun seen entry => seen.insertIfNew entry.1 entry.2) ∅

/-- For each value the index of the first one that a map keyed by values takes for it. -/
def firstEqual (values : List Value) : List Nat :=
  let seen := firstIndex values
  values.map fun v => seen.getD v 0

/-- For each value the index of the first one with the same key. -/
def firstSameKey (values : List Value) : List Nat :=
  values.map fun v => values.findIdx fun w => w.hashKey = v.hashKey

end Value

end ScriptState

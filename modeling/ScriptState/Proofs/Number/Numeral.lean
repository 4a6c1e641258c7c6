import ScriptState.Proofs.Number.Shortest
import ScriptState.Proofs.Text.SelfDelimiting

/-!
# Numerals

A numeral is what a reader sees in the text of a number: a sign, digits before and after a point,
an exponent. No two have the same text (`chars_inj`), and the notations of a decimal are numerals
for the same number (`value_positional`, `value_pointed`, `value_scientific`).
-/

namespace ScriptState.Number

/-- A number in decimal notation. -/
structure Numeral where
  negative : Bool
  whole : List Char
  fraction : List Char
  exponent : Option ℤ

namespace Numeral

def fractionChars : List Char → List Char
  | [] => []
  | c :: fraction => '.' :: c :: fraction

def exponentChars : Option ℤ → List Char
  | none => []
  | some e => 'e' :: (intText e).toList

/-- The number without its sign. The point is left out if no digit follows it. -/
def magnitudeChars (n : Numeral) : List Char :=
  n.whole ++ (fractionChars n.fraction ++ exponentChars n.exponent)

def chars (n : Numeral) : List Char :=
  if n.negative then '-' :: n.magnitudeChars else n.magnitudeChars

def text (n : Numeral) : String := String.ofList n.chars

structure WellFormed (n : Numeral) : Prop where
  some : n.whole ≠ []
  whole : ∀ c ∈ n.whole, c.isDigit = true
  fraction : ∀ c ∈ n.fraction, c.isDigit = true

/-- The number without its sign: all digits as one number, and where the point is in them. -/
def decimal (n : Numeral) : Decimal :=
  ⟨Nat.ofDigitChars 10 (n.whole ++ n.fraction) 0, n.exponent.getD 0 - n.fraction.length⟩

end Numeral

/-! ### Whole numbers -/

theorem isDigit_of_mem_digitChars {n : ℕ} {c : Char} (member : c ∈ digitChars n) :
    c.isDigit = true := Nat.isDigit_of_mem_toDigits (by decide) (by decide) member

theorem digitChars_inj {m n : ℕ} (same : digitChars m = digitChars n) : m = n :=
  toDigits_inj (by decide) (by decide) same

theorem toList_intText (n : ℤ) : (intText n).toList =
    if n < 0 then '-' :: digitChars n.natAbs else digitChars n.natAbs := String.toList_ofList

theorem mem_intText {n : ℤ} {c : Char} (member : c ∈ (intText n).toList) :
    c = '-' ∨ c.isDigit = true := by
  rw [toList_intText] at member
  split at member
  · exact (List.mem_cons.mp member).imp_right isDigit_of_mem_digitChars
  · exact .inr (isDigit_of_mem_digitChars member)

theorem digitChars_ne_minus (n : ℕ) (rest : List Char) : digitChars n ≠ '-' :: rest := by
  intro same
  have digit := isDigit_of_mem_digitChars (n := n) (c := '-') (same ▸ List.mem_cons_self)
  exact absurd digit (by decide)

theorem intText_inj {m n : ℤ} (same : (intText m).toList = (intText n).toList) : m = n := by
  rw [toList_intText, toList_intText] at same
  split at same <;> split at same
  · have magnitudes := digitChars_inj (List.cons.inj same).2
    omega
  · exact absurd same.symm (digitChars_ne_minus _ _)
  · exact absurd same (digitChars_ne_minus _ _)
  · have magnitudes := digitChars_inj same
    omega

namespace Numeral

variable {n m : Numeral}

/-! ### Different numerals have different texts -/

theorem exponentChars_head (exponent : Option ℤ) :
    ∀ c ∈ (exponentChars exponent).head?, c = 'e' := by
  cases exponent with
  | none => rintro c ⟨⟩
  | some e => rintro c ⟨⟩; rfl

theorem exponentChars_inj {e k : Option ℤ} (same : exponentChars e = exponentChars k) : e = k := by
  cases e with
  | none =>
    cases k with
    | none => rfl
    | some k => contradiction
  | some e =>
    cases k with
    | none => contradiction
    | some k => exact congrArg some (intText_inj (List.cons.inj same).2)

theorem afterWhole_head (fraction : List Char) (exponent : Option ℤ) :
    ∀ c ∈ (fractionChars fraction ++ exponentChars exponent).head?, ¬c.isDigit = true := by
  cases fraction with
  | nil =>
    intro c member
    rw [exponentChars_head exponent c member]
    decide
  | cons digit fraction =>
    rintro c ⟨⟩
    decide

theorem afterWhole_inj {fraction other : List Char} {e k : Option ℤ}
    (digits : ∀ c ∈ fraction, c.isDigit = true) (otherDigits : ∀ c ∈ other, c.isDigit = true)
    (same : fractionChars fraction ++ exponentChars e = fractionChars other ++ exponentChars k) :
    fraction = other ∧ e = k := by
  have noPoint : ∀ {e c fraction rest},
      exponentChars e ≠ fractionChars (c :: fraction) ++ rest := by
    intro e c fraction rest eq
    have head := exponentChars_head e '.' (by rw [eq]; rfl)
    exact absurd head (by decide)
  have noDigit : ∀ e, ∀ c ∈ (exponentChars e).head?, ¬c.isDigit = true :=
    fun e => afterWhole_head [] e
  cases fraction with
  | nil =>
    cases other with
    | nil => exact ⟨rfl, exponentChars_inj same⟩
    | cons c other => exact absurd same noPoint
  | cons c fraction =>
    cases other with
    | nil => exact absurd same.symm noPoint
    | cons d other =>
      obtain ⟨fractions, exponents⟩ := run_append_inj digits otherDigits (noDigit e) (noDigit k)
        (List.cons.inj same).2
      exact ⟨fractions, exponentChars_inj exponents⟩

theorem magnitudeChars_ne_cons (wellFormed : n.WellFormed) {c : Char}
    (noDigit : ¬c.isDigit = true) (rest : List Char) : n.magnitudeChars ≠ c :: rest := by
  unfold magnitudeChars
  obtain ⟨d, whole, eq⟩ := List.exists_cons_of_ne_nil wellFormed.some
  have digit := wellFormed.whole d (eq ▸ List.mem_cons_self)
  rw [eq]
  intro same
  rw [(List.cons.inj same).1] at digit
  exact noDigit digit

theorem signed_inj {negative other : Bool} {chars more : List Char}
    (unsigned : ∀ rest, chars ≠ '-' :: rest) (unsignedOther : ∀ rest, more ≠ '-' :: rest)
    (same : (if negative then '-' :: chars else chars) = if other then '-' :: more else more) :
    negative = other ∧ chars = more := by
  cases negative with
  | true =>
    cases other with
    | true => exact ⟨rfl, (List.cons.inj same).2⟩
    | false => exact absurd same.symm (unsignedOther _)
  | false =>
    cases other with
    | true => exact absurd same (unsigned _)
    | false => exact ⟨rfl, same⟩

theorem chars_inj (wellFormed : n.WellFormed) (wellFormedOther : m.WellFormed)
    (same : n.chars = m.chars) : n = m := by
  obtain ⟨signs, magnitudes⟩ := signed_inj (magnitudeChars_ne_cons wellFormed (by decide))
    (magnitudeChars_ne_cons wellFormedOther (by decide)) same
  obtain ⟨wholes, tails⟩ := run_append_inj wellFormed.whole wellFormedOther.whole
    (afterWhole_head _ _) (afterWhole_head _ _) magnitudes
  obtain ⟨fractions, exponents⟩ :=
    afterWhole_inj wellFormed.fraction wellFormedOther.fraction tails
  cases n
  cases m
  congr

/-! ### What the characters are -/

theorem mem_fractionChars {fraction : List Char} {c : Char} (member : c ∈ fractionChars fraction) :
    c = '.' ∨ c ∈ fraction := by
  cases fraction with
  | nil => contradiction
  | cons d fraction => exact List.mem_cons.mp member

theorem mem_exponentChars {exponent : Option ℤ} {c : Char} (member : c ∈ exponentChars exponent) :
    c = 'e' ∨ c = '-' ∨ c.isDigit = true := by
  cases exponent with
  | none => contradiction
  | some e => exact (List.mem_cons.mp member).imp_right mem_intText

theorem mem_chars (wellFormed : n.WellFormed) {c : Char} (member : c ∈ n.chars) :
    c.isDigit = true ∨ c ∈ ['-', '.', 'e'] := by
  have magnitude : c ∈ n.magnitudeChars → c.isDigit = true ∨ c ∈ ['-', '.', 'e'] := by
    intro member
    rcases List.mem_append.mp member with whole | afterWhole
    · exact .inl (wellFormed.whole c whole)
    rcases List.mem_append.mp afterWhole with fraction | exponent
    · rcases mem_fractionChars fraction with rfl | digit
      · exact .inr (by decide)
      · exact .inl (wellFormed.fraction c digit)
    · rcases mem_exponentChars exponent with rfl | rfl | digit
      · exact .inr (by decide)
      · exact .inr (by decide)
      · exact .inl digit
  unfold chars at member
  split at member
  · rcases List.mem_cons.mp member with rfl | member
    · exact .inr (by decide)
    · exact magnitude member
  · exact magnitude member

end Numeral

/-! ### The notations of a decimal -/

namespace Decimal

variable {d : Decimal}

def positionalNumeral (negative : Bool) (d : Decimal) : Numeral :=
  ⟨negative, d.whole, d.fraction, none⟩

def pointedNumeral (negative : Bool) (d : Decimal) : Numeral :=
  ⟨negative, d.whole, if d.fraction.isEmpty then ['0'] else d.fraction, none⟩

def scientificNumeral (negative : Bool) (d : Decimal) : Numeral :=
  ⟨negative, (digitChars d.digits).take 1, (digitChars d.digits).drop 1, some (d.point - 1)⟩

theorem positional_eq (negative : Bool) (d : Decimal) :
    d.positional = (d.positionalNumeral negative).magnitudeChars := by
  unfold positional positionalNumeral Numeral.magnitudeChars
  dsimp only
  cases d.fraction with
  | nil => exact (List.append_nil _).symm
  | cons c fraction => exact congrArg (d.whole ++ ·) (List.append_nil _).symm

theorem pointed_eq (negative : Bool) (d : Decimal) :
    d.pointed = (d.pointedNumeral negative).magnitudeChars := by
  unfold pointed positional pointedNumeral Numeral.magnitudeChars
  dsimp only
  cases d.fraction with
  | nil => rfl
  | cons c fraction => exact congrArg (d.whole ++ ·) (List.append_nil _).symm

theorem scientific_eq (negative : Bool) (d : Decimal) :
    d.scientific = (d.scientificNumeral negative).magnitudeChars := by
  unfold scientific scientificNumeral Numeral.magnitudeChars
  dsimp only
  have nonempty : digitChars d.digits ≠ [] := Nat.toDigits_ne_nil
  generalize digitChars d.digits = chars at nonempty ⊢
  cases chars with
  | nil => exact absurd rfl nonempty
  | cons c rest =>
    cases rest with
    | nil => rfl
    | cons next rest => rfl

theorem isDigit_of_mem_zeros {k : ℕ} {c : Char} (member : c ∈ zeros k) : c.isDigit = true := by
  rw [List.eq_of_mem_replicate member]
  decide

theorem isDigit_of_mem_whole {c : Char} (member : c ∈ d.whole) : c.isDigit = true := by
  unfold whole at member
  split at member
  · rw [List.mem_singleton.mp member]
    decide
  · rcases List.mem_append.mp member with digit | zero
    · exact isDigit_of_mem_digitChars (List.mem_of_mem_take digit)
    · exact isDigit_of_mem_zeros zero

theorem isDigit_of_mem_fraction {c : Char} (member : c ∈ d.fraction) : c.isDigit = true := by
  rcases List.mem_append.mp member with zero | digit
  · exact isDigit_of_mem_zeros zero
  · exact isDigit_of_mem_digitChars (List.mem_of_mem_drop digit)

theorem whole_ne_nil (d : Decimal) : d.whole ≠ [] := by
  unfold whole
  split
  · exact List.cons_ne_nil _ _
  · refine List.append_ne_nil_of_left_ne_nil (fun none => ?_) _
    rcases List.take_eq_nil_iff.mp none with zero | empty
    · omega
    · exact Nat.toDigits_ne_nil empty

theorem wellFormed_positional (negative : Bool) (d : Decimal) :
    (d.positionalNumeral negative).WellFormed :=
  ⟨whole_ne_nil d, fun _ => isDigit_of_mem_whole, fun _ => isDigit_of_mem_fraction⟩

theorem wellFormed_pointed (negative : Bool) (d : Decimal) :
    (d.pointedNumeral negative).WellFormed := by
  refine ⟨whole_ne_nil d, fun _ => isDigit_of_mem_whole, fun c member => ?_⟩
  unfold pointedNumeral at member
  dsimp only at member
  split at member
  · rw [List.mem_singleton.mp member]
    decide
  · exact isDigit_of_mem_fraction member

theorem wellFormed_scientific (negative : Bool) (d : Decimal) :
    (d.scientificNumeral negative).WellFormed := by
  refine ⟨fun none => ?_, fun c member => isDigit_of_mem_digitChars (List.mem_of_mem_take member),
    fun c member => isDigit_of_mem_digitChars (List.mem_of_mem_drop member)⟩
  exact (List.take_eq_nil_iff.mp none).elim (by decide) Nat.toDigits_ne_nil

/-! The notations are for the same number. -/

theorem ofDigitChars_digitChars (n : ℕ) : Nat.ofDigitChars 10 (digitChars n) 0 = n :=
  Nat.ofDigitChars_ten_toDigits

theorem ofDigitChars_zeros (k : ℕ) : Nat.ofDigitChars 10 (zeros k) 0 = 0 := by
  induction k with
  | zero => rfl
  | succ k ih => exact Nat.ofDigitChars_cons.trans ih

theorem ofDigitChars_zeros_append (k : ℕ) (chars : List Char) :
    Nat.ofDigitChars 10 (zeros k ++ chars) 0 = Nat.ofDigitChars 10 chars 0 := by
  rw [Nat.ofDigitChars_append, ofDigitChars_zeros]

theorem ofDigitChars_append_zeros (k : ℕ) (chars : List Char) :
    Nat.ofDigitChars 10 (chars ++ zeros k) 0 = 10 ^ k * Nat.ofDigitChars 10 chars 0 := by
  rw [Nat.ofDigitChars_append, Nat.ofDigitChars_eq_ofDigitChars_zero, ofDigitChars_zeros, zeros,
    List.length_replicate]
  rfl

variable (negative : Bool)

theorem value_positional (d : Decimal) :
    (d.positionalNumeral negative).decimal.value = d.value := by
  obtain ⟨n, e⟩ := d
  have length : 0 < (digitChars n).length := Nat.length_toDigits_pos
  have noZeros : zeros 0 = [] := rfl
  unfold positionalNumeral Numeral.decimal whole fraction point
  dsimp only [Option.getD_none]
  rcases le_or_gt ((digitChars n).length + e) 0 with before | after
  · -- The point stands before all digits.
    rw [if_pos before, (by omega : ((digitChars n).length + e).toNat = 0), List.drop_zero]
    congr 2
    · exact (ofDigitChars_zeros_append 1 _).trans
        ((ofDigitChars_zeros_append _ _).trans (ofDigitChars_digitChars n))
    · simp only [zeros, List.length_append, List.length_replicate]
      omega
  rw [if_neg (by omega), (by omega : (-((digitChars n).length + e)).toNat = 0)]
  rcases lt_or_ge e 0 with within | behind
  · -- It stands between them.
    rw [(by omega : e.toNat = 0), noZeros, List.append_nil, List.nil_append]
    congr 2
    · rw [List.take_append_drop, ofDigitChars_digitChars]
    · rw [List.length_drop]
      omega
  · -- It stands behind them, after as many zeros as the exponent says.
    rw [List.take_of_length_le (by omega), List.drop_of_length_le (by omega), noZeros,
      List.append_nil, List.append_nil, ofDigitChars_append_zeros, ofDigitChars_digitChars,
      value_zeros]
    congr 2
    rw [List.length_nil]
    omega

theorem value_pointed (d : Decimal) :
    (d.pointedNumeral negative).decimal.value = d.value := by
  rw [← value_positional negative d]
  unfold pointedNumeral positionalNumeral Numeral.decimal
  dsimp only
  split
  · rename_i none
    rw [List.isEmpty_iff.mp none, List.append_nil]
    have tenth := value_zeros (Nat.ofDigitChars 10 d.whole 0) 1 (-1)
    rw [← ofDigitChars_append_zeros] at tenth
    exact tenth
  · rfl

theorem value_scientific (d : Decimal) :
    (d.scientificNumeral negative).decimal.value = d.value := by
  have length : 0 < (digitChars d.digits).length := Nat.length_toDigits_pos
  unfold scientificNumeral Numeral.decimal point
  dsimp only [Option.getD_some]
  congr 2
  · rw [List.take_append_drop, ofDigitChars_digitChars]
  · rw [List.length_drop]
    omega

end Decimal

end ScriptState.Number

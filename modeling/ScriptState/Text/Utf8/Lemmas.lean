import ScriptState.Text.Utf8

/-!
# Reading back what is written

`decode_encode` shows that every text survives `encode` and `decode`. The cases are those of the
length of a character's bytes.
-/

namespace ScriptState.Utf8

/-! ### First bytes and the bytes that follow -/

theorem holds_ofNat {range : ByteRange} {n : Nat} (bounded : n < 256) :
    range.holds (.ofNat n) = decide (range.first.toNat ≤ n ∧ n ≤ range.last.toNat) := by
  simp [ByteRange.holds, UInt8.le_iff_toNat_le, Nat.mod_eq_of_lt bounded]

theorem continuation_holds (n : Nat) : continuation.holds (.ofNat (n % 64 + 128)) = true := by
  rw [holds_ofNat (by omega)]
  simp [continuation]
  omega

theorem low_bits (n : Nat) : (UInt8.ofNat (n % 64 + 128)).toNat % 64 = n % 64 := by
  simp
  omega

theorem lead?_two {v : Nat} (low : 0x80 ≤ v) (high : v < 0x800) :
    lead? (.ofNat (v / 64 % 32 + 192)) = some (v / 64, [continuation]) := by
  unfold lead?
  simp only [UInt8.toNat_ofNat', Nat.reducePow]
  rw [Nat.mod_eq_of_lt (by omega), if_neg (by omega), if_neg (by omega), if_pos (by omega)]
  simp only [Option.some.injEq, Prod.mk.injEq, and_true]
  omega

theorem lead?_three {v : Nat} (low : 0x800 ≤ v) (high : v < 0x10000)
    (valid : v < 0xd800 ∨ 0xdfff < v) : ∃ next,
    lead? (.ofNat (v / 4096 % 16 + 224)) = some (v / 4096, [next, continuation]) ∧
      next.holds (.ofNat (v / 64 % 64 + 128)) = true := by
  unfold lead?
  simp only [UInt8.toNat_ofNat', Nat.reducePow]
  rw [Nat.mod_eq_of_lt (by omega), if_neg (by omega), if_neg (by omega), if_neg (by omega)]
  simp only [holds_ofNat (show v / 64 % 64 + 128 < 256 by omega), decide_eq_true_eq]
  by_cases first : v / 4096 = 0
  · rw [if_pos (by omega)]
    refine ⟨_, by rw [first], ?_⟩
    simp
    omega
  rw [if_neg (by omega)]
  by_cases surrogates : v / 4096 = 13
  · rw [if_pos (by omega)]
    refine ⟨_, by rw [surrogates], ?_⟩
    simp
    omega
  rw [if_neg (by omega), if_pos (by omega)]
  refine ⟨continuation, ?_, ?_⟩
  · simp only [Option.some.injEq, Prod.mk.injEq, and_true]
    omega
  · simp [continuation]
    omega

theorem lead?_four {v : Nat} (low : 0x10000 ≤ v) (high : v < 0x110000) : ∃ next,
    lead? (.ofNat (v / 262144 % 8 + 240)) =
        some (v / 262144, [next, continuation, continuation]) ∧
      next.holds (.ofNat (v / 4096 % 64 + 128)) = true := by
  unfold lead?
  simp only [UInt8.toNat_ofNat', Nat.reducePow]
  rw [Nat.mod_eq_of_lt (by omega), if_neg (by omega), if_neg (by omega), if_neg (by omega),
    if_neg (by omega), if_neg (by omega), if_neg (by omega)]
  simp only [holds_ofNat (show v / 4096 % 64 + 128 < 256 by omega), decide_eq_true_eq]
  by_cases first : v / 262144 = 0
  · rw [if_pos (by omega)]
    refine ⟨_, by rw [first], ?_⟩
    simp
    omega
  rw [if_neg (by omega)]
  by_cases last : v / 262144 = 4
  · rw [if_neg (by omega), if_pos (by omega)]
    refine ⟨_, by rw [last], ?_⟩
    simp
    omega
  rw [if_pos (by omega)]
  refine ⟨continuation, ?_, ?_⟩
  · simp only [Option.some.injEq, Prod.mk.injEq, and_true]
    omega
  · simp [continuation]
    omega

/-! ### Whole characters -/

theorem decodeFrom_encodeChar (index : Nat) (c : Char) (rest : List UInt8) :
    decodeFrom index none (String.utf8EncodeChar c ++ rest) =
      (c :: ·) <$> decodeFrom (index + (String.utf8EncodeChar c).length) none rest := by
  have valid : c.val.toNat < 0xd800 ∨ (0xdfff < c.val.toNat ∧ c.val.toNat < 0x110000) := c.valid
  have back : Char.ofNat c.val.toNat = c := Char.ofNat_toNat c
  unfold String.utf8EncodeChar
  generalize c.val.toNat = v at *
  dsimp only
  split
  · simp [decodeFrom, lead?, Nat.mod_eq_of_lt (show v < 256 by omega), show v < 128 by omega, back]
  split
  · simp only [List.cons_append, List.nil_append, decodeFrom,
      lead?_two (show 0x80 ≤ v by omega) (by omega), continuation_holds, if_true, low_bits]
    rw [show v / 64 * 64 + v % 64 = v by omega, back]
    rfl
  split
  · obtain ⟨next, lead, fits⟩ := lead?_three (show 0x800 ≤ v by omega) (by omega) (by omega)
    simp only [List.cons_append, List.nil_append, decodeFrom, lead, fits, continuation_holds,
      if_true, low_bits]
    rw [show (v / 4096 * 64 + v / 64 % 64) * 64 + v % 64 = v by omega, back]
    rfl
  · obtain ⟨next, lead, fits⟩ := lead?_four (show 0x10000 ≤ v by omega) (by omega)
    simp only [List.cons_append, List.nil_append, decodeFrom, lead, fits, continuation_holds,
      if_true, low_bits]
    rw [show ((v / 262144 * 64 + v / 4096 % 64) * 64 + v / 64 % 64) * 64 + v % 64 = v by omega,
      back]
    rfl

theorem decodeFrom_encode (index : Nat) (text : List Char) :
    decodeFrom index none (encode text) = .ok text := by
  induction text generalizing index with
  | nil => rfl
  | cons c rest ih =>
    rw [encode, List.flatMap_cons, ← encode, decodeFrom_encodeChar, ih]
    rfl

theorem decode_encode (text : List Char) : decode (encode text) = .ok text :=
  decodeFrom_encode 0 text

theorem encode_inj {a b : List Char} : encode a = encode b ↔ a = b := by
  refine ⟨fun same => ?_, fun same => same ▸ rfl⟩
  have back := congrArg decode same
  rw [decode_encode, decode_encode] at back
  exact Except.ok.inj back

/-! ### The order by bytes -/

theorem compareBytes_eq_eq {a b : String} : compareBytes a b = .eq ↔ a = b := by
  rw [compareBytes, Std.LawfulEqCmp.compare_eq_iff_eq, encode_inj, String.toList_inj]

instance : Std.TransCmp compareBytes where
  eq_swap {a b} := by
    unfold compareBytes
    exact Std.OrientedCmp.eq_swap
  isLE_trans {a b c} first second := by
    unfold compareBytes at *
    exact Std.TransCmp.isLE_trans first second

instance : Std.LawfulEqCmp compareBytes where
  eq_of_compare same := compareBytes_eq_eq.mp same

theorem compareBytes_eq_lt {a b : String} (ordered : (compareBytes a b).isLE = true)
    (different : a ≠ b) : compareBytes a b = .lt :=
  (Ordering.isLE_iff_eq_lt_or_eq_eq.mp ordered).resolve_right fun equal =>
    different (compareBytes_eq_eq.mp equal)

end ScriptState.Utf8

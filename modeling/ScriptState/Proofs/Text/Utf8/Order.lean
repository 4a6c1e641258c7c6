import ScriptState.Text.Utf8.Lemmas

/-!
# The order of texts by bytes and by characters

UTF-8 keeps the order of characters: where the bytes of two characters first differ both have one,
and that of the lesser character is less (`below_encodeChar`). So the order of texts by their bytes
is that by the numbers of their characters (`compareBytes_eq_compareChars`).
-/

namespace ScriptState.Utf8

/-- The order of texts by the numbers of their characters, of which the first that differ decide. -/
def compareChars (a b : String) : Ordering :=
  (a.toList.map Char.toNat).compareLex compare (b.toList.map Char.toNat)

/-- The first bytes that differ are there in both, and the one of the first text is less. So no
byte that follows can change the order. -/
inductive Below : List UInt8 → List UInt8 → Prop
  | less {x y : UInt8} {xs ys : List UInt8} (less : x < y) : Below (x :: xs) (y :: ys)
  | more {x : UInt8} {xs ys : List UInt8} (below : Below xs ys) : Below (x :: xs) (x :: ys)

variable {xs ys : List UInt8}

/-! ### Comparing bytes -/

theorem compareLex_cons_self (x : UInt8) (xs ys : List UInt8) :
    (x :: xs).compareLex compare (x :: ys) = xs.compareLex compare ys := by
  have same : compare x x = .eq := Std.ReflCmp.compare_self
  rw [List.compareLex_cons_cons, same, Ordering.eq_then]

theorem compareLex_append_left (front xs ys : List UInt8) :
    (front ++ xs).compareLex compare (front ++ ys) = xs.compareLex compare ys := by
  induction front with
  | nil => rfl
  | cons x front ih => rw [List.cons_append, List.cons_append, compareLex_cons_self, ih]

theorem Below.compareLex_append (below : Below xs ys) (us vs : List UInt8) :
    (xs ++ us).compareLex compare (ys ++ vs) = .lt := by
  induction below with
  | less less =>
    rw [List.cons_append, List.cons_append, List.compareLex_cons_cons,
      Std.compare_eq_lt.mpr less, Ordering.lt_then]
  | more below ih => rw [List.cons_append, List.cons_append, compareLex_cons_self, ih]

/-! ### Comparing characters -/

theorem not_below_nil : ¬Below [] ys := nofun

theorem below_cons_iff {m n : Nat} (boundedM : m < 256) (boundedN : n < 256) :
    Below (.ofNat m :: xs) (.ofNat n :: ys) ↔ m < n ∨ (m = n ∧ Below xs ys) := by
  have less : UInt8.ofNat m < .ofNat n ↔ m < n := by
    rw [UInt8.lt_iff_toNat_lt, UInt8.toNat_ofNat_of_lt' boundedM, UInt8.toNat_ofNat_of_lt' boundedN]
  have same : UInt8.ofNat m = .ofNat n ↔ m = n := by
    rw [← UInt8.toNat_inj, UInt8.toNat_ofNat_of_lt' boundedM, UInt8.toNat_ofNat_of_lt' boundedN]
  rw [← less, ← same]
  constructor
  · intro below
    generalize UInt8.ofNat m = x, UInt8.ofNat n = y at below
    cases below with
    | less less => exact .inl less
    | more below => exact .inr ⟨rfl, below⟩
  · rintro (less | ⟨same, below⟩)
    · exact .less less
    · exact same ▸ .more below

theorem below_four {v w : Nat} (less : v < w) (bounded : w < 0x110000) :
    Below
      [.ofNat (v / 262144 % 8 + 240), .ofNat (v / 4096 % 64 + 128), .ofNat (v / 64 % 64 + 128),
        .ofNat (v % 64 + 128)]
      [.ofNat (w / 262144 % 8 + 240), .ofNat (w / 4096 % 64 + 128), .ofNat (w / 64 % 64 + 128),
        .ofNat (w % 64 + 128)] := by
  simp (disch := omega) only [below_cons_iff, not_below_nil, and_false, or_false]
  by_cases first : v / 262144 = w / 262144
  · refine .inr ⟨by rw [first], ?_⟩
    by_cases second : v / 4096 = w / 4096
    · refine .inr ⟨by rw [second], ?_⟩
      by_cases third : v / 64 = w / 64
      · exact .inr ⟨by rw [third], by omega⟩
      · exact .inl (by omega)
    · exact .inl (by omega)
  · exact .inl (by omega)

theorem below_encodeChar {c d : Char} (less : c.toNat < d.toNat) :
    Below (String.utf8EncodeChar c) (String.utf8EncodeChar d) := by
  have valid : d.val.toNat < 0xd800 ∨ (0xdfff < d.val.toNat ∧ d.val.toNat < 0x110000) := d.valid
  unfold Char.toNat at less
  unfold String.utf8EncodeChar
  generalize c.val.toNat = v at *
  generalize d.val.toNat = w at *
  dsimp only
  -- A character with more bytes has a greater first byte.
  split
  · repeat' split
    all_goals simp (disch := omega) only [below_cons_iff, not_below_nil, and_false, or_false]
    all_goals omega
  rw [if_neg (by omega : ¬w ≤ 0x7f)]
  split
  · repeat' split
    all_goals simp (disch := omega) only [below_cons_iff, not_below_nil, and_false, or_false]
    all_goals omega
  rw [if_neg (by omega : ¬w ≤ 0x7ff)]
  split
  · split
    all_goals simp (disch := omega) only [below_cons_iff, not_below_nil, and_false, or_false]
    all_goals omega
  rw [if_neg (by omega : ¬w ≤ 0xffff)]
  exact below_four less (by omega)

/-! ### Comparing texts -/

theorem exists_encode_cons (c : Char) (text : List Char) :
    ∃ x xs, encode (c :: text) = x :: xs := by
  obtain ⟨x, xs, bytes⟩ := List.exists_cons_of_ne_nil (String.utf8EncodeChar_ne_nil (c := c))
  refine ⟨x, xs ++ encode text, ?_⟩
  rw [encode, List.flatMap_cons, bytes, ← encode, List.cons_append]

theorem compareLex_encode (a b : List Char) :
    (encode a).compareLex compare (encode b) =
      (a.map Char.toNat).compareLex compare (b.map Char.toNat) := by
  induction a generalizing b with
  | nil =>
    cases b with
    | nil => rfl
    | cons d b =>
      obtain ⟨y, ys, bytes⟩ := exists_encode_cons d b
      rw [bytes]
      rfl
  | cons c a ih =>
    cases b with
    | nil =>
      obtain ⟨x, xs, bytes⟩ := exists_encode_cons c a
      rw [bytes]
      rfl
    | cons d b =>
      simp only [encode, List.flatMap_cons, List.map_cons, List.compareLex_cons_cons] at ih ⊢
      rcases Nat.lt_trichotomy c.toNat d.toNat with less | same | greater
      · rw [(below_encodeChar less).compareLex_append, Nat.compare_eq_lt.mpr less,
          Ordering.lt_then]
      · obtain rfl := Char.toNat_inj.mp same
        rw [compareLex_append_left, ih, Nat.compare_eq_eq.mpr rfl, Ordering.eq_then]
      · have swapped := (below_encodeChar greater).compareLex_append
        rw [Std.OrientedCmp.gt_of_lt (swapped _ _), Nat.compare_eq_gt.mpr greater,
          Ordering.gt_then]

theorem compareBytes_eq_compareChars (a b : String) : compareBytes a b = compareChars a b :=
  compareLex_encode a.toList b.toList

end ScriptState.Utf8

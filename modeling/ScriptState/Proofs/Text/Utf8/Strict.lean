import Mathlib
import ScriptState.Text.Utf8.Lemmas

/-!
# Strict reading of UTF-8

`decode_eq_ok_iff` shows that the bytes that read as a text are those that it is written in, so no
text has a second spelling. `Begun` is the invariant of the reading machine: what it has read of a
character is the beginning of that character's bytes.
-/

namespace ScriptState.Utf8

theorem eq_ofNat {byte : UInt8} {n : Nat} (same : byte.toNat = n) : byte = .ofNat n := by
  subst same
  exact UInt8.ofNat_toNat.symm

theorem holds_iff {range : ByteRange} {byte : UInt8} :
    range.holds byte = true ↔
      range.first.toNat ≤ byte.toNat ∧ byte.toNat ≤ range.last.toNat := by
  simp [ByteRange.holds, UInt8.le_iff_toNat_le]

theorem continuation_holds_iff {byte : UInt8} :
    continuation.holds byte = true ↔ 0x80 ≤ byte.toNat ∧ byte.toNat ≤ 0xbf := holds_iff

/-! ### First bytes by the length of the character -/

/-- The first byte `a` of a character, the bits in it, and what has to follow. -/
inductive Lead (a : Nat) : Nat → List ByteRange → Prop
  | one (small : a < 0x80) : Lead a a []
  | two {bits : Nat} (same : a = 0xc0 + bits) (low : 2 ≤ bits) (high : bits < 32) :
      Lead a bits [continuation]
  | three {bits : Nat} {next : ByteRange} (same : a = 0xe0 + bits) (high : bits < 16)
      (least : 0x80 ≤ next.first.toNat) (most : next.last.toNat ≤ 0xbf)
      (long : bits = 0 → 0xa0 ≤ next.first.toNat)
      (scalar : bits = 13 → next.last.toNat ≤ 0x9f) : Lead a bits [next, continuation]
  | four {bits : Nat} {next : ByteRange} (same : a = 0xf0 + bits) (high : bits ≤ 4)
      (least : 0x80 ≤ next.first.toNat) (most : next.last.toNat ≤ 0xbf)
      (long : bits = 0 → 0x90 ≤ next.first.toNat)
      (scalar : bits = 4 → next.last.toNat ≤ 0x8f) :
      Lead a bits [next, continuation, continuation]

theorem lead_of_lead? {byte : UInt8} {bits : Nat} {ranges : List ByteRange}
    (found : lead? byte = some (bits, ranges)) : Lead byte.toNat bits ranges := by
  unfold lead? at found
  dsimp only at found
  generalize byte.toNat = a at *
  split at found
  · obtain ⟨rfl, rfl⟩ := Prod.mk.inj (Option.some.inj found)
    exact .one ‹_›
  split at found
  · cases found
  split at found
  · obtain ⟨rfl, rfl⟩ := Prod.mk.inj (Option.some.inj found)
    exact .two (by omega) (by omega) (by omega)
  split at found
  · obtain ⟨rfl, rfl⟩ := Prod.mk.inj (Option.some.inj found)
    exact .three (by omega) (by decide) (by decide) (by decide) (by decide) (by decide)
  split at found
  · obtain ⟨rfl, rfl⟩ := Prod.mk.inj (Option.some.inj found)
    exact .three (by omega) (by decide) (by decide) (by decide) (by decide) (by decide)
  split at found
  · obtain ⟨rfl, rfl⟩ := Prod.mk.inj (Option.some.inj found)
    exact .three (by omega) (by omega) (by decide) (by decide) (by omega) (by omega)
  split at found
  · obtain ⟨rfl, rfl⟩ := Prod.mk.inj (Option.some.inj found)
    exact .four (by omega) (by decide) (by decide) (by decide) (by decide) (by decide)
  split at found
  · obtain ⟨rfl, rfl⟩ := Prod.mk.inj (Option.some.inj found)
    exact .four (by omega) (by omega) (by decide) (by decide) (by omega) (by omega)
  split at found
  · obtain ⟨rfl, rfl⟩ := Prod.mk.inj (Option.some.inj found)
    exact .four (by omega) (by decide) (by decide) (by decide) (by decide) (by decide)
  · cases found

theorem Lead.length_le {a bits : Nat} {ranges : List ByteRange} (lead : Lead a bits ranges) :
    ranges.length ≤ 3 := by
  cases lead <;> simp

/-! ### Characters begun and ended -/

/-- The bytes read since the character `begun` began. -/
inductive Begun : List UInt8 → Unfinished → Prop
  | first {byte : UInt8} {bits : Nat} {next : ByteRange} {later : List ByteRange}
      (found : lead? byte = some (bits, next :: later)) : Begun [byte] ⟨1, bits, next, later⟩
  | more {read : List UInt8} {begun : Unfinished} {byte : UInt8} {next : ByteRange}
      {later : List ByteRange} (before : Begun read begun)
      (fits : begun.next.holds byte = true) (owed : begun.later = next :: later) :
      Begun (read ++ [byte])
        ⟨begun.taken + 1, begun.bits * 64 + byte.toNat % 64, next, later⟩

theorem Begun.length_pos {read : List UInt8} {begun : Unfinished} (reads : Begun read begun) :
    0 < read.length := by
  cases reads <;> simp

theorem Begun.length_le {read : List UInt8} {begun : Unfinished} (reads : Begun read begun) :
    read.length + begun.later.length ≤ 3 := by
  induction reads with
  | first found =>
    have := (lead_of_lead? found).length_le
    simp only [List.length_cons, List.length_nil] at this ⊢
    omega
  | more _ _ owed ih =>
    rw [owed] at ih
    simp only [List.length_cons, List.length_append, List.length_nil] at ih ⊢
    omega

/-! ### The bytes of a character by their number -/

theorem encodeChar_one {v : Nat} (small : v < 0x80) :
    String.utf8EncodeChar (Char.ofNat v) = [.ofNat v] := by
  have valid : v.isValidChar := .inl (by omega)
  unfold String.utf8EncodeChar
  rw [Char.toNat_val, Char.toNat_ofNat, if_pos valid]
  dsimp only
  rw [if_pos (by omega)]

theorem encodeChar_two {v : Nat} (low : 0x80 ≤ v) (high : v < 0x800) :
    String.utf8EncodeChar (Char.ofNat v) = [.ofNat (v / 64 % 32 + 192), .ofNat (v % 64 + 128)] := by
  have valid : v.isValidChar := .inl (by omega)
  unfold String.utf8EncodeChar
  rw [Char.toNat_val, Char.toNat_ofNat, if_pos valid]
  dsimp only
  rw [if_neg (by omega), if_pos (by omega)]

theorem encodeChar_three {v : Nat} (low : 0x800 ≤ v) (high : v < 0x10000)
    (valid : v.isValidChar) :
    String.utf8EncodeChar (Char.ofNat v) =
      [.ofNat (v / 4096 % 16 + 224), .ofNat (v / 64 % 64 + 128), .ofNat (v % 64 + 128)] := by
  unfold String.utf8EncodeChar
  rw [Char.toNat_val, Char.toNat_ofNat, if_pos valid]
  dsimp only
  rw [if_neg (by omega), if_neg (by omega), if_pos (by omega)]

theorem encodeChar_four {v : Nat} (low : 0x10000 ≤ v) (high : v < 0x110000) :
    String.utf8EncodeChar (Char.ofNat v) =
      [.ofNat (v / 262144 % 8 + 240), .ofNat (v / 4096 % 64 + 128), .ofNat (v / 64 % 64 + 128),
        .ofNat (v % 64 + 128)] := by
  have valid : v.isValidChar := .inr ⟨by omega, by omega⟩
  unfold String.utf8EncodeChar
  rw [Char.toNat_val, Char.toNat_ofNat, if_pos valid]
  dsimp only
  rw [if_neg (by omega), if_neg (by omega), if_neg (by omega)]

/-- The byte that ends a character completes the bytes it is written in. -/
theorem Begun.ends {read : List UInt8} {begun : Unfinished} {byte : UInt8}
    (reads : Begun read begun) (fits : begun.next.holds byte = true) (last : begun.later = []) :
    read ++ [byte] =
      String.utf8EncodeChar (Char.ofNat (begun.bits * 64 + byte.toNat % 64)) := by
  have short := reads.length_le
  cases reads with
  | first found =>
    subst last
    cases lead_of_lead? found with
    | two same low high =>
      have bounds := continuation_holds_iff.mp fits
      dsimp only at *
      rw [encodeChar_two (by omega) (by omega)]
      simp only [List.cons_append, List.nil_append, List.cons.injEq, and_true]
      exact ⟨eq_ofNat (by omega), eq_ofNat (by omega)⟩
  | more before fits₁ owed =>
    subst last
    cases before with
    | first found =>
      subst owed
      cases lead_of_lead? found with
      | three same high least most long scalar =>
        have bounds₁ := holds_iff.mp fits₁
        have bounds := continuation_holds_iff.mp fits
        dsimp only at *
        rw [encodeChar_three (by omega) (by omega) (by unfold Nat.isValidChar; omega)]
        simp only [List.cons_append, List.nil_append, List.cons.injEq, and_true]
        exact ⟨eq_ofNat (by omega), eq_ofNat (by omega), eq_ofNat (by omega)⟩
    | more before fits₂ owed₁ =>
      subst owed
      cases before with
      | first found =>
        subst owed₁
        cases lead_of_lead? found with
        | four same high least most long scalar =>
          have bounds₂ := holds_iff.mp fits₂
          have bounds₁ := continuation_holds_iff.mp fits₁
          have bounds := continuation_holds_iff.mp fits
          dsimp only at *
          rw [encodeChar_four (by omega) (by omega)]
          simp only [List.cons_append, List.nil_append, List.cons.injEq, and_true]
          exact ⟨eq_ofNat (by omega), eq_ofNat (by omega), eq_ofNat (by omega),
            eq_ofNat (by omega)⟩
      | more before _ _ =>
        have positive := before.length_pos
        simp only [List.length_append, List.length_cons, List.length_nil] at short
        omega

/-! ### Whole texts -/

/-- The bytes read since the last character ended. -/
inductive Pending : List UInt8 → Option Unfinished → Prop
  | between : Pending [] none
  | within {read : List UInt8} {begun : Unfinished} (reads : Begun read begun) :
      Pending read (some begun)

theorem map_eq_ok {ε α β : Type} {f : α → β} {x : Except ε α} {y : β} (mapped : f <$> x = .ok y) :
    ∃ a, x = .ok a ∧ f a = y := by
  cases x with
  | error e => cases mapped
  | ok a => exact ⟨a, rfl, Except.ok.inj mapped⟩

theorem map_eq_error {ε α β : Type} {f : α → β} {x : Except ε α} {e : ε}
    (mapped : f <$> x = .error e) : x = .error e := by
  cases x with
  | error _ => rw [Except.error.inj mapped]
  | ok a => cases mapped

theorem eq_encode_of_decodeFrom {index : Nat} {state : Option Unfinished} {bytes read : List UInt8}
    {text : List Char} (pending : Pending read state)
    (decoded : decodeFrom index state bytes = .ok text) : read ++ bytes = encode text := by
  induction bytes generalizing index state read text with
  | nil =>
    cases pending with
    | between =>
      cases decoded
      rfl
    | within reads => cases decoded
  | cons byte rest ih =>
    cases pending with
    | between =>
      simp only [decodeFrom] at decoded
      split at decoded
      · cases decoded
      · rename_i bits found
        obtain ⟨others, remaining, rfl⟩ := map_eq_ok decoded
        cases lead_of_lead? found with
        | one small =>
          have tail := ih .between remaining
          rw [encode, List.flatMap_cons, ← encode, ← tail, encodeChar_one small]
          simp
      · rename_i bits next later found
        exact ih (.within (.first found)) decoded
    | within reads =>
      simp only [decodeFrom] at decoded
      split at decoded
      · rename_i fits
        split at decoded
        · rename_i last
          obtain ⟨others, remaining, rfl⟩ := map_eq_ok decoded
          have tail := ih .between remaining
          rw [encode, List.flatMap_cons, ← encode, ← tail, ← reads.ends fits last]
          simp
        · rename_i next later owed
          simpa using ih (.within (reads.more fits owed)) decoded
      · cases decoded

theorem decode_eq_ok_iff {bytes : List UInt8} {text : List Char} :
    decode bytes = .ok text ↔ bytes = encode text := by
  constructor
  · exact eq_encode_of_decodeFrom .between
  · rintro rfl
    exact decode_encode text

end ScriptState.Utf8

import ScriptState.Proofs.Text.Utf8.Strict

/-!
# The diagnosis of bytes that are no text

`Diagnosis` says what is wrong with bytes that are no text, in terms of characters and their bytes
alone: where the longest text at the front ends, and how much of a character stands there.
`decode_eq_error_iff` says that the reading machine reports just this. `Stop` is what the machine
has in front of it when it stops.
-/

namespace ScriptState.Utf8

/-- The bytes of some characters in a row. -/
def IsText (bytes : List UInt8) : Prop := ∃ text, bytes = encode text

/-- The bytes of a character but for the last ones. -/
def IsCut (bytes : List UInt8) : Prop :=
  bytes ≠ [] ∧ ∃ c, bytes <+: String.utf8EncodeChar c ∧ bytes ≠ String.utf8EncodeChar c

/-- The first bytes, this many, are the longest beginning with the property. -/
structure LongestPrefix (P : List UInt8 → Prop) (bytes : List UInt8) (length : Nat) : Prop where
  within : length ≤ bytes.length
  holds : P (bytes.take length)
  longest : ∀ longer, length < longer → longer ≤ bytes.length → ¬P (bytes.take longer)

def Fault.index : Fault → Nat
  | invalid index _ => index
  | incomplete index => index

/-- What is wrong with bytes that are no text. -/
inductive Diagnosis (bytes : List UInt8) : Fault → Prop
  /-- All that follows the longest text is a character cut short. -/
  | incomplete {index : Nat} (valid : LongestPrefix IsText bytes index)
      (cut : IsCut (bytes.drop index)) : Diagnosis bytes (.incomplete index)
  /-- What follows the longest text begins with a character cut short, and goes on. -/
  | broken {index length : Nat} (valid : LongestPrefix IsText bytes index)
      (uncut : ¬IsCut (bytes.drop index)) (begun : LongestPrefix IsCut (bytes.drop index) length) :
      Diagnosis bytes (.invalid index length)
  /-- What follows the longest text begins no character. -/
  | stray {index : Nat} (valid : LongestPrefix IsText bytes index) (more : bytes.drop index ≠ [])
      (none : ∀ length, ¬IsCut ((bytes.drop index).take length)) :
      Diagnosis bytes (.invalid index 1)

variable {bytes read rest : List UInt8} {begun : Unfinished} {byte : UInt8} {fault : Fault}
  {index : Nat}

/-! ### There is one diagnosis -/

theorem LongestPrefix.le {P : List UInt8 → Prop} {m n : Nat} (first : LongestPrefix P bytes m)
    (second : LongestPrefix P bytes n) : m ≤ n := by
  by_cases within : m ≤ n
  · exact within
  · exact (second.longest m (Nat.lt_of_not_le within) first.within first.holds).elim

theorem LongestPrefix.unique {P : List UInt8 → Prop} {m n : Nat} (first : LongestPrefix P bytes m)
    (second : LongestPrefix P bytes n) : m = n :=
  Nat.le_antisymm (first.le second) (second.le first)

theorem not_isCut_of_take (none : ∀ length, ¬IsCut (bytes.take length)) : ¬IsCut bytes := by
  have whole := none bytes.length
  rwa [List.take_length] at whole

theorem Diagnosis.unique {other : Fault} (first : Diagnosis bytes fault)
    (second : Diagnosis bytes other) : fault = other := by
  cases first with
  | incomplete valid cut =>
    cases second with
    | incomplete again _ => rw [valid.unique again]
    | broken again uncut _ => exact (uncut (valid.unique again ▸ cut)).elim
    | stray again _ none => exact (not_isCut_of_take none (valid.unique again ▸ cut)).elim
  | broken valid uncut begun =>
    cases second with
    | incomplete again cut => exact (uncut (valid.unique again ▸ cut)).elim
    | broken again _ longest =>
      obtain rfl := valid.unique again
      rw [begun.unique longest]
    | stray again _ none => exact (none _ (valid.unique again ▸ begun.holds)).elim
  | stray valid _ none =>
    cases second with
    | incomplete again cut => exact (not_isCut_of_take none (valid.unique again ▸ cut)).elim
    | broken again _ begun => exact (none _ (valid.unique again ▸ begun.holds)).elim
    | stray again _ _ => rw [valid.unique again]

theorem LongestPrefix.not_isText (valid : LongestPrefix IsText bytes index)
    (more : bytes.drop index ≠ []) : ¬IsText bytes := by
  intro text
  have short : index < bytes.length := Nat.lt_of_not_le fun all =>
    more (List.drop_eq_nil_of_le all)
  refine valid.longest bytes.length short (Nat.le_refl _) ?_
  rw [List.take_length]
  exact text

theorem Diagnosis.not_isText (diagnosis : Diagnosis bytes fault) : ¬IsText bytes := by
  cases diagnosis with
  | incomplete valid cut => exact valid.not_isText cut.1
  | broken valid _ cut =>
    refine valid.not_isText fun nothing => cut.holds.1 ?_
    rw [nothing, List.take_nil]
  | stray valid more _ => exact valid.not_isText more

/-! ### What a begun character is -/

theorem Begun.taken_eq (reads : Begun read begun) : begun.taken = read.length := by
  induction reads with
  | first _ => rfl
  | more _ _ _ ih => rw [List.length_append, ← ih]; rfl

theorem lead?_nonempty {bits : Nat} {ranges : List ByteRange}
    (found : lead? byte = some (bits, ranges)) : ∀ range ∈ ranges, range.holds range.first := by
  unfold lead? at found
  dsimp only at found
  generalize byte.toNat = a at found
  -- Each branch lists its ranges, or knows no such byte.
  repeat' split at found
  all_goals first
    | obtain ⟨-, rfl⟩ := Prod.mk.inj (Option.some.inj found)
      decide
    | cases found

/-- No range is empty, so a begun character can be ended. -/
theorem Begun.nonempty (reads : Begun read begun) :
    ∀ range ∈ begun.next :: begun.later, range.holds range.first := by
  induction reads with
  | first found => exact lead?_nonempty found
  | more _ _ owed ih => exact owed ▸ (List.forall_mem_cons.mp ih).2

theorem IsCut.of_start {part : List UInt8} (cut : IsCut bytes) (start : part <+: bytes)
    (some : part ≠ []) : IsCut part := by
  obtain ⟨-, c, begins, proper⟩ := cut
  refine ⟨some, c, start.trans begins, ?_⟩
  rintro rfl
  exact proper (begins.eq_of_length_le start.length_le)

theorem Begun.isCut (reads : Begun read begun) : IsCut read := by
  have next := (List.forall_mem_cons.mp reads.nonempty).1
  have some : read ≠ [] := List.ne_nil_of_length_pos reads.length_pos
  -- The least bytes that may follow end the character. The induction is on the ranges still owed.
  generalize owed : begun.later = ranges
  induction ranges generalizing read begun with
  | nil =>
    have whole := reads.ends next owed
    refine ⟨some, _, whole ▸ List.prefix_append _ _, ?_⟩
    rw [← whole]
    simp
  | cons range later ih =>
    have further := reads.more next owed
    refine (ih further ?_ ?_ rfl).of_start (List.prefix_append _ _) some
    · exact (List.forall_mem_cons.mp further.nonempty).1
    · simp

/-! ### What the machine stops at -/

/-- What the machine has read since the last character and has not read yet, when it reports a
fault. -/
inductive Stop (index : Nat) : List UInt8 → Fault → Prop
  | within {read : List UInt8} {begun : Unfinished} (reads : Begun read begun) :
      Stop index read (.incomplete index)
  | stray {byte : UInt8} {rest : List UInt8} (unknown : lead? byte = none) :
      Stop index (byte :: rest) (.invalid index 1)
  | broken {read rest : List UInt8} {begun : Unfinished} {byte : UInt8} (reads : Begun read begun)
      (refused : begun.next.holds byte = false) :
      Stop index (read ++ byte :: rest) (.invalid index read.length)

/-- The machine stops after some characters. -/
def StopsAfterText (index : Nat) (bytes : List UInt8) (fault : Fault) : Prop :=
  ∃ text rest, bytes = encode text ++ rest ∧ Stop (index + (encode text).length) rest fault

theorem StopsAfterText.cons {c : Char} (whole : read = String.utf8EncodeChar c)
    (stops : StopsAfterText (index + read.length) bytes fault) :
    StopsAfterText index (read ++ bytes) fault := by
  obtain ⟨text, rest, rfl, stop⟩ := stops
  have longer : encode (c :: text) = read ++ encode text := by
    rw [whole, encode, List.flatMap_cons, ← encode]
  refine ⟨c :: text, rest, ?_, ?_⟩
  · rw [longer, List.append_assoc]
  · rw [longer, List.length_append, ← Nat.add_assoc]
    exact stop

theorem stopsAfterText_of_decodeFrom {state : Option Unfinished} (pending : Pending read state)
    (failed : decodeFrom index state bytes = .error fault) :
    StopsAfterText index (read ++ bytes) fault := by
  induction bytes generalizing index state read with
  | nil =>
    cases pending with
    | between => cases failed
    | within reads =>
      cases failed
      exact ⟨[], read, List.append_nil read, .within reads⟩
  | cons byte others ih =>
    cases pending with
    | between =>
      simp only [decodeFrom] at failed
      split at failed
      · rename_i unknown
        cases failed
        exact ⟨[], byte :: others, rfl, .stray unknown⟩
      · rename_i bits found
        have tail := ih .between (map_eq_error failed)
        cases lead_of_lead? found with
        | one small =>
          have whole : [byte] = String.utf8EncodeChar (Char.ofNat byte.toNat) := by
            rw [encodeChar_one small, UInt8.ofNat_toNat]
          show StopsAfterText index ([byte] ++ others) fault
          exact .cons whole tail
      · rename_i bits next later found
        exact ih (.within (.first found)) failed
    | within reads =>
      simp only [decodeFrom] at failed
      split at failed
      · rename_i fits
        split at failed
        · rename_i last
          have tail := ih .between (map_eq_error failed)
          rw [reads.taken_eq] at tail
          rw [List.append_cons]
          refine .cons (reads.ends fits last) ?_
          rw [List.length_append]
          exact tail
        · rename_i next later owed
          simpa using ih (.within (reads.more fits owed)) failed
      · rename_i refused
        cases failed
        refine ⟨[], read ++ byte :: others, rfl, ?_⟩
        rw [reads.taken_eq]
        exact .broken reads (Bool.eq_false_iff.mpr refused)

/-! ### Where the machine stops there is no character -/

theorem decodeFrom_begun (reads : Begun read begun) (index : Nat) (rest : List UInt8) :
    decodeFrom index none (read ++ rest) = decodeFrom index (some begun) rest := by
  induction reads generalizing rest with
  | first found => simp only [List.cons_append, List.nil_append, decodeFrom, found]
  | more _ fits owed ih =>
    rw [← List.append_cons, ih]
    simp only [decodeFrom, fits, owed, if_true]

theorem Stop.decodeFrom_eq (stop : Stop index rest fault) :
    decodeFrom index none rest = .error fault := by
  cases stop with
  | within reads => rw [← List.append_nil rest, decodeFrom_begun reads, decodeFrom]
  | stray unknown => simp only [decodeFrom, unknown]
  | broken reads refused =>
    rw [decodeFrom_begun reads, ← reads.taken_eq]
    simp only [decodeFrom, refused, Bool.false_eq_true, if_false]

theorem Stop.index_eq (stop : Stop index rest fault) : fault.index = index := by
  cases stop <;> rfl

theorem Stop.not_char (stop : Stop index rest fault) (c : Char) :
    ¬String.utf8EncodeChar c <+: rest := by
  rintro ⟨more, rfl⟩
  have failed := stop.decodeFrom_eq
  rw [decodeFrom_encodeChar] at failed
  -- A fault behind the character is reported behind it.
  obtain ⟨text, rest, -, later⟩ := stopsAfterText_of_decodeFrom .between (map_eq_error failed)
  have same := stop.index_eq.symm.trans later.index_eq
  have positive : 0 < (String.utf8EncodeChar c).length :=
    List.length_pos_iff.mpr String.utf8EncodeChar_ne_nil
  omega

theorem not_char_of_unknown (unknown : lead? byte = none) (c : Char) :
    ¬[byte] <+: String.utf8EncodeChar c := by
  intro ⟨rest, whole⟩
  have stop : Stop 0 ([byte] ++ rest) (.invalid 0 1) := .stray unknown
  exact stop.not_char c (whole ▸ List.prefix_rfl)

theorem not_char_of_refused (reads : Begun read begun) (refused : begun.next.holds byte = false)
    (c : Char) : ¬(read ++ [byte]) <+: String.utf8EncodeChar c := by
  intro ⟨rest, whole⟩
  rw [← List.append_cons] at whole
  have stop : Stop 0 (read ++ byte :: rest) (.invalid 0 read.length) := .broken reads refused
  exact stop.not_char c (whole ▸ List.prefix_rfl)

theorem not_isCut_of_start {start : List UInt8} (never : ∀ c, ¬start <+: String.utf8EncodeChar c)
    (within : start <+: bytes) : ¬IsCut bytes := by
  intro ⟨_, c, begins, _⟩
  exact never c (within.trans begins)

theorem isText_of_append {text : List Char} (whole : IsText (encode text ++ bytes)) :
    IsText bytes := by
  induction text with
  | nil => exact whole
  | cons c text ih =>
    obtain ⟨others, same⟩ := whole
    have decoded := decodeFrom_encode 0 others
    rw [← same, encode, List.flatMap_cons, List.append_assoc, decodeFrom_encodeChar] at decoded
    obtain ⟨tail, remaining, -⟩ := map_eq_ok decoded
    have behind : [] ++ (encode text ++ bytes) = encode tail :=
      eq_encode_of_decodeFrom .between remaining
    exact ih ⟨tail, behind⟩

theorem IsText.begins (text : IsText bytes) (some : bytes ≠ []) :
    ∃ c, String.utf8EncodeChar c <+: bytes := by
  obtain ⟨chars, rfl⟩ := text
  cases chars with
  | nil => exact (some rfl).elim
  | cons c others => exact ⟨c, List.prefix_append _ _⟩

theorem Stop.longestPrefix {text : List Char}
    (stop : Stop (encode text).length rest fault) :
    LongestPrefix IsText (encode text ++ rest) (encode text).length where
  within := by simp
  holds := ⟨text, List.take_left⟩
  longest longer beyond within := by
    rw [List.take_append, List.take_of_length_le (Nat.le_of_lt beyond)]
    intro whole
    have some : rest.take (longer - (encode text).length) ≠ [] := by
      rw [List.length_append] at within
      apply List.ne_nil_of_length_pos
      rw [List.length_take]
      omega
    obtain ⟨c, begins⟩ := (isText_of_append whole).begins some
    exact stop.not_char c (begins.trans (List.take_prefix _ _))

theorem Stop.diagnosis {text : List Char} (stop : Stop (encode text).length rest fault) :
    Diagnosis (encode text ++ rest) fault := by
  have valid := stop.longestPrefix
  have left : (encode text ++ rest).drop (encode text).length = rest := List.drop_left
  cases stop with
  | within reads => exact .incomplete valid (left.symm ▸ reads.isCut)
  | stray unknown =>
    refine .stray valid (by rw [left]; simp) fun length => ?_
    rw [left]
    cases length with
    | zero => exact fun cut => cut.1 rfl
    | succ length =>
      refine not_isCut_of_start (not_char_of_unknown unknown) ?_
      exact List.prefix_append [_] _
  | @broken read rest begun byte reads refused =>
    have never := not_char_of_refused reads refused
    refine .broken valid ?_ ⟨?_, ?_, fun longer beyond within => ?_⟩
    · rw [left, List.append_cons]
      exact not_isCut_of_start never (List.prefix_append _ _)
    · rw [left]
      simp
    · rw [left, List.take_left]
      exact reads.isCut
    · rw [left, List.append_cons, List.take_append]
      rw [List.take_of_length_le (by rw [List.length_append]; exact beyond)]
      exact not_isCut_of_start never (List.prefix_append _ _)

theorem diagnosis_of_decode (failed : decode bytes = .error fault) : Diagnosis bytes fault := by
  obtain ⟨text, rest, whole, stop⟩ := stopsAfterText_of_decodeFrom .between failed
  rw [Nat.zero_add] at stop
  rw [show bytes = _ from whole]
  exact stop.diagnosis

/-- The machine reports what is wrong with the bytes, and nothing else. -/
theorem decode_eq_error_iff : decode bytes = .error fault ↔ Diagnosis bytes fault := by
  constructor
  · exact diagnosis_of_decode
  · intro diagnosis
    cases decoded : decode bytes with
    | ok text => exact (diagnosis.not_isText ⟨text, decode_eq_ok_iff.mp decoded⟩).elim
    | error other => rw [(diagnosis_of_decode decoded).unique diagnosis]

/-- Three of the four bytes of a character, before one that does not continue it. -/
example : decode [0x61, 0xf0, 0x9f, 0x98, 0x61] = .error (.invalid 1 3) := by cbv

/-- The same three bytes at the end. -/
example : decode [0x61, 0xf0, 0x9f, 0x98] = .error (.incomplete 1) := by cbv

theorem exists_diagnosis (none : ¬IsText bytes) : ∃ fault, Diagnosis bytes fault := by
  cases decoded : decode bytes with
  | ok text => exact (none ⟨text, decode_eq_ok_iff.mp decoded⟩).elim
  | error fault => exact ⟨fault, diagnosis_of_decode decoded⟩

end ScriptState.Utf8

import Mathlib.Data.List.Forall2
import ScriptState.Text.Quoted

/-!
# Texts that say where they end

A family of texts is self-delimiting if whatever follows one of them, it can be read in one way
only: no text of the family goes on as another. Numbers are so up to a character that they do not
contain, quoted characters and quoted text by themselves (`selfDelimiting_quoteChars`), and lists
if their items are.
-/

namespace ScriptState

/-- The text tells what it stands for, up to `same`, and where it ends. -/
def SelfDelimiting {α : Type} (same : α → α → Prop) (text : α → List Char) : Prop :=
  ∀ a b rest other, text a ++ rest = text b ++ other → same a b ∧ rest = other

/-- Runs of characters of one kind, each followed by none or by a character of another kind. -/
theorem run_append_inj {p : Char → Prop} {run other rest more : List Char}
    (runs : ∀ c ∈ run, p c) (otherRuns : ∀ c ∈ other, p c)
    (stops : ∀ c ∈ rest.head?, ¬p c) (otherStops : ∀ c ∈ more.head?, ¬p c)
    (same : run ++ rest = other ++ more) : run = other ∧ rest = more := by
  induction run generalizing other with
  | nil =>
    cases other with
    | nil => exact ⟨rfl, same⟩
    | cons c other =>
      rw [List.nil_append] at same
      subst same
      exact absurd (otherRuns c List.mem_cons_self) (stops c rfl)
  | cons c run ih =>
    cases other with
    | nil =>
      rw [List.nil_append] at same
      subst same
      exact absurd (runs c List.mem_cons_self) (otherStops c rfl)
    | cons d other =>
      obtain ⟨rfl, tails⟩ := List.cons.inj same
      obtain ⟨rfl, rest⟩ := ih (fun c member => runs c (List.mem_cons_of_mem _ member))
        (fun c member => otherRuns c (List.mem_cons_of_mem _ member)) tails
      exact ⟨rfl, rest⟩

namespace SelfDelimiting

variable {α β : Type} {same : α → α → Prop} {sameOther : β → β → Prop}
  {text : α → List Char} {textOther : β → List Char}

theorem same_of_eq (delimiting : SelfDelimiting same text) {a b : α} (eq : text a = text b) :
    same a b :=
  (delimiting a b [] [] (congrArg (· ++ []) eq)).1

theorem preceded (delimiting : SelfDelimiting same text) (before : List Char) :
    SelfDelimiting same fun a => before ++ text a := by
  intro a b rest other eq
  rw [List.append_assoc, List.append_assoc] at eq
  exact delimiting a b rest other (List.append_cancel_left eq)

theorem followed (delimiting : SelfDelimiting same text) (after : List Char) :
    SelfDelimiting same fun a => text a ++ after := by
  intro a b rest other eq
  rw [List.append_assoc, List.append_assoc] at eq
  obtain ⟨agree, eq⟩ := delimiting a b _ _ eq
  exact ⟨agree, List.append_cancel_left eq⟩

/-- A text with another behind it, which is read in the light of the first. -/
theorem append_of {key : β → α} {sameBoth : β → β → Prop} (delimiting : SelfDelimiting Eq text)
    (following : ∀ a b, key a = key b → ∀ rest other,
      textOther a ++ rest = textOther b ++ other → sameBoth a b ∧ rest = other) :
    SelfDelimiting sameBoth fun a => text (key a) ++ textOther a := by
  intro a b rest other eq
  rw [List.append_assoc, List.append_assoc] at eq
  obtain ⟨keys, eq⟩ := delimiting (key a) (key b) _ _ eq
  exact following a b keys rest other eq

/-- One text after the other. -/
theorem append (delimiting : SelfDelimiting same text)
    (following : SelfDelimiting sameOther textOther) :
    SelfDelimiting (fun a b : α × β => same a.1 b.1 ∧ sameOther a.2 b.2)
      fun a => text a.1 ++ textOther a.2 := by
  intro a b rest other eq
  rw [List.append_assoc, List.append_assoc] at eq
  obtain ⟨agree, eq⟩ := delimiting a.1 b.1 _ _ eq
  obtain ⟨agreeOther, eq⟩ := following a.2 b.2 _ _ eq
  exact ⟨⟨agree, agreeOther⟩, eq⟩

/-- Texts without a character end at that character. -/
theorem upTo (stop : Char) (avoids : ∀ a, stop ∉ text a)
    (same_of_eq : ∀ a b, text a = text b → same a b) :
    SelfDelimiting same fun a => text a ++ [stop] := by
  intro a b rest other eq
  rw [List.append_assoc, List.append_assoc] at eq
  have stops : ∀ rest : List Char, ∀ c ∈ ([stop] ++ rest).head?, ¬c ≠ stop := by
    rintro rest c ⟨⟩ ne
    exact ne rfl
  obtain ⟨agree, eq⟩ := run_append_inj (p := (· ≠ stop))
    (fun c member => ne_of_mem_of_not_mem member (avoids a))
    (fun c member => ne_of_mem_of_not_mem member (avoids b)) (stops rest) (stops other) eq
  exact ⟨same_of_eq a b agree, List.append_cancel_left eq⟩

/-- Texts one after the other, up to a character that none of them starts with. -/
theorem flatMap (delimiting : SelfDelimiting same text) (stop : Char)
    (starts : ∀ a rest other, text a ++ rest ≠ stop :: other) :
    SelfDelimiting (List.Forall₂ same) fun list => list.flatMap text ++ [stop] := by
  intro list
  induction list with
  | nil =>
    rintro (_ | ⟨b, others⟩) rest other eq
    · exact ⟨.nil, List.append_cancel_left eq⟩
    · simp only [List.flatMap_cons, List.append_assoc] at eq
      exact absurd eq.symm (starts b _ _)
  | cons a list ih =>
    rintro (_ | ⟨b, others⟩) rest other eq
    · simp only [List.flatMap_cons, List.append_assoc] at eq
      exact absurd eq (starts a _ _)
    · simp only [List.flatMap_cons, List.append_assoc] at eq
      obtain ⟨agree, eq⟩ := delimiting a b _ _ eq
      obtain ⟨agrees, eq⟩ := ih others rest other (by simpa only [List.append_assoc] using eq)
      exact ⟨.cons agree agrees, eq⟩

theorem intercalate_cons (separator : List Char) (a : α) (list : List α) :
    separator.intercalate ((a :: list).map text) =
      text a ++ list.flatMap fun b => separator ++ text b := by
  induction list generalizing a with
  | nil => exact List.intercalate_singleton.trans (List.append_nil _).symm
  | cons b list ih =>
    rw [List.map_cons, List.map_cons, List.intercalate_cons_cons, ← List.map_cons, ih,
      List.flatMap_cons, List.append_assoc, List.append_assoc]

/-- Items between commas, up to a bracket that none of them starts with. -/
theorem intercalate (delimiting : SelfDelimiting same text)
    (starts : ∀ a rest other, text a ++ rest ≠ ']' :: other) :
    SelfDelimiting (List.Forall₂ same) fun list =>
      [',', ' '].intercalate (list.map text) ++ [']'] := by
  have following := (delimiting.preceded [',', ' ']).flatMap ']' fun a rest other eq =>
    absurd (List.cons.inj eq).1 (by decide)
  rintro (_ | ⟨a, list⟩) (_ | ⟨b, more⟩) rest other eq
  · exact ⟨.nil, List.append_cancel_left eq⟩
  · simp only [intercalate_cons, List.append_assoc] at eq
    exact absurd eq.symm (starts b _ _)
  · simp only [intercalate_cons, List.append_assoc] at eq
    exact absurd eq (starts a _ _)
  · simp only [intercalate_cons, List.append_assoc] at eq
    obtain ⟨agree, eq⟩ := delimiting a b _ _ eq
    obtain ⟨agrees, eq⟩ := following list more rest other
      (by simpa only [List.append_assoc] using eq)
    exact ⟨.cons agree agrees, eq⟩

end SelfDelimiting

/-! ### Digits -/

section Digits

variable {b m n : Nat} {c : Char}

theorem exists_of_mem_toDigits (base : 1 < b) (member : c ∈ Nat.toDigits b n) :
    ∃ k, k < b ∧ c = Nat.digitChar k := by
  induction n using Nat.strongRecOn with
  | ind n ih =>
    rcases Nat.lt_or_ge n b with less | ge
    · rw [Nat.toDigits_of_lt_base less, List.mem_singleton] at member
      exact ⟨n, less, member⟩
    · rw [Nat.toDigits_of_base_le base ge, List.mem_append, List.mem_singleton] at member
      rcases member with before | last
      · exact ih (n / b) (Nat.div_lt_self (by omega) base) before
      · exact ⟨n % b, Nat.mod_lt n (by omega), last⟩

theorem digitChar_inj : ∀ m < 16, ∀ n < 16, Nat.digitChar m = Nat.digitChar n → m = n := by
  decide

theorem toDigits_inj (base : 1 < b) (atMost : b ≤ 16) (same : Nat.toDigits b m = Nat.toDigits b n) :
    m = n := by
  have digit : ∀ {m n}, m < b → n < b → Nat.digitChar m = Nat.digitChar n → m = n :=
    fun less lessOther => digitChar_inj _ (by omega) _ (by omega)
  induction m using Nat.strongRecOn generalizing n with
  | ind m ih =>
    rw [Nat.toDigits_eq_if base, Nat.toDigits_eq_if (n := n) base] at same
    split at same <;> split at same
    · exact digit ‹_› ‹_› (List.cons.inj same).1
    · have lengths := congrArg List.length same
      have some := Nat.length_toDigits_pos (b := b) (n := n / b)
      simp only [List.length_append, List.length_singleton] at lengths
      omega
    · have lengths := congrArg List.length same
      have some := Nat.length_toDigits_pos (b := b) (n := m / b)
      simp only [List.length_append, List.length_singleton] at lengths
      omega
    · obtain ⟨before, last⟩ := List.append_inj' same rfl
      have quotients := ih (m / b) (Nat.div_lt_self (by omega) base) before
      have remainders := digit (Nat.mod_lt m (by omega)) (Nat.mod_lt n (by omega))
        (List.cons.inj last).1
      rw [← Nat.div_add_mod m b, quotients, remainders, Nat.div_add_mod]

end Digits

/-! ### Quoted text -/

/-- The character that a short escape stands for. -/
def unescape? : Char → Option Char
  | '"' => some '"'
  | '\\' => some '\\'
  | 'n' => some '\n'
  | 'r' => some '\r'
  | 't' => some '\t'
  | '0' => some '\x00'
  | _ => none

/-- The three ways to write a character between quotes. -/
inductive WritesQuoted (c : Char) : List Char → Prop
  | itself (noEscape : c ≠ '\\') (noQuote : c ≠ '"') : WritesQuoted c [c]
  | short (letter : Char) (stands : unescape? letter = some c) : WritesQuoted c ['\\', letter]
  | number : WritesQuoted c (['\\', 'u', '{'] ++ hexChars c ++ ['}'])

theorem writesQuoted_quoteChar (c : Char) : WritesQuoted c (quoteChar c) := by
  unfold quoteChar
  split
  · exact .short '"' rfl
  · exact .short '\\' rfl
  · exact .short 'n' rfl
  · exact .short 'r' rfl
  · exact .short 't' rfl
  · exact .short '0' rfl
  · rename_i noQuote noEscape _ _ _ _
    split
    · exact .number
    · exact .itself noEscape noQuote

theorem selfDelimiting_hexChars : SelfDelimiting Eq fun c => hexChars c ++ ['}'] := by
  refine .upTo '}' (fun c member => ?_) fun c d same => ?_
  · obtain ⟨k, digit, brace⟩ := exists_of_mem_toDigits (by decide) member
    exact (by decide : ∀ k < 16, '}' ≠ Nat.digitChar k) k digit brace
  · exact Char.toNat_inj.mp (toDigits_inj (by decide) (by decide) same)

theorem selfDelimiting_quoteChar : SelfDelimiting Eq quoteChar := by
  intro c d rest other eq
  have left := writesQuoted_quoteChar c
  have right := writesQuoted_quoteChar d
  generalize quoteChar c = written at eq left
  generalize quoteChar d = writtenOther at eq right
  cases left with
  | itself noEscape noQuote =>
    cases right with
    | itself => exact List.cons.inj eq
    | short | number => exact absurd (List.cons.inj eq).1 noEscape
  | short letter stands =>
    cases right with
    | itself noEscape => exact absurd (List.cons.inj eq).1.symm noEscape
    | short letterOther standsOther =>
      obtain ⟨rfl, tail⟩ := List.cons.inj (List.cons.inj eq).2
      exact ⟨Option.some.inj (stands.symm.trans standsOther), tail⟩
    | number =>
      obtain ⟨rfl, -⟩ := List.cons.inj (List.cons.inj eq).2
      contradiction
  | number =>
    cases right with
    | itself noEscape => exact absurd (List.cons.inj eq).1.symm noEscape
    | short letter stands =>
      obtain ⟨rfl, -⟩ := List.cons.inj (List.cons.inj eq).2
      contradiction
    | number =>
      exact selfDelimiting_hexChars.preceded ['\\', 'u', '{'] c d rest other eq

theorem selfDelimiting_quoteChars : SelfDelimiting Eq quoteChars := by
  have characters := selfDelimiting_quoteChar.flatMap '"' fun c rest other eq => by
    have written := writesQuoted_quoteChar c
    generalize quoteChar c = text at eq written
    cases written with
    | itself _ noQuote => exact noQuote (List.cons.inj eq).1
    | short | number => exact absurd (List.cons.inj eq).1 (by decide)
  rw [List.forall₂_eq_eq_eq] at characters
  exact characters.preceded ['"']

end ScriptState

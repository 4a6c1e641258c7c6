import ScriptState.Proofs.Value.FloatText
import ScriptState.Scope.Snapshot

/-!
# Inspection text is unambiguous

The inspection text of a value tells its kind and payload, that of a snapshot its version, names and
values (`inspect_eq_iff`): every part of it says where it ends, whatever characters a string
contains. Only NaNs look alike.
-/

namespace ScriptState

open Number (Binary32 natText intText digitChars)

/-! ### Values -/

namespace Value

/-- The same kind and payload, bit for bit; all NaNs are one. -/
def Same : Value → Value → Prop
  | float x, float y => x.Same y
  | v, w => v = w

/-! What stands between the parentheses ends at the closing one, which only a string can contain,
and a string ends by itself. -/

theorem selfDelimiting_boolText : SelfDelimiting Eq fun b => (boolText b).toList ++ [')'] := by
  refine .upTo ')' ?_ ?_
  · decide
  · decide

theorem selfDelimiting_intText :
    SelfDelimiting Eq fun n : Int32 => (intText n.toInt).toList ++ [')'] := by
  refine .upTo ')' (fun n member => ?_) fun m n same => ?_
  · rcases Number.mem_intText member with minus | digit
    · exact absurd minus (by decide)
    · exact absurd digit (by decide)
  · exact Int32.toInt_inj.mp (Number.intText_inj same)

theorem paren_not_mem_inspect (x : Binary32) : ')' ∉ x.inspect.toList := by
  rw [x.inspect_eq_spell]
  cases number : x.isNaN with
  | true =>
    rw [Binary32.spell, if_pos number]
    decide
  | false =>
    cases finite : x.isInfinite with
    | true =>
      rw [Binary32.spell, number, finite, if_neg Bool.false_ne_true, if_pos rfl, Binary32.signed,
        String.toList_ofList]
      cases x.negative <;> decide
    | false =>
      rw [Binary32.spell_of_isFinite (Binary32.isFinite_of_not number finite)
        x.negative_inspectNumeral, Number.Numeral.text, String.toList_ofList]
      intro member
      rcases Number.Numeral.mem_chars x.wellFormed_inspectNumeral member with digit | other
      · exact absurd digit (by decide)
      · exact absurd other (by decide)

theorem selfDelimiting_floatText :
    SelfDelimiting Binary32.Same fun x => x.inspect.toList ++ [')'] :=
  .upTo ')' paren_not_mem_inspect fun _ _ same =>
    Binary32.inspect_inj (String.toList_injective same)

theorem selfDelimiting_quote : SelfDelimiting Eq fun text : String => (quote text).toList := by
  intro a b rest other eq
  simp only [quote, String.toList_ofList] at eq
  exact (selfDelimiting_quoteChars a.toList b.toList rest other eq).imp_left
    String.toList_injective

def Kind.label : Kind → List Char
  | bool => ['B', 'o', 'o', 'l']
  | int => ['I', 'n', 't']
  | float => ['F', 'l', 'o', 'a', 't']
  | str => ['S', 't', 'r']

def payload : Value → List Char
  | bool b => (boolText b).toList
  | int n => (intText n.toInt).toList
  | float x => x.inspect.toList
  | str text => (quote text).toList

theorem toList_inspect (v : Value) :
    v.inspect.toList = v.kind.label ++ ['('] ++ (v.payload ++ [')']) := by
  cases v <;> simp only [inspect, String.toList_append, List.append_assoc] <;> rfl

theorem selfDelimiting_label : SelfDelimiting Eq fun k : Kind => k.label ++ ['('] := by
  refine .upTo '(' (fun k => ?_) fun k l same => ?_
  · cases k <;> decide
  · cases k <;> cases l <;> first | rfl | exact absurd same (by decide)

/-- Of values of one kind the payload tells the value. -/
theorem payload_delimits (v w : Value) (kinds : v.kind = w.kind) (rest other : List Char)
    (eq : v.payload ++ [')'] ++ rest = w.payload ++ [')'] ++ other) :
    v.Same w ∧ rest = other := by
  cases v with
  | bool b =>
    cases w with
    | bool d => exact (selfDelimiting_boolText b d rest other eq).imp_left (congrArg bool)
    | int | float | str => contradiction
  | int n =>
    cases w with
    | int m => exact (selfDelimiting_intText n m rest other eq).imp_left (congrArg int)
    | bool | float | str => contradiction
  | float x =>
    cases w with
    | float y => exact selfDelimiting_floatText x y rest other eq
    | bool | int | str => contradiction
  | str text =>
    cases w with
    | str more =>
      exact (selfDelimiting_quote.followed _ text more rest other eq).imp_left (congrArg str)
    | bool | int | float => contradiction

theorem selfDelimiting_inspect : SelfDelimiting Same fun v => v.inspect.toList := by
  simp only [toList_inspect]
  exact selfDelimiting_label.append_of payload_delimits

theorem Same.inspect_eq {v w : Value} (same : v.Same w) : v.inspect = w.inspect := by
  cases v with
  | float x =>
    cases w with
    | float y =>
      exact congrArg (fun text => "Float(" ++ text ++ ")") (Binary32.Same.inspect_eq same)
    | bool | int | str => contradiction
  | bool | int | str => exact congrArg inspect same

end Value

/-! ### Snapshots -/

namespace Snapshot

theorem toList_listText (items : List String) :
    (listText items).toList =
      ['['] ++ ([',', ' '].intercalate (items.map String.toList) ++ [']']) := by
  rw [listText, String.toList_append, String.toList_append, String.toList_intercalate,
    List.append_assoc]
  rfl

theorem selfDelimiting_version :
    SelfDelimiting Eq fun version : UInt32 => digitChars version.toNat ++ [','] := by
  refine .upTo ',' (fun version member => ?_) fun v w same => ?_
  · exact absurd (Number.isDigit_of_mem_digitChars member) (by decide)
  · exact UInt32.toNat_inj.mp (Number.digitChars_inj same)

theorem selfDelimiting_names : SelfDelimiting Eq fun names : List String =>
    [',', ' '].intercalate (names.map fun name => (quote name).toList) ++ [']'] := by
  have items := Value.selfDelimiting_quote.intercalate fun name rest other eq => by
    simp only [quote, String.toList_ofList] at eq
    exact absurd (List.cons.inj eq).1 (by decide)
  rwa [List.forall₂_eq_eq_eq] at items

theorem selfDelimiting_values : SelfDelimiting (List.Forall₂ Value.Same) fun values =>
    [',', ' '].intercalate (values.map fun v => v.inspect.toList) ++ [']'] := by
  refine Value.selfDelimiting_inspect.intercalate fun v rest other eq => ?_
  rw [Value.toList_inspect] at eq
  generalize v.kind = kind at eq
  cases kind <;> exact absurd (List.cons.inj eq).1 (by decide)

/-- The three parts, each with what is in front of it. -/
theorem toList_inspect (p : Snapshot) : p.inspect.toList =
    "ScopeSnapshot \x7b version: ".toList ++ (digitChars p.version.toNat ++ [',']) ++
      (" names: [".toList ++
          ([',', ' '].intercalate (p.names.map fun name => (quote name).toList) ++ [']']) ++
        (", values: [".toList ++
          ([',', ' '].intercalate (p.values.map fun v => v.inspect.toList) ++ [']']))) ++
      " \x7d".toList := by
  have names : ", names: ".toList ++ ['['] = [','] ++ " names: [".toList := by decide +kernel
  have values : ", values: ".toList ++ ['['] = ", values: [".toList := by decide +kernel
  have label : ∀ rest, ", names: ".toList ++ (['['] ++ rest) =
      [','] ++ (" names: [".toList ++ rest) := by
    intro rest
    rw [← List.append_assoc, names, List.append_assoc]
  unfold inspect
  simp only [String.toList_append, toList_listText, natText, String.toList_ofList, List.map_map,
    ← values, List.append_assoc, label]
  rfl

/-- The versions are equal, the names are, and so are the values up to NaNs. -/
def SameParts (p q : Snapshot) : Prop :=
  p.version = q.version ∧ p.names = q.names ∧ List.Forall₂ Value.Same p.values q.values

theorem sameParts_of_inspect_eq {p q : Snapshot} (same : p.inspect = q.inspect) :
    p.SameParts q := by
  have chars := congrArg String.toList same
  rw [toList_inspect, toList_inspect] at chars
  have parts := (selfDelimiting_version.preceded "ScopeSnapshot \x7b version: ".toList).append
    ((selfDelimiting_names.preceded " names: [".toList).append
      (selfDelimiting_values.preceded ", values: [".toList))
  exact (parts (p.version, p.names, p.values) (q.version, q.names, q.values) _ _ chars).1

theorem forall₂_map_inspect {vs ws : List Value} (same : List.Forall₂ Value.Same vs ws) :
    vs.map Value.inspect = ws.map Value.inspect := by
  induction same with
  | nil => rfl
  | cons head _ ih => exact List.cons_eq_cons.mpr ⟨head.inspect_eq, ih⟩

theorem SameParts.inspect_eq {p q : Snapshot} (same : p.SameParts q) : p.inspect = q.inspect := by
  obtain ⟨version, names, values⟩ := same
  unfold inspect
  rw [version, names, forall₂_map_inspect values]

end Snapshot

/-- Two values have the same inspection text exactly if they are the same, and so do two
snapshots, whatever their strings contain. -/
theorem inspect_eq_iff :
    (∀ v w : Value, v.inspect = w.inspect ↔ v.Same w) ∧
      ∀ p q : Snapshot, p.inspect = q.inspect ↔ p.version = q.version ∧ p.names = q.names ∧
        List.Forall₂ Value.Same p.values q.values :=
  ⟨fun _ _ => ⟨fun same => Value.selfDelimiting_inspect.same_of_eq (congrArg String.toList same),
      Value.Same.inspect_eq⟩,
    fun _ _ => ⟨Snapshot.sameParts_of_inspect_eq, Snapshot.SameParts.inspect_eq⟩⟩

/-- One name that looks like two. -/
example : (Snapshot.mk 1 ["x\", \"y"] []).inspect ≠ (Snapshot.mk 1 ["x", "y"] []).inspect := by
  decide +kernel

end ScriptState

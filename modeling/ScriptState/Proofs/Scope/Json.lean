import ScriptState.Json.Scope
import ScriptState.Proofs.Scope.Refusal

/-!
# Scopes through JSON

JSON has a number for every float but the infinities and the NaNs. A scope without these comes back
from its JSON tree as it was, and a scope with one of them does not come back at all
(`json_round_trip`). For snapshots without them all ways to a scope, through bytes and through
JSON, are ways through `Snapshot.toScope` (`entrances_agree`).
-/

namespace ScriptState

open Number (Binary32 Binary64)
open Sized (Fits)

/-! ### Lists that are read item by item -/

theorem mapM_eq_some_self {α : Type} {f : α → Option α} {xs : List α}
    (kept : ∀ x ∈ xs, f x = some x) : xs.mapM f = some xs := by
  induction xs with
  | nil => rfl
  | cons x xs ih =>
    obtain ⟨first, others⟩ := List.forall_mem_cons.mp kept
    rw [List.mapM_cons, first, ih others]
    rfl

theorem mapM_eq_none {α β : Type} {f : α → Option β} {xs : List α} {x : α} (member : x ∈ xs)
    (failed : f x = none) : xs.mapM f = none := by
  induction xs with
  | nil => cases member
  | cons y xs ih =>
    rw [List.mapM_cons]
    rcases List.mem_cons.mp member with rfl | later
    · rw [failed]
      rfl
    · rw [ih later]
      cases f y <;> rfl

theorem Json.field?_of_mem {fields : List (String × Json)} {key : String} {j : Json}
    (distinct : (fields.map Prod.fst).Nodup) (member : (key, j) ∈ fields) :
    Json.field? fields key = some j := by
  induction fields with
  | nil => cases member
  | cons field rest ih =>
    obtain ⟨other, k⟩ := field
    obtain ⟨new, distinct⟩ := List.nodup_cons.mp distinct
    rcases List.mem_cons.mp member with same | later
    · cases same
      simp [Json.field?]
    · have different : other ≠ key := by
        rintro rfl
        exact new (List.mem_map.mpr ⟨_, later, rfl⟩)
      have found := ih distinct later
      unfold Json.field? at found ⊢
      rw [List.find?_cons_of_neg (by simpa using different)]
      exact found

/-! ### Values -/

namespace Value

/-- No infinity and no NaN. -/
def isFinite : Value → Bool
  | float x => x.isFinite
  | _ => true

variable {v : Value}

theorem ofJson?_toJson (finite : v.isFinite = true) : ofJson? v.toJson = some v := by
  cases v with
  | bool b => rfl
  | int n =>
    change int <$> int32? n.toInt = _
    rw [int32?_toInt]
    rfl
  | float x =>
    have finite : x.isFinite = true := finite
    rw [toJson, if_pos finite]
    change some (float x.widen.narrow) = _
    rw [Binary32.narrow_widen finite]
  | str text => rfl

theorem ofJson?_toJson_eq_none (infinite : v.isFinite = false) : ofJson? v.toJson = none := by
  cases v with
  | float x =>
    have infinite : x.isFinite = false := infinite
    rw [toJson, infinite]
    rfl
  | _ => cases infinite

end Value

/-! ### Snapshots -/

namespace Snapshot

/-- The three parts, each with its key. -/
def jsonFields (p : Snapshot) : List (String × Json) := [
  ("version", .number (.int p.version.toNat)),
  ("names", .array (p.names.map .text)),
  ("values", .array (p.values.map Value.toJson))]

variable {p : Snapshot} {fields : List (String × Json)}

theorem toJson_eq (p : Snapshot) : p.toJson = .object p.jsonFields := rfl

theorem nodup_keys (p : Snapshot) : (p.jsonFields.map Prod.fst).Nodup := by
  change ["version", "names", "values"].Nodup
  decide

theorem version?_int (n : Int) :
    version? (.number (.int n)) =
      if 0 ≤ n ∧ n < 0x100000000 then some (.ofNat n.toNat) else none := rfl

theorem version?_toNat (n : UInt32) : version? (.number (.int n.toNat)) = some n := by
  have less := n.toNat_lt
  rw [version?_int, if_pos ⟨by omega, by omega⟩, Int.toNat_natCast, UInt32.ofNat_toNat]

theorem texts?_texts (names : List String) :
    (names.map Json.text).mapM Json.text? = some names := by
  rw [List.mapM_map]
  exact mapM_eq_some_self fun _ _ => rfl

theorem ofParts?_eq_some (finite : ∀ v ∈ p.values, v.isFinite = true) :
    ofParts? (.number (.int p.version.toNat)) (.array (p.names.map .text))
      (.array (p.values.map Value.toJson)) = some p := by
  have values : (p.values.map Value.toJson).mapM Value.ofJson? = some p.values := by
    rw [List.mapM_map]
    exact mapM_eq_some_self fun v member => Value.ofJson?_toJson (finite v member)
  simp only [ofParts?, version?_toNat, Json.array?, texts?_texts, values, bind, Option.bind_some]

theorem ofParts?_eq_none {v : Value} (member : v ∈ p.values) (infinite : v.isFinite = false)
    (version names : Json) :
    ofParts? version names (.array (p.values.map Value.toJson)) = none := by
  have values : (p.values.map Value.toJson).mapM Value.ofJson? = none := by
    rw [List.mapM_map]
    exact mapM_eq_none member (Value.ofJson?_toJson_eq_none infinite)
  simp only [ofParts?, Json.array?, values, bind, Option.bind_some, Option.bind_none,
    Option.bind_fun_none]

theorem ofJson?_parts (version names values : Json) :
    ofJson? (.array [version, names, values]) = ofParts? version names values := rfl

theorem ofJson?_fields {version names values : Json}
    (hasVersion : Json.field? fields "version" = some version)
    (hasNames : Json.field? fields "names" = some names)
    (hasValues : Json.field? fields "values" = some values) :
    ofJson? (.object fields) = ofParts? version names values := by
  simp only [ofJson?, hasVersion, hasNames, hasValues, bind, Option.bind_some]

/-- Objects are read by their keys, whatever the order and whatever else they hold. -/
theorem ofJson?_object (distinct : (fields.map Prod.fst).Nodup) (included : p.jsonFields ⊆ fields) :
    ofJson? (.object fields) = ofJson? (.array (p.jsonFields.map Prod.snd)) := by
  have found (field : String × Json) (member : field ∈ p.jsonFields) :
      Json.field? fields field.1 = some field.2 := Json.field?_of_mem distinct (included member)
  rw [jsonFields, List.forall_mem_cons, List.forall_mem_cons, List.forall_mem_singleton] at found
  obtain ⟨version, names, values⟩ := found
  rw [ofJson?_fields version names values, jsonFields, List.map_cons, List.map_cons, List.map_cons,
    List.map_nil, ofJson?_parts]

theorem ofJson?_toJson (finite : ∀ v ∈ p.values, v.isFinite = true) :
    ofJson? p.toJson = some p := by
  rw [toJson_eq, ofJson?_object p.nodup_keys (List.Subset.refl _)]
  exact ofParts?_eq_some finite

theorem ofJson?_toJson_eq_none {v : Value} (member : v ∈ p.values)
    (infinite : v.isFinite = false) : ofJson? p.toJson = none := by
  rw [toJson_eq, ofJson?_object p.nodup_keys (List.Subset.refl _)]
  exact ofParts?_eq_none member infinite _ _

end Snapshot

/-! ### Scopes -/

namespace Scope

variable {s : Scope} {j : Json}

theorem ofJson?_eq_some_iff :
    Scope.ofJson? j = some s ↔ ∃ p, Snapshot.ofJson? j = some p ∧ p.toScope = .ok s := by
  unfold Scope.ofJson?
  rw [Option.bind_eq_bind, Option.bind_eq_some_iff]
  refine exists_congr fun p => and_congr_right fun _ => ?_
  cases p.toScope <;> simp [Except.toOption]

theorem ofJson?_eq_none_of_unread (unread : Snapshot.ofJson? j = none) :
    Scope.ofJson? j = none := by
  unfold Scope.ofJson?
  rw [unread]
  rfl

theorem mem_values_snapshot {v : Value} :
    v ∈ s.snapshot.values ↔ ∃ name, s.get? name = some v := by
  rw [snapshot_eq, Snapshot.ofEntries, List.mem_map]
  constructor
  · rintro ⟨⟨name, _⟩, member, rfl⟩
    exact ⟨name, mem_entries.mp member⟩
  · rintro ⟨name, found⟩
    exact ⟨(name, v), mem_entries.mpr found, rfl⟩

/-- In JSON a scope is its version, its names in ascending order and their values. A finite float
is written as the number it is, wider, and any other as `null`. Read back it is the same scope if
all its floats are finite, and no scope at all if one is not. -/
theorem json_round_trip (s : Scope) :
    s.toJson = .object [
        ("version", .number (.int 1)),
        ("names", .array ((s.entries.map Prod.fst).map .text)),
        ("values", .array ((s.entries.map Prod.snd).map Value.toJson))] ∧
      Ascending (s.entries.map Prod.fst) ∧
      (∀ x : Binary32, x.isFinite = true →
        (Value.float x).toJson = .object [("Float", .number (.real x.widen))] ∧
          x.widen.negative = x.negative ∧ x.widen.units = x.units * Binary64.perUnit32) ∧
      (∀ x : Binary32, x.isFinite = false →
        (Value.float x).toJson = .object [("Float", .null)]) ∧
      ((∀ name v, s.get? name = some v → v.isFinite = true) → Scope.ofJson? s.toJson = some s) ∧
      ∀ name v, s.get? name = some v → v.isFinite = false → Scope.ofJson? s.toJson = none := by
  refine ⟨rfl, s.entries_ascending, ?_, ?_, ?_, ?_⟩
  · intro x finite
    obtain ⟨-, sign, units⟩ := Binary32.widen_exact finite
    rw [Value.toJson, if_pos finite]
    exact ⟨rfl, sign, units⟩
  · intro x infinite
    rw [Value.toJson, infinite]
    rfl
  · intro finite
    have written : ∀ v ∈ s.snapshot.values, v.isFinite = true := by
      intro v member
      obtain ⟨name, found⟩ := mem_values_snapshot.mp member
      exact finite name v found
    exact ofJson?_eq_some_iff.mpr
      ⟨s.snapshot, Snapshot.ofJson?_toJson written, Snapshot.toScope_snapshot s⟩
  · intro name v found infinite
    have member : v ∈ s.snapshot.values := mem_values_snapshot.mpr ⟨name, found⟩
    exact ofJson?_eq_none_of_unread (Snapshot.ofJson?_toJson_eq_none member infinite)

theorem json_round_trip_least_and_infinite :
    let least := empty.set "x" (.float ⟨0x80000001⟩)
    let infinite := least.set "y" (.float (.infinity false))
    Scope.ofJson? least.toJson = some least ∧ Scope.ofJson? infinite.toJson = none := by
  intro least infinite
  obtain ⟨-, -, -, -, kept, -⟩ := json_round_trip least
  obtain ⟨-, -, -, -, -, lost⟩ := json_round_trip infinite
  constructor
  · apply kept
    intro name v found
    rw [get?_set, get?_empty] at found
    split at found
    · cases found
      decide
    · cases found
  · apply lost "y" (.float (.infinity false))
    · rw [get?_set, if_pos rfl]
    · decide

/-- Every way to a scope from the parts of a snapshot goes through the same checks: reading its
bytes as a scope or as a part of a larger structure, and, if all floats are finite, reading a JSON
object with the three fields among others or a list of the three. So none lets in another version,
lengths that differ or a repeated name. -/
theorem entrances_agree (p : Snapshot) :
    (Fits p → ∀ s,
      (Scope.decode (ScriptState.encode p) = .ok s ↔ p.toScope = .ok s) ∧
        (ScriptState.decode (ScriptState.encode p) = .ok s ↔ p.toScope = .ok s)) ∧
      ((∀ v ∈ p.values, v.isFinite = true) → ∀ s,
        (∀ fields, (fields.map Prod.fst).Nodup → p.jsonFields ⊆ fields →
          (Scope.ofJson? (.object fields) = some s ↔ p.toScope = .ok s)) ∧
        (Scope.ofJson? (.array (p.jsonFields.map Prod.snd)) = some s ↔ p.toScope = .ok s)) ∧
      ((∃ s, p.toScope = .ok s) ↔
        p.version = 1 ∧ p.names.length = p.values.length ∧ p.names.Nodup) := by
  refine ⟨fun fits s => ⟨?_, ?_⟩, fun finite s => ?_, Snapshot.exists_toScope_iff⟩
  · rw [decode_eq_ok_iff_toScope, ScriptState.decode_encode fits]
    simp only [Except.ok.injEq, exists_eq_left']
  · have found : SavedForm.read (ScriptState.encode p) = .ok (p, []) :=
      Canonical.read_eq_ok_iff.mpr ⟨fits, (List.append_nil _).symm⟩
    rw [decode_eq_ok_iff_read, read_eq_ok_iff, found]
    simp
  · have parts : Snapshot.ofJson? (.array (p.jsonFields.map Prod.snd)) = some p :=
      Snapshot.ofParts?_eq_some finite
    constructor
    · intro fields distinct included
      rw [ofJson?_eq_some_iff, Snapshot.ofJson?_object distinct included, parts]
      simp only [Option.some.injEq, exists_eq_left']
    · rw [ofJson?_eq_some_iff, parts]
      simp only [Option.some.injEq, exists_eq_left']

theorem entrances_agree_reordered :
    let p : Snapshot := ⟨1, ["b", "a"], [.int 1, .float (.zero true)]⟩
    let s := (empty.set "b" (.int 1)).set "a" (.float (.zero true))
    Scope.decode (ScriptState.encode p) = .ok s ∧
      ScriptState.decode (ScriptState.encode p) = .ok s ∧
      Scope.ofJson? (.object (("comment", .null) :: p.jsonFields.reverse)) = some s ∧
      Scope.ofJson? (.array (p.jsonFields.map Prod.snd)) = some s := by
  intro p s
  have fits : Fits p := by decide +kernel
  have lists : s.Lists p.entries := by
    refine ⟨by decide, fun name v => ?_⟩
    simp only [s, p, get?_set, get?_empty, Snapshot.entries, List.zip_cons_cons,
      List.zip_nil_left, List.mem_cons, List.not_mem_nil, Prod.mk.injEq]
    grind
  have described : p.toScope = .ok s := Snapshot.toScope_eq_ok_iff.mpr ⟨rfl, rfl, lists⟩
  obtain ⟨bytes, json, -⟩ := entrances_agree p
  obtain ⟨whole, part⟩ := bytes fits s
  obtain ⟨object, list⟩ := json (by decide) s
  have distinct : ((("comment", .null) :: p.jsonFields.reverse).map Prod.fst).Nodup := by
    change ["comment", "values", "names", "version"].Nodup
    decide
  have included : p.jsonFields ⊆ ("comment", .null) :: p.jsonFields.reverse := fun field member =>
    List.mem_cons_of_mem _ (List.mem_reverse.mpr member)
  exact ⟨whole.mpr described, part.mpr described, (object _ distinct included).mpr described,
    list.mpr described⟩

end Scope

end ScriptState

import ScriptState.Proofs.Scope.Loading
import ScriptState.Scope.Session

/-!
# What a scope remembers

A scope is a finite map of its history: a name is bound to what the last command that concerns it
left it bound to. `finite_map` says so for all runs from the empty scope, and that the ways to look
at a scope agree on it.
-/

namespace ScriptState.Scope

/-- Commands whose effect on the scope the command alone tells. -/
def Command.isPlain : Command → Bool
  | .evaluate _ _ | .restore | .reload => false
  | _ => true

/-- What a command leaves the name bound to, if anything; none if the command does not concern the
name. A load concerns all names: it leaves what the snapshot pairs with them. -/
def Command.leaves? (name : String) : Command → Option (Option Value)
  | .set other v => if other = name then some (some v) else none
  | .remove other => if other = name then some none else none
  | .clear _ => some none
  | .decode bytes =>
    match Scope.decode bytes, (ScriptState.decode bytes : Except _ Snapshot) with
    | .ok _, .ok p => some (p.entries.lookup name)
    | _, _ => none
  | _ => none

/-- What the last of the commands that concern the name leaves it bound to. -/
def lastBinding (name : String) (commands : List Command) : Option Value :=
  (commands.reverse.findSome? (·.leaves? name)).join

theorem exists_snapshot_lookup {bytes : List UInt8} {loaded : Scope}
    (decoded : Scope.decode bytes = .ok loaded) :
    ∃ p : Snapshot, ScriptState.decode bytes = .ok p ∧
      ∀ name, p.entries.lookup name = loaded.get? name := by
  obtain ⟨p, read, described⟩ := decode_eq_ok_iff_toScope.mp decoded
  obtain ⟨-, -, lists⟩ := Snapshot.toScope_eq_ok_iff.mp described
  exact ⟨p, read, lists.lookup_eq⟩

namespace Session

variable {s : Session} {name : String} {commands : List Command}

theorem get?_step {command : Command} (plain : command.isPlain = true) :
    (s.step command).1.scope.get? name = (command.leaves? name).getD (s.scope.get? name) := by
  cases command with
  | set other v =>
    simp only [step, Command.leaves?, get?_set]
    by_cases same : other = name
    · simp [same]
    · simp [same, Ne.symm same]
  | remove other =>
    simp only [step, Command.leaves?, get?_remove]
    by_cases same : other = name
    · simp [same]
    · simp [same, Ne.symm same]
  | clear recursive => exact get?_empty name
  | decode bytes =>
    cases decoded : Scope.decode bytes with
    | ok loaded =>
      obtain ⟨p, read, pairs⟩ := exists_snapshot_lookup decoded
      simp only [step, load, Command.leaves?, decoded, read, pairs, Option.getD_some]
    | error reason => simp only [step, load, Command.leaves?, decoded, Option.getD_none]
  | evaluate | restore | reload => cases plain
  | _ => rfl

theorem get?_after (plain : ∀ command ∈ commands, command.isPlain = true) :
    (s.after commands).scope.get? name =
      (commands.reverse.findSome? (·.leaves? name)).getD (s.scope.get? name) := by
  induction commands generalizing s with
  | nil => rfl
  | cons command rest ih =>
    obtain ⟨first, others⟩ := List.forall_mem_cons.mp plain
    change ((s.step command).1.after rest).scope.get? name = _
    rw [ih others, get?_step first, List.reverse_cons, List.findSome?_append, Option.getD_or,
      List.findSome?_singleton]

theorem get?_after_start (plain : ∀ command ∈ commands, command.isPlain = true) :
    (start.after commands).scope.get? name = lastBinding name commands := by
  rw [get?_after plain, lastBinding]
  cases commands.reverse.findSome? (·.leaves? name) with
  | none => exact get?_empty name
  | some left => rfl

/-- After any run from the empty scope, a name is bound to what the last command that concerns it
left it bound to. That is what a lookup finds and what a removal returns; a name is bound if a
lookup finds it; the entries are the names that are bound, each once with its value, in ascending
order; and the size counts them. -/
theorem finite_map (commands : List Command)
    (plain : ∀ command ∈ commands, command.isPlain = true) :
    let s := start.after commands
    (∀ name, s.scope.get? name = lastBinding name commands ∧
      (s.step (.remove name)).2 = (s.step (.get name)).2 ∧
      (s.scope.has name = true ↔ (s.scope.get? name).isSome = true)) ∧
    (∀ name v, (name, v) ∈ s.scope.entries ↔ s.scope.get? name = some v) ∧
    Ascending (s.scope.entries.map Prod.fst) ∧ (s.scope.entries.map Prod.fst).Nodup ∧
    s.scope.size = s.scope.entries.length ∧ (s.scope.isEmpty = true ↔ s.scope.size = 0) := by
  intro s
  refine ⟨fun name => ⟨?_, ?_, by rw [has_eq]⟩, fun _ _ => mem_entries, entries_ascending _,
    nodup_names_entries _, (length_entries _).symm, isEmpty_iff⟩
  · exact get?_after_start plain
  · exact congrArg Reply.binding (s.scope.remove_snd name)

theorem finite_map_loaded :
    let p : Snapshot := ⟨1, ["b", "a", "c"], [.int 1, .int 2, .int 3]⟩
    let commands : List Command := [.set "x" (.int 4), .decode (ScriptState.encode p),
      .remove "a", .set "b" (.int 5), .decode [0]]
    let s := start.after commands
    s.scope.get? "x" = none ∧ s.scope.get? "a" = none ∧ s.scope.get? "b" = some (.int 5) ∧
      s.scope.get? "c" = some (.int 3) := by
  intro p commands s
  have plain : ∀ command ∈ commands, command.isPlain = true := by decide
  obtain ⟨bindings, -⟩ := finite_map commands plain
  refine ⟨(bindings "x").1.trans ?_, (bindings "a").1.trans ?_, (bindings "b").1.trans ?_,
    (bindings "c").1.trans ?_⟩ <;> decide +kernel

end Session

end ScriptState.Scope

import ScriptState.Proofs.Scope.Refusal
import ScriptState.Scope.Session
import ScriptState.ScopeStack.Session

/-!
# Commands that fail

A command that fails does nothing, in a session over one scope as over a stack of them. So the
commands that failed can be left out of a run afterwards (`failures_leave_no_trace`). Bytes are
loaded whole or not at all, however late the fault in them comes.
-/

namespace ScriptState

open SavedForm
open Sized (Fits)

/-- The commands of a run that did not fail in it. -/
def succeeding {Command State Reply : Type} (isFailure : Reply → Bool) (commands : List Command)
    (results : List (State × Reply)) : List Command :=
  ((commands.zip results).filter fun step => !isFailure step.2.2).map Prod.fst

section
variable {Command State Reply : Type} {isFailure : Reply → Bool}
  {step : State → Command → State × Reply} {run : State → List Command → List (State × Reply)}

/-- If a failure leaves the state of a system as it was, a run of the commands that did not fail
has the same results as these had, and comes to the same state. -/
theorem run_succeeding (nil : ∀ s, run s [] = [])
    (cons : ∀ s command rest, run s (command :: rest) =
      step s command :: run (step s command).1 rest)
    (atomic : ∀ s command, isFailure (step s command).2 = true → (step s command).1 = s)
    (s : State) (commands : List Command) :
    let kept := succeeding isFailure commands (run s commands)
    run s kept = (run s commands).filter (fun result => !isFailure result.2) ∧
      kept.foldl (fun t command => (step t command).1) s =
        commands.foldl (fun t command => (step t command).1) s := by
  induction commands generalizing s with
  | nil =>
    dsimp only
    rw [nil]
    exact ⟨nil s, rfl⟩
  | cons command rest ih =>
    obtain ⟨results, final⟩ := ih (step s command).1
    unfold succeeding at results final ⊢
    dsimp only
    rw [cons, List.zip_cons_cons, List.foldl_cons]
    cases failed : isFailure (step s command).2 with
    | true =>
      rw [List.filter_cons_of_neg (by simp [failed]), List.filter_cons_of_neg (by simp [failed])]
      rw [atomic s command failed] at results final ⊢
      exact ⟨results, final⟩
    | false =>
      rw [List.filter_cons_of_pos (by simp [failed]), List.filter_cons_of_pos (by simp [failed]),
        List.map_cons, cons, results, List.foldl_cons]
      exact ⟨rfl, final⟩

end

/-! ### Sessions and stacks -/

def Scope.Reply.isFailure : Scope.Reply → Bool
  | .failed _ | .rejected _ => true
  | _ => false

def ScopeStack.Reply.isFailure : ScopeStack.Reply → Bool
  | .undefined _ | .failed _ | .rejected _ => true
  | _ => false

theorem Scope.Session.load_of_error {bytes : List UInt8} {reason : LoadError}
    (failed : Scope.decode bytes = .error reason) (s : Session) (reply : Scope → Reply) :
    s.load bytes reply = (s, .rejected reason) := by
  unfold load
  rw [failed]

theorem Scope.Session.load_of_failure {bytes : List UInt8} {s : Session} {reply : Scope → Reply}
    (plain : ∀ t, (reply t).isFailure = false) (failed : (s.load bytes reply).2.isFailure = true) :
    (s.load bytes reply).1 = s := by
  cases loaded : Scope.decode bytes with
  | error reason => rw [load_of_error loaded]
  | ok t =>
    unfold load at failed
    rw [loaded] at failed
    rw [plain t] at failed
    cases failed

theorem Scope.Session.step_of_failure (s : Session) (command : Command)
    (failed : (s.step command).2.isFailure = true) : (s.step command).1 = s := by
  cases command with
  | evaluate name operation =>
    unfold step at failed ⊢
    dsimp only at failed ⊢
    cases evaluated : operation.evaluate s.scope.get? with
    | error reason => rfl
    | ok v =>
      rw [evaluated] at failed
      cases failed
  | decode bytes => exact load_of_failure (fun _ => rfl) failed
  | reload =>
    unfold step at failed ⊢
    exact load_of_failure (fun _ => rfl) failed
  | _ => cases failed

theorem ScopeStack.step_of_failure (s : ScopeStack) (command : Command)
    (failed : (s.step command).2.isFailure = true) : (s.step command).1 = s := by
  cases command with
  | assign name v =>
    unfold step at failed ⊢
    dsimp only at failed ⊢
    cases assigned : s.assign name v with
    | error e => rfl
    | ok t =>
      rw [assigned] at failed
      cases failed
  | evaluate name operation =>
    unfold step at failed ⊢
    dsimp only at failed ⊢
    cases evaluated : operation.evaluate s.get? with
    | error reason => rfl
    | ok v =>
      rw [evaluated] at failed
      cases failed
  | decode bytes =>
    unfold step at failed ⊢
    dsimp only at failed ⊢
    cases loaded : Scope.decode bytes with
    | error reason => rfl
    | ok t =>
      rw [loaded] at failed
      cases failed
  | _ => cases failed

/-! ### Loads that fail at the end -/

section
variable {α : Type} [SavedForm α] [Sized α] [Canonical α] {bytes : List UInt8} {e : FormatError}

/-- What is written for a sequence, with the bytes in the place of a last item. -/
def writeBefore (xs : List α) (bytes : List UInt8) : List UInt8 :=
  writeLength (xs.length + 1) ++ (xs.flatMap write ++ bytes)

theorem read_writeBefore {xs : List α} (bounded : xs.length + 1 < lengthLimit)
    (fits : ∀ x ∈ xs, Fits x) (stopped : (read : Reader α) bytes = .error e) :
    (read : Reader (List α)) (writeBefore xs bytes) = .error e := by
  have items : Reader.times (read : Reader α) xs.length (xs.flatMap write ++ bytes) =
      .ok (xs, bytes) := times_eq_ok_iff.mpr ⟨rfl, fits, rfl⟩
  have last : Reader.times (read : Reader α) (xs.length + 1) (xs.flatMap write ++ bytes) =
      .error e :=
    Reader.times_eq_error_iff.mpr ⟨xs.length, xs, bytes, Nat.lt_succ_self _, items, stopped⟩
  have counted : readLength (writeBefore xs bytes) =
      .ok (xs.length + 1, xs.flatMap write ++ bytes) :=
    readLength_eq_ok_iff.mpr ⟨bounded, rfl⟩
  exact Reader.bind_eq_error_iff.mpr (.inr ⟨_, _, counted, last⟩)

theorem read_snapshot_of_names (version : UInt32)
    (stopped : (read : Reader (List String)) bytes = .error e) :
    (read : Reader Snapshot) (write version ++ bytes) = .error e := by
  have first : read (write version ++ bytes) = .ok (version, bytes) :=
    Canonical.read_eq_ok_iff.mpr ⟨trivial, rfl⟩
  exact Reader.bind_eq_error_iff.mpr
    (.inr ⟨version, bytes, first, Reader.bind_eq_error_iff.mpr (.inl stopped)⟩)

theorem read_snapshot_of_values (version : UInt32) {names : List String} (fits : Fits names)
    (stopped : (read : Reader (List Value)) bytes = .error e) :
    (read : Reader Snapshot) (write version ++ (write names ++ bytes)) = .error e := by
  have first : read (write version ++ (write names ++ bytes)) =
      .ok (version, write names ++ bytes) := Canonical.read_eq_ok_iff.mpr ⟨trivial, rfl⟩
  have second : read (write names ++ bytes) = .ok (names, bytes) :=
    Canonical.read_eq_ok_iff.mpr ⟨fits, rfl⟩
  refine Reader.bind_eq_error_iff.mpr (.inr ⟨version, _, first, ?_⟩)
  refine Reader.bind_eq_error_iff.mpr (.inr ⟨names, bytes, second, ?_⟩)
  exact Reader.bind_eq_error_iff.mpr (.inl stopped)

end

theorem Snapshot.toScope_of_repeated {names : List String} {values : List Value} {name : String}
    {v : Value} (lengths : names.length = values.length) (distinct : names.Nodup)
    (repeated : name ∈ names) :
    (Snapshot.mk snapshotVersion (names ++ [name]) (values ++ [v])).toScope =
      .error (.repeated name) := by
  have paired : (names.zip values).map Prod.fst = names :=
    List.map_fst_zip (Nat.le_of_eq lengths)
  obtain ⟨t, lists⟩ := Scope.exists_lists (paired.symm ▸ distinct)
  have bound : bindAll .empty (names.zip values) = .ok t := by
    rw [bindAll_eq_ok_iff, Scope.entries_empty, List.append_nil]
    exact lists
  have present : t.has name = true := lists.has_iff.mpr (paired.symm ▸ repeated)
  unfold toScope
  rw [if_neg (by simp), if_neg (by simp [lengths])]
  change bindAll .empty ((names ++ [name]).zip (values ++ [v])) = _
  rw [List.zip_append lengths, bindAll_append bound, List.zip_cons_cons, bindAll, if_pos present]

/-! ### Runs without the failures -/

/-- The bytes are not loaded, and neither a session over a scope nor one over a stack keeps
anything of them. -/
structure Refused (bytes : List UInt8) (reason : LoadError) : Prop where
  decode : Scope.decode bytes = .error reason
  scope : ∀ s : Scope.Session, s.step (.decode bytes) = (s, .rejected reason)
  stack : ∀ s : ScopeStack, s.step (.decode bytes) = (s, .rejected reason)

theorem refused_of_error {bytes : List UInt8} {reason : LoadError}
    (failed : Scope.decode bytes = .error reason) : Refused bytes reason where
  decode := failed
  scope s := Scope.Session.load_of_error failed s _
  stack s := by
    unfold ScopeStack.step
    dsimp only
    rw [failed]

theorem refused_of_unread {bytes : List UInt8} {e : FormatError}
    (stopped : (read : Reader Snapshot) bytes = .error e) : Refused bytes (.format e) :=
  refused_of_error (Scope.decode_of_unread (decode_of_error stopped))

/-- A run of a session is not changed if the commands that fail in it are left out: the others
leave the same states and are replied to as before, and so it is with the state in the end. A load
that fails does nothing, even if only the last name or the last value is at fault. -/
theorem failures_leave_no_trace :
    (∀ (s : Scope.Session) (commands : List Scope.Command),
      let kept := succeeding Scope.Reply.isFailure commands (s.run commands)
      s.run kept = (s.run commands).filter (fun result => !result.2.isFailure) ∧
        s.after kept = s.after commands) ∧
    (∀ (s : ScopeStack) (commands : List ScopeStack.Command),
      let kept := succeeding ScopeStack.Reply.isFailure commands (s.run commands)
      s.run kept = (s.run commands).filter (fun result => !result.2.isFailure) ∧
        s.after kept = s.after commands) ∧
    (∀ bytes reason, Scope.decode bytes = .error reason → Refused bytes reason) ∧
    (∀ names values name v, names.length = values.length → names.Nodup → name ∈ names →
      let p : Snapshot := ⟨snapshotVersion, names ++ [name], values ++ [v]⟩
      Fits p → Refused (encode p) (.snapshot (.repeated name))) ∧
    (∀ (names : List String) (bytes : List UInt8) e, names.length + 1 < lengthLimit →
      (∀ name ∈ names, Fits name) → (read : Reader String) bytes = .error e →
      Refused (encode snapshotVersion ++ writeBefore names bytes) (.format e)) ∧
    ∀ (names : List String) (values : List Value) (bytes : List UInt8) e, Fits names →
      values.length + 1 < lengthLimit → (∀ v ∈ values, Fits v) →
      (read : Reader Value) bytes = .error e →
      Refused (encode snapshotVersion ++ (encode names ++ writeBefore values bytes))
        (.format e) := by
  refine ⟨fun s commands => ?_, fun s commands => ?_, fun _ _ => refused_of_error, ?_, ?_, ?_⟩
  · exact run_succeeding (fun _ => rfl) (fun _ _ _ => rfl) Scope.Session.step_of_failure s commands
  · exact run_succeeding (fun _ => rfl) (fun _ _ _ => rfl) ScopeStack.step_of_failure s commands
  · intro names values name v lengths distinct repeated p fits
    have refused := Snapshot.toScope_of_repeated (v := v) lengths distinct repeated
    exact refused_of_error (Scope.decode_of_refused (decode_encode fits) refused)
  · intro names bytes e bounded fits stopped
    exact refused_of_unread (read_snapshot_of_names _ (read_writeBefore bounded fits stopped))
  · intro names values bytes e fitsNames bounded fits stopped
    exact refused_of_unread
      (read_snapshot_of_values _ fitsNames (read_writeBefore bounded fits stopped))

theorem failures_leave_no_trace_late :
    let sum : Operation := .binary (.arithmetic .addition) (.var "x") (.var "unbound")
    let quotient : Operation := .binary (.arithmetic .division) (.var "x") (.value (.bool true))
    let commands : List Scope.Command := [.set "x" (.int 1), .evaluate "x" sum,
      .evaluate "x" quotient, .decode [1], .evaluate "y" (.unary .not (.var "x"))]
    let s := Scope.Session.start
    let kept := succeeding Scope.Reply.isFailure commands (s.run commands)
    let assignments : List ScopeStack.Command := [.set "x" (.int 1), .push,
      .assign "unbound" (.int 2), .assign "x" (.int 3), .pop]
    let t := ScopeStack.empty
    let keptAssignments :=
      succeeding ScopeStack.Reply.isFailure assignments (t.run assignments)
    (kept.length = 2 ∧ s.after kept = s.after commands) ∧
      (keptAssignments.length = 4 ∧ t.after keptAssignments = t.after assignments) ∧
      Refused [1] (.format .endOfInput) ∧
      Refused (encode (Snapshot.mk 1 ["é", "x", "é"] [.int 1, .int 2, .int 3]))
        (.snapshot (.repeated "é")) ∧
      Refused (encode snapshotVersion ++ writeBefore ["é"] [2, 0, 0, 0, 0, 0, 0, 0, 0xc3, 0x28])
        (.format (.badText (.invalid 0 1))) ∧
      Refused (encode snapshotVersion ++ (encode ["x", "y"] ++
        writeBefore [Value.int 1] [4, 0, 0, 0])) (.format (.unknownKind 4)) := by
  intro sum quotient commands s kept assignments t keptAssignments
  obtain ⟨onScopes, onStacks, loads, repeated, names, values⟩ := failures_leave_no_trace
  have cutShort : Scope.decode [1] = .error (.format .endOfInput) := rfl
  have badText : (read : Reader String) [2, 0, 0, 0, 0, 0, 0, 0, 0xc3, 0x28] =
      .error (.badText (.invalid 0 1)) := rfl
  have badKind : (read : Reader Value) [4, 0, 0, 0] = .error (.unknownKind 4) := rfl
  have fits : Fits (Snapshot.mk 1 ["é", "x", "é"] [.int 1, .int 2, .int 3]) := by decide +kernel
  refine ⟨⟨by decide +kernel, (onScopes s commands).2⟩,
    ⟨by decide +kernel, (onStacks t assignments).2⟩, loads _ _ cutShort, ?_, ?_, ?_⟩
  · exact repeated ["é", "x"] [.int 1, .int 2] "é" (.int 3) rfl (by decide) (by decide) fits
  · exact names ["é"] _ _ (by decide) (by decide +kernel) badText
  · exact values ["x", "y"] [.int 1] _ _ (by decide +kernel) (by decide) (by decide +kernel) badKind

end ScriptState

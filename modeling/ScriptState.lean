import ScriptState.Text.Utf8.Lemmas
import ScriptState.Saved.Form.Lemmas
import ScriptState.Scope.Session
import ScriptState.ScopeStack.Session
import ScriptState.Proofs.Scope.Saving
import ScriptState.Proofs.Saved.Locality
import ScriptState.Proofs.Scope.Refusal
import ScriptState.Proofs.Value.Keys
import ScriptState.Proofs.Value.Concatenation
import ScriptState.Proofs.Scope.Equality
import ScriptState.Proofs.Scope.Sequence
import ScriptState.Proofs.Scope.Json
import ScriptState.Proofs.Scope.History
import ScriptState.Proofs.ScopeStack.Layers
import ScriptState.Proofs.ScopeStack.Block
import ScriptState.Proofs.ScopeStack.Flat
import ScriptState.Proofs.ScopeStack.Global
import ScriptState.Proofs.ScopeStack.Names
import ScriptState.Proofs.Session.Failure
import ScriptState.Proofs.Value.Congruence
import ScriptState.Proofs.Scope.Validation
import ScriptState.Proofs.ScopeStack.Assignment
import ScriptState.Proofs.Saved.Text
import ScriptState.Proofs.Scope.Extensionality
import ScriptState.Proofs.Saved.Counts
import ScriptState.Proofs.Scope.Inspection
import ScriptState.Proofs.Scope.NameOrder
import ScriptState.Proofs.Value.Logic
import ScriptState.Proofs.Value.Promotion

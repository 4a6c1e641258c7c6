import ScriptState.Saved.Form
import ScriptState.Value.Basic

/-!
# The saved form of a value

The number of its kind, then its payload: 0 a bool, 1 an int, 2 a float, 3 a string.
-/

namespace ScriptState

open SavedForm

namespace Value

def write : Value → List UInt8
  | bool b => SavedForm.write (0 : UInt32) ++ SavedForm.write b
  | int n => SavedForm.write (1 : UInt32) ++ SavedForm.write n
  | float x => SavedForm.write (2 : UInt32) ++ SavedForm.write x
  | str text => SavedForm.write (3 : UInt32) ++ SavedForm.write text

/-- The payload that follows the number of a kind. -/
def readPayload : UInt32 → Reader Value
  | 0 => bool <$> SavedForm.read
  | 1 => int <$> SavedForm.read
  | 2 => float <$> SavedForm.read
  | 3 => str <$> SavedForm.read
  | tag => Reader.fail (.unknownKind tag)

def read : Reader Value := do readPayload (← SavedForm.read)

instance : SavedForm Value := ⟨write, read⟩

end Value

end ScriptState

import ScriptState.Text.Utf8

/-!
# Why saved bytes are refused

`FormatError` is about the bytes, `SnapshotError` about a snapshot that could be read but is no
scope, and `LoadError` is either.
-/

namespace ScriptState

open Number (natText)

/-- The layout version written into every snapshot, and the only one accepted. -/
def snapshotVersion : UInt32 := 1

inductive SnapshotError
  | version (found : UInt32)
  | lengths (names values : Nat)
  | repeated (name : String)
deriving DecidableEq

inductive FormatError
  /-- The input ends within a number. -/
  | endOfInput
  /-- A text is longer than what is left of the input. -/
  | shortText
  | badBool (byte : UInt8)
  | badText (fault : Utf8.Fault)
  | unknownKind (tag : UInt32)
  | trailingBytes
  /-- A snapshot that is read as a scope is none. -/
  | refused (reason : SnapshotError)
deriving DecidableEq

inductive LoadError
  | format (error : FormatError)
  | snapshot (error : SnapshotError)
deriving DecidableEq

namespace SnapshotError

def message : SnapshotError → String
  | version found =>
    "unsupported snapshot version " ++ natText found.toNat ++
      " (expected " ++ natText snapshotVersion.toNat ++ ")"
  | lengths names values =>
    "scope snapshot has " ++ natText names ++ " names but " ++ natText values ++ " values"
  | repeated name => "duplicate variable `" ++ name ++ "` in scope snapshot"

end SnapshotError

namespace FormatError

def message : FormatError → String
  | endOfInput => "io error: unexpected end of file"
  | shortText => "io error: "
  | badBool byte =>
    "invalid u8 while decoding bool, expected 0 or 1, found " ++ natText byte.toNat
  | badText fault => "string is not valid utf8: " ++ fault.message
  | unknownKind tag =>
    "invalid value: integer `" ++ natText tag.toNat ++ "`, expected variant index 0 <= i < 4"
  | trailingBytes => "Slice had bytes remaining after deserialization"
  | refused reason => reason.message

/-- Whether more input could have helped. -/
def isTruncation : FormatError → Bool
  | endOfInput | shortText => true
  | _ => false

end FormatError

def LoadError.message : LoadError → String
  | .format error => "malformed encoding: " ++ error.message
  | .snapshot error => error.message

end ScriptState

import ScriptState.Saved.Error
import ScriptState.Number.Binary32

/-!
# The saved form

A structure is saved as its parts in order: numbers in a fixed width with the least byte first,
texts and sequences after their length, nothing else. `encode` writes a structure; `decode` reads
one from left to right, stops at the first fault, and refuses bytes that are left over.
-/

namespace ScriptState

/-- Takes a structure from the front of the input. -/
abbrev Reader := StateT (List UInt8) (Except FormatError)

namespace Reader

def fail {α : Type} (e : FormatError) : Reader α := fun _ => .error e

def byte : Reader UInt8
  | [] => .error .endOfInput
  | b :: rest => .ok (b, rest)

/-- A number of `width` bytes, the least first. -/
def number : (width : Nat) → Reader Nat
  | 0 => pure 0
  | width + 1 => do
    let low ← byte
    let high ← number width
    pure (low.toNat + 256 * high)

def take (length : Nat) : Reader (List UInt8) := fun bytes =>
  if bytes.length < length then .error .shortText
  else .ok (bytes.take length, bytes.drop length)

def times {α : Type} (item : Reader α) : Nat → Reader (List α)
  | 0 => pure []
  | n + 1 => do
    let first ← item
    let others ← times item n
    pure (first :: others)

end Reader

theorem Reader.pure_apply {α : Type} (x : α) (bytes : List UInt8) :
    (pure x : Reader α) bytes = .ok (x, bytes) := rfl

theorem Reader.bind_apply {α β : Type} (r : Reader α) (f : α → Reader β) (bytes : List UInt8) :
    (r >>= f) bytes =
      match r bytes with
      | .ok (x, rest) => f x rest
      | .error e => .error e := by
  cases ran : r bytes <;> simp only [bind, StateT.bind, Except.bind, ran]

theorem Reader.map_apply {α β : Type} (f : α → β) (r : Reader α) (bytes : List UInt8) :
    (f <$> r) bytes =
      match r bytes with
      | .ok (x, rest) => .ok (f x, rest)
      | .error e => .error e := by
  cases ran : r bytes with
  | error e => simp only [Functor.map, StateT.map, bind, Except.bind, ran]
  | ok found =>
    simp only [Functor.map, StateT.map, bind, Except.bind, ran]
    rfl

def writeNumber : (width n : Nat) → List UInt8
  | 0, _ => []
  | width + 1, n => UInt8.ofNat n :: writeNumber width (n / 256)

class SavedForm (α : Type) where
  write : α → List UInt8
  read : Reader α

open SavedForm

variable {α : Type} [SavedForm α]

def encode (x : α) : List UInt8 := write x

def decode (bytes : List UInt8) : Except FormatError α := do
  let (x, rest) ← read bytes
  if rest.isEmpty then pure x else throw .trailingBytes

/-! ### Numbers, flags, texts and sequences -/

instance : SavedForm Bool where
  write b := [if b then 1 else 0]
  read := do
    match ← Reader.byte with
    | 0 => pure false
    | 1 => pure true
    | b => Reader.fail (.badBool b)

instance : SavedForm UInt32 where
  write n := writeNumber 4 n.toNat
  read := UInt32.ofNat <$> Reader.number 4

instance : SavedForm Int32 where
  write n := write n.toUInt32
  read := UInt32.toInt32 <$> read

instance : SavedForm Number.Binary32 where
  write x := write x.bits
  read := Number.Binary32.mk <$> read

/-- The length of a text or a sequence, in eight bytes. -/
def writeLength (n : Nat) : List UInt8 := writeNumber 8 n

def readLength : Reader Nat := Reader.number 8

instance : SavedForm String where
  write text :=
    let bytes := Utf8.encode text.toList
    writeLength bytes.length ++ bytes
  read := do
    let length ← readLength
    let bytes ← Reader.take length
    match Utf8.decode bytes with
    | .ok text => pure (String.ofList text)
    | .error fault => Reader.fail (.badText fault)

instance : SavedForm (List α) where
  write xs := writeLength xs.length ++ xs.flatMap write
  read := do
    let length ← readLength
    Reader.times read length

end ScriptState

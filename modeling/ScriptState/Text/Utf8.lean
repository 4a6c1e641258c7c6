import ScriptState.Number.Decimal

/-!
# UTF-8

`encode` writes characters as bytes and `decode` reads them back, strictly: no overlong form, no
surrogate, nothing above the last character. A refused text is diagnosed by the place where its
longest valid beginning ends and by what stands there.
-/

namespace ScriptState.Utf8

open Number (natText)

/-- What ends the longest valid beginning of a text, `index` bytes long. -/
inductive Fault
  /-- The `length` bytes from there begin no character, or none that the next byte continues. -/
  | invalid (index length : Nat)
  /-- The text ends within a character. -/
  | incomplete (index : Nat)
deriving DecidableEq

def Fault.message : Fault → String
  | .invalid index length =>
    "invalid utf-8 sequence of " ++ natText length ++ " bytes from index " ++ natText index
  | .incomplete index => "incomplete utf-8 byte sequence from index " ++ natText index

def encode (text : List Char) : List UInt8 := text.flatMap String.utf8EncodeChar

/-- The order of texts by their bytes, of which the first that differ decide. -/
def compareBytes (a b : String) : Ordering :=
  (encode a.toList).compareLex compare (encode b.toList)

structure ByteRange where
  first : UInt8
  last : UInt8
deriving DecidableEq

def ByteRange.holds (range : ByteRange) (byte : UInt8) : Bool :=
  range.first ≤ byte && byte ≤ range.last

/-- The bytes that continue a character, where its first byte sets no narrower bound. -/
def continuation : ByteRange := ⟨0x80, 0xbf⟩

/-- What a first byte says: the bits of the character that it holds, and the ranges of the bytes
that have to follow. The narrow ranges keep out overlong forms, surrogates and all above the last
character. -/
def lead? (byte : UInt8) : Option (Nat × List ByteRange) :=
  let b := byte.toNat
  if b < 0x80 then some (b, [])
  else if b < 0xc2 then none
  else if b < 0xe0 then some (b - 0xc0, [continuation])
  else if b = 0xe0 then some (0, [⟨0xa0, 0xbf⟩, continuation])
  else if b = 0xed then some (0xd, [⟨0x80, 0x9f⟩, continuation])
  else if b < 0xf0 then some (b - 0xe0, [continuation, continuation])
  else if b = 0xf0 then some (0, [⟨0x90, 0xbf⟩, continuation, continuation])
  else if b < 0xf4 then some (b - 0xf0, [continuation, continuation, continuation])
  else if b = 0xf4 then some (4, [⟨0x80, 0x8f⟩, continuation, continuation])
  else none

/-- A character begun and not ended: how many of its bytes are read, their bits, and the ranges of
the next byte and of those after it. -/
structure Unfinished where
  taken : Nat
  bits : Nat
  next : ByteRange
  later : List ByteRange

/-- Reads on from `index`, where a character begins or `unfinished` began. -/
def decodeFrom (index : Nat) : Option Unfinished → List UInt8 → Except Fault (List Char)
  | none, [] => .ok []
  | some _, [] => .error (.incomplete index)
  | none, byte :: rest =>
    match lead? byte with
    | none => .error (.invalid index 1)
    | some (bits, []) => (Char.ofNat bits :: ·) <$> decodeFrom (index + 1) none rest
    | some (bits, next :: later) => decodeFrom index (some ⟨1, bits, next, later⟩) rest
  | some begun, byte :: rest =>
    if begun.next.holds byte then
      let bits := begun.bits * 64 + byte.toNat % 64
      match begun.later with
      | [] => (Char.ofNat bits :: ·) <$> decodeFrom (index + begun.taken + 1) none rest
      | next :: later => decodeFrom index (some ⟨begun.taken + 1, bits, next, later⟩) rest
    else .error (.invalid index begun.taken)

def decode (bytes : List UInt8) : Except Fault (List Char) := decodeFrom 0 none bytes

end ScriptState.Utf8

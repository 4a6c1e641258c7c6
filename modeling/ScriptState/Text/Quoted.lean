import ScriptState.Text.Unprintable

/-!
# Quoted text

Text between double quotes, where no character can be mistaken for another: a quote, a backslash
and four controls have a short escape, every other unprintable character is `\u` with its number
in braces. The single quote stands for itself.
-/

namespace ScriptState

def hexChars (c : Char) : List Char := Nat.toDigits 16 c.toNat

def quoteChar (c : Char) : List Char :=
  match c with
  | '"' => ['\\', '"']
  | '\\' => ['\\', '\\']
  | '\n' => ['\\', 'n']
  | '\r' => ['\\', 'r']
  | '\t' => ['\\', 't']
  | '\x00' => ['\\', '0']
  | c => if isUnprintable c then ['\\', 'u', '{'] ++ hexChars c ++ ['}'] else [c]

def quoteChars (text : List Char) : List Char := '"' :: text.flatMap quoteChar ++ ['"']

def quote (text : String) : String := String.ofList (quoteChars text.toList)

end ScriptState

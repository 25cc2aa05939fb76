import ElementTypes.Text.CharClass

/-! # Quoted texts

A text in a message stands between double quotes. The quote, the backslash, tab, line feed,
carriage return and NUL have a short escape; a combining, filler or unprintable character is written
by its code point in lower-case hexadecimal, between braces; any other character stands for itself.
-/

namespace ElementTypes.Quoted

def escapeCodePoint (c : Char) : List Char :=
  ['\\', 'u', '\x7b'] ++ Nat.toDigits 16 c.toNat ++ ['\x7d']

def escape (c : Char) : List Char :=
  match c with
  | '"' => ['\\', '"']
  | '\\' => ['\\', '\\']
  | '\t' => ['\\', 't']
  | '\n' => ['\\', 'n']
  | '\r' => ['\\', 'r']
  | '\x00' => ['\\', '0']
  | c => if isCombining c || isFiller c || isUnprintable c then escapeCodePoint c else [c]

def quote (text : String) : String :=
  String.ofList ('"' :: text.toList.flatMap escape ++ ['"'])

end ElementTypes.Quoted

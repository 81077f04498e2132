/-
# Quoted text

A text between double quotes, as it stands in the messages and in the printed
form of values.  NUL, tab, line feed, carriage return, the double quote and the
backslash have a short escape; a character that `quoteNeedsCode` names is written
as its code in lower-case hexadecimal between braces; every other character,
the apostrophe included, stands for itself.
-/

import Interop.Text.Unprintable

namespace Interop
namespace Text

/-- The code of `c` in lower-case hexadecimal, with no leading zero. -/
def hexCode (c : Char) : List Char :=
  Nat.toDigits 16 c.toNat

/-- How one character is written between the quotes. -/
def escape (c : Char) : List Char :=
  if c = '\x00' then ['\\', '0']
  else if c = '\t' then ['\\', 't']
  else if c = '\n' then ['\\', 'n']
  else if c = '\r' then ['\\', 'r']
  else if c = '"' then ['\\', '"']
  else if c = '\\' then ['\\', '\\']
  else if quoteNeedsCode c then ['\\', 'u', '\x7b'] ++ hexCode c ++ ['\x7d']
  else [c]

/-- The text between double quotes. -/
def quote (s : String) : String :=
  String.ofList ('"' :: s.toList.flatMap escape ++ ['"'])

end Text
end Interop

/-
# Lower case

`lowercase` replaces every character by its lower case.  Two characters need
more than `lowerRuns` says.  U+0130, the capital I with a dot, becomes an `i`
and a combining dot.  A capital sigma becomes the final form `ς` when it ends a
word and `σ` otherwise: it ends a word when a cased character stands before it
and none stands after it, those that are case-ignorable being passed over on
both sides.
-/

import Interop.Text.Case.Table

namespace Interop
namespace Text

/-- Whether `c` is a letter with case. -/
def isCased (c : Char) : Bool :=
  memRanges casedRanges c.toNat

/-- Whether `c` is passed over in the search for a cased neighbour. -/
def isCaseIgnorable (c : Char) : Bool :=
  memRanges caseIgnorableRanges c.toNat

/-- The lower case of `c` where that is one character. -/
def lowerChar (c : Char) : Char :=
  match lowerRuns.find? (·.covers c.toNat) with
  | some r => Char.ofNat (c.toNat + r.shift).toNat
  | none => c

/-- Whether the first character of `cs` that is not case-ignorable is cased. -/
def startsCased (cs : List Char) : Bool :=
  match cs.dropWhile isCaseIgnorable with
  | c :: _ => isCased c
  | [] => false

/-- The lower case of `c` between the characters `before`, read backwards, and
`after`. -/
def lowerAt (before : List Char) (c : Char) (after : List Char) : List Char :=
  if c = 'Σ' then [if startsCased before && !startsCased after then 'ς' else 'σ']
  else if c = 'İ' then ['i', '\u0307']
  else [lowerChar c]

/-- The lower case of a text whose earlier characters, read backwards, are
`before`. -/
def lowerFrom (before : List Char) : List Char → List Char
  | [] => []
  | c :: rest => lowerAt before c rest ++ lowerFrom (c :: before) rest

/-- The text in lower case. -/
def lowercase (s : String) : String :=
  String.ofList (lowerFrom [] s.toList)

/-- The 26 letters of ASCII in lower case, every other character as it is. -/
def lowercaseAscii (s : String) : String :=
  String.ofList (s.toList.map Char.toLower)

end Text
end Interop

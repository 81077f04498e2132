/-
# Blank characters

The characters with the property `White_Space`, and the text that is left when
the blanks at both ends are taken away.  The set holds more than the blanks of
`Char.isWhitespace`: vertical tab, form feed, next line, the no-break space and
the wide spaces of typography.
-/

import Interop.Text.CodeRange

namespace Interop
namespace Text

/-- The code points with the property `White_Space`, in ascending order. -/
def blankRanges : List CodeRange := [
  (0x9, 0xD), (0x20, 0x20), (0x85, 0x85), (0xA0, 0xA0), (0x1680, 0x1680), (0x2000, 0x200A),
  (0x2028, 0x2029), (0x202F, 0x202F), (0x205F, 0x205F), (0x3000, 0x3000)]

/-- Whether the code point `n` is blank. -/
def isBlankCode (n : Nat) : Bool :=
  memRanges blankRanges n

/-- Whether `c` is blank. -/
def isBlank (c : Char) : Bool :=
  isBlankCode c.toNat

/-- The text between its leading and its trailing blanks. -/
def trim (s : String) : String :=
  String.ofList ((s.toList.dropWhile isBlank).reverse.dropWhile isBlank).reverse

/-- **Nothing that Lean calls white space is missing.** -/
theorem isBlank_of_isWhitespace {c : Char} (h : c.isWhitespace = true) : isBlank c = true := by
  simp only [Char.isWhitespace, Bool.or_eq_true, decide_eq_true_eq] at h
  rcases h with ((h | h) | h) | h <;> subst h <;> decide

end Text
end Interop

/-
# Printed values

How a value with named parts is printed: `Name { part: text, other: text }`.  A
value without parts is its bare name; one that keeps some of its parts to itself
ends in `..`.  Lists stand in brackets.
-/

namespace Interop
namespace Text

/-- The parts of a printed value, each as its name and its text. -/
abbrev Parts := List (String × String)

/-- The texts with a comma between any two. -/
def commaSeparated (texts : List String) : String :=
  String.intercalate ", " texts

/-- One part as `name: text`. -/
def partText (part : String × String) : String :=
  part.1 ++ ": " ++ part.2

/-- A value that shows all of its parts. -/
def record (name : String) : Parts → String
  | [] => name
  | parts => name ++ " \x7b " ++ commaSeparated (parts.map partText) ++ " \x7d"

/-- A value that shows some of its parts. -/
def openRecord (name : String) (parts : Parts) : String :=
  name ++ " \x7b " ++ commaSeparated (parts.map partText ++ [".."]) ++ " \x7d"

/-- A value that wraps a single other one. -/
def wrapped (name inner : String) : String :=
  name ++ "(" ++ inner ++ ")"

/-- A list of printed values. -/
def listing (items : List String) : String :=
  "[" ++ commaSeparated items ++ "]"

/-- A truth value in lower case. -/
def boolText (b : Bool) : String :=
  if b then "true" else "false"

end Text
end Interop

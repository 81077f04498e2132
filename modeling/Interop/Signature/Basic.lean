/-
# Signatures of native methods

A signature says what a method returns and what each parameter takes.  Written
down it is a return token followed by one token for each parameter; a token is an
optional `?`, for a value that may be null, and a letter:

| token | values |
| --- | --- |
| `v` | nothing; only as the return token, never with `?` |
| `B` | truth values |
| `c` `s` `i` `q` | signed integers of 8, 16, 32 and 64 bits |
| `C` `z` | unsigned integers of 8 bits, and sizes |
| `d` | floats |
| `T` | texts |
| `@` `@<Name>` | objects, or objects of the class `Name` and its descendants |
| `^` | raw pointers, which no host value can stand for |

That nothing is returned is a case of `ReturnType` and not of `TypeKind`, so no
parameter can be of that kind.  `Signature.encode` writes a signature down and
`Interop.Signature.Parser` reads it back.
-/

namespace Interop

/-- The integer types of native parameters. -/
inductive IntWidth
  | i8
  | i16
  | i32
  | i64
  | u8
  | usize
deriving DecidableEq

namespace IntWidth

/-- The least integer of the type. -/
def low : IntWidth → Int
  | i8 => -0x80
  | i16 => -0x8000
  | i32 => -0x80000000
  | i64 => -0x8000000000000000
  | u8 => 0
  | usize => 0

/-- The greatest integer of the type that a signed word of 64 bits holds. -/
def high : IntWidth → Int
  | i8 => 0x7F
  | i16 => 0x7FFF
  | i32 => 0x7FFFFFFF
  | i64 => 0x7FFFFFFFFFFFFFFF
  | u8 => 0xFF
  | usize => 0x7FFFFFFFFFFFFFFF

/-- Whether `value` is an integer of the type. -/
def contains (width : IntWidth) (value : Int64) : Bool :=
  width.low ≤ value.toInt && value.toInt ≤ width.high

/-- The name of the type. -/
def name : IntWidth → String
  | i8 => "i8"
  | i16 => "i16"
  | i32 => "i32"
  | i64 => "i64"
  | u8 => "u8"
  | usize => "usize"

/-- All integer types. -/
def all : List IntWidth := [i8, i16, i32, i64, u8, usize]

/-- The type of this name. -/
def ofName? (name : String) : Option IntWidth :=
  all.find? fun width => width.name == name

/-- The letter of the type. -/
def letter : IntWidth → Char
  | i8 => 'c'
  | i16 => 's'
  | i32 => 'i'
  | i64 => 'q'
  | u8 => 'C'
  | usize => 'z'

/-- A width contains the numbers between its bounds. -/
theorem contains_iff {width : IntWidth} {value : Int64} :
    width.contains value = true ↔ width.low ≤ value.toInt ∧ value.toInt ≤ width.high := by
  simp [contains]

end IntWidth

/-- The kind of value that a token stands for. -/
inductive TypeKind
  | bool
  | int (width : IntWidth)
  | float
  | text
  | object (constraint : Option String)
  | pointer
deriving DecidableEq

namespace TypeKind

/-- The name of the kind in messages about arguments. -/
def describe : TypeKind → String
  | bool => "bool"
  | int width => "int (" ++ width.name ++ ")"
  | float => "float"
  | text => "str"
  | object (some cls) => cls
  | object none => "object"
  | pointer => "pointer"

/-- The letter of the kind, with the class it asks for. -/
def encode : TypeKind → List Char
  | bool => ['B']
  | int width => [width.letter]
  | float => ['d']
  | text => ['T']
  | object none => ['@']
  | object (some cls) => '@' :: '<' :: cls.toList ++ ['>']
  | pointer => ['^']

/-- A constraint that can be written down: a name without `>` that is not empty. -/
def WellFormed : TypeKind → Prop
  | object (some cls) => cls.toList ≠ [] ∧ '>' ∉ cls.toList
  | _ => True

end TypeKind

/-- What a parameter takes or a method returns. -/
structure TypeSpec where
  kind : TypeKind
  nullable : Bool
deriving DecidableEq

namespace TypeSpec

/-- Whether values of this type can cross the boundary. -/
def isBindable (spec : TypeSpec) : Bool :=
  spec.kind != .pointer

/-- The token of the type. -/
def encode (spec : TypeSpec) : List Char :=
  (if spec.nullable then ['?'] else []) ++ spec.kind.encode

end TypeSpec

/-- The return token. -/
inductive ReturnType
  | void
  | value (spec : TypeSpec)
deriving DecidableEq

namespace ReturnType

/-- Whether what is returned can cross the boundary. -/
def isBindable : ReturnType → Bool
  | void => true
  | value spec => spec.isBindable

/-- The token of the return type. -/
def encode : ReturnType → List Char
  | void => ['v']
  | value spec => spec.encode

end ReturnType

/-- The types of a native method. -/
structure Signature where
  ret : ReturnType
  params : List TypeSpec
deriving DecidableEq

namespace Signature

/-- The tokens of the signature, one after the other. -/
def encodeChars (s : Signature) : List Char :=
  s.ret.encode ++ s.params.flatMap TypeSpec.encode

/-- The signature written down. -/
def encode (s : Signature) : String :=
  String.ofList s.encodeChars

/-- Whether no raw pointer is returned or taken. -/
def isBindable (s : Signature) : Bool :=
  s.ret.isBindable && s.params.all TypeSpec.isBindable

end Signature

end Interop

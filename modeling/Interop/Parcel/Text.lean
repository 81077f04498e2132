/-
# Texts

A text counts its characters by code points.  Joining two texts makes a new object
of the class of the first; the text of a text is the object itself with one more
reference.  The functions of the helper class are here too.
-/

import Interop.Heap.Native
import Interop.Numeral
import Interop.Text.Blank

namespace Interop
namespace Parcel
namespace Text

/-- Makes a text with the characters of the argument. -/
def make (cls : Class) (args : List Arg) : NativeM Ret := do
  let value ← (← argAt args 0).toText
  return .incremented (← NativeM.alloc cls (.str value))

/-- The number of code points. -/
def length (p : ObjId) : NativeM Ret := do
  let text ← (Arg.object p).toText
  return .int (Int64.ofNat text.length)

/-- Whether the text begins with the argument. -/
def startsWith (p : ObjId) (args : List Arg) : NativeM Ret := do
  let beginning ← (← argAt args 0).toText
  let text ← (Arg.object p).toText
  return .bool (beginning.toList.isPrefixOf text.toList)

/-- A new text, of the same class, that goes on with the argument. -/
def concat (p : ObjId) (args : List Arg) : NativeM Ret := do
  let other ← (← argAt args 0).toText
  let text ← (Arg.object p).toText
  let o ← NativeM.object p
  return .incremented (← NativeM.alloc o.cls (.str (text ++ other)))

/-- Whether the argument is an object with the same text. -/
def equals (p : ObjId) (args : List Arg) : NativeM Ret := do
  match ← (← argAt args 0).toObject? with
  | none => return .bool false
  | some q =>
    match (← NativeM.object q).payload.text? with
    | none => return .bool false
    | some other => return .bool ((← NativeM.object p).payload.text? == some other)

/-- The text itself with one more reference. -/
def toText (p : ObjId) : NativeM Ret := do
  return .incremented (← NativeM.retain p)

/-- The place of the characters in memory. -/
def bytes (p : ObjId) : NativeM Ret := do
  let _ ← (Arg.object p).toText
  return .pointer (Heap.address p)

/-- Whether the argument is the code point of a blank. -/
def isWhitespace (args : List Arg) : NativeM Ret := do
  let code ← (← argAt args 0).toInt
  return .bool (0 ≤ code.toInt && Interop.Text.isBlankCode code.toInt.toNat)

/-- The numeral of the argument in base 36 as a new text. -/
def toBase36 (args : List Arg) : NativeM Ret := do
  let value ← (← argAt args 0).toInt
  if value.toInt < 0 then NativeM.fail "to_base36 requires a non-negative number"
  else return .incremented (← NativeM.newString (Numeral.base36 value.toInt.toNat))

end Text
end Parcel
end Interop

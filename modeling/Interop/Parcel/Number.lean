/-
# Integers, floats and truth values

Two numbers are equal when their values as floats are, so an integer may equal a
float, and integers that the same float stands for are equal to each other.
An object without a number in it answers zero and equals nothing.
-/

import Interop.Heap.Native

namespace Interop
namespace Parcel
namespace Number

/-- Makes an integer. -/
def makeInteger (cls : Class) (args : List Arg) : NativeM Ret := do
  let value ← (← argAt args 0).toInt
  return .incremented (← NativeM.alloc cls (.integer value))

/-- Makes a float. -/
def makeFloat (cls : Class) (args : List Arg) : NativeM Ret := do
  let value ← (← argAt args 0).toFloat
  return .incremented (← NativeM.alloc cls (.float value))

/-- The value of an integer. -/
def integerValue (p : ObjId) : NativeM Ret := do
  return .int ((← NativeM.object p).payload.integer?.getD 0)

/-- The value of a float. -/
def floatValue (p : ObjId) : NativeM Ret := do
  return .float ((← NativeM.object p).payload.float?.getD (Float.ofInt 0))

/-- The value of a truth value. -/
def booleanValue (p : ObjId) : NativeM Ret := do
  return .bool ((← NativeM.object p).payload.boolean?.getD false)

/-- Whether two payloads hold numbers with equal values. -/
def sameValue (a b : Payload) : Bool :=
  match a.numeric?, b.numeric? with
  | some x, some y => x == y
  | _, _ => false

/-- Whether the argument is a number with the same value. -/
def equals (p : ObjId) (args : List Arg) : NativeM Ret := do
  match ← (← argAt args 0).toObject? with
  | none => return .bool false
  | some q =>
    return .bool (sameValue (← NativeM.object p).payload (← NativeM.object q).payload)

/-- The text of a number or a truth value, and the class name of anything else. -/
def textOf (o : Obj) : String :=
  match o.payload with
  | .integer value => toString value.toInt
  | .float value => Decimal.plain.ofFloat value
  | .boolean value => Interop.Text.boolText value
  | _ => o.cls.name

/-- The text of the object as a new text. -/
def toText (p : ObjId) : NativeM Ret := do
  return .incremented (← NativeM.newString (textOf (← NativeM.object p)))

end Number
end Parcel
end Interop

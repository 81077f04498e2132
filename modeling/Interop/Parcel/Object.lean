/-
# What every object can do

The methods of the root class: counting references, naming and testing the class,
identity, and a text with the address.  A class name that nobody registered is
simply not matched.
-/

import Interop.Heap.Native

namespace Interop
namespace Parcel
namespace Object

/-- The number of references to the object. -/
def count (p : ObjId) : NativeM Ret := do
  return .int (Int64.ofNat (← NativeM.object p).refcount)

/-- The object with one more reference, which the caller owns. -/
def retain (p : ObjId) : NativeM Ret := do
  return .incremented (← NativeM.retain p)

/-- Gives one reference back and returns how many are left. -/
def release (p : ObjId) : NativeM Ret := do
  return .int (Int64.ofNat (← NativeM.release p))

/-- The name of the class as a new text. -/
def className (p : ObjId) : NativeM Ret := do
  return .incremented (← NativeM.newString (← NativeM.object p).cls.name)

/-- Whether the class of the object descends from the one named, as the whole
program knows that name. -/
def isA (p : ObjId) (args : List Arg) : NativeM Ret := do
  let name ← (← argAt args 0).toText
  let global ← NativeM.consult
  let o ← NativeM.object p
  match global.fetch name with
  | .ok c => return .bool (o.isA c)
  | .error _ => return .bool false

/-- Whether the argument is this very object. -/
def equals (p : ObjId) (args : List Arg) : NativeM Ret := do
  let other ← (← argAt args 0).toObject?
  return .bool (other == some p)

/-- The class name and the address as a new text. -/
def toText (p : ObjId) : NativeM Ret := do
  let o ← NativeM.object p
  return .incremented (← NativeM.newString (o.cls.name ++ "@" ++ Heap.addressText p))

end Object
end Parcel
end Interop

/-
# Errors

An error carries a message that can grow.  Throwing an error again takes a
reference to it for the way up.
-/

import Interop.Heap.Native

namespace Interop
namespace Parcel
namespace Failure

/-- Makes an error. -/
def make (cls : Class) (args : List Arg) : NativeM Ret := do
  let message ← (← argAt args 0).toText
  return .incremented (← NativeM.alloc cls (.err message))

/-- Throws that an object is no error. -/
def refuse {α : Type} (o : Obj) : NativeM α :=
  NativeM.fail (o.cls.name ++ " is not an error")

/-- The message as a new text. -/
def message (p : ObjId) : NativeM Ret := do
  let o ← NativeM.object p
  match o.payload.message? with
  | some text => return .incremented (← NativeM.newString text)
  | none => refuse o

/-- Adds the argument at the end of the message. -/
def append (p : ObjId) (args : List Arg) : NativeM Ret := do
  let extra ← (← argAt args 0).toText
  let o ← NativeM.object p
  match o.payload.message? with
  | some text =>
    NativeM.setPayload p (.err (text ++ extra))
    return .void
  | none => refuse o

/-- Throws the argument again. -/
def rethrow (args : List Arg) : NativeM Ret := do
  match ← (← argAt args 0).toObject? with
  | none => NativeM.fail "Can't rethrow a null error"
  | some p => throw ⟨← NativeM.retain p⟩

end Failure
end Parcel
end Interop

/-
# Hashes

A hash maps texts to objects and owns a reference to each of its values.  Storing
takes a reference to the new value before it looks at the receiver, and gives the
replaced one back after it is out of the hash.  Deleting hands the hash's own
reference to the caller.
-/

import Interop.Heap.Native

namespace Interop
namespace Parcel
namespace Hash

/-- The entries of a hash. -/
def entries (p : ObjId) : NativeM (KeyMap ObjId) := do
  let o ← NativeM.object p
  match o.payload with
  | .hash entries => return entries
  | _ => NativeM.fail (o.cls.name ++ " is not a hash")

/-- The capacity asked for, nothing being asked by null and by negative
numbers. -/
def capacity : Arg → NativeM Nat
  | .null => pure 0
  | arg => return (← arg.toInt).toInt.toNat

/-- Makes an empty hash. -/
def make (cls : Class) (args : List Arg) : NativeM Ret := do
  let room ← capacity (← argAt args 0)
  if ← NativeM.reserve Memory.hashRoom room then
    return .incremented (← NativeM.alloc cls (.hash .empty))
  else NativeM.fail ("Cannot allocate a hash of capacity " ++ toString room)

/-- Puts a value under a key. -/
def store (p : ObjId) (args : List Arg) : NativeM Ret := do
  let key ← (← argAt args 0).toText
  match ← (← argAt args 1).toObject? with
  | none => NativeM.fail "Hash values cannot be null"
  | some q =>
    let value ← NativeM.retain q
    let old ← entries p
    NativeM.setPayload p (.hash (old.insert key value))
    match old.get? key with
    | some replaced => let _ ← NativeM.release replaced
    | none => pure ()
    return .void

/-- The value under a key with one more reference, or null. -/
def fetch (p : ObjId) (args : List Arg) : NativeM Ret := do
  let key ← (← argAt args 0).toText
  match (← entries p).get? key with
  | some value => return .incremented (← NativeM.retain value)
  | none => return .null

/-- Takes the value under a key out of the hash and returns it, or null. -/
def delete (p : ObjId) (args : List Arg) : NativeM Ret := do
  let key ← (← argAt args 0).toText
  let old ← entries p
  match old.get? key with
  | some value =>
    NativeM.setPayload p (.hash (old.erase key))
    return .incremented value
  | none => return .null

/-- Whether there is a value under a key. -/
def hasKey (p : ObjId) (args : List Arg) : NativeM Ret := do
  let key ← (← argAt args 0).toText
  return .bool ((← entries p).contains key)

/-- The number of keys. -/
def size (p : ObjId) : NativeM Ret := do
  return .int (Int64.ofNat (← entries p).size)

/-- Makes a text of each key in turn. -/
def keyStrings : List String → NativeM (List (Option ObjId))
  | [] => return []
  | key :: rest => do
    let p ← NativeM.newString key
    return some p :: (← keyStrings rest)

/-- A new vector of the keys, ascending. -/
def keys (p : ObjId) : NativeM Ret := do
  let names := (← entries p).keys
  return .incremented (← NativeM.alloc Parcel.vector (.vector (← keyStrings names)))

/-- Empties the hash and gives its references back. -/
def destroy (p : ObjId) : NativeM Ret := do
  match (← NativeM.object p).payload with
  | .hash entries =>
    NativeM.setPayload p (.hash .empty)
    NativeM.releaseAll entries.values
    return .void
  | _ => return .void

end Hash
end Parcel
end Interop

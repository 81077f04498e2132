/-
# Vectors

A vector is a list of objects and nulls and owns a reference to each object in it.
Places are counted from zero.  Appending all of another vector takes the references
before it appends, so a vector can be appended to itself.
-/

import Interop.Parcel.Hash

namespace Interop
namespace Parcel
namespace Vector

/-- The elements of a vector. -/
def elements (p : ObjId) : NativeM (List (Option ObjId)) := do
  let o ← NativeM.object p
  match o.payload with
  | .vector elements => return elements
  | _ => NativeM.fail (o.cls.name ++ " is not a vector")

/-- A place in a vector. -/
def tick (arg : Arg) : NativeM Nat := do
  let value ← arg.toInt
  if value.toInt < 0 then NativeM.fail "Tick cannot be negative"
  else return value.toInt.toNat

/-- Takes a reference to an element that may be null. -/
def retain : Option ObjId → NativeM (Option ObjId)
  | none => return none
  | some p => return some (← NativeM.retain p)

/-- The capacity asked for, nothing being asked by null. -/
def capacity : Arg → NativeM Nat
  | .null => pure 0
  | arg => tick arg

/-- Makes an empty vector. -/
def make (cls : Class) (args : List Arg) : NativeM Ret := do
  let room ← capacity (← argAt args 0)
  if ← NativeM.reserve Memory.vectorRoom room then
    return .incremented (← NativeM.alloc cls (.vector []))
  else NativeM.fail ("Cannot allocate a vector of capacity " ++ toString room)

/-- Appends one element. -/
def push (p : ObjId) (args : List Arg) : NativeM Ret := do
  let element ← retain (← (← argAt args 0).toObject?)
  let old ← elements p
  NativeM.setPayload p (.vector (old ++ [element]))
  return .void

/-- Takes a reference to each element; `taken`, the references taken so far, are
given back if one cannot be had. -/
def retainAll (taken : List ObjId) : List (Option ObjId) → NativeM Unit
  | [] => return ()
  | none :: rest => retainAll taken rest
  | some p :: rest => do
    match (← get).retain p with
    | .ok h =>
      set h
      retainAll (taken ++ [p]) rest
    | .error e =>
      let failure ← NativeM.alloc Parcel.err (.err e.message)
      NativeM.releaseAll taken
      throw ⟨failure⟩

/-- Appends the elements of another vector. -/
def pushAll (p : ObjId) (args : List Arg) : NativeM Ret := do
  match ← (← argAt args 0).toObject? with
  | none => NativeM.fail "Push_All requires a vector"
  | some q =>
    let source ← elements q
    retainAll [] source
    let old ← elements p
    NativeM.setPayload p (.vector (old ++ source))
    return .void

/-- Puts an element at a place, moving those from there on up by one. -/
def insert (p : ObjId) (args : List Arg) : NativeM Ret := do
  let place ← tick (← argAt args 0)
  let element ← (← argAt args 1).toObject?
  let old ← elements p
  if place > old.length then
    NativeM.fail ("Tick " ++ toString place ++ " out of bounds for vector of size " ++
      toString old.length)
  else
    let owned ← retain element
    NativeM.setPayload p (.vector (old.take place ++ owned :: old.drop place))
    return .void

/-- The element at a place with one more reference, or null. -/
def fetch (p : ObjId) (args : List Arg) : NativeM Ret := do
  let place ← tick (← argAt args 0)
  match (← elements p)[place]? with
  | some (some element) => return .incremented (← NativeM.retain element)
  | _ => return .null

/-- Takes the last element out of the vector and returns it, or null. -/
def pop (p : ObjId) : NativeM Ret := do
  let old ← elements p
  match old.getLast? with
  | none => return .null
  | some last =>
    NativeM.setPayload p (.vector old.dropLast)
    match last with
    | some element => return .incremented element
    | none => return .null

/-- The number of elements. -/
def size (p : ObjId) : NativeM Ret := do
  return .int (Int64.ofNat (← elements p).length)

/-- Empties the vector and gives its references back. -/
def destroy (p : ObjId) : NativeM Ret := do
  match (← NativeM.object p).payload with
  | .vector elements =>
    NativeM.setPayload p (.vector [])
    NativeM.releaseAll (elements.filterMap id)
    return .void
  | _ => return .void

end Vector
end Parcel
end Interop

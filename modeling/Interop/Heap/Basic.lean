/-
# The heap of native objects

An object has a class, a reference count and a payload.  Objects are named by their
place in the heap; a place is never used twice, so a name that has outlived its
object names nothing, and two objects are the same exactly when their names are.

Whoever holds a name either owns one of the references that the count counts or
borrows it from an owner.  `retain` takes a reference.  Giving one back may run
native code, so that is left to `Interop.Machine`.  An immortal object has no
count to speak of: it always reports one reference and is never freed.

`live` counts the mortal objects that exist; `alloc` and `free` keep it.
-/

import Interop.Decimal.Format
import Interop.Parcel.Classes

namespace Interop

/-- The name of an object: its place in the heap. -/
structure ObjId where
  index : Nat
deriving DecidableEq

/-- What an object holds. -/
inductive Payload
  | empty
  | str (text : String)
  | integer (value : Int64)
  | float (value : Float)
  | boolean (value : Bool)
  /-- Values by key; the hash owns a reference to each. -/
  | hash (entries : KeyMap ObjId)
  /-- Elements in order, some of them null; the vector owns a reference to each
  of the others. -/
  | vector (elements : List (Option ObjId))
  /-- The message of an error. -/
  | err (message : String)

namespace Payload

/-- The references that the payload owns, one entry for each. -/
def references : Payload → List ObjId
  | hash entries => entries.values
  | vector elements => elements.filterMap id
  | _ => []

/-- The text of a text. -/
def text? : Payload → Option String
  | str text => some text
  | _ => none

/-- The value of an integer. -/
def integer? : Payload → Option Int64
  | integer value => some value
  | _ => none

/-- The value of a float. -/
def float? : Payload → Option Float
  | float value => some value
  | _ => none

/-- The value of a truth value. -/
def boolean? : Payload → Option Bool
  | boolean value => some value
  | _ => none

/-- The message of an error. -/
def message? : Payload → Option String
  | err message => some message
  | _ => none

/-- The value of a number as a float. -/
def numeric? : Payload → Option Float
  | integer value => some (Float.ofInt value.toInt)
  | float value => some value
  | _ => none

end Payload

/-- An object. -/
structure Obj where
  cls : Class
  immortal : Bool
  refcount : Nat
  payload : Payload

namespace Obj

/-- Whether the class of the object is `c` or descends from it. -/
def isA (o : Obj) (c : Class) : Bool :=
  o.cls.isSubclassOf c

/-- The object with some of its parts. -/
def describe (o : Obj) : String :=
  Text.openRecord "Obj" [
    ("class", Text.quote o.cls.name),
    ("refcount", toString o.refcount),
    ("immortal", Text.boolText o.immortal)]

/-- What is read where there is no object. -/
def vacant : Obj := ⟨Parcel.obj, false, 0, .empty⟩

end Obj

/-- The greatest reference count. -/
def maxCount : Nat := 0xFFFFFFFF

/-- What no caller can recover from. -/
inductive Fault
  /-- Calls were nested more deeply than the stack allows. -/
  | stackExhausted
  /-- A reference was given back that nobody owned. -/
  | countUnderflow
deriving DecidableEq

/-- All objects.  A fault that has occurred stays recorded. -/
structure Heap where
  cells : Array (Option Obj)
  live : Nat
  fault : Option Fault
  /-- Whether native code has looked at the classes of the whole program. -/
  consulted : Bool

namespace Heap

/-- The object named `p`, if it exists. -/
def get? (h : Heap) (p : ObjId) : Option Obj :=
  (h.cells[p.index]?).join

/-- The object named `p`, which the caller knows to exist. -/
def obj (h : Heap) (p : ObjId) : Obj :=
  (h.get? p).getD Obj.vacant

/-- The heap with the object named `p` changed by `f`. -/
def modify (h : Heap) (p : ObjId) (f : Obj → Obj) : Heap :=
  match h.get? p with
  | some o => { h with cells := h.cells.setIfInBounds p.index (some (f o)) }
  | none => h

/-- The heap with another count for `p`. -/
def setCount (h : Heap) (p : ObjId) (count : Nat) : Heap :=
  h.modify p fun o => { o with refcount := count }

/-- The heap with another payload for `p`. -/
def setPayload (h : Heap) (p : ObjId) (payload : Payload) : Heap :=
  h.modify p fun o => { o with payload }

/-- A new object with one reference, which the caller owns. -/
def alloc (h : Heap) (cls : Class) (payload : Payload) : ObjId × Heap :=
  let immortal := cls.hasImmortalInstances
  (⟨h.cells.size⟩, { h with
    cells := h.cells.push (some ⟨cls, immortal, 1, payload⟩)
    live := if immortal then h.live else h.live + 1 })

/-- The heap without the mortal object `p`. -/
def free (h : Heap) (p : ObjId) : Heap :=
  { h with cells := h.cells.setIfInBounds p.index none, live := h.live - 1 }

/-- The heap with one more reference to `p`. -/
def retain (h : Heap) (p : ObjId) : Except BridgeError Heap :=
  let o := h.obj p
  if o.immortal then .ok h
  else if o.refcount < maxCount then .ok (h.setCount p (o.refcount + 1))
  else .error .countOverflow

/-- The heap with a fault on record; the first one stays. -/
def recordFault (h : Heap) (fault : Fault) : Heap :=
  { h with fault := h.fault.or (some fault) }

/-- The heap once native code has looked at the classes of the whole program. -/
def markConsulted (h : Heap) : Heap :=
  { h with consulted := true }

/-- The heap after references were given back in turn. -/
def giveBackAll (release : ObjId → Heap → Nat × Heap) (ps : List ObjId) (h : Heap) : Heap :=
  ps.foldl (fun h p => (release p h).2) h

/-- The name of the immortal object for `value`. -/
def booleanId (value : Bool) : ObjId :=
  if value then ⟨0⟩ else ⟨1⟩

/-- The heap in which a program starts: it holds the two truth values. -/
def initial : Heap :=
  let (_, h) := alloc ⟨#[], 0, none, false⟩ Parcel.boolean (.boolean true)
  (h.alloc Parcel.boolean (.boolean false)).2

/-- The address that stands for an object in texts. -/
def address (p : ObjId) : Nat :=
  0x7f0000000000 + 16 * p.index

/-- The address in hexadecimal. -/
def addressText (p : ObjId) : String :=
  "0x" ++ String.ofList (Nat.toDigits 16 (address p))

/-- A reference as it is printed. -/
def describeId (p : ObjId) : String :=
  Text.wrapped "ObjPtr" (addressText p)

/-- Different objects have different addresses. -/
theorem address_injective {p q : ObjId} (h : address p = address q) : p = q := by
  obtain ⟨p⟩ := p
  obtain ⟨q⟩ := q
  simp only [address, ObjId.mk.injEq] at h ⊢
  omega

end Heap

end Interop

/-
# Native code

Native code works on the heap, may throw an error object, and can ask its
environment to give a reference back, to look up a class among those of the whole
program and to reserve memory.  Arguments are borrowed for the length of a call.  A value that is
returned `incremented` hands one reference to the caller; a `borrowed` one hands
over none.  What is thrown hands over one reference to the error object.
-/

import Interop.Heap.Basic

namespace Interop

/-- An argument of native code. -/
inductive Arg
  | null
  | bool (value : Bool)
  | int (value : Int64)
  | float (value : Float)
  | object (p : ObjId)

/-- What native code returns. -/
inductive Ret
  | void
  | null
  | bool (value : Bool)
  | int (value : Int64)
  | float (value : Float)
  | incremented (p : ObjId)
  | borrowed (p : ObjId)
  | pointer (address : Nat)

/-- An error object on its way up, with one reference to it. -/
structure Thrown where
  object : ObjId
deriving DecidableEq

/-- For how many entries memory can be reserved at once.  Which requests below the
bounds are granted is up to the allocator. -/
structure Memory where
  hashRoom : Nat → Bool
  vectorRoom : Nat → Bool
  /-- Nothing has to be reserved for no entries. -/
  hashRoom_zero : hashRoom 0 = true
  vectorRoom_zero : vectorRoom 0 = true
  /-- A hash has more slots than entries, and a power of two of them.  Each takes 32 bytes,
  a text of 24 and an address of 8, and no allocation has `2 ^ 63` bytes or more. -/
  hashRoom_bounded : ∀ n, hashRoom n = true → n < 0x200000000000000
  /-- An element of a vector takes the 8 bytes of an address. -/
  vectorRoom_bounded : ∀ n, vectorRoom n = true → n < 0x1000000000000000

/-- A memory in which nothing can be reserved. -/
def Memory.full : Memory where
  hashRoom n := n == 0
  vectorRoom n := n == 0
  hashRoom_zero := rfl
  vectorRoom_zero := rfl
  hashRoom_bounded n h := by simp_all
  vectorRoom_bounded n h := by simp_all

/-- What native code can ask for. -/
structure NativeEnv where
  /-- Gives one reference back and says how many are left. -/
  release : ObjId → Heap → Nat × Heap
  /-- The classes of the whole program. -/
  global : Registry
  memory : Memory

/-- Native code with a result in `α`. -/
abbrev NativeM (α : Type) := ReaderT NativeEnv (EStateM Thrown Heap) α

namespace Heap

/-- How an argument is printed. -/
def describeArg (h : Heap) : Arg → String
  | .null => "Null"
  | .bool value => Text.wrapped "Bool" (Text.boolText value)
  | .int value => Text.wrapped "Int" (toString value.toInt)
  | .float value => Text.wrapped "Float" (Decimal.exact.ofFloat value)
  | .object p => Text.wrapped "Obj" (h.obj p).describe

/-- The message of an error object, and the class name of any other object. -/
def thrownMessage (h : Heap) (t : Thrown) : String :=
  let o := h.obj t.object
  o.payload.message?.getD o.cls.name

/-- How an error on its way up is printed. -/
def describeThrown (h : Heap) (t : Thrown) : String :=
  Text.record "Thrown" [
    ("class", Text.quote (h.obj t.object).cls.name),
    ("message", Text.quote (h.thrownMessage t))]

end Heap

/-- How a returned value is printed. -/
def Ret.describe : Ret → String
  | .void => "Void"
  | .null => "Null"
  | .bool value => Text.wrapped "Bool" (Text.boolText value)
  | .int value => Text.wrapped "Int" (toString value.toInt)
  | .float value => Text.wrapped "Float" (Decimal.exact.ofFloat value)
  | .incremented p => Text.wrapped "Incremented" (Heap.describeId p)
  | .borrowed p => Text.wrapped "Borrowed" (Heap.describeId p)
  | .pointer address =>
    Text.wrapped "Pointer" ("0x" ++ String.ofList (Nat.toDigits 16 address))

namespace NativeM

/-- The object named `p`. -/
def object (p : ObjId) : NativeM Obj :=
  return (← get).obj p

/-- Makes an object and owns its one reference. -/
def alloc (cls : Class) (payload : Payload) : NativeM ObjId :=
  modifyGet fun h => h.alloc cls payload

/-- Makes a text and owns its one reference. -/
def newString (text : String) : NativeM ObjId :=
  alloc Parcel.string (.str text)

/-- The classes of the whole program.  That they were looked at is noted. -/
def consult : NativeM Registry := do
  modify Heap.markConsulted
  return (← read).global

/-- Whether room for `n` entries can be reserved. -/
def reserve (room : Memory → Nat → Bool) (n : Nat) : NativeM Bool :=
  return room (← read).memory n

/-- Gives one reference back and says how many are left. -/
def release (p : ObjId) : NativeM Nat :=
  fun env => modifyGet (env.release p)

/-- Gives several references back in turn. -/
def releaseAll : List ObjId → NativeM Unit
  | [] => pure ()
  | p :: rest => do
    let _ ← release p
    releaseAll rest

/-- Throws a new error of class `cls`. -/
def throwNew {α : Type} (cls : Class) (message : String) : NativeM α := do
  throw ⟨← alloc cls (.err message)⟩

/-- Throws a new plain error. -/
def fail {α : Type} (message : String) : NativeM α :=
  throwNew Parcel.err message

/-- Throws a failure of the bridge as a plain error. -/
def failWith {α : Type} (e : BridgeError) : NativeM α :=
  fail e.message

/-- Takes one more reference to `p`. -/
def retain (p : ObjId) : NativeM ObjId := do
  match (← get).retain p with
  | .ok h =>
    set h
    return p
  | .error e => failWith e

/-- Puts another payload into `p`. -/
def setPayload (p : ObjId) (payload : Payload) : NativeM Unit :=
  modify fun h => h.setPayload p payload

end NativeM

/-- Throws that `arg` is not what was expected. -/
def Arg.unexpected {α : Type} (expected : String) (arg : Arg) : NativeM α := do
  NativeM.fail ("Expected " ++ expected ++ ", got " ++ (← get).describeArg arg)

/-- The argument at `index`. -/
def argAt (args : List Arg) (index : Nat) : NativeM Arg :=
  match args[index]? with
  | some arg => pure arg
  | none => NativeM.fail ("Missing argument " ++ toString index)

namespace Arg

/-- The integer that the argument is. -/
def toInt : Arg → NativeM Int64
  | .int value => pure value
  | arg => arg.unexpected "integer"

/-- The number that the argument is, as a float. -/
def toFloat : Arg → NativeM Float
  | .float value => pure value
  | .int value => pure (Float.ofInt value.toInt)
  | arg => arg.unexpected "float"

/-- The truth value that the argument is. -/
def toBool : Arg → NativeM Bool
  | .bool value => pure value
  | arg => arg.unexpected "bool"

/-- The object that the argument is, or none for null. -/
def toObject? : Arg → NativeM (Option ObjId)
  | .object p => pure (some p)
  | .null => pure none
  | arg => arg.unexpected "object"

/-- The text of the object that the argument is. -/
def toText : Arg → NativeM String
  | .object p => do
    let o ← NativeM.object p
    match o.payload.text? with
    | some text => pure text
    | none => NativeM.fail ("Expected string, got " ++ o.cls.name)
  | arg => arg.unexpected "string"

end Arg

end Interop

/-
# Sample native code

A small image of native code to try a bridge with: code that returns each kind of
value, code that throws, code that hands references over, and constructors that put
each kind of payload into an object of the class they are called on.
-/

import Interop.Machine

namespace Interop
namespace Sample

/-- The argument as a result; an object is borrowed. -/
def echo : Arg → Ret
  | .null => .null
  | .bool b => .bool b
  | .int n => .int n
  | .float x => .float x
  | .object p => .borrowed p

/-- Code that needs neither an object nor a class. -/
def function (symbol : String) (args : List Arg) : NativeM Ret :=
  match symbol with
  | "zero" => return .int 0
  | "void" => return .void
  | "null" => return .null
  | "true" => return .bool true
  | "half" => return .float (Float.ofScientific 5 true 1)
  | "throw" => NativeM.fail "native boom"
  | "echo" => return echo (← argAt args 0)
  | "borrowed_true" => return .borrowed (Heap.booleanId true)
  | "count" => return .int (Int64.ofNat args.length)
  | "debug" => do
    let h ← get
    return .incremented (← NativeM.newString (Text.listing (args.map h.describeArg)))
  | "pointer" => return .pointer 0
  | "throw_text" => do NativeM.fail (← (← argAt args 0).toText)
  | "throw_error" => NativeM.failWith .registryFrozen
  | _ => NativeM.fail ("no such code: " ++ symbol)

/-- Code that is called on an object. -/
def method (symbol : String) (p : ObjId) (args : List Arg) : NativeM Ret :=
  match symbol with
  | "doubled" => return .int ((← NativeM.object p).payload.integer?.getD 0 * 2)
  | "self_borrowed" => return .borrowed p
  | "self_inc" => return .incremented (← NativeM.retain p)
  | "throw_self" => do throw ⟨← NativeM.retain p⟩
  | _ => function symbol args

/-- Makes an object of class `c` with this payload. -/
def make (c : Class) (payload : Payload) : NativeM Ret := do
  return .incremented (← NativeM.alloc c payload)

/-- Code that is called on a class. -/
def constructor (symbol : String) (c : Class) (args : List Arg) : NativeM Ret :=
  match symbol with
  | "int" => do make c (.integer (← (← argAt args 0).toInt))
  | "float" => do make c (.float (← (← argAt args 0).toFloat))
  | "bool" => do make c (.boolean (← (← argAt args 0).toBool))
  | "str" => do make c (.str (← (← argAt args 0).toText))
  | "err" => do make c (.err (← (← argAt args 0).toText))
  | "empty" => make c .empty
  | "vector" => make c (.vector [])
  | "hash" => make c (.hash .empty)
  | _ => function symbol args

/-- A memory with addresses of 47 bits, all of which can be reserved. -/
def memory : Memory where
  hashRoom n := n * 32 < 0x800000000000
  vectorRoom n := n * 8 < 0x800000000000
  hashRoom_zero := rfl
  vectorRoom_zero := rfl
  hashRoom_bounded n h := by have := of_decide_eq_true h; omega
  vectorRoom_bounded n h := by have := of_decide_eq_true h; omega

/-- The image of the sample code. -/
def image : Image :=
  ⟨method, constructor, function, memory⟩

/-- A machine that runs the sample code. -/
def machine : Machine :=
  ⟨image, 1000⟩

end Sample
end Interop

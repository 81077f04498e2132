/-
# Running native code and giving references back

A machine knows what the symbols of native code mean, what memory its containers
can reserve and how deep calls may nest.
Giving back the last reference to a mortal object runs the method `Destroy` of its
class, drops what that method throws, and frees the object, whatever `Destroy` did.
`Destroy` may give references back itself, so teardown nests; when it nests more
deeply than the stack allows, that is a fault and is recorded in the heap.

The allowance for a release from outside is the number of mortal objects and the
headroom of the machine, and one more, so that there is always room for one release.
-/

import Interop.Parcel.Routines

namespace Interop

/-- What native code is linked with: the meaning of its symbols, and an allocator. -/
structure Image where
  onObject : String → ObjId → List Arg → NativeM Ret
  onClass : String → Class → List Arg → NativeM Ret
  onNothing : String → List Arg → NativeM Ret
  memory : Memory

namespace Image

/-- Native code that does nothing. -/
def idle : Image :=
  ⟨fun _ _ _ => return .void, fun _ _ _ => return .void, fun _ _ => return .void, .full⟩

/-- Runs an instance method. -/
def runOnObject (image : Image) (routine : Routine CoreMethod) (p : ObjId) (args : List Arg) :
    NativeM Ret :=
  match routine with
  | .core op => Parcel.runMethod p args op
  | .linked symbol => image.onObject symbol p args

/-- Runs a constructor. -/
def runOnClass (image : Image) (routine : Routine CoreConstructor) (cls : Class)
    (args : List Arg) : NativeM Ret :=
  match routine with
  | .core op => Parcel.runConstructor cls args op
  | .linked symbol => image.onClass symbol cls args

/-- Runs an inert function. -/
def runOnNothing (image : Image) (routine : Routine CoreFunction) (args : List Arg) :
    NativeM Ret :=
  match routine with
  | .core op => Parcel.runFunction args op
  | .linked symbol => image.onNothing symbol args

/-- Runs `Destroy` on an object whose last reference is gone and frees it. -/
def teardown (image : Image) (env : NativeEnv) (p : ObjId) (h : Heap) : Heap :=
  let done :=
    match (h.obj p).cls.method? "Destroy" with
    | some m =>
      match m.code with
      | .onObject routine =>
        match image.runOnObject routine p [] env h with
        | .ok _ h => h
        | .error thrown h => (env.release thrown.object h).2
      | _ => h
    | none => h
  done.free p

/-- Gives one reference to `p` back, with teardown nested `depth` deep at most, and
says how many references are left. -/
def releaseAt (image : Image) (global : Registry) : Nat → ObjId → Heap → Nat × Heap
  | 0, _, h => (0, h.recordFault .stackExhausted)
  | depth + 1, p, h =>
    let o := h.obj p
    if o.immortal then (1, h)
    else match o.refcount with
      | 0 => (0, h.recordFault .countUnderflow)
      | 1 => (0, image.teardown ⟨image.releaseAt global depth, global, image.memory⟩ p
        (h.setCount p 0))
      | left + 2 => (left + 1, h.setCount p (left + 1))

end Image

/-- What native code runs on. -/
structure Machine where
  image : Image
  /-- How deep calls may nest beyond the number of mortal objects. -/
  headroom : Nat

namespace Machine

/-- Gives one reference back. -/
def release (m : Machine) (global : Registry) (p : ObjId) (h : Heap) : Nat × Heap :=
  m.image.releaseAt global (h.live + m.headroom + 1) p h

/-- What native code that is called from outside can ask for. -/
def env (m : Machine) (global : Registry) : NativeEnv :=
  ⟨m.release global, global, m.image.memory⟩

end Machine

end Interop

/-
# Handles

A handle comes into being with a reference that it owns: `acquire` adopts one,
`wrap` and `tryClone` take a new one.  It gives its reference back exactly once, on
`release` or on `drop`, or hands it over with `intoRaw`.  What a second release does
is up to the policy of the handle; it never touches the object, which may be gone.

Reading the object through a handle that no longer owns its reference is refused;
the class is remembered and can always be read.
-/

import Interop.World

namespace Interop
namespace Handle

/-- The target of the records about handles. -/
def logTarget : String := "finbridge::bridge::handle"

/-- A handle that adopts a reference to `p`, with the policy of the program. -/
def acquire (p : ObjId) (w : World) : HandleId × World :=
  let (config, program) := w.program.current
  let state : HandleState := ⟨p, (w.obj p).cls, true, config.releasePolicy, 1⟩
  (⟨w.handles.size⟩, { w with program, handles := w.handles.push state })

/-- A handle with a new reference to `p`. -/
def wrap (p : ObjId) : CheckM HandleId := do
  World.retain p
  modifyGet (acquire p)

/-- The object of a handle that owns its reference. -/
def object (h : HandleId) : CheckM ObjId := do
  let state := (← get).handle h
  if state.owned then return state.object else throw .releasedHandle

/-- The number of references to the object of a handle. -/
def refcount (h : HandleId) : CheckM Nat := do
  let p ← object h
  return ((← get).obj p).refcount

/-- Takes one more reference to the object of a handle. -/
def retain (h : HandleId) : CheckM ObjId := do
  let p ← object h
  World.retain p
  return p

/-- The world with another policy for the handle. -/
def setPolicy (h : HandleId) (policy : ReleasePolicy) (w : World) : World :=
  w.modifyHandle h fun state => { state with policy }

/-- A second handle on the same object, with a reference of its own and the policy
of the first. -/
def tryClone (h : HandleId) : CheckM HandleId := do
  let p ← retain h
  let policy := ((← get).handle h).policy
  let clone ← modifyGet (acquire p)
  modify (setPolicy clone policy)
  return clone

/-- The reference of a handle, which from then on owns none. -/
def intoRaw (h : HandleId) : CheckM ObjId := do
  let p ← object h
  modify fun w => w.modifyHandle h fun state => { state with owned := false }
  return p

/-- What a handle without a reference does when it is released. -/
def releaseAgain (state : HandleState) : CheckM Unit := do
  match state.policy with
  | .strict =>
    modify fun w => w.log .error logTarget ("double release of " ++ state.cls.name ++ " handle")
    throw (.doubleRelease state.cls.name)
  | .lenient =>
    modify fun w =>
      w.log .warn logTarget ("ignoring double release of " ++ state.cls.name ++ " handle")

/-- Gives back the reference of a handle that owns one. -/
def surrender (m : Machine) (h : HandleId) (w : World) : World :=
  let w := w.modifyHandle h fun state => { state with owned := false }
  (w.release m (w.handle h).object).2

/-- Releases a handle. -/
def release (m : Machine) (h : HandleId) : CheckM Unit := do
  let state := (← get).handle h
  if state.owned then modify (surrender m h) else releaseAgain state

/-- The world with one more wrapper that shares the handle. -/
def share (h : HandleId) (w : World) : World :=
  w.modifyHandle h fun state => { state with shares := state.shares + 1 }

/-- Drops one of the wrappers that share a handle, and the handle with the last. -/
def drop (m : Machine) (h : HandleId) (w : World) : World :=
  let left := (w.handle h).shares - 1
  let w := w.modifyHandle h fun state => { state with shares := left }
  if left = 0 ∧ (w.handle h).owned then surrender m h w else w

/-- The handle with some of its parts. -/
def describe (state : HandleState) : String :=
  Text.openRecord "NativeHandle" [
    ("ptr", Heap.describeId state.object),
    ("class", Text.quote state.cls.name),
    ("owned", Text.boolText state.owned),
    ("policy", state.policy.name)]

/-- Whether the class of a handle descends from the one that `name` stands for in
`registry`.  The name is looked up first, so a name that stands for nothing is
refused whatever the handle. -/
def isA (registry : Registry) (state : HandleState) (name : String) :
    Except BridgeError Bool :=
  match registry.fetch name with
  | .ok c => .ok (state.cls.isSubclassOf c)
  | .error e => .error e

end Handle
end Interop

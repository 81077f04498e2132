/-
# Native results as host values

Texts and numbers are copied, vectors become lists and hashes become dicts, element
by element; every other object is wrapped.  A container that holds itself is wrapped
where it comes up again on the way down, so copying ends.

`copyPlan` says what the copy looks like, with the names of the objects that are to
be wrapped at its leaves; it only reads the heap.  `wrapLeaves` then takes the
references, from left to right.
-/

import Interop.Call.Frame
import Interop.Host.Wrapper

namespace Interop
namespace Conversion

/-- The plan for the object `p` below the containers in `path`, at most `depth` levels
down. -/
def copyPlan (h : Heap) : Nat → List ObjId → ObjId → Value ObjId
  | 0, _, p => .object p
  | depth + 1, path, p =>
    match (h.obj p).payload with
    | .str text => .str text
    | .integer value => .int value
    | .float value => .float value
    | .boolean value => .bool value
    | .vector elements =>
      if p ∈ path then .object p
      else .list (elements.map fun
        | some q => copyPlan h depth (p :: path) q
        | none => .null)
    | .hash entries =>
      if p ∈ path then .object p
      else .dict (entries.entries.map fun e => (e.1, copyPlan h depth (p :: path) e.2))
    | _ => .object p

/-- The plan for a whole object.  A path has no object twice, so it cannot be longer
than the heap. -/
def planFor (h : Heap) (p : ObjId) : Value ObjId :=
  copyPlan h (h.cells.size + 1) [] p

mutual

/-- The value with a new wrapper for each object. -/
def wrapLeaves (m : Machine) : Value ObjId → CheckM HostValue
  | .null => return .null
  | .bool value => return .bool value
  | .int value => return .int value
  | .float value => return .float value
  | .str value => return .str value
  | .object p => do
    let o ← Wrapper.wrap p
    return .object o
  | .list items => do
    let done ← wrapList m [] items
    return .list done
  | .dict entries => do
    let done ← wrapEntries m [] entries
    return .dict done

/-- The list `done` and the values after it with new wrappers. -/
def wrapList (m : Machine) (done : List HostValue) :
    List (Value ObjId) → CheckM (List HostValue)
  | [] => return done
  | v :: rest => do
    let x ← World.onRefusal (wrapLeaves m v) (HostValue.drop m (.list done))
    wrapList m (done ++ [x]) rest

/-- The pairs `done` and the pairs after them with new wrappers. -/
def wrapEntries (m : Machine) (done : List (String × HostValue)) :
    List (String × Value ObjId) → CheckM (List (String × HostValue))
  | [] => return done
  | e :: rest => do
    let x ← World.onRefusal (wrapLeaves m e.2) (HostValue.drop m (.dict done))
    wrapEntries m (done ++ [(e.1, x)]) rest

end

/-- The host value of an object that somebody else owns. -/
def objectToHost (m : Machine) (p : ObjId) : CheckM HostValue := do
  wrapLeaves m (planFor (← get).heap p)

/-- The host value of a native result.  A reference that is handed over is kept by a
handle for as long as the conversion takes. -/
def toHost (m : Machine) : Ret → CheckM HostValue
  | .void => return .null
  | .null => return .null
  | .bool value => return .bool value
  | .int value => return .int value
  | .float value => return .float value
  | .borrowed p => objectToHost m p
  | .incremented p => do
    let h ← modifyGet (Handle.acquire p)
    let v ← World.onRefusal (objectToHost m p) (Handle.drop m h)
    modify (Handle.drop m h)
    return v
  | .pointer _ => throw (.unbindable "raw pointer return")

/-- The wrapper of what a constructor returned; a value that is no object is
refused. -/
def toWrapper : Ret → CheckM Wrapper
  | .incremented p => modifyGet (Wrapper.adopt p)
  | .borrowed p => Wrapper.wrap p
  | ret =>
    throw (.nativeFailure ("Constructor returned " ++ ret.describe ++ " instead of an object"))

end Conversion
end Interop

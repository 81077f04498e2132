/-
# Wrapped objects

A wrapper is a native object as host code sees it: a handle, which clones of the
wrapper share, and the class of the object.  Two wrappers are equal when they share
a handle or when both still own a reference to the same object; a released wrapper
equals only its clones.

Host values hold wrappers; cloning and dropping a value clones and drops those.
-/

import Interop.Handle
import Interop.Host.Value

namespace Interop

/-- A native object as host code sees it. -/
structure Wrapper where
  handle : HandleId
  cls : Class
deriving DecidableEq

/-- A value of host code. -/
abbrev HostValue := Value Wrapper

namespace Wrapper

/-- The wrapper of a handle that nothing else wraps. -/
def ofHandle (h : HandleId) (w : World) : Wrapper :=
  ⟨h, (w.handle h).cls⟩

/-- A wrapper that adopts a reference to `p`. -/
def adopt (p : ObjId) (w : World) : Wrapper × World :=
  let (h, w) := Handle.acquire p w
  (ofHandle h w, w)

/-- A wrapper with a new reference to `p`. -/
def wrap (p : ObjId) : CheckM Wrapper := do
  let h ← Handle.wrap p
  return ofHandle h (← get)

/-- Whether the reference of the wrapper is gone. -/
def isReleased (a : Wrapper) (w : World) : Bool :=
  !(w.handle a.handle).owned

/-- Whether two wrappers stand for the same object. -/
def same (w : World) (a b : Wrapper) : Bool :=
  let x := w.handle a.handle
  let y := w.handle b.handle
  a.handle == b.handle || (x.owned && y.owned && x.object == y.object)

/-- The wrapper with its parts. -/
def describe (w : World) (a : Wrapper) : String :=
  Text.record "HostObject" [
    ("class", Text.quote a.cls.name),
    ("ptr", Heap.describeId (w.handle a.handle).object)]

end Wrapper

namespace HostValue

/-- The name of the kind of a value, for an object that of its class. -/
def kindName : HostValue → String
  | .null => "NoneType"
  | .bool _ => "bool"
  | .int _ => "int"
  | .float _ => "float"
  | .str _ => "str"
  | .list _ => "list"
  | .dict _ => "dict"
  | .object o => o.cls.name

/-- The world after the wrappers in the value were cloned. -/
def clone (v : HostValue) (w : World) : World :=
  v.objects.foldl (fun w o => Handle.share o.handle w) w

/-- The world after the wrappers in the value were dropped. -/
def drop (m : Machine) (v : HostValue) (w : World) : World :=
  v.objects.foldl (fun w o => Handle.drop m o.handle w) w

/-- Whether two values are equal. -/
def equal (w : World) (a b : HostValue) : Bool :=
  Value.equal (Wrapper.same w) a b

end HostValue

end Interop

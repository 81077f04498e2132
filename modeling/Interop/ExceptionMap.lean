/-
# From thrown errors to exceptions

An exception map says, for some native error classes, how an exception is made from
the message of a thrown error.  An error of another class takes the way of the
nearest ancestor that has one; with none at all it becomes a `RuntimeError`.  Naming
a class again replaces its way.  Only classes of errors can be mapped.

Turning an error into an exception copies the message and then gives back the
reference that the thrown error owned.
-/

import Interop.Host.Exception
import Interop.World

namespace Interop

/-- Makes an exception from a message. -/
abbrev ExceptionMaker := String → HostException

/-- For some classes of errors the way from a message to an exception, the latest
first. -/
structure ExceptionMap where
  ways : List (Class × ExceptionMaker)

namespace ExceptionMap

/-- The target of the records about exceptions. -/
def logTarget : String := "finbridge::bridge::exception"

/-- No class has a way of its own. -/
def empty : ExceptionMap := ⟨[]⟩

/-- The way of exactly this class. -/
def way? (map : ExceptionMap) (c : Class) : Option ExceptionMaker :=
  (map.ways.find? fun entry => entry.1 == c).map (·.2)

/-- The way of the nearest class in the ancestry that has one. -/
def nearest? (map : ExceptionMap) (c : Class) : Option ExceptionMaker :=
  c.ancestry.findSome? map.way?

/-- The class of errors that a name stands for. -/
def errorClass (registry : Registry) (name : String) : Except BridgeError Class :=
  match registry.fetch name with
  | .error e => .error e
  | .ok c => if c.isSubclassOf Parcel.err then .ok c else .error (.notAnErrorClass c.name)

/-- The map with a way for the class that `name` stands for. -/
def register (map : ExceptionMap) (registry : Registry) (name : String) (make : ExceptionMaker) :
    Except BridgeError ExceptionMap :=
  (errorClass registry name).map fun c => ⟨(c, make) :: map.ways⟩

/-- What is logged of a way for the class that `name` stands for. -/
def notice (registry : Registry) (name : String) : String :=
  "mapped native " ++ (match registry.fetch name with
    | .ok c => c.name
    | .error _ => name) ++ " to a host exception"

/-- The exception for an error of class `c` with this message. -/
def exceptionFor (map : ExceptionMap) (c : Class) (message : String) : HostException :=
  let made := match map.nearest? c with
    | some make => make message
    | none => .new .runtimeError message
  { made with nativeClass := some c.name }

/-- Turns a thrown error into an exception and gives its reference back. -/
def toException (map : ExceptionMap) (m : Machine) (t : Thrown) (w : World) :
    HostException × World :=
  let c := (w.obj t.object).cls
  let message := w.heap.thrownMessage t
  let w := (w.release m t.object).2
  let e := map.exceptionFor c message
  (e, w.log .trace logTarget ("translated native " ++ c.name ++ " into " ++ e.cls.name))

end ExceptionMap

end Interop

/-
# Exceptions of the host

Exception classes form a tree under `Exception`; host code can add to it.  A class
carries a serial number, so classes of one name may differ.  An exception has a
class, a message, the native class of the error it was made from, if there was one,
and the frames it passed through, the innermost first.

`HostException.ofError` says which exception a failure of the bridge becomes.
-/

import Interop.Error

namespace Interop

/-- A class of exceptions. -/
inductive ExceptionClass
  | base
  | derived (serial : Nat) (name : String) (parent : ExceptionClass)
deriving DecidableEq

namespace ExceptionClass

/-- The name of the class. -/
def name : ExceptionClass → String
  | base => "Exception"
  | derived _ name _ => name

/-- The class and the classes above it, the nearest first. -/
def ancestry : ExceptionClass → List ExceptionClass
  | base => [base]
  | derived serial name parent => derived serial name parent :: parent.ancestry

/-- Whether `c` is `d` or lies under it. -/
def isSubclassOf (c d : ExceptionClass) : Bool :=
  d ∈ c.ancestry

/-- Failures without a better class. -/
def runtimeError : ExceptionClass := derived 1 "RuntimeError" base

/-- Arguments of a wrong kind or number. -/
def typeError : ExceptionClass := derived 2 "TypeError" base

/-- Integers outside their width. -/
def overflowError : ExceptionClass := derived 3 "OverflowError" base

/-- Methods that do not exist. -/
def attributeError : ExceptionClass := derived 4 "AttributeError" base

/-- Failed look-ups. -/
def lookupError : ExceptionClass := derived 5 "LookupError" base

/-- Type names that were never registered. -/
def unknownTypeError : ExceptionClass := derived 6 "UnknownTypeError" lookupError

/-- Handles released twice. -/
def doubleReleaseError : ExceptionClass := derived 7 "DoubleReleaseError" runtimeError

/-- The classes that are always there. -/
def builtin : List ExceptionClass :=
  [base, runtimeError, typeError, overflowError, attributeError, lookupError, unknownTypeError,
    doubleReleaseError]

/-- The serial number from which added classes are counted. -/
def firstFreeSerial : Nat := 8

end ExceptionClass

/-- An exception as host code sees it. -/
structure HostException where
  cls : ExceptionClass
  message : String
  nativeClass : Option String
  frames : List String

namespace HostException

/-- An exception that was raised here. -/
def new (cls : ExceptionClass) (message : String) : HostException :=
  ⟨cls, message, none, []⟩

/-- Whether a handler for `c` catches the exception. -/
def isInstance (e : HostException) (c : ExceptionClass) : Bool :=
  e.cls.isSubclassOf c

/-- The exception after it passed through one more frame. -/
def withFrame (e : HostException) (frame : String) : HostException :=
  { e with frames := e.frames ++ [frame] }

/-- The class name and the message. -/
def display (e : HostException) : String :=
  e.cls.name ++ ": " ++ e.message

/-- The class of the exception that a failure of the bridge becomes. -/
def classOfError : BridgeError → ExceptionClass
  | .argumentType .. | .missingValue .. | .argumentCount .. | .unknownArgument ..
  | .duplicateArgument .. => .typeError
  | .overflow .. => .overflowError
  | .unknownType .. => .unknownTypeError
  | .doubleRelease .. => .doubleReleaseError
  | .methodNotFound .. => .attributeError
  | _ => .runtimeError

/-- The exception that a failure of the bridge becomes. -/
def ofError (e : BridgeError) : HostException :=
  new (classOfError e) e.message

end HostException

end Interop

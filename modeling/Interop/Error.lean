/-
# What the bridge refuses

`BridgeError` lists every failure that the bridge finds by itself, before or after
native code runs.  Errors that native code throws are objects of their own and
travel apart, as `Interop.Thrown`.

`message` is the sentence a caller reads, `name` the kind of failure, and
`describe` prints the kind with its parts.
-/

import Interop.Text.Quoted
import Interop.Text.Record

namespace Interop

/-- A failure detected by the bridge. -/
inductive BridgeError
  /-- A type name was never registered. -/
  | unknownType (name : String)
  /-- A handle was released more than once. -/
  | doubleRelease (cls : String)
  /-- A handle no longer owns a reference. -/
  | releasedHandle
  /-- A value of the wrong kind for a parameter. -/
  | argumentType (param expected found : String)
  /-- No value for a parameter that needs one. -/
  | missingValue (param : String)
  /-- The wrong number of arguments. -/
  | argumentCount (expected got : Nat)
  /-- A keyword that names no parameter. -/
  | unknownArgument (name : String)
  /-- Two values for one parameter. -/
  | duplicateArgument (name : String)
  /-- An integer outside the width of its parameter. -/
  | overflow (param : String) (value : Int64) (width : String)
  /-- Any other failure around a native call. -/
  | nativeFailure (message : String)
  /-- The name of a class or of a method in its class is taken. -/
  | classExists (name : String)
  /-- The registry accepts no more names. -/
  | registryFrozen
  /-- A class has an ancestor of its own name. -/
  | inheritanceCycle (name : String)
  /-- A signature that cannot be read. -/
  | invalidEncoding (encoding : String)
  /-- No entry of this name can be reached from the class. -/
  | methodNotFound (cls method : String)
  /-- The method cannot cross the boundary. -/
  | unbindable (method : String)
  /-- The class does not descend from the class of errors. -/
  | notAnErrorClass (name : String)
  /-- The class already has a binding. -/
  | bindingExists (cls : String)
  /-- A binding hides a method that its class does not declare. -/
  | unknownMethod (cls method : String)
  /-- Two entries of a binding have one name. -/
  | bindingConflict (cls name : String)
  /-- A binding names a class that is not registered. -/
  | unknownClassBinding (cls : String)
  /-- A reference count is at its greatest value. -/
  | countOverflow
  /-- A setting that cannot be read. -/
  | invalidConfig (key value : String)
deriving DecidableEq

namespace BridgeError

open Text

/-- The sentence that tells a caller what went wrong. -/
def message : BridgeError → String
  | unknownType name => "Unknown type: " ++ name
  | doubleRelease cls => "Handle to " ++ cls ++ " object released twice"
  | releasedHandle => "Handle no longer owns a native reference"
  | argumentType param expected found =>
    "Invalid argument type for '" ++ param ++ "': expected " ++ expected ++ ", got " ++ found
  | missingValue param => "Required argument '" ++ param ++ "' cannot be None"
  | argumentCount expected got =>
    "Expected " ++ toString expected ++ " arguments, got " ++ toString got
  | unknownArgument name => "Unexpected keyword argument '" ++ name ++ "'"
  | duplicateArgument name => "Multiple values for argument '" ++ name ++ "'"
  | overflow param value width =>
    "Value " ++ toString value.toInt ++ " for '" ++ param ++ "' does not fit in " ++ width
  | nativeFailure message => message
  | classExists name => "Class " ++ name ++ " already exists in registry"
  | registryFrozen => "Class registry is frozen"
  | inheritanceCycle name => "Inheritance cycle detected at " ++ name
  | invalidEncoding encoding => "Invalid signature encoding: " ++ quote encoding
  | methodNotFound cls method => cls ++ " has no method '" ++ method ++ "'"
  | unbindable method => "Method " ++ method ++ " cannot be bound"
  | notAnErrorClass name => name ++ " is not an error class"
  | bindingExists cls => "Binding for " ++ cls ++ " already registered"
  | unknownMethod cls method =>
    "Can't exclude " ++ method ++ ": " ++ cls ++ " declares no such method"
  | bindingConflict cls name => "Conflicting binding entries for " ++ cls ++ "." ++ name
  | unknownClassBinding cls => "Binding names unregistered class " ++ cls
  | countOverflow => "Reference count overflow detected"
  | invalidConfig key value => "Invalid value " ++ quote value ++ " for " ++ key

/-- The kind of failure. -/
def name : BridgeError → String
  | unknownType .. => "UnknownType"
  | doubleRelease .. => "DoubleRelease"
  | releasedHandle => "ReleasedHandle"
  | argumentType .. => "ArgumentType"
  | missingValue .. => "MissingValue"
  | argumentCount .. => "ArgumentCount"
  | unknownArgument .. => "UnknownArgument"
  | duplicateArgument .. => "DuplicateArgument"
  | overflow .. => "Overflow"
  | nativeFailure .. => "NativeRuntime"
  | classExists .. => "ClassAlreadyExists"
  | registryFrozen => "RegistryFrozen"
  | inheritanceCycle .. => "InheritanceCycle"
  | invalidEncoding .. => "InvalidEncoding"
  | methodNotFound .. => "MethodNotFound"
  | unbindable .. => "Unbindable"
  | notAnErrorClass .. => "NotAnErrorClass"
  | bindingExists .. => "BindingAlreadyRegistered"
  | unknownMethod .. => "UnknownMethod"
  | bindingConflict .. => "BindingConflict"
  | unknownClassBinding .. => "UnknownClassBinding"
  | countOverflow => "RefCountOverflow"
  | invalidConfig .. => "InvalidConfig"

/-- The parts of a failure with their names. -/
def parts : BridgeError → Parts
  | unknownType name => [("name", quote name)]
  | doubleRelease cls => [("class", quote cls)]
  | releasedHandle => []
  | argumentType param expected found =>
    [("param", quote param), ("expected", quote expected), ("found", quote found)]
  | missingValue param => [("param", quote param)]
  | argumentCount expected got => [("expected", toString expected), ("got", toString got)]
  | unknownArgument name => [("name", quote name)]
  | duplicateArgument name => [("name", quote name)]
  | overflow param value width =>
    [("param", quote param), ("value", toString value.toInt), ("width", quote width)]
  | nativeFailure message => [("message", quote message)]
  | classExists name => [("name", quote name)]
  | registryFrozen => []
  | inheritanceCycle name => [("name", quote name)]
  | invalidEncoding encoding => [("encoding", quote encoding)]
  | methodNotFound cls method => [("class", quote cls), ("method", quote method)]
  | unbindable method => [("method", quote method)]
  | notAnErrorClass name => [("name", quote name)]
  | bindingExists cls => [("class", quote cls)]
  | unknownMethod cls method => [("class", quote cls), ("method", quote method)]
  | bindingConflict cls name => [("class", quote cls), ("name", quote name)]
  | unknownClassBinding cls => [("class", quote cls)]
  | countOverflow => []
  | invalidConfig key value => [("key", quote key), ("value", quote value)]

/-- The failure of a kind, with the parts that `text` and `number` know by name. -/
def ofKind? (kind : String) (text : String → String) (number : String → Int) :
    Option BridgeError :=
  match kind with
  | "UnknownType" => some (unknownType (text "name"))
  | "DoubleRelease" => some (doubleRelease (text "class"))
  | "ReleasedHandle" => some releasedHandle
  | "ArgumentType" => some (argumentType (text "param") (text "expected") (text "found"))
  | "MissingValue" => some (missingValue (text "param"))
  | "ArgumentCount" =>
    some (argumentCount (number "expected").toNat (number "got").toNat)
  | "UnknownArgument" => some (unknownArgument (text "name"))
  | "DuplicateArgument" => some (duplicateArgument (text "name"))
  | "Overflow" =>
    some (overflow (text "param") (Int64.ofInt (number "value")) (text "width"))
  | "NativeRuntime" => some (nativeFailure (text "message"))
  | "ClassAlreadyExists" => some (classExists (text "name"))
  | "RegistryFrozen" => some registryFrozen
  | "InheritanceCycle" => some (inheritanceCycle (text "name"))
  | "InvalidEncoding" => some (invalidEncoding (text "encoding"))
  | "MethodNotFound" => some (methodNotFound (text "class") (text "method"))
  | "Unbindable" => some (unbindable (text "method"))
  | "NotAnErrorClass" => some (notAnErrorClass (text "name"))
  | "BindingAlreadyRegistered" => some (bindingExists (text "class"))
  | "UnknownMethod" => some (unknownMethod (text "class") (text "method"))
  | "BindingConflict" => some (bindingConflict (text "class") (text "name"))
  | "UnknownClassBinding" => some (unknownClassBinding (text "class"))
  | "RefCountOverflow" => some countOverflow
  | "InvalidConfig" => some (invalidConfig (text "key") (text "value"))
  | _ => none

/-- The kind of failure with its parts. -/
def describe (e : BridgeError) : String :=
  record e.name e.parts

end BridgeError

/-- Outcomes can be compared where results and failures can. -/
instance decidableEqExcept {ε α : Type} [DecidableEq ε] [DecidableEq α] :
    DecidableEq (Except ε α)
  | .ok a, .ok b => decidable_of_decidable_of_iff (p := a = b) (by simp)
  | .error e, .error f => decidable_of_decidable_of_iff (p := e = f) (by simp)
  | .ok _, .error _ => isFalse (by simp)
  | .error _, .ok _ => isFalse (by simp)

end Interop

/-
# Trapped calls

A trapped call runs native code with a filled frame.  A result is converted while the
frame still owns its references; a thrown error becomes an exception.
Then, whatever happened, the references of the frame are given back.
-/

import Interop.Call.Frame
import Interop.Host.Exception
import Interop.ExceptionMap

namespace Interop

/-- An operation of host code, which may raise an exception. -/
abbrev HostM (α : Type) := EStateM HostException World α

namespace HostM

/-- The operation `x`, a refusal being raised as an exception. -/
def check {α : Type} (x : CheckM α) : HostM α :=
  fun w =>
    match x w with
    | .ok a w => .ok a w
    | .error e w => .error (.ofError e) w

/-- Raises a failure of the bridge as an exception. -/
def refuse {α : Type} (e : BridgeError) : HostM α :=
  throw (.ofError e)

/-- The value of `x`, an error being raised as an exception. -/
def ofExcept {α : Type} : Except BridgeError α → HostM α
  | .ok a => pure a
  | .error e => refuse e

/-- The operation `x`; what it raises passes through a frame. -/
def inFrame {α : Type} (frame : String) (x : HostM α) : HostM α :=
  fun w =>
    match x w with
    | .ok a w => .ok a w
    | .error e w => .error (e.withFrame frame) w

/-- The operation `x`, after which `cleanup` is done in any case. -/
def closing {α : Type} (x : HostM α) (cleanup : World → World) : HostM α :=
  fun w =>
    match x w with
    | .ok a w => .ok a (cleanup w)
    | .error e w => .error e (cleanup w)

end HostM

namespace Call

/-- The code of a method with the receiver and the arguments of a frame.  A
constructor makes an object of class `cls`.  An instance method without a receiver
has no code to run. -/
def codeFor (image : Image) (code : Code) (cls : Class) (frame : Frame) : Option (NativeM Ret) :=
  match code with
  | .onObject routine => frame.receiver.map fun p => image.runOnObject routine p frame.args
  | .onClass routine => some (image.runOnClass routine cls frame.args)
  | .onNothing routine => some (image.runOnNothing routine frame.args)

/-- Converts what native code returned, or raises what it threw. -/
def settle {α : Type} (m : Machine) (exceptions : ExceptionMap) (convert : Ret → CheckM α) :
    Except Thrown Ret → HostM α
  | .ok ret => HostM.check (convert ret)
  | .error thrown => fun w =>
    let (e, w) := exceptions.toException m thrown w
    .error e w

/-- Runs native code and settles the outcome. -/
def runCode {α : Type} (m : Machine) (exceptions : ExceptionMap) (convert : Ret → CheckM α)
    (code : NativeM Ret) : HostM α :=
  fun w =>
    let (outcome, w) := w.runNative m code
    settle m exceptions convert outcome w

/-- Runs the code of a method with a filled frame and gives the references of the frame
back. -/
def runTrapped {α : Type} (m : Machine) (exceptions : ExceptionMap) (cls : Class)
    (convert : Ret → CheckM α) (code : Code) (frame : Frame) : HostM α :=
  HostM.closing (match codeFor m.image code cls frame with
    | some native => runCode m exceptions convert native
    | none => HostM.refuse (.nativeFailure (cls.name ++ " method called without a receiver")))
    (World.releaseAll m frame.owned)

end Call

end Interop

/-
# The world of a host program

The world is everything that host code and native code share: the heap of native
objects, the handles that host code holds on them, and the state of the program.

A handle owns one reference to an object until it is released or dropped, and
remembers the object and its class from then on.  Several wrappers may share one
handle; `shares` counts them, and the last one to be dropped drops the handle.
-/

import Interop.Machine
import Interop.Program

namespace Interop

/-- The name of a handle: its place among the handles. -/
structure HandleId where
  index : Nat
deriving DecidableEq

/-- A handle on a native object. -/
structure HandleState where
  object : ObjId
  cls : Class
  /-- Whether the handle still owns its reference. -/
  owned : Bool
  policy : ReleasePolicy
  /-- The number of wrappers that share the handle. -/
  shares : Nat

/-- What is read where there is no handle. -/
def HandleState.vacant : HandleState :=
  ⟨⟨0⟩, Parcel.obj, false, .strict, 0⟩

/-- Objects, handles and program. -/
structure World where
  heap : Heap
  handles : Array HandleState
  program : Program

/-- An operation on the world that the bridge may refuse. -/
abbrev CheckM (α : Type) := EStateM BridgeError World α

/-- An operation that only logs and that the bridge may refuse. -/
abbrev LogM (α : Type) := EStateM BridgeError Log.Logger α

namespace World

/-- The world of a program without objects of its own. -/
def ofProgram (program : Program) : World :=
  ⟨.initial, #[], program⟩

/-- The state of a handle. -/
def handle (w : World) (h : HandleId) : HandleState :=
  (w.handles[h.index]?).getD .vacant

/-- The world with the state of a handle changed by `f`. -/
def modifyHandle (w : World) (h : HandleId) (f : HandleState → HandleState) : World :=
  { w with handles := w.handles.modify h.index f }

/-- The object named `p`. -/
def obj (w : World) (p : ObjId) : Obj :=
  w.heap.obj p

/-- Logs a message. -/
def log (w : World) (level : Log.Level) (target message : String) : World :=
  { w with program := w.program.log level target message }

/-- The world with another log. -/
def withLogger (w : World) (logger : Log.Logger) : World :=
  { w with program := { w.program with logger } }

/-- An operation that logs, on the log of the world. -/
def logging {α : Type} (x : LogM α) : CheckM α :=
  fun w =>
    match x w.program.logger with
    | .ok a logger => .ok a (w.withLogger logger)
    | .error e logger => .error e (w.withLogger logger)

/-- A registry after requests, carried out and logged up to the first that fails, and
the failure. -/
def enrol (r : Registry) (requests : List Registration) (w : World) :
    (Registry × Option BridgeError) × World :=
  let (l, failure) := Registry.Logged.enrol ⟨r, w.program.logger⟩ requests
  ((l.registry, failure), w.withLogger l.logger)

/-- A registry after it was frozen, which is logged. -/
def freezeRegistry (r : Registry) (w : World) : Registry × World :=
  let l := Registry.Logged.freeze ⟨r, w.program.logger⟩
  (l.registry, w.withLogger l.logger)

/-- The registry of the program, made on first use. -/
def openRegistry (w : World) : Registry × World :=
  let (r, program) := w.program.openRegistry
  (r, { w with program })

/-- The world when native code leaves `heap` behind.  If the code was the first to look
at the registry of the program, the registry has been made. -/
def settle (w : World) (heap : Heap) : World :=
  { w with
    heap
    program := if heap.consulted && !w.heap.consulted then w.program.openRegistry.2
      else w.program }

/-- Gives one reference back and says how many are left. -/
def release (m : Machine) (p : ObjId) (w : World) : Nat × World :=
  let (left, heap) := m.release w.program.registryView p w.heap
  (left, w.settle heap)

/-- Gives several references back in turn. -/
def releaseAll (m : Machine) (ps : List ObjId) (w : World) : World :=
  w.settle (w.heap.giveBackAll (m.release w.program.registryView) ps)

/-- Makes an object and owns its one reference. -/
def alloc (cls : Class) (payload : Payload) (w : World) : ObjId × World :=
  let (p, heap) := w.heap.alloc cls payload
  (p, { w with heap })

/-- Takes one more reference to `p`. -/
def retain (p : ObjId) : CheckM Unit :=
  fun w =>
    match w.heap.retain p with
    | .ok heap => .ok () { w with heap }
    | .error e => .error e w

/-- The result of native code and the world after it. -/
def runNative {α : Type} (m : Machine) (code : NativeM α) (w : World) :
    Except Thrown α × World :=
  match code (m.env w.program.registryView) w.heap with
  | .ok a heap => (.ok a, w.settle heap)
  | .error t heap => (.error t, w.settle heap)

end World

end Interop

/-
# Calling through a module

The three calls of host code.  `construct` makes an object of a named class with the
nearest constructor on offer.  `callMethod` runs the entry of the nearest bound class
that has the name; a native method is looked up once more in the class of the
receiver, so an override wins whether it is bound or not.  `callStatic` runs inert
functions only.

A native method that cannot be bound is refused before anything happens.  Then the
call takes a reference to the receiver, converts the arguments and runs the code;
when it ends early the references taken so far are given back.

Host code behind an entry can call back into the module, nested as deep as the
headroom of the machine allows.
-/

import Interop.Conversion.ToHost
import Interop.Conversion.ToNative
import Interop.Module.Basic

namespace Interop

/-- A module together with the machine it runs on and the classes it knows. -/
structure Site where
  machine : Machine
  registry : Registry
  module : Module

namespace Site

/-- Takes a reference to the receiver of an instance method. -/
def pushReceiver (method : Method) : Option Wrapper → StageM Unit
  | none => return ()
  | some o =>
    match method.code with
    | .onObject _ => do
      let p ← StageM.lift (Handle.retain o.handle)
      modify fun s => { s with frame := s.frame.withReceiver p }
    | _ => return ()

/-- Fills the frame of a call. -/
def fillFrame (s : Site) (method : Method) (receiver : Option Wrapper) (args : CallArgs) :
    StageM Unit := do
  pushReceiver method receiver
  Conversion.pushArgs s.machine s.registry method args

/-- Fills the frame of a call and hands it on; if an argument is refused, the
references of the frame are given back. -/
def stage (s : Site) (method : Method) (receiver : Option Wrapper) (args : CallArgs) :
    HostM Frame :=
  fun w =>
    match s.fillFrame method receiver args ⟨w, .empty⟩ with
    | .ok _ done => .ok done.frame done.world
    | .error e done => .error (.ofError e) (done.world.releaseAll s.machine done.frame.owned)

/-- Calls a native method. -/
def invoke {α : Type} (s : Site) (method : Method) (cls : Class) (receiver : Option Wrapper)
    (args : CallArgs) (convert : Ret → CheckM α) : HostM α := do
  if method.canBeBound then
    let frame ← s.stage method receiver args
    Call.runTrapped s.machine s.module.exceptions cls convert method.code frame
  else HostM.refuse (.unbindable method.name)

/-- Makes an object of the named class. -/
def construct (s : Site) (className : String) (args : CallArgs) : HostM Wrapper := do
  let cls ← HostM.ofExcept (s.registry.fetch className)
  let maker := if s.module.isBound cls then s.module.nearestMaker? cls else none
  match maker with
  | none => HostM.refuse (.methodNotFound cls.name Method.constructorName)
  | some maker =>
    HostM.inFrame (cls.shortName ++ ".__init__")
      (s.invoke maker cls none args Conversion.toWrapper)

/-- Calls an inert function of the named class. -/
def callStatic (s : Site) (className name : String) (args : CallArgs) : HostM HostValue := do
  let cls ← HostM.ofExcept (s.registry.fetch className)
  HostM.inFrame (cls.shortName ++ "." ++ name)
    (match s.module.resolve? cls name with
      | some (.function m) => s.invoke m cls none args (Conversion.toHost s.machine)
      | _ => HostM.refuse (.methodNotFound cls.name name))

/-- What happens to a call that is nested too deeply. -/
def outOfStack {α : Type} : HostM α := do
  modify fun w => { w with heap := w.heap.recordFault .stackExhausted }
  HostM.refuse (.nativeFailure "stack exhausted")

/-- Calls an entry on a wrapped object, with host code nested `depth` deep at most. -/
def callMethodAt (s : Site) : Nat → Wrapper → String → CallArgs → HostM HostValue
  | 0, _, _, _ => outOfStack
  | depth + 1, o, name, args =>
    HostM.inFrame (o.cls.shortName ++ "." ++ name)
      (match s.module.resolve? o.cls name with
        | some (.custom run) =>
          run {
            machine := s.machine
            registry := s.registry
            exceptions := s.module.exceptions
            construct := s.construct
            callMethod := s.callMethodAt depth
            callStatic := s.callStatic } o args
        | some (.method m) =>
          s.invoke ((o.cls.method? m.name).getD m) o.cls (some o) args
            (Conversion.toHost s.machine)
        | some (.function m) => s.invoke m o.cls none args (Conversion.toHost s.machine)
        | none => HostM.refuse (.methodNotFound o.cls.name name))

/-- Calls an entry on a wrapped object. -/
def callMethod (s : Site) (o : Wrapper) (name : String) (args : CallArgs) : HostM HostValue :=
  s.callMethodAt (s.machine.headroom + 1) o name args

end Site

end Interop

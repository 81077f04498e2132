/-
# Host values as native arguments

Every argument is checked against the type of its parameter before native code
runs.  A value that needs an object gets a new one, owned by the frame: a text for a
text parameter, and for a parameter that takes any object a number, a text, a vector
or a hash, elements and all.  The truth values are there already, and a wrapper
stands for its own object with one more reference.

When a value is refused half way, everything built for it is given back.
-/

import Interop.Call.Frame
import Interop.Host.Arguments

namespace Interop
namespace Conversion

/-- A new object for which the caller owns the one reference. -/
def newObject (cls : Class) (payload : Payload) : CheckM (Option ObjId) := do
  return some (← modifyGet (World.alloc cls payload))

mutual

/-- The object for a value, with a reference for the caller; null has none. -/
def build (m : Machine) (param : String) : HostValue → CheckM (Option ObjId)
  | .null => return none
  | .bool value => return some (Heap.booleanId value)
  | .int value => newObject Parcel.integer (.integer value)
  | .float value => newObject Parcel.float (.float value)
  | .str value => newObject Parcel.string (.str value)
  | .object o => do
    let p ← Handle.retain o.handle
    return some p
  | .list items => do
    let elements ← buildList m param [] items
    newObject Parcel.vector (.vector elements)
  | .dict entries => do
    let built ← buildEntries m param .empty entries
    newObject Parcel.hash (.hash built)

/-- The elements for a list of values, after those in `built`. -/
def buildList (m : Machine) (param : String) (built : List (Option ObjId)) :
    List HostValue → CheckM (List (Option ObjId))
  | [] => return built
  | v :: rest => do
    let element ← World.onRefusal (build m param v) (World.releaseAll m (built.filterMap id))
    buildList m param (built ++ [element]) rest

/-- The values for the pairs of a dict, beside those in `built`; none of them may be
null. -/
def buildEntries (m : Machine) (param : String) (built : KeyMap ObjId) :
    List (String × HostValue) → CheckM (KeyMap ObjId)
  | [] => return built
  | e :: rest => do
    match ← World.onRefusal (build m param e.2) (World.releaseAll m built.values) with
    | some p => buildEntries m param (built.insert e.1 p) rest
    | none =>
      modify (World.releaseAll m built.values)
      throw (.missingValue (param ++ "[" ++ Text.quote e.1 ++ "]"))

end

/-- Refuses a value of the wrong kind. -/
def mismatch {α : Type} (param : Param) (v : HostValue) : StageM α :=
  throw (.argumentType param.name param.spec.kind.describe v.kindName)

/-- Adds a text that a wrapper stands for. -/
def pushWrappedText (param : Param) (v : HostValue) (o : Wrapper) : StageM Unit := do
  let p ← StageM.lift (Handle.retain o.handle)
  StageM.adopt p
  if ((← get).world.obj p).payload.text?.isSome then StageM.push (.object p)
  else mismatch param v

/-- Adds an object, of the class that the parameter asks for if it asks for one. -/
def pushObject (m : Machine) (registry : Registry) (param : Param) (constraint : Option String)
    (v : HostValue) : StageM Unit := do
  match ← StageM.lift (build m param.name v) with
  | none => mismatch param v
  | some p =>
    StageM.adopt p
    match constraint with
    | none => StageM.push (.object p)
    | some name =>
      match registry.fetch name with
      | .error e => throw e
      | .ok c =>
        if ((← get).world.obj p).isA c then StageM.push (.object p) else mismatch param v

/-- Adds the value given for a parameter. -/
def pushArg (m : Machine) (registry : Registry) (param : Param) (v : HostValue) :
    StageM Unit :=
  if v.isNull then
    if param.spec.nullable then StageM.push .null else throw (.missingValue param.name)
  else
    match param.spec.kind, v with
    | .bool, .bool value => StageM.push (.bool value)
    | .int width, .int value =>
      if width.contains value then StageM.push (.int value)
      else throw (.overflow param.name value width.name)
    | .float, .float value => StageM.push (.float value)
    | .float, .int value => StageM.push (.float (Float.ofInt value.toInt))
    | .text, .str value => do
      let p ← StageM.lift (modifyGet (World.alloc Parcel.string (.str value)))
      StageM.adopt p
      StageM.push (.object p)
    | .text, .object o => pushWrappedText param v o
    | .object constraint, _ => pushObject m registry param constraint v
    | .pointer, _ => throw (.unbindable param.name)
    | _, _ => mismatch param v

/-- Adds the arguments of the parameters in turn, where `missing` is what an empty slot
of a parameter that may not be null is refused with. -/
def pushSlots (m : Machine) (registry : Registry) (missing : BridgeError) :
    List (Param × Option HostValue) → StageM Unit
  | [] => return ()
  | (param, some v) :: rest => do
    pushArg m registry param v
    pushSlots m registry missing rest
  | (param, none) :: rest => do
    if param.spec.nullable then
      StageM.push .null
      pushSlots m registry missing rest
    else throw missing

/-- Binds the arguments of a call to the parameters of a method and adds them to the
frame. -/
def pushArgs (m : Machine) (registry : Registry) (method : Method) (args : CallArgs) :
    StageM Unit :=
  match args.bind method.paramNames with
  | .error e => throw e
  | .ok slots =>
    let supplied := (slots.filterMap id).length
    pushSlots m registry (.argumentCount method.params.length supplied)
      (method.params.zip slots)

end Conversion
end Interop

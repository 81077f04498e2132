/-
# Sample host code

Scripts are entries of host code that need no code of their own: they answer
something about the call, go back into the module, or raise an exception.
-/

import Interop.Binding.Basic

namespace Interop
namespace Sample

/-- What an entry of host code does. -/
inductive Script
  /-- Answers null. -/
  | noop
  /-- Answers the receiver. -/
  | receiver
  /-- Answers the number of arguments. -/
  | count
  /-- Answers the text given for the only parameter `text`. -/
  | text
  /-- Answers what was given for the parameters `a` and `b`. -/
  | bind
  /-- Calls another entry with the same receiver and arguments. -/
  | call (name : String)
  /-- Calls another entry two times and answers what the second call did. -/
  | twice (name : String)
  /-- Calls an inert function with the same arguments. -/
  | callStatic (cls name : String)
  /-- Makes an object with the same arguments. -/
  | construct (cls : String)
  /-- Throws a native error. -/
  | throwNew (message : String)
  /-- Raises an exception. -/
  | raise (cls : ExceptionClass) (message : String)

/-- The entry that a script stands for. -/
def Script.run : Script → CustomEntry
  | .noop, _, _, _ => return .null
  | .receiver, _, o, _ => do
    modify (Handle.share o.handle)
    return .object o
  | .count, _, _, args => return .int (Int64.ofNat args.length)
  | .text, _, _, args => return .str (← HostM.ofExcept (args.singleText "text"))
  | .bind, _, _, args => do
    let slots ← HostM.ofExcept (args.bind ["a", "b"])
    let result : HostValue := .list (slots.map fun v => v.getD .null)
    modify (HostValue.clone result)
    return result
  | .call name, view, o, args => view.callMethod o name args
  | .twice name, view, o, args => do
    let first ← view.callMethod o name args
    modify (HostValue.drop view.machine first)
    view.callMethod o name args
  | .callStatic cls name, view, _, args => view.callStatic cls name args
  | .construct cls, view, _, args => return .object (← view.construct cls args)
  | .throwNew message, view, _, _ => fun w =>
    let (p, w) := w.alloc Parcel.err (.err message)
    let (e, w) := view.exceptions.toException view.machine ⟨p⟩ w
    .error e w
  | .raise cls message, _, _, _ => throw (.new cls message)

end Sample
end Interop

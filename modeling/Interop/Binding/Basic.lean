/-
# Bindings

A binding says how one class is shown to host code: which of its methods are hidden,
which entries a hook adds when the module is made, and which entries come after
those.  A set of bindings has at most one for each class name and keeps them in the
order in which they were added.
-/

import Interop.Module.Basic

namespace Interop

/-- An entry of host code under its name. -/
structure MethodDef where
  name : String
  run : CustomEntry

/-- The entry with some of its parts. -/
def MethodDef.describe (d : MethodDef) : String :=
  Text.openRecord "MethodDef" [("name", Text.quote d.name)]

/-- How one class is shown to host code. -/
structure ClassBinding where
  parcel : String
  className : String
  /-- The native names of the hidden methods. -/
  excluded : List String
  /-- Adds entries once the class is known. -/
  hook : Option (Class → List MethodDef)
  /-- The entries after all others. -/
  defs : List MethodDef

namespace ClassBinding

/-- A binding that hides nothing and adds nothing. -/
def plain (parcel className : String) : ClassBinding :=
  ⟨parcel, className, [], none, []⟩

/-- Whether the binding hides the method of this native name. -/
def isExcluded (b : ClassBinding) (name : String) : Bool :=
  name ∈ b.excluded

/-- The binding that also hides a method. -/
def exclude (b : ClassBinding) (name : String) : ClassBinding :=
  { b with excluded := b.excluded ++ [name] }

/-- The binding with this hook. -/
def withHook (b : ClassBinding) (hook : Class → List MethodDef) : ClassBinding :=
  { b with hook := some hook }

/-- The binding with one more entry at the end. -/
def addDef (b : ClassBinding) (d : MethodDef) : ClassBinding :=
  { b with defs := b.defs ++ [d] }

/-- The entries that the binding adds for a class, those of the hook first. -/
def addedDefs (b : ClassBinding) (c : Class) : List MethodDef :=
  (match b.hook with
    | some hook => hook c
    | none => []) ++ b.defs

/-- The binding with its parts. -/
def describe (b : ClassBinding) : String :=
  Text.record "ClassBinding" [
    ("parcel", Text.quote b.parcel),
    ("class_name", Text.quote b.className),
    ("excluded", Text.listing (b.excluded.map Text.quote)),
    ("pre_code", Text.boolText b.hook.isSome),
    ("method_defs", Text.listing (b.defs.map MethodDef.describe))]

end ClassBinding

/-- Bindings of different class names, in the order in which they were added. -/
structure BindingSet where
  bindings : List ClassBinding

namespace BindingSet

/-- No bindings. -/
def empty : BindingSet := ⟨[]⟩

/-- The set with one more binding. -/
def register (s : BindingSet) (b : ClassBinding) : Except BridgeError BindingSet :=
  if s.bindings.any fun other => other.className == b.className then
    .error (.bindingExists b.className)
  else .ok ⟨s.bindings ++ [b]⟩

/-- The number of bindings. -/
def size (s : BindingSet) : Nat :=
  s.bindings.length

end BindingSet

end Interop

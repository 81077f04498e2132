/-
# The bindings of the core parcel

All nine classes are bound.  The root class hides two of its methods behind host
code: `is_a` refuses a name that nobody registered, where the native method answers
`false`, and `dec_refcount` releases the handle, so that no reference is given back
that host code does not own.
-/

import Interop.Binding.Emission

namespace Interop
namespace CoreBinding

/-- Whether the receiver is of the class named by the only argument. -/
def isA : CustomEntry := fun view o args => do
  let name ← HostM.ofExcept (args.singleText "class_name")
  let state := (← get).handle o.handle
  let answer ← HostM.ofExcept (Handle.isA view.registry state name)
  return .bool answer

/-- Releases the handle of the receiver. -/
def decRefcount : CustomEntry := fun view o args => do
  let _ ← HostM.ofExcept (args.bind [])
  HostM.check (Handle.release view.machine o.handle)
  return .null

/-- The binding of the root class. -/
def root : ClassBinding :=
  (((ClassBinding.plain Parcel.parcelName "Clownfish::Obj").exclude "Is_A").exclude
    "Dec_RefCount").withHook (fun _ => [⟨"is_a", isA⟩]) |>.addDef ⟨"dec_refcount", decRefcount⟩

/-- The names of the classes bound as they are. -/
def plainClasses : List String := [
  "Clownfish::String", "Clownfish::Integer", "Clownfish::Float", "Clownfish::Boolean",
  "Clownfish::Vector", "Clownfish::Hash", "Clownfish::Err", "Clownfish::Util::StringHelper"]

/-- The bindings of the core parcel. -/
def bindings : BindingSet :=
  ⟨root :: plainClasses.map (ClassBinding.plain Parcel.parcelName)⟩

/-- The name of the module of the core parcel. -/
def moduleName : String := "clownfish"

/-- The module of the core parcel over a registry. -/
def coreModule (registry : Registry) : LogM Module :=
  bindings.emit moduleName registry

end CoreBinding
end Interop

/-
# Making modules

A set of bindings becomes a module.  The table of a class gets an entry for each of
its own instance methods that is neither hidden nor kept back, then for each of its
inert functions, all under their host names; then come the entries of the hook and
the extra entries.  Two entries of one name are a conflict.

Everything wrong with a binding is found here: a class that is not registered first,
then a hidden method that the class itself does not declare, then a conflict.
-/

import Interop.Binding.Basic

namespace Interop

namespace Emission

/-- The target of the records about modules. -/
def logTarget : String := "finbridge::binding::emit"

/-- Logs a message. -/
def log (level : Log.Level) (message : String) : LogM Unit :=
  modify fun l => l.log level logTarget message

/-- The class that a binding names. -/
def bindingClass (registry : Registry) (b : ClassBinding) : Except BridgeError Class :=
  match registry.fetch b.className with
  | .ok c => .ok c
  | .error _ => .error (.unknownClassBinding b.className)

/-- Refuses the first hidden method that the class does not declare. -/
def checkExcluded (c : Class) : List String → Except BridgeError Unit
  | [] => .ok ()
  | name :: rest =>
    if (c.declared? name).isSome then checkExcluded c rest
    else .error (.unknownMethod c.name name)

/-- Whether a method is shown; one that cannot be bound is logged. -/
def exposed (c : Class) (b : ClassBinding) (m : Method) : LogM Bool := do
  if m.canBeBound then return !b.isExcluded m.name
  else
    log .trace ("skipping unbindable " ++ c.name ++ "::" ++ m.name)
    return false

/-- The entry that calls a method. -/
def entryFor (m : Method) : Entry :=
  match m.kind with
  | .inert => .function m
  | _ => .method m

/-- Adds an entry to the table. -/
def addEntry (bound : BoundClass) (name : String) (entry : Entry) :
    Except BridgeError BoundClass :=
  match bound.insert? name entry with
  | some bound => .ok bound
  | none => .error (.bindingConflict bound.cls.name name)

/-- Adds the entries of the methods that are shown. -/
def addMethods (b : ClassBinding) (bound : BoundClass) : List Method → LogM BoundClass
  | [] => return bound
  | m :: rest => do
    if ← exposed bound.cls b m then
      let bound ← MonadExcept.ofExcept (addEntry bound m.hostName (entryFor m))
      addMethods b bound rest
    else addMethods b bound rest

/-- Adds entries of host code. -/
def addDefs (bound : BoundClass) : List MethodDef → Except BridgeError BoundClass
  | [] => .ok bound
  | d :: rest =>
    match addEntry bound d.name (.custom d.run) with
    | .ok bound => addDefs bound rest
    | .error e => .error e

/-- The constructor of a class, if it is shown. -/
def shownMaker (c : Class) (b : ClassBinding) : LogM (Option Method) := do
  match c.maker with
  | none => return none
  | some m => if ← exposed c b m then return some m else return none

/-- The table that a binding describes. -/
def boundClass (registry : Registry) (b : ClassBinding) : LogM BoundClass := do
  let c ← MonadExcept.ofExcept (bindingClass registry b)
  MonadExcept.ofExcept (checkExcluded c b.excluded)
  let maker ← shownMaker c b
  let bound ← addMethods b ⟨c, maker, []⟩ (c.declaredMethods ++ c.functions)
  MonadExcept.ofExcept (addDefs bound (b.addedDefs c))

/-- The module with the tables of more bindings. -/
def addClasses (registry : Registry) (m : Module) : List ClassBinding → LogM Module
  | [] => return m
  | b :: rest => do
    let bound ← boundClass registry b
    log .debug ("bound " ++ bound.cls.name ++ " with " ++ toString bound.entries.length ++
      " entries")
    addClasses registry (m.addClass bound) rest

end Emission

/-- The module of this name that the bindings describe. -/
def BindingSet.emit (s : BindingSet) (moduleName : String) (registry : Registry) :
    LogM Module := do
  let m ← Emission.addClasses registry (.new moduleName) s.bindings
  Emission.log .debug ("emitted module " ++ moduleName)
  return m

end Interop

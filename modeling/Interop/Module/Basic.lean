/-
# Modules

A module is what host code calls: for each bound class a table from host names to
entries, and the ways in which thrown errors become exceptions.  An entry runs an
instance method, runs an inert function, or is host code of its own.

A class that is bound twice, under two of its names, has the later table; both
places in the order of the module then show that one.
-/

import Interop.Call.Trapped
import Interop.Host.Arguments

namespace Interop

/-- What the module offers to host code that an entry runs. -/
structure ModuleView where
  machine : Machine
  registry : Registry
  exceptions : ExceptionMap
  construct : String → CallArgs → HostM Wrapper
  callMethod : Wrapper → String → CallArgs → HostM HostValue
  callStatic : String → String → CallArgs → HostM HostValue

/-- Host code that an entry runs on a receiver. -/
abbrev CustomEntry := ModuleView → Wrapper → CallArgs → HostM HostValue

/-- What a host name runs. -/
inductive Entry
  /-- A native instance method, looked up again in the class of the receiver. -/
  | method (m : Method)
  /-- A native inert function. -/
  | function (m : Method)
  /-- Host code. -/
  | custom (run : CustomEntry)

/-- How an entry is printed. -/
def Entry.describe : Entry → String
  | .method m => Text.wrapped "Method" m.name
  | .function m => Text.wrapped "Function" m.name
  | .custom _ => "Custom"

/-- The table of one bound class. -/
structure BoundClass where
  cls : Class
  /-- The constructor, if host code may call it. -/
  maker : Option Method
  /-- The entries in the order in which they were added; no name comes twice. -/
  entries : List (String × Entry)

namespace BoundClass

/-- The entry under a name. -/
def entry? (b : BoundClass) (name : String) : Option Entry :=
  findEntry name b.entries

/-- The names of the entries, in order. -/
def entryNames (b : BoundClass) : List String :=
  b.entries.map (·.1)

/-- The table with one more entry, unless its name is taken. -/
def insert? (b : BoundClass) (name : String) (entry : Entry) : Option BoundClass :=
  if (b.entry? name).isSome then none else some { b with entries := b.entries ++ [(name, entry)] }

end BoundClass

/-- A module. -/
structure Module where
  name : String
  /-- The tables in the order in which they were added. -/
  tables : List BoundClass
  exceptions : ExceptionMap

namespace Module

/-- A module without a bound class. -/
def new (name : String) : Module := ⟨name, [], .empty⟩

/-- The module with one more table. -/
def addClass (m : Module) (b : BoundClass) : Module :=
  { m with tables := m.tables ++ [b] }

/-- The table in force for exactly this class. -/
def table? (m : Module) (c : Class) : Option BoundClass :=
  m.tables.reverse.find? fun b => b.cls == c

/-- The tables in force, in binding order. -/
def classes (m : Module) : List BoundClass :=
  m.tables.filterMap fun b => m.table? b.cls

/-- The table in force for the class that a name stands for. -/
def boundClass (m : Module) (registry : Registry) (name : String) :
    Except BridgeError (Option BoundClass) :=
  match registry.fetch name with
  | .ok c => .ok (m.table? c)
  | .error e => .error e

/-- Whether the class or an ancestor is bound. -/
def isBound (m : Module) (c : Class) : Bool :=
  c.ancestry.any fun a => (m.table? a).isSome

/-- The entry `name` of the nearest bound class in the ancestry that has it. -/
def resolve? (m : Module) (c : Class) (name : String) : Option Entry :=
  c.ancestry.findSome? fun a => (m.table? a).bind fun b => b.entry? name

/-- The constructor that a class offers: that of its table if it is bound, and its own
if it is not and the constructor can be bound. -/
def makerOf (m : Module) (c : Class) : Option Method :=
  match m.table? c with
  | some b => b.maker
  | none => c.maker.filter Method.canBeBound

/-- The constructor of the nearest class in the ancestry that offers one. -/
def nearestMaker? (m : Module) (c : Class) : Option Method :=
  c.ancestry.findSome? m.makerOf

/-- The module with some of its parts. -/
def describe (m : Module) : String :=
  Text.openRecord "BoundModule" [
    ("name", Text.quote m.name),
    ("classes", Text.listing (m.tables.map fun b => Text.quote b.cls.name))]

end Module

end Interop

/-
# Building classes

A draft collects what a class is to hold; `build` checks it and lays out the table
of instance methods.  A name may not be that of an ancestor, and no two methods of
a class may share a name, whatever their kinds.  A method that could not be made
is reported in its turn.

`Class.ofMethods` is the layout alone.
-/

import Interop.Class.Basic

namespace Interop

/-- The table with `m` in the slot of its name, or in a new slot. -/
def overrideSlot (m : Method) : List Method → List Method
  | [] => [m]
  | slot :: rest => if slot.name = m.name then m :: rest else slot :: overrideSlot m rest

/-- The class with these methods, its table being that of the parent with an
override or a new slot for each instance method in turn. -/
def Class.ofMethods (serial : Nat) (name parcel : String) (parent : Option Class) (flags : UInt32)
    (methods : List Method) : Class :=
  let own := methods.filter fun m => m.kind == .instanceMethod
  let inherited := match parent with
    | some p => p.vtable
    | none => []
  let record : ClassRecord := {
    serial, name, parcel, flags
    declared := own
    maker := (methods.filter fun m => m.kind == .constructor).getLast?
    functions := methods.filter fun m => m.kind == .inert
    vtable := own.foldl (fun table m => overrideSlot m table) inherited }
  match parent with
  | some p => .extend record p
  | none => .root record

/-- What a class is to hold, with the methods that could not be made in their
places. -/
structure ClassDraft where
  name : String
  parcel : String
  parent : Option Class
  flags : UInt32
  methods : List (Except BridgeError Method)

namespace ClassDraft

/-- An empty draft of a root class. -/
def new (name parcel : String) : ClassDraft :=
  ⟨name, parcel, none, 0, []⟩

/-- The draft of a class that extends `parent`. -/
def withParent (d : ClassDraft) (parent : Class) : ClassDraft :=
  { d with parent := some parent }

/-- The draft with more flags. -/
def addFlags (d : ClassDraft) (flags : UInt32) : ClassDraft :=
  { d with flags := d.flags ||| flags }

/-- The draft with one more method. -/
def addMethod (d : ClassDraft) (method : Except BridgeError Method) : ClassDraft :=
  { d with methods := d.methods ++ [method] }

/-- Whether an ancestor of the draft has its name. -/
def repeatsAncestor (d : ClassDraft) : Bool :=
  match d.parent with
  | some p => p.ancestry.any fun a => a.name == d.name
  | none => false

/-- The methods of a class named `cls`, where `seen` are the names of the earlier
ones: the first that could not be made or repeats a name is reported. -/
def checkMethods (cls : String) (seen : List String) :
    List (Except BridgeError Method) → Except BridgeError (List Method)
  | [] => .ok []
  | .error e :: _ => .error e
  | .ok m :: rest =>
    if m.name ∈ seen then .error (.classExists (cls ++ "::" ++ m.name))
    else (checkMethods cls (m.name :: seen) rest).map (m :: ·)

/-- The class that the draft describes, told from all others by `serial`. -/
def build (d : ClassDraft) (serial : Nat) : Except BridgeError Class :=
  if d.repeatsAncestor then .error (.inheritanceCycle d.name)
  else (checkMethods d.name [] d.methods).map
    (Class.ofMethods serial d.name d.parcel d.parent d.flags)

end ClassDraft

end Interop

/-
# Native classes

A class is a record of its own and a chain of ancestors.  The record carries a
serial number, given when the class is built, so two classes are equal exactly
when they are one and the same; classes with equal names may differ.

The instance methods of a class and of its ancestors stand in one table, the
`vtable`: the slots of the parent come first, an override takes the slot of the
method it overrides, and a new method gets a new slot at the end.  Constructors and
inert functions stay with the class that declares them.
-/

import Interop.Class.Method

namespace Interop

/-- What a class holds apart from its ancestors. -/
structure ClassRecord where
  /-- Tells the class from every other one. -/
  serial : Nat
  /-- The full name, such as `Clownfish::Hash`. -/
  name : String
  parcel : String
  flags : UInt32
  /-- The instance methods that the class declares, in the order of declaration. -/
  declared : List Method
  /-- The constructor that the class declares. -/
  maker : Option Method
  /-- The inert functions that the class declares. -/
  functions : List Method
  /-- One slot for each instance method, the inherited ones first. -/
  vtable : List Method
deriving DecidableEq

/-- A native class with its ancestors. -/
inductive Class
  | root (record : ClassRecord)
  | extend (record : ClassRecord) (parent : Class)
deriving DecidableEq

/-- The flag of a class without instances. -/
def inertFlag : UInt32 := 1

/-- The flag of a class whose instances are never freed. -/
def immortalFlag : UInt32 := 2

namespace Class

/-- What the class holds itself. -/
def record : Class → ClassRecord
  | root record => record
  | extend record _ => record

/-- The class it extends. -/
def parent? : Class → Option Class
  | root _ => none
  | extend _ parent => some parent

/-- The class and its ancestors, the nearest first. -/
def ancestry : Class → List Class
  | root record => [root record]
  | extend record parent => extend record parent :: parent.ancestry

/-- The full name. -/
def name (c : Class) : String := c.record.name

/-- The parcel that the class belongs to. -/
def parcel (c : Class) : String := c.record.parcel

/-- The flags of the class. -/
def flags (c : Class) : UInt32 := c.record.flags

/-- The instance methods that the class declares itself. -/
def declaredMethods (c : Class) : List Method := c.record.declared

/-- The constructor that the class declares itself. -/
def maker (c : Class) : Option Method := c.record.maker

/-- The inert functions that the class declares itself. -/
def functions (c : Class) : List Method := c.record.functions

/-- The table of the instance methods. -/
def vtable (c : Class) : List Method := c.record.vtable

/-- Whether the class is flagged as having no instances. -/
def isInert (c : Class) : Bool :=
  c.flags &&& inertFlag != 0

/-- Whether instances of the class are never freed. -/
def hasImmortalInstances (c : Class) : Bool :=
  c.flags &&& immortalFlag != 0

/-- Whether `c` is `d` or descends from it. -/
def isSubclassOf (c d : Class) : Bool :=
  d ∈ c.ancestry

/-- The slot of the instance method `name`. -/
def slot? (c : Class) (name : String) : Option Nat :=
  c.vtable.findIdx? fun m => m.name == name

/-- The instance method `name`, the one that the nearest class declares. -/
def method? (c : Class) (name : String) : Option Method :=
  c.vtable.find? fun m => m.name == name

/-- The method of any kind that the class itself declares under `name`. -/
def declared? (c : Class) (name : String) : Option Method :=
  (c.declaredMethods ++ c.maker.toList ++ c.functions).find? fun m => m.name == name

/-- What stands before the first `::` of a name read backwards. -/
def lastSegment : List Char → List Char
  | [] => []
  | [c] => [c]
  | c :: d :: rest => if c = ':' ∧ d = ':' then [] else c :: lastSegment (d :: rest)

/-- The part of the name after its last `::`. -/
def shortName (c : Class) : String :=
  String.ofList (lastSegment c.name.toList.reverse).reverse

/-- A class is among its own ancestors. -/
@[simp] theorem mem_ancestry_self (c : Class) : c ∈ c.ancestry := by
  cases c <;> simp [ancestry]

/-- The test for a subclass asks whether the other class is an ancestor. -/
theorem isSubclassOf_iff {c d : Class} : c.isSubclassOf d = true ↔ d ∈ c.ancestry := by
  simp [isSubclassOf]

/-- The class with its parts. -/
def describe (c : Class) : String :=
  Text.record "ClassDescriptor" [
    ("name", Text.quote c.name),
    ("parcel", Text.quote c.parcel),
    ("parent", match c.parent? with
      | some p => Text.wrapped "Some" (Text.quote p.name)
      | none => "None"),
    ("flags", toString c.flags.toNat),
    ("vtable_len", toString c.vtable.length)]

end Class

end Interop

/-
# Values of the host

Host code works with null, truth values, integers, floats, texts, lists, dicts and
objects.  What stands for an object is left open: host values proper hold wrappers,
the plan of a conversion holds the names of native objects, and a value without
objects holds nothing of either.

The keys of a dict are in ascending order and none comes twice
(`Value.WellFormed`); `Value.ofEntries` makes a dict from pairs in any order.
-/

import Interop.KeyMap

namespace Interop

/-- A host value in which `ω` stands for objects. -/
inductive Value (ω : Type)
  | null
  | bool (value : Bool)
  | int (value : Int64)
  | float (value : Float)
  | str (value : String)
  | list (items : List (Value ω))
  | dict (entries : List (String × Value ω))
  | object (o : ω)

namespace Value

variable {ω ω' : Type}

instance : Inhabited (Value ω) := ⟨null⟩

/-- The dict with these pairs, the later of two under one key winning. -/
def ofEntries (entries : List (String × Value ω)) : Value ω :=
  dict (sortEntries entries)

/-- Whether the value is null. -/
def isNull : Value ω → Bool
  | null => true
  | _ => false

mutual

/-- The objects in the value, from left to right. -/
def objects : Value ω → List ω
  | object o => [o]
  | list items => objectsOfList items
  | dict entries => objectsOfEntries entries
  | _ => []

/-- The objects in a list of values. -/
def objectsOfList : List (Value ω) → List ω
  | [] => []
  | v :: rest => v.objects ++ objectsOfList rest

/-- The objects in the values of a dict. -/
def objectsOfEntries : List (String × Value ω) → List ω
  | [] => []
  | e :: rest => e.2.objects ++ objectsOfEntries rest

end

mutual

/-- Whether two values are equal where `same` says which objects are.  Floats are
compared as numbers. -/
def equal (same : ω → ω → Bool) : Value ω → Value ω → Bool
  | null, null => true
  | bool a, bool b => a == b
  | int a, int b => a == b
  | float a, float b => a == b
  | str a, str b => a == b
  | list a, list b => equalLists same a b
  | dict a, dict b => equalEntries same a b
  | object a, object b => same a b
  | _, _ => false

/-- Whether two lists are equal element by element. -/
def equalLists (same : ω → ω → Bool) : List (Value ω) → List (Value ω) → Bool
  | [], [] => true
  | a :: as, b :: bs => a.equal same b && equalLists same as bs
  | _, _ => false

/-- Whether two dicts are equal pair by pair. -/
def equalEntries (same : ω → ω → Bool) :
    List (String × Value ω) → List (String × Value ω) → Bool
  | [], [] => true
  | a :: as, b :: bs => a.1 == b.1 && a.2.equal same b.2 && equalEntries same as bs
  | _, _ => false

end

mutual

/-- The keys of every dict in the value are strictly ascending. -/
def WellFormed : Value ω → Prop
  | list items => WellFormedList items
  | dict entries => Ascending entries ∧ WellFormedEntries entries
  | _ => True

/-- Every value of a list is well formed. -/
def WellFormedList : List (Value ω) → Prop
  | [] => True
  | v :: rest => v.WellFormed ∧ WellFormedList rest

/-- Every value of a dict is well formed. -/
def WellFormedEntries : List (String × Value ω) → Prop
  | [] => True
  | e :: rest => e.2.WellFormed ∧ WellFormedEntries rest

end

end Value

end Interop

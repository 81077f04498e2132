/-
# The registry of classes

A registry maps names to classes.  A class is registered under its own name, after
its parent; an alias is a second name for a class that is there already.

A registry has two tables.  While it is open, names are added to the first; freezing
moves that table as a whole into the place of the second, which is never written to.
From then on names are looked up in the second, and registration is refused.

A look-up may be overtaken by freezing, so it asks for the frozen table before it
reads the open one and once more when the name is not found there
(`Registry.fetchAcross`).

`Registration` is one request, so that a parcel is a list of them;
`Registry.enrol` carries such a list out up to the first request that fails and
keeps what was done before.
-/

import Interop.Class.Basic
import Interop.KeyMap
import Interop.Log

namespace Interop

/-- The classes by name. -/
structure Registry where
  /-- The names of an open registry. -/
  openTable : KeyMap Class
  /-- The names of a frozen registry. -/
  frozenTable : Option (KeyMap Class)

/-- A request to a registry. -/
inductive Registration
  | ofClass (cls : Class)
  | ofAlias (added target : String)

namespace Registry

/-- The open registry without a name. -/
def empty : Registry := ⟨.empty, none⟩

/-- Whether registration has ended. -/
def isFrozen (r : Registry) : Bool :=
  r.frozenTable.isSome

/-- What a name stands for in a table. -/
def lookup (table : KeyMap Class) (name : String) : Except BridgeError Class :=
  match table.get? name with
  | some c => .ok c
  | none => .error (.unknownType name)

/-- What a name stands for, in three looks at a registry that may be frozen meanwhile:
it is `first` when the frozen table is asked for, `second` when the open table is read,
and `third` when a name that was not found makes the frozen table be asked for again. -/
def fetchAcross (first second third : Registry) (name : String) : Except BridgeError Class :=
  match first.frozenTable with
  | some table => lookup table name
  | none =>
    match second.openTable.get? name with
    | some c => .ok c
    | none =>
      match third.frozenTable with
      | some table => lookup table name
      | none => .error (.unknownType name)

/-- The class that a name or an alias stands for. -/
def fetch (r : Registry) (name : String) : Except BridgeError Class :=
  fetchAcross r r r name

/-- Whether the name stands for a class. -/
def contains (r : Registry) (name : String) : Bool :=
  (r.fetch name).isOk

/-- All names and aliases, ascending. -/
def names (r : Registry) : List String :=
  match r.frozenTable with
  | some table => table.keys
  | none => r.openTable.keys

/-- Whether the parent of the class, if it has one, is what its name stands for. -/
def knowsParent (r : Registry) (c : Class) : Except BridgeError Unit :=
  match c.parent? with
  | none => .ok ()
  | some p =>
    if r.openTable.get? p.name = some p then .ok () else .error (.unknownType p.name)

/-- The registry in which `name` stands for `c` too. -/
def assign (r : Registry) (name : String) (c : Class) : Registry :=
  { r with openTable := r.openTable.insert name c }

/-- The registry with the class under its own name. -/
def register (r : Registry) (c : Class) : Except BridgeError Registry :=
  if r.isFrozen then .error .registryFrozen
  else if r.openTable.contains c.name then .error (.classExists c.name)
  else (r.knowsParent c).map fun _ => r.assign c.name c

/-- The registry in which `added` stands for the same class as `target`. -/
def registerAlias (r : Registry) (added target : String) : Except BridgeError Registry :=
  if r.isFrozen then .error .registryFrozen
  else match lookup r.openTable target with
    | .error e => .error e
    | .ok c =>
      if r.openTable.contains added then .error (.classExists added)
      else .ok (r.assign added c)

/-- The registry closed for good: its table has moved. -/
def freeze (r : Registry) : Registry :=
  if r.isFrozen then r else ⟨.empty, some r.openTable⟩

/-! ### The table in force -/

/-- The table that names are looked up in. -/
def table (r : Registry) : KeyMap Class :=
  r.frozenTable.getD r.openTable

/-- A registry is open just when the frozen table is empty. -/
theorem isFrozen_eq_false_iff {r : Registry} : r.isFrozen = false ↔ r.frozenTable = none := by
  simp [isFrozen]

/-- While a registry is open, the open table is in force. -/
theorem table_of_open {r : Registry} (h : r.isFrozen = false) : r.table = r.openTable := by
  rw [table, isFrozen_eq_false_iff.1 h, Option.getD_none]

/-- Without freezing in between, a look-up reads the table in force. -/
theorem fetch_eq_lookup (r : Registry) (name : String) : r.fetch name = lookup r.table name := by
  unfold fetch fetchAcross table
  rcases r.frozenTable with _ | table
  · simp only [Option.getD_none, lookup]
  · rfl

/-- The names of a registry are the keys of the table that lookups read. -/
theorem names_eq_keys (r : Registry) : r.names = r.table.keys := by
  unfold names table
  rcases r.frozenTable with _ | table <;> rfl

/-- A lookup answers the class that the table has under the name. -/
theorem lookup_ok_iff {table : KeyMap Class} {name : String} {c : Class} :
    lookup table name = .ok c ↔ table.get? name = some c := by
  unfold lookup
  rcases table.get? name with _ | d <;> simp

/-- A name stands for what the table in force has under it. -/
theorem fetch_ok_iff {r : Registry} {name : String} {c : Class} :
    r.fetch name = .ok c ↔ r.table.get? name = some c := by
  rw [fetch_eq_lookup, lookup_ok_iff]

/-- A look-up fails only for a name that stands for nothing, and says so. -/
theorem fetch_error_iff {r : Registry} {name : String} {e : BridgeError} :
    r.fetch name = .error e ↔ (∀ c, r.fetch name ≠ .ok c) ∧ e = .unknownType name := by
  rw [fetch_eq_lookup, lookup]
  rcases r.table.get? name with _ | c <;> simp [eq_comm]

/-- The empty registry knows no name. -/
theorem fetch_empty (name : String) : empty.fetch name = .error (.unknownType name) := rfl

/-- A registry contains a name just when the name can be fetched. -/
theorem contains_iff {r : Registry} {name : String} :
    r.contains name = true ↔ ∃ c, r.fetch name = .ok c := by
  unfold contains
  rcases r.fetch name with e | c <;> simp [Except.isOk, Except.toBool]

/-- Writing to the open table does not freeze it. -/
@[simp] theorem isFrozen_assign (r : Registry) (name : String) (c : Class) :
    (r.assign name c).isFrozen = r.isFrozen := rfl

/-- Freezing a second time changes nothing. -/
theorem freeze_of_frozen {r : Registry} (h : r.isFrozen = true) : r.freeze = r :=
  if_pos h

/-- Freezing moves the open table into the frozen one and leaves an empty table behind. -/
theorem freeze_of_open {r : Registry} (h : r.isFrozen = false) :
    r.freeze = ⟨.empty, some r.openTable⟩ :=
  if_neg (Bool.eq_false_iff.1 h)

/-- **The table that freezing moves** stays in force. -/
theorem table_freeze (r : Registry) : r.freeze.table = r.table := by
  cases h : r.isFrozen with
  | true => rw [freeze_of_frozen h]
  | false => rw [freeze_of_open h, table_of_open h, table, Option.getD_some]

/-- After `freeze` a registry is frozen. -/
theorem isFrozen_freeze (r : Registry) : r.freeze.isFrozen = true := by
  cases h : r.isFrozen with
  | true => rw [freeze_of_frozen h, h]
  | false => rw [freeze_of_open h, isFrozen, Option.isSome_some]

/-! ### Requests -/

/-- The registry after one request. -/
def apply (r : Registry) : Registration → Except BridgeError Registry
  | .ofClass c => r.register c
  | .ofAlias added target => r.registerAlias added target

/-- The target of the records about registries. -/
def logTarget : String := "finbridge::runtime::registry"

/-- What is logged of a request that a registry has carried out. -/
def notice (r : Registry) : Registration → String
  | .ofClass c => "registered " ++ c.name
  | .ofAlias added target =>
    "registered alias " ++ added ++ " -> " ++
      (match lookup r.openTable target with
        | .ok c => c.name
        | .error _ => target)

/-- A registry with the log that its operations write to. -/
structure Logged where
  registry : Registry
  logger : Log.Logger

namespace Logged

/-- Carries out a request and logs it. -/
def apply (l : Logged) (request : Registration) : Except BridgeError Logged :=
  (l.registry.apply request).map fun registry =>
    ⟨registry, l.logger.log .trace logTarget (l.registry.notice request)⟩

/-- Carries out the requests up to the first that fails. -/
def enrol (l : Logged) : List Registration → Logged × Option BridgeError
  | [] => (l, none)
  | request :: rest =>
    match l.apply request with
    | .ok l => l.enrol rest
    | .error e => (l, some e)

/-- Freezes the registry; the first time, this is logged. -/
def freeze (l : Logged) : Logged :=
  if l.registry.isFrozen then l
  else ⟨l.registry.freeze, l.logger.log .debug logTarget
    ("class registry frozen with " ++ toString l.registry.openTable.size ++ " names")⟩

end Logged

end Registry

end Interop

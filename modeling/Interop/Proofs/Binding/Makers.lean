/-
# The constructor of a class

A class may be bound more than once, under several of its names; then the last of these
bindings is in force (`BindingSet.inForce?`).  A class offers its constructor if it can be bound
and if no binding in force hides it: that of a bound class is left to its binding, and that of a
class without one is on offer as it is (`BindingSet.Offers`).

**A module finds the nearest constructor on offer** (`BindingSet.nearestMaker?_iff`), whichever
of the classes on the way are bound.
-/

import Interop.Proofs.Binding.Emitted

namespace Interop

section Lists

variable {α β : Type} {R : α → β → Prop} {l : List α} {l' : List β} {p : α → Bool} {q : β → Bool}

/-- Of lists that are related side by side the first finds are related. -/
theorem find?_rel (h : List.Forall₂ R l l') (hpq : ∀ a b, R a b → p a = q b) :
    Option.Rel R (l.find? p) (l'.find? q) := by
  induction h with
  | nil => exact .none
  | @cons a b _ _ hfirst _ ih =>
    rw [List.find?_cons, List.find?_cons, ← hpq a b hfirst]
    cases p a with
    | true => exact .some hfirst
    | false => exact ih

end Lists

namespace BindingSet

variable {s : BindingSet} {registry : Registry} {name : String} {module module' : Module}
  {l l' : Log.Logger} {a c : Class} {b : ClassBinding} {m : Method} {t : BoundClass}

/-- Whether the binding is for the class, under any of its names. -/
def isFor (registry : Registry) (c : Class) (b : ClassBinding) : Bool :=
  match registry.fetch b.className with
  | .ok d => d == c
  | .error _ => false

/-- The binding in force for a class: the last of those that are for it. -/
def inForce? (s : BindingSet) (registry : Registry) (c : Class) : Option ClassBinding :=
  s.bindings.reverse.find? (isFor registry c)

/-- The class itself offers the constructor `m`: it can be bound, and if the class is bound, its
binding does not hide it. -/
def Offers (s : BindingSet) (registry : Registry) (c : Class) (m : Method) : Prop :=
  c.maker = some m ∧ m.canBeBound = true ∧
    ∀ b, s.inForce? registry c = some b → b.isExcluded m.name = false

/-- Some class of the ancestry is bound. -/
def Covers (s : BindingSet) (registry : Registry) (c : Class) : Prop :=
  ∃ a ∈ c.ancestry, ∃ b, s.inForce? registry a = some b

/-- The first class of the ancestry that offers a constructor offers `m`. -/
def Nearest (s : BindingSet) (registry : Registry) (c : Class) (m : Method) : Prop :=
  ∃ before a after, c.ancestry = before ++ a :: after ∧ s.Offers registry a m ∧
    ∀ x ∈ before, ∀ n, ¬ s.Offers registry x n

section Made

variable (hr : registry.Built) (hemit : s.emit name registry l = .ok module l')
  (htables : module'.tables = module.tables)

include hr hemit htables

/-- **The table of a class** is that of the binding in force. -/
theorem table?_eq : module'.table? c = (s.inForce? registry c).map (·.table c) := by
  obtain ⟨tables, hmakes, rfl⟩ := (emit_ok_iff hr).1 ⟨l', hemit⟩
  have hfor : ∀ b t, Emission.Makes registry b t → isFor registry c b = (t.cls == c) := by
    rintro b _ ⟨d, hd, rfl⟩
    rw [isFor, hd.fetch_eq]
    rfl
  have hrel := find?_rel (List.rel_reverse hmakes) hfor
  rw [Module.table?, htables, inForce?]
  show tables.reverse.find? (fun t => t.cls == c) = _
  generalize s.bindings.reverse.find? (isFor registry c) = found at hrel
  rcases ht : tables.reverse.find? (fun t => t.cls == c) with _ | t <;> rw [ht] at hrel
  · cases hrel
    exact ht
  · obtain ⟨d, -, rfl⟩ | _ := hrel
    have hcls := List.find?_some ht
    obtain rfl : d = c := beq_iff_eq.1 hcls
    exact ht

/-- The constructor in the table of a class is the one that the set offers. -/
theorem makerOf_iff : module'.makerOf c = some m ↔ s.Offers registry c m := by
  rw [Module.makerOf, table?_eq hr hemit htables, Offers]
  rcases s.inForce? registry c with _ | b
  · simp [Option.filter_eq_some_iff]
  · simp [ClassBinding.table, ClassBinding.shows, Option.filter_eq_some_iff]

/-- The table of a class has no constructor just when the set offers none. -/
theorem makerOf_eq_none : module'.makerOf c = none ↔ ∀ m, ¬ s.Offers registry c m := by
  simp only [← makerOf_iff hr hemit htables, Option.eq_none_iff_forall_ne_some, ne_eq]

/-- A class is bound in the module just when the set covers it. -/
theorem isBound_iff : module'.isBound c = true ↔ s.Covers registry c := by
  simp only [Module.isBound, List.any_eq_true, table?_eq hr hemit htables, Option.isSome_map,
    Option.isSome_iff_exists, Covers]

/-- **The constructor that a module finds** is the nearest one on offer. -/
theorem nearestMaker?_iff : module'.nearestMaker? c = some m ↔ s.Nearest registry c m := by
  rw [Module.nearestMaker?, List.findSome?_eq_some_iff, Nearest]
  simp only [makerOf_iff hr hemit htables, makerOf_eq_none hr hemit htables]

/-- No constructor is found for a class just when none of its ancestors is offered one. -/
theorem nearestMaker?_eq_none :
    module'.nearestMaker? c = none ↔ ∀ a ∈ c.ancestry, ∀ m, ¬ s.Offers registry a m := by
  simp only [Module.nearestMaker?, List.findSome?_eq_none_iff, makerOf_eq_none hr hemit htables]

/-- There is a nearest constructor on offer, or none at all. -/
theorem nearest_or_none (c : Class) :
    (∃ m, s.Nearest registry c m) ∨ ∀ a ∈ c.ancestry, ∀ m, ¬ s.Offers registry a m := by
  rcases hfound : module'.nearestMaker? c with _ | m
  · exact Or.inr ((nearestMaker?_eq_none hr hemit htables).1 hfound)
  · exact Or.inl ⟨m, (nearestMaker?_iff hr hemit htables).1 hfound⟩

end Made

end BindingSet

end Interop

/-
# Classes that leave making and tearing down to the core parcel

A class is an offspring of a core class when it is built on that class, or on another
offspring of it, from methods among which are no constructor and none under the names by
which objects are torn down and references are given back.  Such a class answers as the
core class does when it is asked for `Destroy`, and the only constructor in its ancestry is
the one of the core class (`Offspring.eq_root_of_maker`).  Every method that it runs is
declared by a class in its ancestry (`Offspring.declared_of_vtable`).
-/

import Interop.Proofs.Heap.Ledger

namespace Interop

/-! ### Tables of methods -/

section Tables

variable {m x : Method} {name : String} {table own : List Method}

/-- What is in the table after an override was there or is the new method. -/
theorem mem_overrideSlot (hx : x ∈ overrideSlot m table) : x = m ∨ x ∈ table := by
  induction table with
  | nil => exact Or.inl (List.mem_singleton.1 hx)
  | cons slot rest ih =>
    rw [overrideSlot] at hx
    split_ifs at hx with hname
    · rcases List.mem_cons.1 hx with rfl | hx
      · exact Or.inl rfl
      · exact Or.inr (List.mem_cons_of_mem slot hx)
    · rcases List.mem_cons.1 hx with rfl | hx
      · exact Or.inr List.mem_cons_self
      · exact (ih hx).imp_right (List.mem_cons_of_mem slot)

/-- What is in the table after several overrides was there or is one of the new methods. -/
theorem mem_foldl_overrideSlot
    (hx : x ∈ own.foldl (fun table m => overrideSlot m table) table) : x ∈ own ∨ x ∈ table := by
  induction own generalizing table with
  | nil => exact Or.inr hx
  | cons m own ih =>
    rcases ih hx with hown | htable
    · exact Or.inl (List.mem_cons_of_mem m hown)
    · rcases mem_overrideSlot htable with rfl | htable
      · exact Or.inl List.mem_cons_self
      · exact Or.inr htable

/-- The slots of other names are as they were. -/
theorem find?_overrideSlot (hname : m.name ≠ name) :
    (overrideSlot m table).find? (fun x => x.name == name) =
      table.find? fun x => x.name == name := by
  have hm : (m.name == name) = false := by simpa using hname
  induction table with
  | nil => rw [overrideSlot, List.find?_cons_of_neg (by simp [hm])]
  | cons slot rest ih =>
    rw [overrideSlot]
    split_ifs with hslot
    · have hs : (slot.name == name) = false := by rw [hslot, hm]
      rw [List.find?_cons_of_neg (by simp [hm]), List.find?_cons_of_neg (by simp [hs])]
    · rw [List.find?_cons, List.find?_cons, ih]

/-- A name that no new method has keeps its method. -/
theorem find?_foldl_overrideSlot (hown : ∀ m ∈ own, m.name ≠ name) :
    (own.foldl (fun table m => overrideSlot m table) table).find? (fun x => x.name == name) =
      table.find? fun x => x.name == name := by
  induction own generalizing table with
  | nil => rfl
  | cons m own ih =>
    have hrest : ∀ m ∈ own, m.name ≠ name := fun x hx => hown x (List.mem_cons_of_mem m hx)
    rw [List.foldl_cons, ih hrest, find?_overrideSlot (hown m List.mem_cons_self)]

end Tables

/-! ### Offspring -/

/-- The names by which the core parcel tears objects down and gives references back. -/
def reservedNames : List String := ["Destroy", "Dec_RefCount"]

/-- The class is `root`, a class of the core parcel, or built on an offspring of it without a
constructor and without a method of a reserved name. -/
inductive Offspring (root : Class) : Class → Prop
  | self (h : root ∈ Parcel.classes) : Offspring root root
  | extend {c : Class} (h : Offspring root c) (serial : Nat) (name parcel : String)
      (flags : UInt32) (methods : List Method)
      (hm : ∀ m ∈ methods, m.kind ≠ .constructor ∧ m.name ∉ reservedNames) :
      Offspring root (.ofMethods serial name parcel (some c) flags methods)

/-- The instance methods and the inert functions that a class declares. -/
def Class.ownMethods (c : Class) : List Method :=
  c.declaredMethods ++ c.functions

namespace Parcel

/-- Only the class itself offers a constructor, and none of its ancestors does. -/
theorem maker_of_ancestry :
    ∀ root ∈ classes, ∀ a ∈ root.ancestry, a = root ∨ a.maker = none := by
  decide +kernel

/-- The ancestors of a class of the core parcel are in the core parcel. -/
theorem mem_classes_of_ancestry :
    ∀ root ∈ classes, ∀ a ∈ root.ancestry, a ∈ classes := by
  decide +kernel

/-- Every method of a class of the core parcel is declared by an ancestor. -/
theorem declared_of_vtable :
    ∀ c ∈ classes, ∀ m ∈ c.vtable, ∃ a ∈ c.ancestry, m ∈ a.declaredMethods := by
  decide +kernel

end Parcel

namespace Offspring

variable {root c a : Class} {m : Method}

/-- An offspring of a class of the core parcel has it as its root. -/
theorem root_mem (h : Offspring root c) : root ∈ Parcel.classes := by
  induction h with
  | self h => exact h
  | extend _ _ _ _ _ _ _ ih => exact ih

/-- The ancestry of a made subclass is the class and the ancestry of its parent. -/
theorem ancestry_ofMethods (serial : Nat) (name parcel : String) (c : Class) (flags : UInt32)
    (methods : List Method) :
    (Class.ofMethods serial name parcel (some c) flags methods).ancestry =
      Class.ofMethods serial name parcel (some c) flags methods :: c.ancestry := rfl

/-- **Every class in the ancestry** is of the core parcel, or has no constructor and declares
no method of a reserved name. -/
theorem ancestry_cases (h : Offspring root c) (ha : a ∈ c.ancestry) :
    a ∈ root.ancestry ∨ a.maker = none ∧ ∀ m ∈ a.ownMethods, m.name ∉ reservedNames := by
  induction h with
  | self _ => exact Or.inl ha
  | extend _ serial name parcel flags methods hm ih =>
    rw [ancestry_ofMethods] at ha
    rcases List.mem_cons.1 ha with rfl | ha
    · refine Or.inr ⟨?_, fun m hmem => ?_⟩
      · have hnone : methods.filter (fun m => m.kind == .constructor) = [] := by
          rw [List.filter_eq_nil_iff]
          intro m hmem
          simpa using (hm m hmem).1
        show (methods.filter fun m => m.kind == .constructor).getLast? = none
        rw [hnone]
        rfl
      · have hall : m ∈ methods := by
          rcases List.mem_append.1 hmem with hd | hf
          · exact (List.mem_filter.1 hd).1
          · exact (List.mem_filter.1 hf).1
        exact (hm m hall).2
    · exact ih ha

/-- **The only constructor** in the ancestry is that of the root. -/
theorem eq_root_of_maker (h : Offspring root c) (ha : a ∈ c.ancestry) (hmaker : a.maker = some m) :
    a = root := by
  have hnone : a.maker ≠ none := by
    rw [hmaker]
    exact Option.some_ne_none m
  rcases h.ancestry_cases ha with ha | ⟨hm, -⟩
  · rcases Parcel.maker_of_ancestry root h.root_mem a ha with rfl | hm
    · rfl
    · exact absurd hm hnone
  · exact absurd hm hnone

/-- Every method in the table is declared in the ancestry. -/
theorem declared_of_vtable (h : Offspring root c) (hm : m ∈ c.vtable) :
    ∃ a ∈ c.ancestry, m ∈ a.declaredMethods := by
  induction h with
  | self h => exact Parcel.declared_of_vtable root h m hm
  | extend _ serial name parcel flags methods _ ih =>
    rw [ancestry_ofMethods]
    rcases mem_foldl_overrideSlot hm with hown | htable
    · exact ⟨_, List.mem_cons_self, hown⟩
    · obtain ⟨a, ha, hma⟩ := ih htable
      exact ⟨a, List.mem_cons_of_mem _ ha, hma⟩

/-- The method that runs under a name is declared in the ancestry under that name. -/
theorem declared_of_method? {name : String} (h : Offspring root c)
    (hm : c.method? name = some m) : m.name = name ∧ ∃ a ∈ c.ancestry, m ∈ a.declaredMethods := by
  have hname := List.find?_some hm
  exact ⟨by simpa using hname, h.declared_of_vtable (List.mem_of_find?_eq_some hm)⟩

/-- **Objects are torn down as those of the root.** -/
theorem destroyer_eq (h : Offspring root c) : c.destroyer = root.destroyer := by
  induction h with
  | self _ => rfl
  | extend _ serial name parcel flags methods hm ih =>
    rw [← ih, Class.destroyer, Class.destroyer, Class.method?, Class.method?]
    refine congrArg (Option.map _) (find?_foldl_overrideSlot fun m hmem => ?_)
    intro hname
    exact (hm m (List.mem_filter.1 hmem).1).2 (by simp [hname, reservedNames])

/-- An offspring gives back every reference that a payload of its root owns. -/
theorem givesBack {o : Obj} (h : Offspring o.payload.home o.cls) : o.GivesBack := by
  have hroot := o.payload.givesBack_home o.immortal o.refcount
  unfold Obj.GivesBack at hroot ⊢
  rw [h.destroyer_eq]
  exact hroot

end Offspring

end Interop

/-
# The flattened table of instance methods

A class is laid out from the table of its parent: an override goes into the slot of the method
that it overrides, and a method of a new name gets a slot at the end.  To find slots at once, the
table can be kept with the place of each name, which the child takes over from the parent too
(`SlotTable`).  The places are right after each method that is added (`SlotTable.Consistent.add`),
so both ways of keeping the table end with the same one, and a look-up by place finds what a search
through the table finds.

**The table of a built class equals a walk of the ancestry** (`Class.Built.flattened`).  What is
said of the slots of the parent needs no induction of its own: their names stay where they are
(`map_name_foldl_overrideSlot`), no name comes twice, and what stands under a name is known
from `find?_foldl_overrideSlot_or`.
-/

import Interop.Proofs.Class.Layout
import Mathlib.Data.List.Infix

namespace Interop

/-! ### One method more -/

section Tables

variable {m slot : Method} {table own : List Method} {i : Nat}

/-- The slots keep their names, and a new name comes last. -/
theorem map_name_overrideSlot : (overrideSlot m table).map Method.name =
    if m.name ∈ table.map Method.name then table.map Method.name
    else table.map Method.name ++ [m.name] := by
  induction table with
  | nil => rfl
  | cons slot rest ih =>
    rw [overrideSlot]
    by_cases hslot : slot.name = m.name
    · simp [hslot]
    · have hne : ¬ m.name = slot.name := fun h => hslot h.symm
      rw [if_neg hslot, List.map_cons, ih, List.map_cons]
      by_cases hrest : m.name ∈ rest.map Method.name <;> simp [hrest, hne]

/-- An override keeps the names of the table in their slots. -/
theorem map_name_overrideSlot_infix :
    table.map Method.name <+: (overrideSlot m table).map Method.name := by
  rw [map_name_overrideSlot]
  split_ifs
  · exact List.prefix_rfl
  · exact List.prefix_append _ _

/-- An override keeps the names of the table apart. -/
theorem nodup_overrideSlot (hnodup : (table.map Method.name).Nodup) :
    ((overrideSlot m table).map Method.name).Nodup := by
  rw [map_name_overrideSlot]
  split_ifs with hm
  · exact hnodup
  · exact List.nodup_append'.2 ⟨hnodup, List.nodup_singleton _, by simpa using hm⟩

/-- **The names of the inherited slots** come first and stay in their order. -/
theorem map_name_foldl_overrideSlot : table.map Method.name <+:
    (own.foldl (fun table m => overrideSlot m table) table).map Method.name := by
  induction own generalizing table with
  | nil => exact List.prefix_rfl
  | cons m own ih => exact map_name_overrideSlot_infix.trans ih

/-- Several overrides keep the names of the table apart. -/
theorem nodup_foldl_overrideSlot (hnodup : (table.map Method.name).Nodup) :
    ((own.foldl (fun table m => overrideSlot m table) table).map Method.name).Nodup := by
  induction own generalizing table with
  | nil => exact hnodup
  | cons m own ih => exact ih (nodup_overrideSlot hnodup)

/-- A method of a new name gets a slot at the end. -/
theorem overrideSlot_of_new (hnew : m.name ∉ table.map Method.name) :
    overrideSlot m table = table ++ [m] := by
  induction table with
  | nil => rfl
  | cons slot rest ih =>
    rw [List.map_cons, List.mem_cons, not_or] at hnew
    rw [overrideSlot, if_neg fun h => hnew.1 h.symm, ih hnew.2, List.cons_append]

/-- A method goes into the slot of its name. -/
theorem overrideSlot_of_slot (hnodup : (table.map Method.name).Nodup)
    (hslot : table[i]? = some slot) (hname : slot.name = m.name) :
    overrideSlot m table = table.set i m := by
  induction table generalizing i with
  | nil => exact absurd hslot (by simp)
  | cons first rest ih =>
    rw [List.map_cons, List.nodup_cons] at hnodup
    cases i with
    | zero =>
      obtain rfl := Option.some.inj hslot
      rw [overrideSlot, if_pos hname, List.set_cons_zero]
    | succ i =>
      have hrest : rest[i]? = some slot := hslot
      have hne : first.name ≠ m.name := fun h =>
        hnodup.1 (h ▸ hname ▸ List.mem_map_of_mem (List.mem_of_getElem? hrest))
      rw [overrideSlot, if_neg hne, ih hnodup.2 hrest, List.set_cons_succ]

end Tables

/-! ### Tables with the places of names -/

/-- A table of methods, and the place of each name in it. -/
structure SlotTable where
  methods : List Method
  places : KeyMap Nat

namespace SlotTable

/-- The table without a method. -/
def empty : SlotTable := ⟨[], .empty⟩

/-- The table with `m` in the place of its name, or at the end if the name has none. -/
def add (t : SlotTable) (m : Method) : SlotTable :=
  match t.places.get? m.name with
  | some i => { t with methods := t.methods.set i m }
  | none => ⟨t.methods ++ [m], t.places.insert m.name t.methods.length⟩

/-- What stands in the place of a name. -/
def method? (t : SlotTable) (name : String) : Option Method :=
  (t.places.get? name).bind fun i => t.methods[i]?

/-- The place of a name is where a method of this name stands. -/
def Consistent (t : SlotTable) : Prop :=
  ∀ name i, t.places.get? name = some i ↔ ∃ m, t.methods[i]? = some m ∧ m.name = name

variable {t : SlotTable} {m : Method} {name : String}

/-- The empty map of slots is consistent. -/
theorem consistent_empty : empty.Consistent := by
  intro name i
  simp [empty, KeyMap.get?, KeyMap.empty, findEntry]

/-- Where every name has its place, no name comes twice. -/
theorem Consistent.nodup (ht : t.Consistent) : (t.methods.map Method.name).Nodup := by
  rw [List.nodup_iff_getElem?_ne_getElem?]
  intro i j hij hj hsame
  rw [List.length_map] at hj
  have hi : i < t.methods.length := hij.trans hj
  rw [List.getElem?_map, List.getElem?_map, List.getElem?_eq_getElem hi,
    List.getElem?_eq_getElem hj, Option.map_some, Option.map_some, Option.some.injEq] at hsame
  have hplace := (ht _ i).2 ⟨_, List.getElem?_eq_getElem hi, rfl⟩
  have hplace' := (ht _ j).2 ⟨_, List.getElem?_eq_getElem hj, hsame.symm⟩
  rw [hplace, Option.some.injEq] at hplace'
  exact Nat.ne_of_lt hij hplace'

/-- A name without a place is new. -/
theorem Consistent.not_mem (ht : t.Consistent) (hnone : t.places.get? name = none) :
    name ∉ t.methods.map Method.name := by
  intro hmem
  obtain ⟨m, hm, hname⟩ := List.mem_map.1 hmem
  obtain ⟨i, hi⟩ := List.mem_iff_getElem?.1 hm
  rw [(ht name i).2 ⟨m, hi, hname⟩] at hnone
  exact absurd hnone (by simp)

/-- What is added goes where a search for the name puts it. -/
theorem Consistent.add_methods (ht : t.Consistent) (m : Method) :
    (t.add m).methods = overrideSlot m t.methods := by
  rcases hplace : t.places.get? m.name with _ | i <;> simp only [add, hplace]
  · exact (overrideSlot_of_new (ht.not_mem hplace)).symm
  · obtain ⟨slot, hslot, hname⟩ := (ht m.name i).1 hplace
    exact (overrideSlot_of_slot ht.nodup hslot hname).symm

/-- **The places are right after one method more.** -/
theorem Consistent.add (ht : t.Consistent) (m : Method) : (t.add m).Consistent := by
  intro name i
  -- a new name gets the slot after the last; a known one keeps its slot and changes the method
  rcases hplace : t.places.get? m.name with _ | j <;> simp only [SlotTable.add, hplace]
  · rw [KeyMap.get?_insert, List.getElem?_append]
    by_cases hname : name = m.name
    · -- the new slot is the only one of this name
      subst hname
      rw [if_pos rfl, Option.some.injEq]
      constructor
      · rintro rfl
        exact ⟨m, by simp, rfl⟩
      · rintro ⟨x, hx, hxm⟩
        split_ifs at hx with hi
        · exact absurd (hxm ▸ List.mem_map_of_mem (List.mem_of_getElem? hx)) (ht.not_mem hplace)
        · rw [List.getElem?_singleton] at hx
          split_ifs at hx with hzero
          omega
    · rw [if_neg hname, ht name i]
      refine exists_congr fun x => and_congr_left fun hx => ?_
      split_ifs with hi
      · rfl
      · rw [List.getElem?_eq_none (Nat.le_of_not_lt hi), List.getElem?_singleton]
        split_ifs
        · simp only [Option.some.injEq, false_iff]
          rintro rfl
          exact hname hx.symm
        · rfl
  · obtain ⟨slot, hslot, hslotname⟩ := (ht m.name j).1 hplace
    have hlt : j < t.methods.length := (List.getElem?_eq_some_iff.1 hslot).1
    rw [ht name i, List.getElem?_set]
    by_cases hji : j = i
    · subst hji
      rw [if_pos rfl, if_pos hlt, hslot]
      simp only [Option.some.injEq, exists_eq_left', hslotname]
    · rw [if_neg hji]

/-- Methods added in turn go where a search for their names puts them. -/
theorem Consistent.foldl_add (ht : t.Consistent) (own : List Method) :
    (own.foldl SlotTable.add t).Consistent ∧ (own.foldl SlotTable.add t).methods =
      own.foldl (fun table m => overrideSlot m table) t.methods := by
  induction own generalizing t with
  | nil => exact ⟨ht, rfl⟩
  | cons m own ih =>
    rw [List.foldl_cons, List.foldl_cons, ← ht.add_methods m]
    exact ih (ht.add m)

/-- What stands in the place of a name is what a search for the name finds. -/
theorem Consistent.method?_eq (ht : t.Consistent) (name : String) :
    t.method? name = t.methods.find? fun m => m.name == name := by
  rw [method?]
  rcases hplace : t.places.get? name with _ | i
  · refine (List.find?_eq_none.2 fun m hm hname => ?_).symm
    exact ht.not_mem hplace (beq_iff_eq.1 hname ▸ List.mem_map_of_mem hm)
  · obtain ⟨m, hm, rfl⟩ := (ht name i).1 hplace
    exact hm.trans (find?_of_nodup ht.nodup (List.mem_of_getElem? hm)).symm

/-- The place of a name is where a search for the name ends. -/
theorem Consistent.place_eq (ht : t.Consistent) (name : String) :
    t.places.get? name = t.methods.findIdx? fun m => m.name == name := by
  rcases hplace : t.places.get? name with _ | i
  · refine (List.findIdx?_eq_none_iff.2 fun m hm => ?_).symm
    rw [beq_eq_false_iff_ne]
    rintro rfl
    exact ht.not_mem hplace (List.mem_map_of_mem hm)
  · obtain ⟨m, hm, rfl⟩ := (ht name i).1 hplace
    obtain ⟨hi, rfl⟩ := List.getElem?_eq_some_iff.1 hm
    refine (List.findIdx?_eq_some_iff_getElem.2 ⟨hi, by simp, fun j hj hname => ?_⟩).symm
    have hother := (ht _ j).2 ⟨_, List.getElem?_eq_getElem (hj.trans hi), beq_iff_eq.1 hname⟩
    rw [hplace, Option.some.injEq] at hother
    exact Nat.ne_of_gt hj hother

end SlotTable

/-- The table of the class with the places of the names: that of the parent with the methods that
the class declares. -/
def Class.slotTable : Class → SlotTable
  | .root record => record.declared.foldl SlotTable.add .empty
  | .extend record parent => record.declared.foldl SlotTable.add parent.slotTable

/-! ### Built classes -/

namespace ClassDraft

variable {d : ClassDraft} {serial : Nat} {c : Class}

/-- A class that is built has a name of its own among its ancestors. -/
theorem name_of_build (h : d.build serial = .ok c) :
    c.name = d.name ∧ c.parent? = d.parent ∧
      ∀ p, d.parent = some p → ∀ a ∈ p.ancestry, a.name ≠ d.name := by
  obtain ⟨methods, -, rfl⟩ := build_ok h
  unfold build at h
  split_ifs at h with hrepeats
  have hnew : d.repeatsAncestor = false := Bool.eq_false_iff.2 hrepeats
  rcases hparent : d.parent with _ | p
  · exact ⟨rfl, rfl, fun p hp => absurd hp (by simp)⟩
  · refine ⟨rfl, rfl, fun q hq a ha hname => ?_⟩
    obtain rfl := Option.some.inj hq
    rw [repeatsAncestor, hparent] at hnew
    exact absurd (beq_iff_eq.2 hname) (List.any_eq_false.1 hnew a ha)

end ClassDraft

namespace Class

variable {c : Class} {m : Method} {name : String}

/-- All methods that the class declares. -/
def allMethods (c : Class) : List Method :=
  c.declaredMethods ++ c.maker.toList ++ c.functions

/-- The table of a class without parent is laid over nothing, that of any other over the table of
the parent. -/
def inheritedTable (c : Class) : List Method :=
  match c.parent? with
  | some p => p.vtable
  | none => []

namespace Built

/-- The table of a built class is laid over that of its parent. -/
theorem vtable_eq (h : c.Built) : c.vtable =
    c.declaredMethods.foldl (fun table m => overrideSlot m table) c.inheritedTable := by
  obtain ⟨serial, name, parcel, parent, flags, methods, -, -, rfl⟩ := h.laidOut
  rcases parent with _ | p <;> rfl

/-- The parent of a well-formed class is well formed. -/
theorem parent_built {p : Class} (h : c.Built) (hp : c.parent? = some p) : p.Built := by
  obtain ⟨d, serial, hparent, hbuild⟩ := h
  exact hparent p ((ClassDraft.name_of_build hbuild).2.1 ▸ hp)

/-- No name comes twice in the table. -/
theorem nodup_vtable (h : c.Built) : (c.vtable.map Method.name).Nodup := by
  induction h with
  | build d serial hparent hbuild ih =>
    obtain ⟨hname, hp, -⟩ := ClassDraft.name_of_build hbuild
    rw [vtable_eq (.build d serial hparent hbuild)]
    refine nodup_foldl_overrideSlot ?_
    rw [inheritedTable, hp]
    rcases hd : d.parent with _ | p
    · exact List.nodup_nil
    · exact ih p hd

/-- The table that is kept with places is the table of the class, and the places are right. -/
theorem slotTable_eq (h : c.Built) :
    c.slotTable.Consistent ∧ c.slotTable.methods = c.vtable := by
  induction h with
  | @build c d serial hparent hbuild ih =>
    obtain ⟨hname, hp, -⟩ := ClassDraft.name_of_build hbuild
    rw [vtable_eq (.build d serial hparent hbuild), inheritedTable]
    cases c with
    | root record => exact SlotTable.consistent_empty.foldl_add record.declared
    | extend record parent =>
      obtain ⟨hconsistent, hmethods⟩ := ih parent hp.symm
      have hadded := hconsistent.foldl_add record.declared
      rw [hmethods] at hadded
      exact hadded

/-- The names along the ancestry are different. -/
theorem nodup_ancestry (h : c.Built) : (c.ancestry.map Class.name).Nodup := by
  induction h with
  | @build c d serial hparent hbuild ih =>
    obtain ⟨hname, hp, hnew⟩ := ClassDraft.name_of_build hbuild
    cases c with
    | root record => exact List.nodup_singleton _
    | extend record parent =>
      refine List.nodup_cons.2 ⟨fun hmem => ?_, ih parent hp.symm⟩
      obtain ⟨a, ha, haname⟩ := List.mem_map.1 hmem
      exact hnew parent hp.symm a ha (haname.trans hname)

/-- What the class declares is what it was built from. -/
theorem mem_of_allMethods {serial : Nat} {cls parcel : String} {parent : Option Class}
    {flags : UInt32} {methods : List Method}
    (hm : m ∈ (Class.ofMethods serial cls parcel parent flags methods).allMethods) :
    m ∈ methods := by
  rw [allMethods, declaredMethods_ofMethods, functions_ofMethods, maker_ofMethods] at hm
  rcases List.mem_append.1 hm with hm | hm
  · rcases List.mem_append.1 hm with hm | hm
    · exact List.mem_of_mem_filter hm
    · exact List.mem_of_mem_filter (List.mem_of_getLast? (Option.mem_toList.1 hm))
  · exact List.mem_of_mem_filter hm

/-- **No two methods that the class declares have one name,** whatever their kinds. -/
theorem nodup_allMethods (h : c.Built) : (c.allMethods.map Method.name).Nodup := by
  -- the three lists have different methods, since the kinds differ
  have hdeclared : ∀ m ∈ c.declaredMethods, m.kind = .instanceMethod := fun _ => h.kind_of_declared
  have hmaker : ∀ m ∈ c.maker.toList, m.kind = .constructor := fun _ hm =>
    h.kind_of_maker (Option.mem_toList.1 hm)
  have hfunctions : ∀ m ∈ c.functions, m.kind = .inert := fun _ => h.kind_of_functions
  have hlists : c.allMethods.Nodup := by
    refine List.nodup_append'.2 ⟨List.nodup_append'.2 ⟨.of_map _ h.nodup_declared, ?_, ?_⟩, ?_, ?_⟩
    · cases c.maker <;> simp
    · intro m hm hm'
      exact absurd ((hdeclared m hm).symm.trans (hmaker m hm')) (by decide)
    · obtain ⟨serial, name, parcel, parent, flags, methods, hnodup, -, rfl⟩ := h.laidOut
      rw [functions_ofMethods]
      exact (List.Nodup.of_map _ hnodup).filter _
    · intro m hm hm'
      rcases List.mem_append.1 hm with hm | hm
      · exact absurd ((hdeclared m hm).symm.trans (hfunctions m hm')) (by decide)
      · exact absurd ((hmaker m hm).symm.trans (hfunctions m hm')) (by decide)
  obtain ⟨serial, name, parcel, parent, flags, methods, hnodup, -, rfl⟩ := h.laidOut
  refine hlists.map_on fun x hx y hy hxy => ?_
  exact List.inj_on_of_nodup_map hnodup (mem_of_allMethods hx) (mem_of_allMethods hy) hxy

/-- **An inherited slot** holds the instance method of its name that the class declares, and
without one what it held in the parent. -/
theorem inherited_slot {p : Class} {i : Nat} {slot : Method} (h : c.Built)
    (hp : c.parent? = some p) (hslot : p.vtable[i]? = some slot) :
    c.vtable[i]? = some ((c.declaredMethods.find? fun m => m.name == slot.name).getD slot) := by
  have hname : (c.vtable.map Method.name)[i]? = some slot.name := by
    have hfirst : p.vtable.map Method.name <+: c.vtable.map Method.name := by
      rw [h.vtable_eq, inheritedTable, hp]
      exact map_name_foldl_overrideSlot
    have hlt := (List.getElem?_eq_some_iff.1 hslot).1
    obtain ⟨rest, hrest⟩ := hfirst
    rw [← hrest, List.getElem?_append_left (by rwa [List.length_map]), List.getElem?_map, hslot,
      Option.map_some]
  rw [List.getElem?_map] at hname
  obtain ⟨x, hx, hxname⟩ := Option.map_eq_some_iff.1 hname
  have hfound := find?_of_nodup h.nodup_vtable (List.mem_of_getElem? hx)
  rw [hxname, h.vtable_eq, find?_foldl_overrideSlot_or h.nodup_declared, inheritedTable, hp,
    find?_of_nodup (h.parent_built hp).nodup_vtable (List.mem_of_getElem? hslot)] at hfound
  rw [hx, ← hfound]
  cases c.declaredMethods.find? fun m => m.name == slot.name <;> rfl

end Built

/-- What holds of the table of a class, beside its ancestry. -/
structure Flattened (c : Class) : Prop where
  /-- The names in the table are pairwise distinct. -/
  nodup_names : (c.vtable.map Method.name).Nodup
  /-- The table that is kept with the places of names is the table of the class. -/
  slotTable_methods : c.slotTable.methods = c.vtable
  /-- A name has the place at which a method of this name stands. -/
  place_iff : ∀ name (i : Nat), c.slotTable.places.get? name = some i ↔
    ∃ m, c.vtable[i]? = some m ∧ m.name = name
  /-- A search through the table finds the same place. -/
  slot?_eq : ∀ name, c.slot? name = c.slotTable.places.get? name
  /-- What stands in the place of a name is the method of this name. -/
  slotTable_method? : ∀ name, c.slotTable.method? name = c.method? name
  /-- The names of the slots of the parent come first and in the same order. -/
  parent_first : ∀ p : Class, c.parent? = some p →
    p.vtable.map Method.name <+: c.vtable.map Method.name
  /-- The method of a name is the instance method of this name that the nearest class in the
  ancestry declares. -/
  method?_iff : ∀ name m, c.method? name = some m ↔ c.FirstDeclares name m
  /-- There is none if no class in the ancestry declares one. -/
  method?_none_iff : ∀ name, c.method? name = none ↔
    ∀ a ∈ c.ancestry, ∀ m ∈ a.declaredMethods, m.name ≠ name
  /-- Only instance methods stand in the table. -/
  kind_eq : ∀ m ∈ c.vtable, m.kind = .instanceMethod
  /-- Only an instance method that the class declares changes an inherited slot. -/
  inherited : ∀ p : Class, c.parent? = some p → ∀ (i : Nat) slot, p.vtable[i]? = some slot →
    c.vtable[i]? = some ((c.declaredMethods.find? fun m => m.name == slot.name).getD slot)
  /-- The methods that the class declares are instance methods, a constructor and inert
  functions. -/
  declared_kinds : (∀ m ∈ c.declaredMethods, m.kind = .instanceMethod) ∧
    (∀ m, c.maker = some m → m.kind = .constructor) ∧ ∀ m ∈ c.functions, m.kind = .inert
  /-- Of all these methods only one has a name, and it is the one that is found under it. -/
  declared?_iff : ∀ name m, c.declared? name = some m ↔ m ∈ c.allMethods ∧ m.name = name
  /-- The names along the ancestry are pairwise distinct. -/
  nodup_ancestry : (c.ancestry.map Class.name).Nodup

/-- **The flattened table of a built class equals a walk of its ancestry.** -/
theorem Built.flattened (h : c.Built) : c.Flattened where
  nodup_names := h.nodup_vtable
  slotTable_methods := h.slotTable_eq.2
  place_iff name i := by
    rw [← h.slotTable_eq.2]
    exact h.slotTable_eq.1 name i
  slot?_eq name := by
    rw [h.slotTable_eq.1.place_eq, h.slotTable_eq.2]
    rfl
  slotTable_method? name := by
    rw [h.slotTable_eq.1.method?_eq, h.slotTable_eq.2]
    rfl
  parent_first p hp := by
    rw [h.vtable_eq, inheritedTable, hp]
    exact map_name_foldl_overrideSlot
  method?_iff name m := h.method?_eq_some_iff
  method?_none_iff name := by
    rw [h.method?_eq_walk, List.findSome?_eq_none_iff]
    simp only [List.find?_eq_none, beq_iff_eq]
  kind_eq m hm := h.kind_of_method? (find?_of_nodup h.nodup_vtable hm)
  inherited p hp i slot hslot := h.inherited_slot hp hslot
  declared_kinds := ⟨fun _ => h.kind_of_declared, fun _ => h.kind_of_maker,
    fun _ => h.kind_of_functions⟩
  declared?_iff name m := by
    constructor
    · intro hm
      exact ⟨List.mem_of_find?_eq_some hm, by simpa using List.find?_some hm⟩
    · rintro ⟨hm, rfl⟩
      exact find?_of_nodup h.nodup_allMethods hm
  nodup_ancestry := h.nodup_ancestry

end Class

/-! ### A function with the name of an inherited method -/

namespace Sample

/-- A public method without arguments. -/
def plain (name : String) (code : Code) : Method :=
  ⟨name, .void, [], code, false⟩

/-- A class with two methods. -/
def shape : Class :=
  .ofMethods Parcel.firstFreeSerial "Shape" "Sample" none 0
    [plain "Area" (.onObject (.linked "half")), plain "Name" (.onObject (.linked "null"))]

/-- A class below it with a constructor, a function that has the name of an inherited method, an
override, and a new method. -/
def square : Class :=
  .ofMethods (Parcel.firstFreeSerial + 1) "Square" "Sample" (some shape) 0
    [plain "init" (.onClass (.linked "empty")), plain "Area" (.onNothing (.linked "zero")),
      plain "Side" (.onObject (.linked "count")), plain "Name" (.onObject (.linked "true"))]

/-- The class of the example is well formed. -/
theorem square_built : square.Built := by
  have hshape : shape.Built := .ofMethods nofun nofun (by decide)
  refine .ofMethods (fun p hp => Option.some.inj hp ▸ hshape) (fun p hp a ha => ?_) (by decide)
  obtain rfl := Option.some.inj hp
  obtain rfl := List.mem_singleton.1 (show a ∈ [shape] from ha)
  decide

/-- The function leaves the slot of the inherited method alone, and the override takes the slot
of what it overrides. -/
theorem square_flattened :
    square.vtable[0]? = some (plain "Area" (.onObject (.linked "half"))) ∧
    square.vtable[1]? = some (plain "Name" (.onObject (.linked "true"))) ∧
    square.slotTable.places.get? "Side" = some 2 ∧
    square.declared? "Area" = some (plain "Area" (.onNothing (.linked "zero"))) ∧
    square.method? "init" = none := by
  have h := square_built.flattened
  exact ⟨h.inherited shape rfl 0 _ rfl, h.inherited shape rfl 1 _ rfl,
    (h.place_iff "Side" 2).2 ⟨_, rfl, rfl⟩, (h.declared?_iff "Area" _).2 ⟨by decide, rfl⟩,
    (h.method?_none_iff "init").2 (by decide)⟩

end Sample

end Interop

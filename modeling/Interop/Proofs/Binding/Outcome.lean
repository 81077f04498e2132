/-
# What becomes of bindings

Making a module goes through a list of bindings, adds the table of each and stops at the first
that is wrong (`Emission.addTables_ok_iff`, `Emission.addTables_error_iff`).

**Bindings for different classes** (`BindingSet.emit_outcome`) give a module exactly when each
of them is right, and then each class has the table that its binding declares.
-/

import Interop.Proofs.Binding.Rows

namespace Interop

section Lists

variable {α β : Type} {R : α → β → Prop} {l : List α} {l' : List β}

/-- What is related side by side: every element of the first list to one of the second. -/
theorem exists_of_mem_left (h : List.Forall₂ R l l') {a : α} (ha : a ∈ l) : ∃ b ∈ l', R a b := by
  induction h with
  | nil => exact absurd ha List.not_mem_nil
  | cons hfirst _ ih =>
    rcases List.mem_cons.1 ha with rfl | ha
    · exact ⟨_, List.mem_cons_self, hfirst⟩
    · obtain ⟨b, hb, hab⟩ := ih ha
      exact ⟨b, List.mem_cons_of_mem _ hb, hab⟩

/-- Each element on the right is related to one on the left. -/
theorem exists_of_mem_right (h : List.Forall₂ R l l') {b : β} (hb : b ∈ l') : ∃ a ∈ l, R a b :=
  exists_of_mem_left (R := fun b a => R a b) h.flip hb

end Lists

namespace Emission

variable {registry : Registry} {b : ClassBinding} {c : Class} {e : BridgeError}

/-! ### The tables of a list of bindings -/

/-- Something is wrong with a binding of the list, and with none before it. -/
def FirstFaulty (registry : Registry) (bindings : List ClassBinding) (e : BridgeError) : Prop :=
  ∃ before b after, bindings = before ++ b :: after ∧ (∀ x ∈ before, ∃ c, Sound registry x c) ∧
    Faulty registry b e

/-- No two of the bindings are for the same class. -/
def Apart (registry : Registry) (bindings : List ClassBinding) : Prop :=
  bindings.Pairwise fun b b' => ∀ c, registry.fetch b.className = .ok c →
    registry.fetch b'.className ≠ .ok c

/-- The module with the tables of more bindings, or the first error. -/
def addTables (registry : Registry) (module : Module) : List ClassBinding →
    Except BridgeError Module
  | [] => .ok module
  | b :: rest => tableFor registry b >>= fun t => addTables registry (module.addClass t) rest

/-- Tables for all bindings are added in turn, or the first error is answered. -/
theorem addClasses_yields (registry : Registry) : ∀ (bindings : List ClassBinding)
    (module : Module), Yields (addClasses registry module bindings)
      (addTables registry module bindings)
  | [], module => .pure module
  | b :: rest, module => by
    rw [addClasses, addTables]
    exact (boundClass_yields registry b).bind fun t _ =>
      (Yields.log _ _).andThen (addClasses_yields registry rest (module.addClass t))

variable {bindings : List ClassBinding} {module : Module} {tables : List BoundClass}

/-- Where every binding makes a table, all the tables are added in the order of the bindings.
-/
theorem addTables_of_makes (hr : registry.Built)
    (h : List.Forall₂ (Makes registry) bindings tables) :
    addTables registry module bindings = .ok { module with tables := module.tables ++ tables } := by
  induction h generalizing module with
  | nil => rw [addTables, List.append_nil]
  | cons hb _ ih =>
    obtain ⟨c, hsound, rfl⟩ := hb
    rw [addTables, tableFor_of_sound hr hsound, ok_bind, ih, Module.addClass, List.append_assoc]
    rfl

/-- A binding with a fault, none before it, decides the error. -/
theorem addTables_of_firstFaulty (hr : registry.Built) (h : FirstFaulty registry bindings e) :
    addTables registry module bindings = .error e := by
  obtain ⟨before, b, after, rfl, hbefore, hb⟩ := h
  induction before generalizing module with
  | nil =>
    rw [List.nil_append, addTables, tableFor_of_faulty hr hb]
    rfl
  | cons first rest ih =>
    obtain ⟨⟨c, hfirst⟩, hrest⟩ := List.forall_mem_cons.1 hbefore
    rw [List.cons_append, addTables, tableFor_of_sound hr hfirst, ok_bind, ih hrest]

/-- Either all bindings are right, or there is a first that is not. -/
theorem makes_or_firstFaulty (registry : Registry) (bindings : List ClassBinding) :
    (∃ tables, List.Forall₂ (Makes registry) bindings tables) ∨
      ∃ e, FirstFaulty registry bindings e := by
  induction bindings with
  | nil => exact Or.inl ⟨[], .nil⟩
  | cons b rest ih =>
    rcases sound_or_faulty registry b with ⟨c, hb⟩ | ⟨e, hb⟩
    swap
    · exact Or.inr ⟨e, [], b, rest, rfl, by simp, hb⟩
    rcases ih with ⟨tables, hrest⟩ | ⟨e, before, b', after, rfl, hbefore, hb'⟩
    · exact Or.inl ⟨b.table c :: tables, .cons ⟨c, hb, rfl⟩ hrest⟩
    · exact Or.inr ⟨e, b :: before, b', after, rfl,
        List.forall_mem_cons.2 ⟨⟨c, hb⟩, hbefore⟩, hb'⟩

/-- **When the tables can be made,** and what they are. -/
theorem addTables_ok_iff (hr : registry.Built) {module' : Module} :
    addTables registry module bindings = .ok module' ↔ ∃ tables,
      List.Forall₂ (Makes registry) bindings tables ∧
        module' = { module with tables := module.tables ++ tables } := by
  constructor
  · intro h
    rcases makes_or_firstFaulty registry bindings with ⟨tables, htables⟩ | ⟨e, he⟩
    · exact ⟨tables, htables, Except.ok.inj (h.symm.trans (addTables_of_makes hr htables))⟩
    · exact absurd (h.symm.trans (addTables_of_firstFaulty hr he)) (by simp)
  · rintro ⟨tables, htables, rfl⟩
    exact addTables_of_makes hr htables

/-- Where every binding is right, there is no first that is not. -/
theorem not_firstFaulty_of_sound (h : ∀ b ∈ bindings, ∃ c, Sound registry b c) :
    ¬ FirstFaulty registry bindings e := by
  rintro ⟨before, b, after, rfl, -, hfaulty⟩
  obtain ⟨c, hsound⟩ := h b (by simp)
  exact hfaulty.not_sound hsound

/-- The classes of the tables are those of the bindings. -/
theorem map_fetch_eq (h : List.Forall₂ (Makes registry) bindings tables) :
    (bindings.map fun b => registry.fetch b.className) = tables.map fun t => .ok t.cls := by
  induction h with
  | nil => rfl
  | cons hfirst _ ih =>
    obtain ⟨c, hsound, rfl⟩ := hfirst
    rw [List.map_cons, List.map_cons, ih, hsound.fetch_eq]
    rfl

/-- **Bindings are for different classes** exactly when their tables are. -/
theorem apart_iff
    (h : (bindings.map fun b => registry.fetch b.className) = tables.map fun t => .ok t.cls) :
    Apart registry bindings ↔ (tables.map BoundClass.cls).Nodup := by
  unfold Apart List.Nodup
  rw [List.pairwise_map, ← List.pairwise_map (l := bindings)
    (R := fun x y => ∀ c, x = Except.ok c → y ≠ .ok c), h, List.pairwise_map]
  refine List.Pairwise.iff fun {t t'} => ?_
  simp [eq_comm]

end Emission

/-! ### Modules of different classes -/

namespace Module

variable {module : Module} {t : BoundClass}

/-- A class that is bound once has its table. -/
theorem table?_of_nodup (h : (module.tables.map BoundClass.cls).Nodup) (ht : t ∈ module.tables) :
    module.table? t.cls = some t := by
  refine find?_of_nodup ?_ (List.mem_reverse.2 ht)
  rw [List.map_reverse]
  exact List.nodup_reverse.2 h

/-- So every name of the class finds this table. -/
theorem boundClass_of_nodup (h : (module.tables.map BoundClass.cls).Nodup)
    (ht : t ∈ module.tables) {registry : Registry} {name : String}
    (hname : registry.fetch name = .ok t.cls) :
    module.boundClass registry name = .ok (some t) := by
  rw [boundClass, hname]
  exact congrArg _ (table?_of_nodup h ht)

end Module

namespace BindingSet

open Emission

variable {s : BindingSet} {name : String} {registry : Registry} {module : Module}
  {l : Log.Logger} {e : BridgeError}

/-- Emission starts with an empty module and adds the tables of its bindings. -/
theorem emit_yields (s : BindingSet) (name : String) (registry : Registry) :
    Yields (s.emit name registry) (addTables registry (.new name) s.bindings) := by
  have hbind : addTables registry (.new name) s.bindings =
      addTables registry (.new name) s.bindings >>= fun module => .ok module := by
    rcases addTables registry (.new name) s.bindings with _ | _ <;> rfl
  rw [hbind]
  exact (addClasses_yields registry _ _).bind fun module _ =>
    (Yields.log _ _).andThen (.pure module)

/-- **When a module can be made,** and what it is. -/
theorem emit_ok_iff (hr : registry.Built) :
    (∃ l', s.emit name registry l = .ok module l') ↔ ∃ tables,
      List.Forall₂ (Makes registry) s.bindings tables ∧ module = ⟨name, tables, .empty⟩ := by
  rw [(emit_yields s name registry).ok_iff, addTables_ok_iff hr]
  rfl

/-- Bindings that are all right give a module. -/
theorem emit_of_sound (name : String) (l : Log.Logger) (hr : registry.Built)
    (h : ∀ b ∈ s.bindings, ∃ c, Sound registry b c) :
    ∃ module l', s.emit name registry l = .ok module l' := by
  rcases makes_or_firstFaulty registry s.bindings with ⟨tables, htables⟩ | ⟨e, he⟩
  · exact ⟨_, (emit_ok_iff hr).2 ⟨tables, htables, rfl⟩⟩
  · exact absurd he (not_firstFaulty_of_sound h)

end BindingSet

namespace Sample

/-- Hashes of which host code stores differently, and errors as they are. -/
def storeBindings : BindingSet := ⟨[
  ((ClassBinding.plain "Sample" "Clownfish::Hash").exclude "Store").addDef
    ⟨"store", fun _ _ _ => return .null⟩,
  .plain "Sample" "Clownfish::Err"]⟩

/-- The classes that the examples bind, by name. -/
theorem fetch_bound : Parcel.registry.fetch "Clownfish::Hash" = .ok Parcel.hash ∧
    Parcel.registry.fetch "Clownfish::Err" = .ok Parcel.err ∧
    Parcel.registry.fetch "Clownfish::Obj" = .ok Parcel.obj := by
  decide +kernel

/-- The plain binding of the class of errors is sound. -/
theorem sound_err :
    Emission.Sound Parcel.registry (.plain "Sample" "Clownfish::Err") Parcel.err where
  fetch_eq := fetch_bound.2.1
  declares := by decide +kernel
  nodup := by decide +kernel

/-- Every binding of the first example is sound. -/
theorem sound_storeBindings :
    ∀ b ∈ storeBindings.bindings, ∃ c, Emission.Sound Parcel.registry b c :=
  List.forall_mem_cons.2 ⟨⟨Parcel.hash, fetch_bound.1, by decide +kernel, by decide +kernel⟩,
    List.forall_mem_cons.2 ⟨⟨Parcel.err, sound_err⟩, by simp⟩⟩

end Sample

end Interop

/-
# Bindings for one class

A set of bindings has one for each name, but a class can have several names.  Two bindings for
two names of one class are both accepted, and the table of the second takes the place of that
of the first: what the first one declares is lost, and the table stands twice among those of
the module (`Sample.aliasBindings_lost`).

**This is the only way to lose a binding** (`BindingSet.emit_complete_iff`).  As no two bindings
share a name (`BindingSet.nodup_registerAll`), it takes an alias: bindings that call their
classes by the names of these classes are for different ones.
-/

import Interop.Proofs.Binding.Outcome

namespace Interop

namespace BindingSet

open Emission

/-! ### Adding bindings -/

/-- The set after one more binding; one that is refused changes nothing. -/
def accept (s : BindingSet) (b : ClassBinding) : BindingSet :=
  match s.register b with
  | .ok s => s
  | .error _ => s

/-- The set after more bindings. -/
def registerAll (s : BindingSet) (bindings : List ClassBinding) : BindingSet :=
  bindings.foldl accept s

variable {s s' : BindingSet} {b : ClassBinding}

/-- A binding is accepted when its name is new. -/
theorem register_ok_iff : s.register b = .ok s' ↔
    b.className ∉ s.bindings.map ClassBinding.className ∧ s' = ⟨s.bindings ++ [b]⟩ := by
  rw [register]
  by_cases hname : b.className ∈ s.bindings.map ClassBinding.className
  · rw [if_pos (by simpa using hname)]
    simp [hname]
  · rw [if_neg (by simpa using hname)]
    simp [hname, eq_comm]

/-- Accepting a binding keeps the names in a set apart. -/
theorem nodup_accept (hs : (s.bindings.map ClassBinding.className).Nodup) (b : ClassBinding) :
    ((s.accept b).bindings.map ClassBinding.className).Nodup := by
  unfold accept
  rcases h : s.register b with e | s'
  · exact hs
  · obtain ⟨hname, rfl⟩ := register_ok_iff.1 h
    rw [List.map_append, List.nodup_append]
    exact ⟨hs, List.nodup_singleton _, fun x hx y hy hxy =>
      hname (List.mem_singleton.1 hy ▸ hxy ▸ hx)⟩

/-- **No two bindings of a set share a name.** -/
theorem nodup_registerAll (bindings : List ClassBinding)
    (hs : (s.bindings.map ClassBinding.className).Nodup) :
    ((s.registerAll bindings).bindings.map ClassBinding.className).Nodup := by
  induction bindings generalizing s with
  | nil => exact hs
  | cons b rest ih => exact ih (nodup_accept hs b)

end BindingSet

namespace Emission

variable {registry : Registry} {bindings : List ClassBinding} {tables : List BoundClass}
  {name : String} {module : Module}

/-- Bindings of different names that call their classes by their own names are for different
classes. -/
theorem apart_of_own_names (hnames : (bindings.map ClassBinding.className).Nodup)
    (hown : ∀ b ∈ bindings, ∀ c, registry.fetch b.className = .ok c → c.name = b.className) :
    Apart registry bindings := by
  refine (List.pairwise_map.1 hnames).imp_of_mem fun {b b'} hb hb' hne c hc hc' => ?_
  exact hne ((hown b hb c hc).symm.trans (hown b' hb' c hc'))

/-- The module has one table for each binding, in their order and for different classes, and no
entry that a binding declares is missing. -/
structure Complete (registry : Registry) (bindings : List ClassBinding) (module : Module) :
    Prop where
  classes_eq : (module.classes.map fun t => .ok t.cls) =
    bindings.map fun b => registry.fetch b.className
  distinct : (module.classes.map BoundClass.cls).Nodup
  found : ∀ b ∈ bindings, ∃ c t, registry.fetch b.className = .ok c ∧
    module.boundClass registry b.className = .ok (some t) ∧
      ∀ row ∈ b.rows c, t.entry? row.1 = some row.2

/-- Tables of different classes are all in force. -/
theorem classes_of_nodup (h : (module.tables.map BoundClass.cls).Nodup) :
    module.classes = module.tables := by
  have hself : ∀ t ∈ module.tables, module.table? t.cls = some t := fun t ht =>
    Module.table?_of_nodup h ht
  rw [Module.classes, List.filterMap_congr hself, List.filterMap_some]

/-- **A module is complete** exactly when its bindings are for different classes. -/
theorem complete_iff (h : List.Forall₂ (Makes registry) bindings module.tables) :
    Complete registry bindings module ↔ Apart registry bindings := by
  refine ⟨fun hcomplete => (apart_iff hcomplete.classes_eq.symm).2 hcomplete.distinct,
    fun hapart => ?_⟩
  have hnodup := (apart_iff (map_fetch_eq h)).1 hapart
  have hclasses := classes_of_nodup hnodup
  constructor
  case classes_eq => rw [hclasses, map_fetch_eq h]
  case distinct => rwa [hclasses]
  case found =>
    intro b hb
    obtain ⟨t, ht, c, hc, rfl⟩ := exists_of_mem_left h hb
    refine ⟨c, b.table c, hc.fetch_eq, Module.boundClass_of_nodup hnodup ht hc.fetch_eq,
      fun row hrow => ?_⟩
    exact ((lists_table hc.nodup).entry?_eq_some_iff row.1 row.2).2 hrow

end Emission

namespace BindingSet

open Emission

variable {registry : Registry} {name : String} {module : Module} {l l' : Log.Logger}

/-- **No binding is lost** exactly when no two of them are for the same class; so none is when
every binding calls its class by its own name. -/
theorem emit_complete_iff (calls : List ClassBinding) (hr : registry.Built)
    (h : (empty.registerAll calls).emit name registry l = .ok module l') :
    (Complete registry (empty.registerAll calls).bindings module ↔
      Apart registry (empty.registerAll calls).bindings) ∧
    ((∀ b ∈ (empty.registerAll calls).bindings, ∀ c,
      registry.fetch b.className = .ok c → c.name = b.className) →
        Complete registry (empty.registerAll calls).bindings module) := by
  obtain ⟨tables, htables, rfl⟩ := (emit_ok_iff hr).1 ⟨l', h⟩
  have htables : List.Forall₂ (Makes registry) (empty.registerAll calls).bindings
      (Module.mk name tables .empty).tables := htables
  have hiff := complete_iff htables
  refine ⟨hiff, fun hown => hiff.2 (apart_of_own_names ?_ hown)⟩
  exact nodup_registerAll calls List.nodup_nil

end BindingSet

/-! ### A binding that is lost -/

namespace Sample

/-- Hashes and errors under their own names, and hashes a second time in vain. -/
def ownNameCalls : List ClassBinding :=
  storeBindings.bindings ++ [.plain "Sample" "Clownfish::Hash"]

/-- Integers with an entry of host code. -/
def extraInteger : ClassBinding :=
  (ClassBinding.plain "Sample" "Clownfish::Integer").addDef ⟨"extra", fun _ _ _ => return .null⟩

/-- Integers under an alias. -/
def aliasInteger : ClassBinding :=
  .plain "Sample" "Clownfish::Integer32"

/-- Integers with an entry of host code, and integers under an alias. -/
def aliasCalls : List ClassBinding :=
  [extraInteger, aliasInteger]

/-- The module of these two bindings. -/
def aliasModule : Module :=
  ⟨"sample", [extraInteger.table Parcel.integer, aliasInteger.table Parcel.integer], .empty⟩

/-- The example with names of their own is complete: two classes, two tables. -/
theorem ownNameCalls_complete : Parcel.registry.Built ∧
    ∃ module l', (BindingSet.empty.registerAll ownNameCalls).emit "sample" Parcel.registry .fresh =
        .ok module l' ∧
      Emission.Complete Parcel.registry (BindingSet.empty.registerAll ownNameCalls).bindings
        module := by
  have hr := Parcel.registry_built
  have hset : (BindingSet.empty.registerAll ownNameCalls).bindings = storeBindings.bindings := rfl
  have hsound : ∀ b ∈ (BindingSet.empty.registerAll ownNameCalls).bindings,
      ∃ c, Emission.Sound Parcel.registry b c := hset ▸ sound_storeBindings
  obtain ⟨module, l', hmodule⟩ := BindingSet.emit_of_sound "sample" .fresh hr hsound
  refine ⟨hr, module, l', hmodule, (BindingSet.emit_complete_iff ownNameCalls hr hmodule).2 ?_⟩
  rw [hset]
  refine List.forall_mem_cons.2 ⟨fun c hc => ?_, List.forall_mem_cons.2 ⟨fun c hc => ?_, by simp⟩⟩
  · obtain rfl := Except.ok.inj (fetch_bound.1.symm.trans hc)
    decide
  · obtain rfl := Except.ok.inj (fetch_bound.2.1.symm.trans hc)
    decide

/-- Both bindings of the example with an alias are sound, for the same class. -/
theorem sound_aliasCalls : Emission.Sound Parcel.registry extraInteger Parcel.integer ∧
    Emission.Sound Parcel.registry aliasInteger Parcel.integer :=
  ⟨⟨by decide +kernel, by decide +kernel, by decide +kernel⟩,
    ⟨by decide +kernel, by decide +kernel, by decide +kernel⟩⟩

/-- The example with an alias is emitted as `aliasModule`. -/
theorem aliasModule_emitted : ∃ l', (BindingSet.empty.registerAll aliasCalls).emit "sample"
    Parcel.registry .fresh = .ok aliasModule l' := by
  obtain ⟨hextra, halias⟩ := sound_aliasCalls
  exact (BindingSet.emit_ok_iff Parcel.registry_built).2
    ⟨_, .cons ⟨_, hextra, rfl⟩ (.cons ⟨_, halias, rfl⟩ .nil), rfl⟩

/-- The later of the two tables is in force. -/
theorem aliasModule_table? :
    aliasModule.table? Parcel.integer = some (aliasInteger.table Parcel.integer) :=
  List.find?_cons_of_pos (beq_self_eq_true Parcel.integer)

/-- Its two tables are for one class. -/
theorem aliasModule_classes : aliasModule.classes =
    [aliasInteger.table Parcel.integer, aliasInteger.table Parcel.integer] := by
  have hall : ∀ t ∈ aliasModule.tables,
      aliasModule.table? t.cls = some (aliasInteger.table Parcel.integer) :=
    List.forall_mem_cons.2 ⟨aliasModule_table?,
      List.forall_mem_cons.2 ⟨aliasModule_table?, by simp⟩⟩
  rw [Module.classes, List.filterMap_congr hall]
  rfl

/-- **Bindings for a class and for its alias** are both accepted, and the first is lost. -/
theorem aliasBindings_lost :
    (∃ l', (BindingSet.empty.registerAll aliasCalls).emit "sample" Parcel.registry .fresh =
      .ok aliasModule l') ∧
    ¬ Emission.Complete Parcel.registry (BindingSet.empty.registerAll aliasCalls).bindings
      aliasModule ∧
    aliasModule.classes.map BoundClass.cls = [Parcel.integer, Parcel.integer] ∧
    ∃ t, aliasModule.boundClass Parcel.registry extraInteger.className = .ok (some t) ∧
      (t.entry? "extra").isNone := by
  refine ⟨aliasModule_emitted, fun hcomplete => ?_, by rw [aliasModule_classes]; rfl,
    aliasInteger.table Parcel.integer, ?_, by decide +kernel⟩
  · have hdistinct := hcomplete.distinct
    rw [aliasModule_classes] at hdistinct
    exact absurd hdistinct (by decide)
  · rw [Module.boundClass, sound_aliasCalls.1.fetch_eq, ← aliasModule_table?]

end Sample

end Interop

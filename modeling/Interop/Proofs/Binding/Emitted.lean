/-
# What a module is made of

Every table of an emitted module comes from a binding (`BindingSet.emit_describes`): it is
the table of the class that the binding names, and each of its entries is a method of that
class that the binding shows, or was added by the binding.

So the bindings of the core parcel, with others that add nothing of their own, give a module
whose tables are `Honest`: what they run is declared by their class and is not the method
that gives back a reference that it was only lent, but for the two entries that the core
parcel adds itself.
-/

import Interop.Binding.Core
import Interop.Proofs.Binding.Outcome

namespace Interop

namespace Emission

variable {registry : Registry} {b : ClassBinding} {t : BoundClass}

/-- Where an entry of the table of the class `c` comes from. -/
inductive Origin (c : Class) (b : ClassBinding) : Entry → Prop
  | shown (m : Method) (hm : m ∈ c.ownMethods) (hshown : b.isExcluded m.name = false) :
    Origin c b (entryFor m)
  | added (d : MethodDef) (hd : d ∈ b.addedDefs c) : Origin c b (.custom d.run)

/-- The table is that of the class that the binding names. -/
structure Describes (registry : Registry) (b : ClassBinding) (t : BoundClass) : Prop where
  fetch_eq : registry.fetch b.className = .ok t.cls
  maker_eq : t.maker = none ∨ t.maker = t.cls.maker
  origin : ∀ e ∈ t.entries, Origin t.cls b e.2

/-- **The table that a binding gives** is the one that it describes. -/
theorem tableFor_describes (h : tableFor registry b = .ok t) : Describes registry b t := by
  unfold tableFor at h
  rcases hfetch : registry.fetch b.className with e | c
  · rw [bindingClass, hfetch] at h
    exact absurd h (by simp [bind, Except.bind])
  rw [bindingClass_of_ok hfetch, ok_bind] at h
  rcases hexcluded : checkExcluded c b.excluded with e | ⟨⟩ <;> rw [hexcluded] at h
  · exact absurd h (by simp [bind, Except.bind])
  obtain ⟨-, rfl⟩ := addRows_ok_iff.1 h
  constructor
  case fetch_eq => exact hfetch
  case maker_eq => exact b.maker_table c
  case origin =>
    intro e he
    rcases List.mem_append.1 he with he | he
    · obtain ⟨m, hm, rfl⟩ := List.mem_map.1 he
      obtain ⟨hm, hshown⟩ := List.mem_filter.1 hm
      exact .shown m hm
        (by simpa [ClassBinding.isExcluded] using (ClassBinding.shows_iff.1 hshown).2.2)
    · obtain ⟨d, hd, rfl⟩ := List.mem_map.1 he
      exact .added d hd

/-- Each table that is added comes from a binding. -/
theorem addTables_mem {bindings : List ClassBinding} {module module' : Module}
    (h : addTables registry module bindings = .ok module') (ht : t ∈ module'.tables) :
    t ∈ module.tables ∨ ∃ b ∈ bindings, tableFor registry b = .ok t := by
  induction bindings generalizing module with
  | nil =>
    obtain rfl := Except.ok.inj h
    exact Or.inl ht
  | cons b rest ih =>
    rw [addTables] at h
    rcases hb : tableFor registry b with e | bound <;> rw [hb] at h
    · exact absurd h (by simp [bind, Except.bind])
    rcases ih h with hold | ⟨b', hb', hd⟩
    · rcases List.mem_append.1 hold with hold | hnew
      · exact Or.inl hold
      · obtain rfl := List.mem_singleton.1 hnew
        exact Or.inr ⟨b, List.mem_cons_self, hb⟩
    · exact Or.inr ⟨b', List.mem_cons_of_mem b hb', hd⟩

end Emission

/-- **Every table of a module** is described by one of its bindings. -/
theorem BindingSet.emit_describes {s : BindingSet} {name : String} {registry : Registry}
    {module : Module} {l l' : Log.Logger} (h : s.emit name registry l = .ok module l')
    {t : BoundClass} (ht : t ∈ module.tables) :
    ∃ b ∈ s.bindings, Emission.Describes registry b t := by
  have hmade := (emit_yields s name registry).ok_iff.1 ⟨l', h⟩
  rcases Emission.addTables_mem hmade ht with hnone | ⟨b, hb, htable⟩
  · exact absurd hnone List.not_mem_nil
  · exact ⟨b, hb, Emission.tableFor_describes htable⟩

/-! ### Looking entries up -/

namespace Module

variable {module : Module} {c : Class} {t : BoundClass} {m : Method}

/-- The table that is found for a class is one of the module's and is for the class. -/
theorem table?_ok (h : module.table? c = some t) : t ∈ module.tables ∧ t.cls = c := by
  have hcls := List.find?_some h
  exact ⟨List.mem_reverse.1 (List.mem_of_find?_eq_some h), by simpa using hcls⟩

/-- **An entry that is found** is in the table of a class in the ancestry. -/
theorem resolve?_ok {name : String} {entry : Entry} (h : module.resolve? c name = some entry) :
    ∃ t ∈ module.tables, t.cls ∈ c.ancestry ∧ (name, entry) ∈ t.entries := by
  obtain ⟨a, ha, h⟩ := List.exists_of_findSome?_eq_some h
  obtain ⟨t, ht, hentry⟩ := Option.bind_eq_some_iff.1 h
  obtain ⟨hmem, hcls⟩ := table?_ok ht
  exact ⟨t, hmem, hcls ▸ ha, mem_of_findEntry hentry⟩

/-- The class of every table is bound. -/
theorem isBound_of_mem (h : t ∈ module.tables) : module.isBound t.cls = true := by
  refine List.any_eq_true.2 ⟨t.cls, Class.mem_ancestry_self t.cls, ?_⟩
  rw [table?, List.find?_isSome]
  exact ⟨t, List.mem_reverse.2 h, by simp⟩

/-- Where a name is resolved some class in the ancestry is bound. -/
theorem isBound_of_resolve? {name : String} {entry : Entry}
    (h : module.resolve? c name = some entry) : module.isBound c = true := by
  obtain ⟨a, ha, h⟩ := List.exists_of_findSome?_eq_some h
  obtain ⟨t, ht, -⟩ := Option.bind_eq_some_iff.1 h
  exact List.any_eq_true.2 ⟨a, ha, by rw [ht]; rfl⟩

/-- A constructor that is found is that of a class in the ancestry. -/
theorem nearestMaker?_ok (hall : ∀ t ∈ module.tables, t.maker = none ∨ t.maker = t.cls.maker)
    (h : module.nearestMaker? c = some m) : ∃ a ∈ c.ancestry, a.maker = some m := by
  obtain ⟨a, ha, h⟩ := List.exists_of_findSome?_eq_some h
  refine ⟨a, ha, ?_⟩
  unfold makerOf at h
  rcases ht : module.table? a with _ | t <;> rw [ht] at h
  · exact (Option.filter_eq_some_iff.1 h).1
  · obtain ⟨hmem, rfl⟩ := table?_ok ht
    rcases hall t hmem with hnone | hsame
    · exact absurd (hnone.symm.trans h) (by simp)
    · exact hsame.symm.trans h

end Module

/-! ### Honest tables -/

/-- The table offers what its class declares, but for the method that gives back a reference
that it was only lent; and its host code is that of the core parcel. -/
structure BoundClass.Honest (t : BoundClass) : Prop where
  maker_eq : t.maker = none ∨ t.maker = t.cls.maker
  method : ∀ name m, (name, .method m) ∈ t.entries → m ∈ t.cls.ownMethods ∧ m.name ≠ "Dec_RefCount"
  function : ∀ name m, (name, .function m) ∈ t.entries →
    m ∈ t.cls.ownMethods ∧ m.name ≠ "Dec_RefCount"
  custom : ∀ name run, (name, .custom run) ∈ t.entries →
    run = CoreBinding.isA ∨ run = CoreBinding.decRefcount

namespace Emission

variable {registry : Registry} {b : ClassBinding} {t : BoundClass}

/-- The entry is honest when its method is not the one and it is not of another's making. -/
theorem Describes.honest (d : Describes registry b t)
    (hname : ∀ m ∈ t.cls.ownMethods, b.isExcluded m.name = false → m.name ≠ "Dec_RefCount")
    (hadded : ∀ x ∈ b.addedDefs t.cls, x.run = CoreBinding.isA ∨ x.run = CoreBinding.decRefcount) :
    t.Honest := by
  have hmethod : ∀ {m : Method} {entry : Entry}, Origin t.cls b entry →
      entry = .method m ∨ entry = .function m → m ∈ t.cls.ownMethods ∧ m.name ≠ "Dec_RefCount" := by
    intro m entry horigin hentry
    cases horigin with
    | shown x hx hshown =>
      have hxm : x = m := by
        unfold entryFor at hentry
        split at hentry
        · exact hentry.elim (fun h => absurd h (by simp)) Entry.function.inj
        · exact hentry.elim Entry.method.inj fun h => absurd h (by simp)
      exact hxm ▸ ⟨hx, hname x hx hshown⟩
    | added x hx => exact hentry.elim (fun h => absurd h (by simp)) fun h => absurd h (by simp)
  constructor
  case maker_eq => exact d.maker_eq
  case method =>
    intro name m he
    exact hmethod (d.origin _ he) (Or.inl rfl)
  case function =>
    intro name m he
    exact hmethod (d.origin _ he) (Or.inr rfl)
  case custom =>
    intro name run he
    generalize hentry : Entry.custom run = entry at he
    have horigin := d.origin _ he
    cases horigin with
    | shown x hx hshown =>
      split at hentry <;> exact absurd hentry (by simp)
    | added x hx =>
      obtain rfl := Entry.custom.inj hentry
      exact hadded x hx

end Emission

namespace Parcel

/-- Only the root class declares the method that gives back a reference that it was lent. -/
theorem releasing_of_ownMethods :
    ∀ c ∈ classes, c ≠ obj → ∀ m ∈ c.ownMethods, m.name ≠ "Dec_RefCount" := by
  decide +kernel

/-- The classes that are bound without extras are in the core parcel, and none of them is the
root. -/
theorem plainClasses_known :
    ∀ n ∈ CoreBinding.plainClasses, ∃ c ∈ classes, c.name = n ∧ c ≠ obj := by
  decide +kernel

end Parcel

/-- The binding adds no entries of its own, and it is not about the root of all classes. -/
structure ClassBinding.Modest (registry : Registry) (b : ClassBinding) : Prop where
  addedDefs_eq : ∀ c, b.addedDefs c = []
  not_root : registry.fetch b.className ≠ .ok Parcel.obj

/-- **A module of the core parcel** with more bindings that add nothing of their own has
honest tables. -/
theorem CoreBinding.honest_of_emit {extra : List ClassBinding} {name : String}
    {registry : Registry} {module : Module} {l l' : Log.Logger}
    (hcore : ∀ c ∈ Parcel.classes, registry.fetch c.name = .ok c)
    (hknown : ∀ n c, registry.fetch n = .ok c → module.isBound c = true →
      ∃ root, Offspring root c)
    (hextra : ∀ b ∈ extra, b.Modest registry)
    (h : BindingSet.emit ⟨bindings.bindings ++ extra⟩ name registry l = .ok module l')
    {t : BoundClass} (ht : t ∈ module.tables) : t.Honest := by
  obtain ⟨b, hb, d⟩ := BindingSet.emit_describes h ht
  -- no class but the root of all declares the method
  have hother : t.cls ≠ Parcel.obj → ∀ m ∈ t.cls.ownMethods, m.name ≠ "Dec_RefCount" := by
    intro hroot m hm
    obtain ⟨root, hoff⟩ := hknown _ _ d.fetch_eq (Module.isBound_of_mem ht)
    rcases hoff.ancestry_cases (Class.mem_ancestry_self t.cls) with hin | ⟨-, hfree⟩
    · exact Parcel.releasing_of_ownMethods _
        (Parcel.mem_classes_of_ancestry root hoff.root_mem _ hin) hroot m hm
    · intro hname
      exact hfree m hm (by simp [hname, reservedNames])
  have hnothing : t.cls ≠ Parcel.obj → (∀ c, b.addedDefs c = []) → t.Honest := by
    intro hroot hadded
    refine d.honest (fun m hm _ => hother hroot m hm) fun x hx => ?_
    rw [hadded] at hx
    exact absurd hx List.not_mem_nil
  rcases List.mem_append.1 hb with hb | hb
  · rcases List.mem_cons.1 hb with rfl | hb
    · refine d.honest (fun m _ hshown hname => ?_) fun x hx => ?_
      · rw [hname] at hshown
        exact absurd hshown (by decide)
      · rcases List.mem_cons.1 hx with rfl | hx
        · exact Or.inl rfl
        · obtain rfl := List.mem_singleton.1 hx
          exact Or.inr rfl
    · obtain ⟨n, hn, rfl⟩ := List.mem_map.1 hb
      obtain ⟨c, hc, rfl, hroot⟩ := Parcel.plainClasses_known n hn
      have hcls : t.cls = c := (Except.ok.inj ((hcore c hc).symm.trans d.fetch_eq)).symm
      exact hnothing (hcls ▸ hroot) fun _ => rfl
  · have hmodest := hextra b hb
    refine hnothing (fun hroot => ?_) hmodest.addedDefs_eq
    exact hmodest.not_root (hroot ▸ d.fetch_eq)

end Interop

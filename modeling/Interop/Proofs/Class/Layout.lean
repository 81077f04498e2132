/-
# How built classes are laid out

Every class comes from a draft, and so do its ancestors (`Class.Built`).  So what stands among
its instance methods, its inert functions or as its constructor is of that kind, and no two of
these methods share a name.

**The table answers as a walk of the ancestry would** (`Class.Built.method?_eq_some_iff`):
under a name it has the method that is declared by the first class in the ancestry that
declares an instance method of this name.  The induction is on how the class was built; one
layer lays the methods that the class declares over the table of its parent.
-/

import Interop.Proofs.Class.Histories
import Interop.Proofs.Class.Offspring

namespace Interop

/-! ### Lookups in tables -/

section Tables

variable {m : Method} {name : String} {table own : List Method}

/-- The slot of a method holds the method. -/
theorem find?_overrideSlot_self :
    (overrideSlot m table).find? (fun x => x.name == m.name) = some m := by
  induction table with
  | nil => simp [overrideSlot]
  | cons slot rest ih =>
    rw [overrideSlot]
    split_ifs with hslot
    · exact List.find?_cons_of_pos (by simp)
    · rw [List.find?_cons_of_neg (by simpa using hslot), ih]

/-- **Methods laid over a table** hide what stands there under their names. -/
theorem find?_foldl_overrideSlot_or (hown : (own.map Method.name).Nodup) :
    (own.foldl (fun table m => overrideSlot m table) table).find? (fun x => x.name == name) =
      (own.find? fun x => x.name == name).or (table.find? fun x => x.name == name) := by
  induction own generalizing table with
  | nil => rfl
  | cons m own ih =>
    obtain ⟨hfresh, hrest⟩ := List.nodup_cons.1 hown
    rw [List.foldl_cons, ih hrest]
    by_cases hname : m.name = name
    · subst hname
      -- none of the later methods takes the slot again
      have hnone : own.find? (fun x => x.name == m.name) = none := by
        rw [List.find?_eq_none]
        intro x hx hname
        exact hfresh (beq_iff_eq.1 hname ▸ List.mem_map_of_mem hx)
      rw [hnone, Option.none_or, find?_overrideSlot_self, List.find?_cons_of_pos (by simp)]
      rfl
    · rw [find?_overrideSlot hname, List.find?_cons_of_neg (by simpa using hname)]

/-- The first value found is that of the head or, failing that, one of the tail. -/
theorem findSome?_cons_or {α β : Type} (f : α → Option β) (a : α) (l : List α) :
    (a :: l).findSome? f = (f a).or (l.findSome? f) := by
  rw [List.findSome?_cons]
  rcases f a with _ | b <;> rfl

/-- What has a key of its own is found under it. -/
theorem find?_of_nodup {α κ : Type} [DecidableEq κ] {key : α → κ} {a : α} {l : List α}
    (hl : (l.map key).Nodup) (ha : a ∈ l) : l.find? (fun x => key x == key a) = some a := by
  obtain ⟨before, after, rfl⟩ := List.append_of_mem ha
  rw [List.map_append, List.map_cons, List.nodup_append] at hl
  refine List.find?_eq_some_iff_append.2 ⟨by simp, before, after, rfl, fun x hx => ?_⟩
  have hne := hl.2.2 (key x) (List.mem_map_of_mem hx) (key a) List.mem_cons_self
  simpa using hne

end Tables

/-! ### Drafts -/

namespace ClassDraft

variable {d : ClassDraft} {serial : Nat} {c : Class} {cls : String} {seen : List String}
  {drafts : List (Except BridgeError Method)} {methods : List Method}

/-- Methods that pass were all made, and no name comes twice. -/
theorem checkMethods_ok (h : checkMethods cls seen drafts = .ok methods) :
    drafts = methods.map .ok ∧ (methods.map Method.name).Nodup ∧ ∀ m ∈ methods, m.name ∉ seen := by
  induction drafts generalizing seen methods with
  | nil =>
    obtain rfl := Except.ok.inj h
    exact ⟨rfl, List.nodup_nil, fun m hm => absurd hm List.not_mem_nil⟩
  | cons draft rest ih =>
    rcases draft with e | m
    · exact absurd h (by simp [checkMethods])
    rw [checkMethods] at h
    split_ifs at h with hseen
    rcases hrest : checkMethods cls (m.name :: seen) rest with e | later <;> rw [hrest] at h
    · exact absurd h (by simp [Except.map])
    obtain rfl := Except.ok.inj h
    obtain ⟨rfl, hnodup, hfresh⟩ := ih hrest
    have hlater : ∀ x ∈ later, x.name ≠ m.name ∧ x.name ∉ seen := fun x hx => by
      simpa using hfresh x hx
    refine ⟨rfl, List.nodup_cons.2 ⟨fun hm => ?_, hnodup⟩, fun x hx => ?_⟩
    · obtain ⟨x, hx, hname⟩ := List.mem_map.1 hm
      exact (hlater x hx).1 hname
    · rcases List.mem_cons.1 hx with rfl | hx
      · exact hseen
      · exact (hlater x hx).2

/-- Methods of different names pass. -/
theorem checkMethods_of_nodup (hnodup : (methods.map Method.name).Nodup)
    (hfresh : ∀ m ∈ methods, m.name ∉ seen) :
    checkMethods cls seen (methods.map .ok) = .ok methods := by
  induction methods generalizing seen with
  | nil => rfl
  | cons m rest ih =>
    obtain ⟨hm, hrest⟩ := List.nodup_cons.1 hnodup
    have hlater : ∀ x ∈ rest, x.name ∉ m.name :: seen := by
      intro x hx hseen
      rcases List.mem_cons.1 hseen with hname | hseen
      · exact hm (hname ▸ List.mem_map_of_mem hx)
      · exact hfresh x (List.mem_cons_of_mem m hx) hseen
    rw [List.map_cons, checkMethods, if_neg (hfresh m List.mem_cons_self), ih hrest hlater]
    rfl

/-- **A class that is built** is laid out from methods of different names. -/
theorem build_ok (h : d.build serial = .ok c) : ∃ methods : List Method,
    (methods.map Method.name).Nodup ∧
      c = Class.ofMethods serial d.name d.parcel d.parent d.flags methods := by
  unfold build at h
  split_ifs at h
  rcases hmethods : checkMethods d.name [] d.methods with e | methods <;> rw [hmethods] at h
  · exact absurd h (by simp [Except.map])
  · exact ⟨methods, (checkMethods_ok hmethods).2.1, (Except.ok.inj h).symm⟩

end ClassDraft

/-! ### Built classes -/

namespace Class

/-- The class was built from a draft, and so were its ancestors. -/
inductive Built : Class → Prop
  | build {c : Class} (d : ClassDraft) (serial : Nat) (hparent : ∀ p, d.parent = some p → Built p)
    (h : d.build serial = .ok c) : Built c

/-- The first class in the ancestry that declares an instance method of this name declares
`m`. -/
def FirstDeclares (c : Class) (name : String) (m : Method) : Prop :=
  ∃ before a after, c.ancestry = before ++ a :: after ∧ m ∈ a.declaredMethods ∧ m.name = name ∧
    ∀ x ∈ before, ∀ other ∈ x.declaredMethods, other.name ≠ name

/-- The class declares a method of this name, of any kind. -/
def Declares (c : Class) (name : String) : Prop :=
  ∃ m ∈ c.declaredMethods ++ c.maker.toList ++ c.functions, m.name = name

variable {c a : Class} {m : Method} {name : String}

/-- A name has a declared method just when the class declares it. -/
theorem declared?_isSome : (c.declared? name).isSome = true ↔ c.Declares name := by
  rw [declared?, List.find?_isSome]
  exact exists_congr fun m => and_congr_right fun _ => beq_iff_eq

instance : Decidable (c.Declares name) :=
  decidable_of_iff _ declared?_isSome

/-- The ancestry of a made class is the class and the ancestry of its parent. -/
theorem ancestry_ofMethods (serial : Nat) (name parcel : String) (parent : Option Class)
    (flags : UInt32) (methods : List Method) :
    (ofMethods serial name parcel parent flags methods).ancestry =
      ofMethods serial name parcel parent flags methods ::
        (parent.map Class.ancestry).getD [] := by
  rcases parent with _ | p <;> rfl

namespace Built

/-- Methods of different names are laid out as a class, unless an ancestor has its name. -/
theorem ofMethods {serial : Nat} {name parcel : String} {parent : Option Class} {flags : UInt32}
    {methods : List Method} (hparent : ∀ p, parent = some p → p.Built)
    (hname : ∀ p, parent = some p → ∀ a ∈ p.ancestry, a.name ≠ name)
    (hmethods : (methods.map Method.name).Nodup) :
    (Class.ofMethods serial name parcel parent flags methods).Built := by
  refine .build ⟨name, parcel, parent, flags, methods.map .ok⟩ serial hparent ?_
  have hnew :
      ClassDraft.repeatsAncestor ⟨name, parcel, parent, flags, methods.map .ok⟩ = false := by
    unfold ClassDraft.repeatsAncestor
    rcases parent with _ | p
    · rfl
    · refine List.any_eq_false.2 fun a ha => ?_
      simpa using hname p rfl a ha
  rw [ClassDraft.build, if_neg (by simp [hnew]),
    ClassDraft.checkMethods_of_nodup hmethods fun _ _ => List.not_mem_nil]
  rfl

/-- How a built class is laid out. -/
theorem laidOut (h : c.Built) : ∃ (serial : Nat) (name parcel : String) (parent : Option Class)
    (flags : UInt32) (methods : List Method), (methods.map Method.name).Nodup ∧
      (∀ p, parent = some p → p.Built) ∧
      c = Class.ofMethods serial name parcel parent flags methods := by
  obtain ⟨d, serial, hparent, hbuild⟩ := h
  obtain ⟨methods, hnodup, rfl⟩ := ClassDraft.build_ok hbuild
  exact ⟨serial, d.name, d.parcel, d.parent, d.flags, methods, hnodup, hparent, rfl⟩

/-- A made class declares the instance methods of its list. -/
theorem declaredMethods_ofMethods {serial : Nat} {name parcel : String} {parent : Option Class}
    {flags : UInt32} {methods : List Method} :
    (Class.ofMethods serial name parcel parent flags methods).declaredMethods =
      methods.filter fun m => m.kind == .instanceMethod := by
  rcases parent with _ | p <;> rfl

/-- The table of a made class is that of its parent with the new methods in it. -/
theorem vtable_ofMethods {serial : Nat} {name parcel : String} {parent : Option Class}
    {flags : UInt32} {methods : List Method} :
    (Class.ofMethods serial name parcel parent flags methods).vtable =
      (methods.filter fun m => m.kind == .instanceMethod).foldl
        (fun table m => overrideSlot m table) ((parent.map Class.vtable).getD []) := by
  rcases parent with _ | p <;> rfl

/-- The functions of a made class are those of its list. -/
theorem functions_ofMethods {serial : Nat} {name parcel : String} {parent : Option Class}
    {flags : UInt32} {methods : List Method} :
    (Class.ofMethods serial name parcel parent flags methods).functions =
      methods.filter fun m => m.kind == .inert := by
  rcases parent with _ | p <;> rfl

/-- The constructor of a made class is the one of its list. -/
theorem maker_ofMethods {serial : Nat} {name parcel : String} {parent : Option Class}
    {flags : UInt32} {methods : List Method} :
    (Class.ofMethods serial name parcel parent flags methods).maker =
      (methods.filter fun m => m.kind == .constructor).getLast? := by
  rcases parent with _ | p <;> rfl

/-- What is declared is called on objects. -/
theorem kind_of_declared (h : c.Built) (hm : m ∈ c.declaredMethods) : m.kind = .instanceMethod := by
  obtain ⟨serial, name, parcel, parent, flags, methods, -, -, rfl⟩ := h.laidOut
  rw [declaredMethods_ofMethods] at hm
  exact beq_iff_eq.1 (List.mem_filter.1 hm).2

/-- What is listed as a function is called on nothing. -/
theorem kind_of_functions (h : c.Built) (hm : m ∈ c.functions) : m.kind = .inert := by
  obtain ⟨serial, name, parcel, parent, flags, methods, -, -, rfl⟩ := h.laidOut
  rw [functions_ofMethods] at hm
  exact beq_iff_eq.1 (List.mem_filter.1 hm).2

/-- What is the constructor is called on a class. -/
theorem kind_of_maker (h : c.Built) (hm : c.maker = some m) : m.kind = .constructor := by
  obtain ⟨serial, name, parcel, parent, flags, methods, -, -, rfl⟩ := h.laidOut
  rw [maker_ofMethods] at hm
  exact beq_iff_eq.1 (List.mem_filter.1 (List.mem_of_getLast? hm)).2

/-- No name is declared twice in one class. -/
theorem nodup_declared (h : c.Built) : (c.declaredMethods.map Method.name).Nodup := by
  obtain ⟨serial, name, parcel, parent, flags, methods, hnodup, -, rfl⟩ := h.laidOut
  rw [declaredMethods_ofMethods]
  exact hnodup.sublist ((List.filter_sublist).map _)

/-- The ancestors of a built class were built. -/
theorem of_mem_ancestry (h : c.Built) (ha : a ∈ c.ancestry) : a.Built := by
  induction h with
  | build d serial hparent hbuild ih =>
    obtain ⟨methods, -, rfl⟩ := ClassDraft.build_ok hbuild
    rw [ancestry_ofMethods] at ha
    rcases List.mem_cons.1 ha with rfl | ha
    · exact .build d serial hparent hbuild
    · rcases hp : d.parent with _ | p <;> rw [hp] at ha
      · exact absurd ha List.not_mem_nil
      · exact ih p hp ha

/-- **The table of a built class** answers as a walk of the ancestry does. -/
theorem method?_eq_walk (h : c.Built) (name : String) :
    c.method? name = c.ancestry.findSome? fun a => a.declaredMethods.find? fun m =>
      m.name == name := by
  induction h with
  | build d serial hparent hbuild ih =>
    obtain ⟨methods, hnodup, rfl⟩ := ClassDraft.build_ok hbuild
    have hown : ((methods.filter fun m => m.kind == .instanceMethod).map Method.name).Nodup :=
      hnodup.sublist ((List.filter_sublist).map _)
    rw [ancestry_ofMethods, findSome?_cons_or, declaredMethods_ofMethods, method?,
      vtable_ofMethods, find?_foldl_overrideSlot_or hown]
    rcases hp : d.parent with _ | p
    · rfl
    · exact congrArg _ (ih p hp)

/-- **The method under a name** is the one that the first class in the ancestry declares that
declares one of this name. -/
theorem method?_eq_some_iff (h : c.Built) : c.method? name = some m ↔ c.FirstDeclares name m := by
  rw [h.method?_eq_walk, List.findSome?_eq_some_iff]
  constructor
  · rintro ⟨before, a, after, hancestry, hm, hnone⟩
    refine ⟨before, a, after, hancestry, List.mem_of_find?_eq_some hm, ?_, fun x hx other ho => ?_⟩
    · simpa using List.find?_some hm
    · simpa using List.find?_eq_none.1 (hnone x hx) other ho
  · rintro ⟨before, a, after, hancestry, hm, rfl, hnone⟩
    have ha : a.Built := h.of_mem_ancestry (by rw [hancestry]; simp)
    refine ⟨before, a, after, hancestry, find?_of_nodup ha.nodup_declared hm, fun x hx => ?_⟩
    rw [List.find?_eq_none]
    intro other ho
    simpa using hnone x hx other ho

/-- A name under which the ancestry declares an instance method has one in the table. -/
theorem exists_method? (h : c.Built) (ha : a ∈ c.ancestry) (hm : m ∈ a.declaredMethods) :
    ∃ method, c.method? m.name = some method := by
  rw [h.method?_eq_walk, ← Option.isSome_iff_exists, List.findSome?_isSome_iff]
  refine ⟨a, ha, ?_⟩
  rw [List.find?_isSome]
  exact ⟨m, hm, by simp⟩

/-- Only instance methods stand in the table. -/
theorem kind_of_method? (h : c.Built) (hm : c.method? name = some m) :
    m.kind = .instanceMethod := by
  obtain ⟨before, a, after, hancestry, hmem, -⟩ := h.method?_eq_some_iff.1 hm
  exact (h.of_mem_ancestry (by rw [hancestry]; simp)).kind_of_declared hmem

end Built

end Class

namespace Parcel

/-- **The classes of the core parcel** were built. -/
theorem built_of_mem : ∀ c ∈ classes, c.Built := by
  have hobj : obj.Built := .ofMethods (by simp) (by simp) (by decide)
  have hchild : ∀ {serial : Nat} {name : String} {flags : UInt32} {methods : List Method},
      name ≠ obj.name → (methods.map Method.name).Nodup →
      (Class.ofMethods serial name parcelName (some obj) flags methods).Built := by
    intro serial name flags methods hname hmethods
    refine .ofMethods (fun p hp => Option.some.inj hp ▸ hobj) (fun p hp a ha => ?_) hmethods
    obtain rfl := Option.some.inj hp
    obtain rfl := List.mem_singleton.1 (show a ∈ [obj] from ha)
    exact hname.symm
  simp only [classes, List.forall_mem_cons, List.not_mem_nil, false_implies, implies_true, and_true]
  exact ⟨hobj, hchild (by decide) (by decide), hchild (by decide) (by decide),
    hchild (by decide) (by decide), hchild (by decide) (by decide), hchild (by decide) (by decide),
    hchild (by decide) (by decide), hchild (by decide) (by decide),
    .ofMethods (by simp) (by simp) (by decide)⟩

end Parcel

/-! ### Registries of built classes -/

namespace Registry

/-- The classes that have a name were built. -/
def Built (r : Registry) : Prop :=
  ∀ name c, r.fetch name = .ok c → c.Built

variable {r r' : Registry}

/-- A request for a well-formed class keeps a registry one of well-formed classes. -/
theorem Built.apply {q : Registration} (hr : r.Built) (hq : ∀ c, q = .ofClass c → c.Built)
    (h : r.apply q = .ok r') : r'.Built := by
  cases q with
  | ofClass c =>
    obtain ⟨⟨hopen, -⟩, rfl⟩ := register_ok_iff.1 h
    intro name d hd
    rw [fetch_assign hopen] at hd
    split_ifs at hd
    · exact Except.ok.inj hd ▸ hq c rfl
    · exact hr name d hd
  | ofAlias added target =>
    obtain ⟨⟨hopen, -⟩, c, htarget, rfl⟩ := registerAlias_ok_iff.1 h
    intro name d hd
    rw [fetch_assign hopen] at hd
    split_ifs at hd
    · exact Except.ok.inj hd ▸ hr target c htarget
    · exact hr name d hd

/-- Freezing gives no class a name. -/
theorem Built.freeze (hr : r.Built) : r.freeze.Built :=
  fun name c h => hr name c ((alike_freeze r).fetch_eq name ▸ h)

/-- **Only built classes have a name** after a history that registers no other. -/
theorem Logged.run_built (logger : Log.Logger) (history : List Step)
    (h : ∀ c, .register c ∈ history → c.Built) :
    ((Logged.mk .empty logger).run history).registry.Built := by
  refine run_keeps (fun s hs q hq r r' hr => hr.apply fun c hc => ?_) (fun _ hr => hr.freeze)
    fun name _ hd => absurd ((fetch_empty name).symm.trans hd) (by simp)
  subst hc
  cases s with
  | register d =>
    obtain rfl := Registration.ofClass.inj (List.mem_singleton.1 hq)
    exact h c hs
  | registerAlias added target => exact absurd (List.mem_singleton.1 hq) (by simp)
  | registerCore =>
    refine Parcel.built_of_mem c ?_
    simpa [Step.requests, Parcel.registrations] using hq
  | freeze => exact absurd hq List.not_mem_nil

end Registry

namespace Parcel

/-- The core parcel is made of well-formed classes. -/
theorem registry_built : registry.Built :=
  Registry.Logged.run_built .fresh [.registerCore] (by simp)

end Parcel

end Interop

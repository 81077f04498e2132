/-
# The module of the core parcel

Over every registry that holds the core parcel the bindings of the core parcel give one and
the same module, whatever is in the log (`CoreBinding.coreModule_eq`): a binding asks the
registry for nothing but its own class, and what is logged is never read.

So what the module offers can be read off one module that is computed once,
`CoreBinding.clownfish`.
-/

import Interop.Proofs.Binding.Emitted

namespace Interop

namespace Emission

variable {α : Type} {registry registry' : Registry} {b : ClassBinding}

/-! ### What the log has no part in -/

/-- The step ends in the same way whatever was logged before. -/
def Unheeding (x : LogM α) : Prop :=
  ∃ r : Except BridgeError α, ∀ l, ∃ l', x l =
    match r with
    | .ok a => .ok a l'
    | .error e => .error e l'

namespace Unheeding

variable {x : LogM α}

/-- Two runs that succeed give the same. -/
theorem ok_eq (hx : Unheeding x) {l₁ l₁' l₂ l₂' : Log.Logger} {a₁ a₂ : α}
    (h₁ : x l₁ = .ok a₁ l₁') (h₂ : x l₂ = .ok a₂ l₂') : a₁ = a₂ := by
  obtain ⟨r, hr⟩ := hx
  obtain ⟨l, hl⟩ := hr l₁
  obtain ⟨l', hl'⟩ := hr l₂
  rcases r with e | a
  · exact absurd (h₁.symm.trans hl) (by simp)
  · rw [(EStateM.Result.ok.inj (h₁.symm.trans hl)).1, (EStateM.Result.ok.inj (h₂.symm.trans hl')).1]

end Unheeding

/-! ### What is asked of the registry -/

/-- A binding asks the registry for its own class only. -/
theorem boundClass_congr (h : registry.fetch b.className = registry'.fetch b.className) :
    boundClass registry b = boundClass registry' b := by
  unfold boundClass bindingClass
  rw [h]

/-- Two registries that agree on the classes of the bindings give the same tables. -/
theorem addClasses_congr : ∀ (bindings : List ClassBinding) (module : Module),
    (∀ b ∈ bindings, registry.fetch b.className = registry'.fetch b.className) →
    addClasses registry module bindings = addClasses registry' module bindings
  | [], _, _ => rfl
  | b :: rest, module, h => by
    unfold addClasses
    rw [boundClass_congr (h b List.mem_cons_self)]
    simp only [addClasses_congr rest _ fun b hb => h b (List.mem_cons_of_mem _ hb)]

end Emission

/-- What a set of bindings gives does not depend on the log. -/
theorem BindingSet.emit_unheeding (s : BindingSet) (name : String) (registry : Registry) :
    Emission.Unheeding (s.emit name registry) :=
  ⟨_, s.emit_yields name registry⟩

/-! ### The core parcel -/

namespace Parcel

/-- Every core binding is for a class of the core parcel. -/
theorem className_known :
    ∀ b ∈ CoreBinding.bindings.bindings, ∃ c ∈ classes, c.name = b.className := by
  decide +kernel

/-- The core parcel is registered under the full names of its classes. -/
theorem get?_name : ∀ c ∈ classes, registry.table.get? c.name = some c := by
  decide +kernel

/-- The registry of the parcel is open. -/
theorem registry_open : registry.isFrozen = false := by
  decide +kernel

/-- Every class of the core parcel can be fetched by its full name. -/
theorem registry_fetch : ∀ c ∈ classes, registry.fetch c.name = .ok c :=
  fun c hc => Registry.fetch_ok_iff.2 (get?_name c hc)

end Parcel

namespace CoreBinding

/-- The module that was made, or one without tables. -/
def made : EStateM.Result BridgeError Log.Logger Module → Module
  | .ok module _ => module
  | .error _ _ => .new moduleName

/-- The module of the core parcel. -/
def clownfish : Module :=
  made (coreModule Parcel.registry .fresh)

variable {registry : Registry} {module : Module} {l l' : Log.Logger}

/-- Every registry that knows the core parcel gives the same core module. -/
theorem coreModule_congr (hcore : ∀ c ∈ Parcel.classes, registry.fetch c.name = .ok c) :
    coreModule registry = coreModule Parcel.registry := by
  have hfetch : ∀ b ∈ bindings.bindings,
      registry.fetch b.className = Parcel.registry.fetch b.className := by
    intro b hb
    obtain ⟨c, hc, hname⟩ := Parcel.className_known b hb
    rw [← hname, hcore c hc, Parcel.registry_fetch c hc]
  unfold coreModule BindingSet.emit
  rw [Emission.addClasses_congr _ _ hfetch]

/-- **The module of the core parcel is always the same.** -/
theorem coreModule_eq (hcore : ∀ c ∈ Parcel.classes, registry.fetch c.name = .ok c)
    (h : coreModule registry l = .ok module l') : module = clownfish := by
  rw [coreModule_congr hcore] at h
  have hun : Emission.Unheeding (coreModule Parcel.registry) :=
    bindings.emit_unheeding moduleName Parcel.registry
  rcases hmade : coreModule Parcel.registry .fresh with ⟨made, logger⟩ | ⟨e, logger⟩
  · rw [clownfish, hmade]
    exact hun.ok_eq h hmade
  · obtain ⟨r, hr⟩ := hun
    obtain ⟨l₁, hl₁⟩ := hr l
    obtain ⟨l₂, hl₂⟩ := hr .fresh
    rcases r with e' | a
    · exact absurd (h.symm.trans hl₁) (by simp)
    · exact absurd (hmade.symm.trans hl₂) (by simp)

/-- Whether host code that calls the method by its host name on an object of the class gets
the method itself. -/
def offers (module : Module) (c : Class) (m : Method) : Bool :=
  (match module.resolve? c m.hostName with
    | some (.method found) => found == m
    | _ => false) && c.method? m.name == some m && m.canBeBound

/-- What host code gets that calls the method. -/
theorem resolve?_of_offers {module : Module} {c : Class} {m : Method}
    (h : offers module c m = true) : module.resolve? c m.hostName = some (.method m) := by
  rw [offers, Bool.and_eq_true, Bool.and_eq_true] at h
  obtain ⟨⟨hresolve, -⟩, -⟩ := h
  rcases hentry : module.resolve? c m.hostName with _ | ⟨found | found | run⟩
  case some.method =>
    rw [hentry] at hresolve
    rw [beq_iff_eq.1 hresolve]
  all_goals exact absurd hresolve (by simp [hentry])

/-- Whether host code that calls the inert function by its host name gets the function
itself. -/
def offersFunction (module : Module) (c : Class) (m : Method) : Bool :=
  match module.resolve? c m.hostName with
  | some (.function found) => found == m
  | _ => false

/-- What can be read off the module, which is computed here once. -/
theorem clownfish_computed :
    (∀ c ∈ [Parcel.hash, Parcel.vector],
      (∀ m ∈ c.declaredMethods, m.isPrivate = false → offers clownfish c m = true) ∧
      clownfish.isBound c = true ∧ clownfish.nearestMaker? c = c.maker) ∧
    clownfish.exceptions.ways.length = 0 ∧
    (∀ m ∈ Parcel.integer.declaredMethods, offers clownfish Parcel.integer m = true) ∧
    ∀ m ∈ Parcel.stringHelper.functions, offersFunction clownfish Parcel.stringHelper m = true := by
  decide +kernel

/-- **Containers offer what they declare,** all but the method that tears them down. -/
theorem offers_of_declared : ∀ c ∈ [Parcel.hash, Parcel.vector], ∀ m ∈ c.declaredMethods,
    m.isPrivate = false → offers clownfish c m = true := fun c hc =>
  (clownfish_computed.1 c hc).1

/-- Containers can be made. -/
theorem offers_maker : ∀ c ∈ [Parcel.hash, Parcel.vector], clownfish.isBound c = true ∧
    clownfish.nearestMaker? c = c.maker := fun c hc =>
  (clownfish_computed.1 c hc).2

/-- All errors become exceptions in the same way. -/
theorem exceptions_eq : clownfish.exceptions = .empty := by
  have hways := List.eq_nil_of_length_eq_zero clownfish_computed.2.1
  generalize clownfish.exceptions = exceptions at hways
  obtain ⟨ways⟩ := exceptions
  exact congrArg ExceptionMap.mk hways

/-- Integers offer what they declare. -/
theorem offers_of_integer : ∀ m ∈ Parcel.integer.declaredMethods,
    offers clownfish Parcel.integer m = true :=
  clownfish_computed.2.2.1

/-- The class of functions offers them under their host names. -/
theorem resolve?_of_function {m : Method} (hm : m ∈ Parcel.stringHelper.functions) :
    clownfish.resolve? Parcel.stringHelper m.hostName = some (.function m) := by
  have hoffers := clownfish_computed.2.2.2 m hm
  rw [offersFunction] at hoffers
  rcases hentry : clownfish.resolve? Parcel.stringHelper m.hostName with _ | ⟨found | found | run⟩
  case some.function =>
    rw [hentry] at hoffers
    rw [beq_iff_eq.1 hoffers]
  all_goals exact absurd hoffers (by simp [hentry])

/-- The module can be made. -/
theorem coreModule_made : ∃ l, coreModule Parcel.registry .fresh = .ok clownfish l := by
  have hbound := (offers_maker _ List.mem_cons_self).1
  rw [clownfish] at hbound ⊢
  generalize coreModule Parcel.registry .fresh = r at hbound
  rcases r with ⟨module, l⟩ | ⟨e, l⟩
  · exact ⟨l, rfl⟩
  · -- a module without tables has no hashes
    exact absurd hbound Bool.false_ne_true

end CoreBinding

end Interop

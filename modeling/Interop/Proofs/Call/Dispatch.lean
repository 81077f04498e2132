/-
# Dispatch of calls

A call by name looks two things up.  The name of the entry is looked for in the tables of the
bound classes in the ancestry of the receiver, the nearest first (`Module.Nearest`).  If the
entry stands for a native method, the name of that method is looked up in the class of the
receiver, which has the method that the first class of the ancestry declares, bound or not
(`Class.FirstDeclares`).

**The two together** decide every call of a module that was made from bindings
(`Site.Made.dispatched`): an override that cannot be bound is refused, and every other one runs
with its receiver.

To say that nothing else ever runs, calls are defined once more with the runner of native code
left open (`Site.performBy`).  **Whatever a runner does** with a method that cannot be bound, or
with an instance method that lacks its receiver, no call is any different for it
(`Site.Made.performBy_eq`), however deep it comes from host code that calls back.
-/

import Interop.Proofs.Binding.Outcome
import Interop.Proofs.Call.Acceptance
import Interop.Proofs.Ownership.Calls

namespace Interop

/-! ### The nearest entry -/

namespace Module

variable {module : Module} {c : Class} {name : String} {entry : Entry}

/-- The entry `name` of the nearest class in the ancestry that is bound and has one. -/
def Nearest (module : Module) (c : Class) (name : String) (entry : Entry) : Prop :=
  ∃ before a after t, c.ancestry = before ++ a :: after ∧ module.table? a = some t ∧
    t.entry? name = some entry ∧
      ∀ x ∈ before, ∀ t, module.table? x = some t → t.entry? name = none

/-- A name is resolved to the nearest entry. -/
theorem resolve?_eq_some_iff :
    module.resolve? c name = some entry ↔ module.Nearest c name entry := by
  rw [resolve?, List.findSome?_eq_some_iff]
  constructor
  · rintro ⟨before, a, after, hancestry, hfound, hnone⟩
    obtain ⟨t, ht, hentry⟩ := Option.bind_eq_some_iff.1 hfound
    refine ⟨before, a, after, t, hancestry, ht, hentry, fun x hx t' ht' => ?_⟩
    exact Option.bind_eq_none_iff.1 (hnone x hx) t' ht'
  · rintro ⟨before, a, after, t, hancestry, ht, hentry, hnone⟩
    refine ⟨before, a, after, hancestry, Option.bind_eq_some_iff.2 ⟨t, ht, hentry⟩, fun x hx => ?_⟩
    exact Option.bind_eq_none_iff.2 (hnone x hx)

/-- A name is not resolved just when no table on the way up has an entry for it. -/
theorem resolve?_eq_none_iff :
    module.resolve? c name = none ↔ ∀ entry, ¬ module.Nearest c name entry := by
  simp only [← resolve?_eq_some_iff, Option.eq_none_iff_forall_ne_some, ne_eq]

end Module

namespace Site

/-! ### Modules that were made -/

/-- The classes of the site were built, and the tables of its module were made from bindings
for built classes.  How errors become exceptions is left open. -/
structure Made (s : Site) : Prop where
  built : s.registry.Built
  emitted : ∃ (bindings : BindingSet) (name : String) (registry : Registry) (module : Module)
    (logger logger' : Log.Logger), registry.Built ∧
      bindings.emit name registry logger = .ok module logger' ∧ s.module.tables = module.tables

variable {s : Site} {c : Class} {t : BoundClass} {m method : Method} {name : String}

/-- Each table is the one that a binding describes for a built class. -/
theorem Made.table_of_mem (hs : s.Made) (ht : t ∈ s.module.tables) :
    t.cls.Built ∧ ∃ b : ClassBinding, t = b.table t.cls := by
  obtain ⟨bindings, name, registry, module, l, l', hr, hemit, htables⟩ := hs.emitted
  obtain ⟨tables, hmakes, rfl⟩ := (BindingSet.emit_ok_iff hr).1 ⟨l', hemit⟩
  rw [htables] at ht
  obtain ⟨b, -, d, hd, rfl⟩ := exists_of_mem_right hmakes ht
  exact ⟨hr _ d hd.fetch_eq, b, rfl⟩

/-- An entry that is found stands in the table that a binding describes for a built class. -/
theorem Made.mem_rows (hs : s.Made) {entry : Entry} (h : s.module.Nearest c name entry) :
    ∃ a ∈ c.ancestry, a.Built ∧ ∃ b : ClassBinding, (name, entry) ∈ b.rows a := by
  obtain ⟨before, a, after, t, hancestry, ht, hentry, -⟩ := h
  obtain ⟨hmem, rfl⟩ := Module.table?_ok ht
  obtain ⟨hbuilt, b, htable⟩ := hs.table_of_mem hmem
  refine ⟨t.cls, by rw [hancestry]; simp, hbuilt, b, ?_⟩
  rw [htable] at hentry
  exact mem_of_findEntry hentry

/-- The entry of a native method: a class of the ancestry declares the method. -/
theorem Made.declared_of_nearest (hs : s.Made) (h : s.module.Nearest c name (.method m)) :
    ∃ a ∈ c.ancestry, m ∈ a.declaredMethods := by
  obtain ⟨a, ha, -, b, hrow⟩ := hs.mem_rows h
  exact ⟨a, ha, (ClassBinding.method_mem_rows.1 hrow).1.1⟩

/-- The entry of an inert function. -/
theorem Made.kind_of_nearest (hs : s.Made) (h : s.module.Nearest c name (.function m)) :
    m.kind = .inert := by
  obtain ⟨a, -, hbuilt, b, hrow⟩ := hs.mem_rows h
  exact hbuilt.kind_of_functions (ClassBinding.function_mem_rows.1 hrow).1.1

/-- What the nearest constructor of a class is. -/
theorem Made.kind_of_nearestMaker (hs : s.Made) (hc : c.Built)
    (h : s.module.nearestMaker? c = some m) : m.kind = .constructor := by
  have hall : ∀ t ∈ s.module.tables, t.maker = none ∨ t.maker = t.cls.maker := by
    intro t ht
    obtain ⟨-, b, htable⟩ := hs.table_of_mem ht
    rw [htable]
    exact b.maker_table t.cls
  obtain ⟨a, ha, hmaker⟩ := Module.nearestMaker?_ok hall h
  exact (hc.of_mem_ancestry ha).kind_of_maker hmaker

/-! ### Calls by name -/

variable {o : Wrapper}

/-- What a call of the entry `name` on a wrapped object comes to. -/
structure Dispatched (s : Site) (depth : Nat) (o : Wrapper) (name : String) (args : CallArgs) :
    Prop where
  /-- Where no class of the ancestry has the entry, the call fails and nothing happens. -/
  missing : (∀ entry, ¬ s.module.Nearest o.cls name entry) → ∀ w,
    s.callMethodAt (depth + 1) o name args w =
      .error ((HostException.ofError (.methodNotFound o.cls.name name)).withFrame
        (o.cls.shortName ++ "." ++ name)) w
  /-- Host code runs on the receiver. -/
  custom : ∀ run, s.module.Nearest o.cls name (.custom run) →
    s.callMethodAt (depth + 1) o name args =
      HostM.inFrame (o.cls.shortName ++ "." ++ name) (run (s.view depth) o args)
  /-- An inert function runs without a receiver. -/
  function : ∀ m, s.module.Nearest o.cls name (.function m) →
    s.callMethodAt (depth + 1) o name args =
      HostM.inFrame (o.cls.shortName ++ "." ++ name)
        (s.invoke m o.cls none args (Conversion.toHost s.machine))
  /-- Of an instance method, the one runs that the first class in the ancestry declares under
  its native name. -/
  method : ∀ m, s.module.Nearest o.cls name (.method m) →
    ∃ method, (∀ x, o.cls.FirstDeclares m.name x ↔ x = method) ∧
      s.callMethodAt (depth + 1) o name args =
        HostM.inFrame (o.cls.shortName ++ "." ++ name)
          (s.invoke method o.cls (some o) args (Conversion.toHost s.machine)) ∧
      -- its receiver is there when it runs
      (∀ w frame w', s.stage method (some o) args w = .ok frame w' →
        frame.receiver = some (w.handle o.handle).object) ∧
      -- and it is refused, and nothing happens, if it cannot be bound
      (method.isPrivate = true ∨ method.signature.isBindable = false → ∀ w,
        s.callMethodAt (depth + 1) o name args w =
          .error ((HostException.ofError (.unbindable method.name)).withFrame
            (o.cls.shortName ++ "." ++ name)) w)

/-- What cannot be bound is private or has a signature that cannot be bound. -/
theorem canBeBound_eq_false_iff : method.canBeBound = false ↔
    method.isPrivate = true ∨ method.signature.isBindable = false := by
  rcases hprivate : method.isPrivate with _ | _ <;> simp [Method.canBeBound, hprivate]

/-- The method that the class of the receiver has for an entry. -/
theorem Made.exists_override (hs : s.Made) (hc : c.Built)
    (h : s.module.Nearest c name (.method m)) : ∃ method, c.method? m.name = some method ∧
      method.kind = .instanceMethod ∧ ∀ x, c.FirstDeclares m.name x ↔ x = method := by
  obtain ⟨a, ha, hm⟩ := hs.declared_of_nearest h
  obtain ⟨method, hmethod⟩ := hc.exists_method? ha hm
  refine ⟨method, hmethod, hc.kind_of_method? hmethod, fun x => ?_⟩
  rw [← hc.method?_eq_some_iff, hmethod, Option.some.injEq, eq_comm]

/-- **Every call by name** is dispatched. -/
theorem Made.dispatched (hs : s.Made) (depth : Nat) (ho : o.cls.Built) (name : String)
    (args : CallArgs) : s.Dispatched depth o name args := by
  constructor
  case missing =>
    intro hnone w
    rw [callMethodAt, Module.resolve?_eq_none_iff.2 hnone]
    rfl
  case custom =>
    intro run hrun
    rw [callMethodAt, Module.resolve?_eq_some_iff.2 hrun]
    rfl
  case function =>
    intro m hm
    rw [callMethodAt, Module.resolve?_eq_some_iff.2 hm]
  case method =>
    intro m hm
    obtain ⟨method, hmethod, hkind, hfirst⟩ := hs.exists_override ho hm
    have hcall : s.callMethodAt (depth + 1) o name args =
        HostM.inFrame (o.cls.shortName ++ "." ++ name)
          (s.invoke method o.cls (some o) args (Conversion.toHost s.machine)) := by
      rw [callMethodAt, Module.resolve?_eq_some_iff.2 hm]
      simp only [hmethod, Option.getD_some]
    refine ⟨method, hfirst, hcall, fun w frame w' h => receiver_of_stage h hkind,
      fun hbad w => ?_⟩
    rw [hcall, invoke, if_neg (by simp [canBeBound_eq_false_iff.2 hbad])]
    rfl

/-! ### Calls with a runner left open -/

/-- What runs the code of a method with a filled frame for a class. -/
abbrev Runner := (α : Type) → Method → Class → (Ret → CheckM α) → Frame → HostM α

/-- The runner of a site: a trapped call. -/
def trap (s : Site) : Runner := fun _ method cls convert frame =>
  Call.runTrapped s.machine s.module.exceptions cls convert method.code frame

variable {α : Type} (s) (run : Runner)

/-- Calls a native method. -/
def invokeBy (method : Method) (cls : Class) (receiver : Option Wrapper) (args : CallArgs)
    (convert : Ret → CheckM α) : HostM α := do
  if method.canBeBound then
    let frame ← s.stage method receiver args
    run α method cls convert frame
  else HostM.refuse (.unbindable method.name)

/-- Makes an object of the named class. -/
def constructBy (className : String) (args : CallArgs) : HostM Wrapper := do
  let cls ← HostM.ofExcept (s.registry.fetch className)
  let maker := if s.module.isBound cls then s.module.nearestMaker? cls else none
  match maker with
  | none => HostM.refuse (.methodNotFound cls.name Method.constructorName)
  | some maker =>
    HostM.inFrame (cls.shortName ++ ".__init__")
      (s.invokeBy run maker cls none args Conversion.toWrapper)

/-- Calls an inert function of the named class. -/
def callStaticBy (className name : String) (args : CallArgs) : HostM HostValue := do
  let cls ← HostM.ofExcept (s.registry.fetch className)
  HostM.inFrame (cls.shortName ++ "." ++ name)
    (match s.module.resolve? cls name with
      | some (.function m) => s.invokeBy run m cls none args (Conversion.toHost s.machine)
      | _ => HostM.refuse (.methodNotFound cls.name name))

/-- Calls an entry on a wrapped object; host code that calls back does so in the same way. -/
def callMethodBy : Nat → Wrapper → String → CallArgs → HostM HostValue
  | 0, _, _, _ => outOfStack
  | depth + 1, o, name, args =>
    HostM.inFrame (o.cls.shortName ++ "." ++ name)
      (match s.module.resolve? o.cls name with
        | some (.custom code) =>
          code {
            machine := s.machine
            registry := s.registry
            exceptions := s.module.exceptions
            construct := s.constructBy run
            callMethod := callMethodBy depth
            callStatic := s.callStaticBy run } o args
        | some (.method m) =>
          s.invokeBy run ((o.cls.method? m.name).getD m) o.cls (some o) args
            (Conversion.toHost s.machine)
        | some (.function m) => s.invokeBy run m o.cls none args (Conversion.toHost s.machine)
        | none => HostM.refuse (.methodNotFound o.cls.name name))

/-- A call from host code that may nest `depth` calls more. -/
def performBy (depth : Nat) : Request → HostM HostValue
  | .construct className args => return .object (← s.constructBy run className args)
  | .method o name args => s.callMethodBy run (depth + 1) o name args
  | .static className name args => s.callStaticBy run className name args

/-- The runner does what a trapped call does with every method that can be bound and, if it is
an instance method, has its receiver. -/
def Runner.Fair (run : Runner) (s : Site) : Prop :=
  ∀ α method cls convert frame, method.canBeBound = true →
    (method.kind = .instanceMethod → frame.receiver.isSome = true) →
      run α method cls convert frame = s.trap α method cls convert frame

variable {s run} {receiver : Option Wrapper} {convert : Ret → CheckM α}

/-- A fair runner runs what a call has in its frame. -/
theorem Runner.Fair.invokeBy_eq (hrun : Runner.Fair run s)
    (hreceiver : method.kind = .instanceMethod → receiver.isSome = true) :
    s.invokeBy run method c receiver args convert = s.invoke method c receiver args convert := by
  unfold invokeBy invoke
  split_ifs with hbound
  swap
  · rfl
  funext w
  rw [Steps.bind_apply, Steps.bind_apply]
  rcases hstage : s.stage method receiver args w with ⟨frame, w'⟩ | ⟨e, w'⟩
  swap
  · rfl
  refine congrFun (hrun α method c convert frame hbound fun hkind => ?_) w'
  obtain ⟨o, rfl⟩ := Option.isSome_iff_exists.1 (hreceiver hkind)
  rw [receiver_of_stage hstage hkind]
  rfl

/-- With a fair runner objects are constructed as they are without one. -/
theorem Made.constructBy_eq (hs : s.Made) (hrun : Runner.Fair run s) :
    s.constructBy run = s.construct := by
  funext className args
  unfold constructBy construct
  rcases hfetch : s.registry.fetch className with e | c
  · rfl
  simp only [HostM.ofExcept, pure_bind]
  rcases hmaker : (if s.module.isBound c then s.module.nearestMaker? c else none) with _ | maker
  · rfl
  split_ifs at hmaker
  have hkind := hs.kind_of_nearestMaker (hs.built _ c hfetch) hmaker
  exact congrArg (HostM.inFrame _) (hrun.invokeBy_eq fun h => absurd (hkind.symm.trans h) (by simp))

/-- With a fair runner functions are called as they are without one. -/
theorem Made.callStaticBy_eq (hs : s.Made) (hrun : Runner.Fair run s) :
    s.callStaticBy run = s.callStatic := by
  funext className name args
  unfold callStaticBy callStatic
  rcases hfetch : s.registry.fetch className with e | c
  · rfl
  simp only [HostM.ofExcept, pure_bind]
  rcases hentry : s.module.resolve? c name with _ | ⟨m | m | code⟩
  case some.function =>
    have hkind := hs.kind_of_nearest (Module.resolve?_eq_some_iff.1 hentry)
    exact congrArg _ (hrun.invokeBy_eq fun h => absurd (hkind.symm.trans h) (by simp))
  all_goals rfl

/-- With a fair runner methods are called as they are without one. -/
theorem Made.callMethodBy_eq (hs : s.Made) (hrun : Runner.Fair run s) (depth : Nat) :
    s.callMethodBy run depth = s.callMethodAt depth := by
  induction depth with
  | zero => rfl
  | succ depth ih =>
    funext o name args
    rw [callMethodBy, callMethodAt]
    rcases hentry : s.module.resolve? o.cls name with _ | ⟨m | m | code⟩
    case none => rfl
    case some.method =>
      exact congrArg _ (hrun.invokeBy_eq fun _ => rfl)
    case some.function =>
      have hkind := hs.kind_of_nearest (Module.resolve?_eq_some_iff.1 hentry)
      exact congrArg _ (hrun.invokeBy_eq fun h => absurd (hkind.symm.trans h) (by simp))
    case some.custom =>
      simp only [ih, hs.constructBy_eq hrun, hs.callStaticBy_eq hrun]

/-- **Nothing else is ever run:** whatever a runner does with a method that cannot be bound, or
with an instance method that lacks its receiver, every call ends as it does. -/
theorem Made.performBy_eq (hs : s.Made) (hrun : Runner.Fair run s) (depth : Nat) (r : Request) :
    s.performBy run depth r = s.performAt depth r := by
  cases r with
  | construct className args => rw [performBy, performAt, hs.constructBy_eq hrun]
  | method o name args => rw [performBy, performAt, hs.callMethodBy_eq hrun]
  | static className name args => rw [performBy, performAt, hs.callStaticBy_eq hrun]

/-- **Dispatch** of the calls of a module that was made from bindings: what every call by name
comes to, however deep it is nested, and that nothing runs but methods that can be bound, with
their receivers. -/
theorem calls_dispatched (s : Site) (hs : s.Made) :
    (∀ depth o name args, o.cls.Built → s.Dispatched depth o name args) ∧
    ∀ run : Runner, run.Fair s → ∀ depth r, s.performBy run depth r = s.performAt depth r :=
  ⟨fun depth _ name args ho => hs.dispatched depth ho name args,
    fun _ hrun depth r => hs.performBy_eq hrun depth r⟩

end Site

/-! ### An override that is refused -/

namespace Sample

/-- The value of an integer, which is nobody's business. -/
def sealedValue : Method :=
  ⟨"Get_Value", .void, [], .onObject (.linked "zero"), true⟩

/-- A class of integers that keep their value to themselves. -/
def sealed : Class :=
  .ofMethods Parcel.firstFreeSerial "Sample::Sealed" "Sample" (some Parcel.integer) 0 [sealedValue]

/-- The binding of the integers. -/
def integerBinding : ClassBinding :=
  .plain "Sample" "Clownfish::Integer"

/-- A site that knows both classes, of which only the integers are bound. -/
def sealedSite : Site where
  machine := machine
  registry := ((Registry.Logged.mk .empty .fresh).run [.registerCore, .register sealed]).registry
  module := ⟨"sample", [integerBinding.table Parcel.integer], .empty⟩

/-- A runner that will not run what cannot be bound or lacks its receiver. -/
def strictRunner : Site.Runner := fun α method cls convert frame =>
  if method.canBeBound ∧ (method.kind = .instanceMethod → frame.receiver.isSome = true) then
    sealedSite.trap α method cls convert frame
  else Site.outOfStack

/-- The class of the example is well formed. -/
theorem sealed_built : sealed.Built := by
  refine .ofMethods (fun p hp => ?_) (fun p hp => ?_) (by decide)
  · obtain rfl := Option.some.inj hp
    exact Parcel.built_of_mem _ (by simp [Parcel.classes])
  · obtain rfl := Option.some.inj hp
    decide +kernel

/-- The binding of the integers is sound. -/
theorem sound_integerBinding :
    Emission.Sound Parcel.registry integerBinding Parcel.integer :=
  ⟨by decide +kernel, by decide +kernel, by decide +kernel⟩

/-- The module of the example was emitted. -/
theorem sealedSite_made : sealedSite.Made where
  built := by
    refine Registry.Logged.run_built .fresh _ fun c hc => ?_
    obtain rfl : c = sealed := by simpa using hc
    exact sealed_built
  emitted := by
    obtain ⟨l', hemit⟩ := (BindingSet.emit_ok_iff (l := .fresh) Parcel.registry_built).2
      ⟨_, .cons ⟨_, sound_integerBinding, rfl⟩ .nil, rfl⟩
    exact ⟨⟨[integerBinding]⟩, "sample", Parcel.registry, _, .fresh, l', Parcel.registry_built,
      hemit, rfl⟩

/-- The entry of the integers is the nearest one. -/
theorem sealedSite_nearest : ∃ m, m.name = "Get_Value" ∧
    sealedSite.module.Nearest sealed "get_value" (.method m) := by
  obtain ⟨m, hm, hshown, hname, hhost⟩ : ∃ m ∈ Parcel.integer.declaredMethods,
      integerBinding.shows m = true ∧ m.name = "Get_Value" ∧ m.hostName = "get_value" := by
    decide +kernel
  refine ⟨m, hname, [sealed], Parcel.integer, [Parcel.obj], integerBinding.table Parcel.integer,
    rfl, List.find?_cons_of_pos (beq_self_eq_true Parcel.integer),
    ((Emission.lists_table sound_integerBinding.nodup).entry?_eq_some_iff _ _).2
      (ClassBinding.method_mem_rows.2 ⟨⟨hm, hshown⟩, hhost⟩), fun x hx t ht => ?_⟩
  obtain rfl := List.mem_singleton.1 hx
  have hnone : (sealedSite.module.table? sealed).isSome = false := by decide +kernel
  exact absurd hnone (by simp [ht])

/-- The example declares the hidden method first. -/
theorem sealed_firstDeclares : sealed.FirstDeclares "Get_Value" sealedValue :=
  ⟨[], sealed, Parcel.integer.ancestry, rfl, by decide +kernel, rfl, by simp⟩

/-- The hidden method of the example is refused, whatever runs what is called. -/
theorem sealedValue_refused :
    (sealedSite.Made ∧ sealed.Built ∧ strictRunner.Fair sealedSite) ∧
    (∀ h args w, sealedSite.callMethodAt 1 ⟨h, sealed⟩ "get_value" args w =
      .error ((HostException.ofError (.unbindable "Get_Value")).withFrame "Sealed.get_value") w) ∧
    ∀ depth r, sealedSite.performBy strictRunner depth r = sealedSite.performAt depth r := by
  have hfair : strictRunner.Fair sealedSite := fun α method cls convert frame hbound hreceiver =>
    if_pos ⟨hbound, hreceiver⟩
  have hlabel : sealed.shortName ++ "." ++ "get_value" = "Sealed.get_value" := by decide +kernel
  obtain ⟨hcalls, hruns⟩ := Site.calls_dispatched sealedSite sealedSite_made
  refine ⟨⟨sealedSite_made, sealed_built, hfair⟩, fun h args w => ?_, hruns strictRunner hfair⟩
  obtain ⟨m, hname, hnearest⟩ := sealedSite_nearest
  obtain ⟨method, hfirst, -, -, hrefused⟩ :=
    (hcalls 0 ⟨h, sealed⟩ "get_value" args sealed_built).method m hnearest
  obtain rfl := (hfirst sealedValue).1 (hname ▸ sealed_firstDeclares)
  rw [hrefused (Or.inl rfl) w]
  exact hlabel ▸ rfl

end Sample

end Interop

/-
# Inert classes

The flag of an inert class says that it has no instances.  Nothing in a bridge asks for it: a
call that makes an object looks for the nearest constructor on offer, and if there is one it
runs it for the class that was asked for, inert or not.

**Nothing else makes instances of inert classes.**  Host code may do what it likes, and the
code of host entries and of linked symbols may be anything that makes no instance of an inert
class by itself (`Site.Restrained`): every inert class that has an instance is one that the
registry knows, that is bound, if only through an ancestor, and that has a constructor within
reach (`Site.Makeable`).  This is what one operation keeps (`Site.step_within`) and so what a
whole session does.  An inert class without such a constructor is refused.  One with a
constructor of the core parcel within reach does get instances (`Site.inert_instances`).
-/

import Interop.Proofs.Call.Making
import Interop.Proofs.Conversion.Licence

namespace Interop

open Steps

/-! ### Running native code -/

namespace Call

variable {l : Licence} {m : Machine} {α : Type} {Q : α → Prop} {c : Class} {code : Code}
  {frame : Frame} {native : NativeM Ret} {convert : Ret → CheckM α}

/-- The code of a method heeds the licence; that of a constructor does if the class that it is
called for is allowed. -/
theorem heeds_of_codeFor (hi : m.image.Heeds l)
    (hc : ∀ routine, code = .onClass routine → l.allows c)
    (h : codeFor m.image code c frame = some native) : native.Heeds l := by
  rcases code with routine | routine | routine
  · obtain ⟨p, -, rfl⟩ := Option.map_eq_some_iff.1 h
    exact hi.runOnObject routine p frame.args
  · obtain rfl := Option.some.inj h
    exact hi.runOnClass routine (hc routine rfl) frame.args
  · obtain rfl := Option.some.inj h
    exact hi.runOnNothing routine frame.args

/-- Code that heeds a licence keeps the world within it, and so does what its result becomes.
-/
theorem yields_runCode (hm : m.Heeds l) (exceptions : ExceptionMap)
    (hconvert : ∀ ret, Yields (World.Within l) Q (convert ret)) (hn : native.Heeds l) :
    Yields (World.Within l) Q (runCode m exceptions convert native) := by
  intro w d
  have hrun := hn (m.env w.program.registryView) (hm _) w.heap d.objects
  unfold runCode World.runNative
  rcases hend : native (m.env w.program.registryView) w.heap with ⟨ret, h'⟩ | ⟨t, h'⟩ <;>
    rw [hend] at hrun
  · exact HostM.yields_check (hconvert ret) _ (d.settle hrun.1)
  · exact (d.settle hrun).toException hm exceptions t

/-- A trapped call keeps the world within a licence. -/
theorem yields_runTrapped (hi : m.image.Heeds l) (exceptions : ExceptionMap)
    (hconvert : ∀ ret, Yields (World.Within l) Q (convert ret))
    (hc : ∀ routine, code = .onClass routine → l.allows c) :
    Yields (World.Within l) Q (runTrapped m exceptions c convert code frame) := by
  refine HostM.yields_closing ?_ fun _ d => d.releaseAll hi.machine _
  rcases hcode : codeFor m.image code c frame with _ | native
  · exact yields_throw _
  · exact yields_runCode hi.machine exceptions hconvert (heeds_of_codeFor hi hc hcode)

end Call

/-! ### Host code behind entries -/

/-- What is offered to host code does not lead out of the licence, where receivers are of
classes that are allowed. -/
structure ModuleView.Heeds (l : Licence) (view : ModuleView) : Prop where
  machine : view.machine.Heeds l
  construct : ∀ className args,
    Yields (World.Within l) (fun o => l.allows o.cls) (view.construct className args)
  callMethod : ∀ o, l.allows o.cls → ∀ name args,
    Preserves (World.Within l) (view.callMethod o name args)
  callStatic : ∀ className name args,
    Preserves (World.Within l) (view.callStatic className name args)

/-- Host code that does not lead out of the licence, if what it is offered does not. -/
def CustomEntry.Heeds (l : Licence) (run : CustomEntry) : Prop :=
  ∀ view : ModuleView, view.Heeds l → ∀ o, l.allows o.cls → ∀ args,
    Preserves (World.Within l) (run view o args)

namespace CoreBinding

/-- **The host code of the core parcel** heeds every licence. -/
theorem isA_heeds (l : Licence) : CustomEntry.Heeds l isA := fun _ _ _ _ _ =>
  HostM.yields_ofExcept fun _ _ => preserves_get.bind fun _ =>
    HostM.yields_ofExcept fun _ _ => preserves_pure _

/-- The custom entry for references heeds every licence. -/
theorem decRefcount_heeds (l : Licence) : CustomEntry.Heeds l decRefcount := fun _ hview o _ _ =>
  HostM.yields_ofExcept fun _ _ =>
    Preserves.bind (HostM.yields_check (Handle.preserves_release hview.machine o.handle)) fun _ =>
      preserves_pure _

end CoreBinding

namespace Site

/-- The registry knows the class, a class of its ancestry is bound, and a constructor is on
offer. -/
def Makeable (s : Site) (c : Class) : Prop :=
  (∃ name, s.registry.fetch name = .ok c) ∧ s.module.isBound c = true ∧
    ∃ m, s.module.nearestMaker? c = some m

/-- The licence that allows instances of an inert class only if objects of it can be asked for
and a constructor is on offer. -/
def licence (s : Site) : Licence where
  allows c := c.isInert = true → s.Makeable c
  ordinary _ hc hinert := absurd (hc.symm.trans hinert) Bool.false_ne_true

/-- Linked code and host code make no instances of inert classes by themselves, whichever inert
classes have instances: linked methods and functions make none, linked constructors none of
another class than they are called for, and host code at most what it is offered makes. -/
structure Restrained (s : Site) : Prop where
  linked : ∀ l : Licence, s.machine.image.Heeds l
  custom : ∀ l : Licence, ∀ t ∈ s.module.tables, ∀ name run, (name, .custom run) ∈ t.entries →
    CustomEntry.Heeds l run

variable {s : Site} {l : Licence} {method : Method} {c : Class} {args : CallArgs} {α : Type}
  {Q : α → Prop} {convert : Ret → CheckM α}

/-! ### Calls -/

/-- Pushing the receiver keeps the world within a licence. -/
theorem preserves_pushReceiver (method : Method) (receiver : Option Wrapper) :
    Preserves (Staging.Within l) (pushReceiver method receiver) := by
  rcases receiver with _ | o
  · exact preserves_pure _
  unfold pushReceiver
  dsimp only
  split
  · exact (StageM.yields_lift (Handle.preserves_retain o.handle)).bind fun _ _ =>
      preserves_modify fun _ d => d
  · exact preserves_pure _

/-- Filling a frame keeps the world within a licence. -/
theorem preserves_stage (hm : s.machine.Heeds l) (method : Method) (receiver : Option Wrapper)
    (args : CallArgs) : Preserves (World.Within l) (s.stage method receiver args) := by
  intro w d
  have hfill : Preserves (Staging.Within l) (s.fillFrame method receiver args) :=
    (preserves_pushReceiver method receiver).bind fun _ =>
      Conversion.preserves_pushArgs hm s.registry method args
  have hrun := hfill ⟨w, .empty⟩ d
  unfold stage
  rcases hend : s.fillFrame method receiver args ⟨w, .empty⟩ with ⟨u, done⟩ | ⟨e, done⟩ <;>
    rw [hend] at hrun
  · exact hrun
  · exact World.Within.releaseAll hm done.frame.owned hrun

/-- **A call of native code** makes instances of the class that it is for at most. -/
theorem yields_invoke (hi : s.machine.image.Heeds l) (receiver : Option Wrapper)
    (hconvert : ∀ ret, Yields (World.Within l) Q (convert ret))
    (hc : ∀ routine, method.code = .onClass routine → l.allows c) :
    Yields (World.Within l) Q (s.invoke method c receiver args convert) := by
  unfold invoke
  split_ifs
  · exact (preserves_stage hi.machine method receiver args).bind fun _ =>
      Call.yields_runTrapped hi s.module.exceptions hconvert hc
  · exact yields_throw _

/-- **Making an object:** the class that was asked for has a constructor within reach. -/
theorem yields_construct (hi : s.machine.image.Heeds l) (hmakeable : ∀ c, s.Makeable c → l.allows c)
    (className : String) (args : CallArgs) :
    Yields (World.Within l) (fun o => l.allows o.cls) (s.construct className args) := by
  refine HostM.yields_ofExcept fun c hfetch => ?_
  dsimp only
  rcases hmaker : (if s.module.isBound c then s.module.nearestMaker? c else none) with _ | maker
  · exact yields_throw _
  split_ifs at hmaker with hbound
  exact HostM.yields_inFrame _ (yields_invoke hi none Conversion.yields_toWrapper fun _ _ =>
    hmakeable c ⟨⟨className, hfetch⟩, hbound, maker, hmaker⟩)

/-- An inert function is called for no class. -/
theorem Made.code_ne_onClass (hs : s.Made) {name : String}
    (h : s.module.resolve? c name = some (.function method)) (routine : Routine CoreConstructor) :
    method.code ≠ .onClass routine := by
  intro hcode
  have hkind := hs.kind_of_nearest (Module.resolve?_eq_some_iff.1 h)
  exact absurd hkind (by simp [Method.kind, hcode, Code.kind])

/-- A function call keeps the world within a licence. -/
theorem preserves_callStatic (hs : s.Made) (hi : s.machine.image.Heeds l)
    (className name : String) (args : CallArgs) :
    Preserves (World.Within l) (s.callStatic className name args) := by
  refine HostM.yields_ofExcept fun c hfetch => HostM.yields_inFrame _ ?_
  rcases hentry : s.module.resolve? c name with _ | ⟨m | m | run⟩
  case some.function =>
    exact yields_invoke hi none (Conversion.preserves_toHost hi.machine) fun routine hcode =>
      absurd hcode (hs.code_ne_onClass hentry routine)
  all_goals exact yields_throw _

/-- **Calling a method** of an object whose class is allowed, however deep host code calls back:
by induction on the depth, as the calls of host code are one deeper. -/
theorem preserves_callMethodAt (hs : s.Made) (hi : s.machine.image.Heeds l)
    (hcustom : ∀ t ∈ s.module.tables, ∀ name run, (name, .custom run) ∈ t.entries →
      CustomEntry.Heeds l run)
    (hmakeable : ∀ c, s.Makeable c → l.allows c) (depth : Nat) (o : Wrapper) (ho : l.allows o.cls)
    (name : String) (args : CallArgs) :
    Preserves (World.Within l) (s.callMethodAt depth o name args) := by
  induction depth generalizing o name args with
  | zero => exact (preserves_modify fun _ d => d.withHeap (d.objects.recordFault _)).bind fun _ =>
      yields_throw _
  | succ depth ih =>
    rw [callMethodAt]
    refine HostM.yields_inFrame _ ?_
    have hconvert := Conversion.preserves_toHost (l := l) hi.machine
    rcases hentry : s.module.resolve? o.cls name with _ | ⟨m | m | run⟩
    · exact yields_throw _
    · exact yields_invoke hi (some o) hconvert fun _ _ => ho
    · exact yields_invoke hi none hconvert fun _ _ => ho
    · obtain ⟨t, ht, -, hrun⟩ := Module.resolve?_ok hentry
      have hview : (s.view depth).Heeds l :=
        ⟨hi.machine, yields_construct hi hmakeable, ih, preserves_callStatic hs hi⟩
      exact hcustom t ht name run hrun _ hview o ho args

/-! ### Sessions -/

end Site

/-- What keeps a licence leaves a world within it, whether it succeeds or fails. -/
theorem World.Within.after {l : Licence} {w : World} {ε α : Type} {x : EStateM ε World α}
    (d : w.Within l) (hx : Preserves (World.Within l) x) : (w.after x).Within l := by
  have hrun := hx w d
  unfold World.after
  rcases hend : x w with ⟨a, w'⟩ | ⟨e, w'⟩ <;> rw [hend] at hrun
  · exact hrun.1
  · exact hrun

namespace Site

variable {s : Site} {w : World} {c : Class} {m : Method} {className : String}

/-- **One operation** makes no instance of an inert class without a constructor within reach. -/
theorem step_within (hs : s.Made) (hr : s.Restrained) (d : w.Within s.licence) (op : Operation) :
    (s.step w op).Within s.licence := by
  have hi := hr.linked s.licence
  have hmakeable : ∀ c, s.Makeable c → s.licence.allows c := fun _ hc _ => hc
  cases op with
  | construct className args =>
    exact d.after (yields_construct hi hmakeable className args).preserves
  | callMethod h name args =>
    have ho : s.licence.allows (Wrapper.ofHandle h w).cls := d.handles h
    exact d.after (preserves_callMethodAt hs hi (hr.custom _) hmakeable _ _ ho name args)
  | callStatic className name args => exact d.after (preserves_callStatic hs hi className name args)
  | clone h => exact d.share h
  | drop h => exact d.drop hi.machine h
  | release h => exact d.after (Handle.preserves_release hi.machine h)

/-- Nor does any sequence of operations. -/
theorem run_within (hs : s.Made) (hr : s.Restrained) (session : List Operation)
    (d : w.Within s.licence) : (s.run w session).Within s.licence := by
  induction session generalizing w with
  | nil => exact d
  | cons op rest ih => exact ih (step_within hs hr d op)

/-- Without a constructor within reach nothing runs. -/
theorem construct_of_not_makeable (hfetch : s.registry.fetch className = .ok c)
    (hc : ¬ s.Makeable c) (args : CallArgs) (w : World) :
    s.construct className args w = .error (.ofError (.methodNotFound c.name "init")) w := by
  have hmaker : (if s.module.isBound c then s.module.nearestMaker? c else none) = none := by
    by_contra hne
    obtain ⟨maker, hmaker⟩ := Option.ne_none_iff_exists'.1 hne
    split_ifs at hmaker with hbound
    exact hc ⟨⟨className, hfetch⟩, hbound, maker, hmaker⟩
  unfold construct
  simp only [hfetch, HostM.ofExcept, pure_bind, hmaker]
  rfl

/-- A constructor that takes a capacity accepts none, whatever can be reserved. -/
theorem invoke_capacity (s : Site) (c : Class) (program : Program) {op : CoreConstructor}
    (payload : Payload) (hrun : ∀ env h, Parcel.runConstructor c [.null] op env h =
      .ok (.incremented (h.alloc c payload).1) (h.alloc c payload).2) : ∃ args o w',
      s.invoke (Parcel.maker [("capacity", Parcel.maybeSize)] op) c none args Conversion.toWrapper
        (.ofProgram program) = .ok o w' := by
  have hstage : s.stage (Parcel.maker [("capacity", Parcel.maybeSize)] op) none .empty
      (.ofProgram program) = .ok ⟨none, [.null], []⟩ (.ofProgram program) := rfl
  have hbound : (Parcel.maker [("capacity", Parcel.maybeSize)] op).canBeBound = true := rfl
  obtain ⟨o, w', hwrapped⟩ : ∃ o w', Conversion.toWrapper
      (.incremented ((World.ofProgram program).heap.alloc c payload).1)
      ((World.ofProgram program).settle ((World.ofProgram program).heap.alloc c payload).2) =
        .ok o w' := ⟨_, _, rfl⟩
  refine ⟨.empty, o, w'.releaseAll s.machine [], ?_⟩
  rw [invoke, if_pos hbound, Steps.bind_apply, hstage]
  refine (Call.runTrapped_of_returned _ _ rfl (hrun _ _)).trans ?_
  rw [hwrapped]

/-- **Every constructor of the core parcel** accepts some arguments, whatever the class that it
is called for. -/
theorem invoke_core (s : Site) (c : Class) (program : Program) {root : Class}
    (hroot : root ∈ Parcel.classes) (hm : root.maker = some m) : ∃ args o w',
      s.invoke m c none args Conversion.toWrapper (.ofProgram program) = .ok o w' := by
  obtain ⟨param, op, -, -, -, rfl⟩ := Parcel.maker_shape hroot hm
  cases op with
  | string =>
    obtain rfl := Option.some.inj hm
    exact ⟨⟨[.str ""], []⟩, _, _, rfl⟩
  | integer =>
    obtain rfl := Option.some.inj hm
    exact ⟨⟨[.int 0], []⟩, _, _, rfl⟩
  | float =>
    obtain rfl := Option.some.inj hm
    exact ⟨⟨[.int 0], []⟩, _, _, rfl⟩
  | hash =>
    obtain rfl := Option.some.inj hm
    refine invoke_capacity s c program (.hash .empty) fun env h => ?_
    show (if env.memory.hashRoom 0 then do return .incremented (← NativeM.alloc c (.hash .empty))
      else NativeM.fail _ : NativeM Ret) env h = _
    rw [if_pos env.memory.hashRoom_zero]
    rfl
  | vector =>
    obtain rfl := Option.some.inj hm
    refine invoke_capacity s c program (.vector []) fun env h => ?_
    show (if env.memory.vectorRoom 0 then do return .incremented (← NativeM.alloc c (.vector []))
      else NativeM.fail _ : NativeM Ret) env h = _
    rw [if_pos env.memory.vectorRoom_zero]
    rfl
  | error =>
    obtain rfl := Option.some.inj hm
    exact ⟨⟨[.str ""], []⟩, _, _, rfl⟩

/-- **With a constructor of the core parcel within reach** a class gets an instance. -/
theorem exists_instance (program : Program) (hfetch : s.registry.fetch className = .ok c)
    (hbound : s.module.isBound c = true) (hmaker : s.module.nearestMaker? c = some m) {root : Class}
    (hroot : root ∈ Parcel.classes) (hm : root.maker = some m) : ∃ args p o,
      (s.run (.ofProgram program) [.construct className args]).heap.get? p = some o ∧
        o.cls = c := by
  obtain ⟨args, o, w', hinvoke⟩ := invoke_core s c program hroot hm
  obtain ⟨param, op, hparams, hkind, hcode, -⟩ := Parcel.maker_shape hroot hm
  have hwhole : (World.ofProgram program).Whole :=
    (World.balanced_ofProgram (K := (· ∈ Parcel.classes)) (fun _ hc => hc) program).whole
  obtain ⟨slot, payload, -, -, hmakes⟩ := invoke_makes hwhole hparams hkind hcode hinvoke
  have hconstruct : s.construct className args (.ofProgram program) = .ok o w' := by
    rw [construct_of_maker args hfetch hbound hmaker, HostM.inFrame_apply, hinvoke]
  have hrun : s.run (.ofProgram program) [.construct className args] = w' := by
    show (World.ofProgram program).after (s.construct className args) = w'
    rw [World.after, hconstruct]
  have hget := hmakes.adds.get?_eq (w'.handle o.handle).object
  rw [if_pos rfl] at hget
  exact ⟨args, _, _, hrun ▸ hget, rfl⟩

/-- **Instances of inert classes.**  Whatever host code does, an inert class has instances, and
handles stand for them, only if objects of it can be asked for and a constructor is on offer.
Otherwise it cannot be constructed; but with a constructor of the core parcel within reach every
class gets an instance, an inert one as well. -/
theorem inert_instances (hs : s.Made) (hr : s.Restrained) (program : Program) :
    (∀ session, (∀ p o, (s.run (.ofProgram program) session).heap.get? p = some o →
        o.cls.isInert = true → s.Makeable o.cls) ∧
      ∀ h, ((s.run (.ofProgram program) session).handle h).cls.isInert = true →
        s.Makeable ((s.run (.ofProgram program) session).handle h).cls) ∧
    ∀ className c, s.registry.fetch className = .ok c →
      (¬ s.Makeable c → ∀ args w, s.construct className args w =
        .error (.ofError (.methodNotFound c.name "init")) w) ∧
      ∀ root ∈ Parcel.classes, ∀ m, root.maker = some m → s.module.isBound c = true →
        s.module.nearestMaker? c = some m → ∃ args p o,
          (s.run (.ofProgram program) [.construct className args]).heap.get? p = some o ∧
            o.cls = c := by
  refine ⟨fun session => ?_, fun className c hfetch => ⟨?_, ?_⟩⟩
  · have d := run_within hs hr session (World.within_ofProgram s.licence program)
    exact ⟨d.objects, d.handles⟩
  · exact fun hc args w => construct_of_not_makeable hfetch hc args w
  · exact fun root hroot m hm hbound hmaker =>
      exists_instance program hfetch hbound hmaker hroot hm

end Site

/-! ### Three inert classes with instances -/

namespace Sample

/-- An inert class below the integers. -/
def still : Class :=
  .ofMethods Parcel.firstFreeSerial "Sample::Still" "Sample" (some Parcel.integer) inertFlag []

/-- An inert class below the floats. -/
def hushed : Class :=
  .ofMethods (Parcel.firstFreeSerial + 1) "Sample::Hushed" "Sample" (some Parcel.float) inertFlag []

/-- An inert class with a constructor of its own. -/
def mute : Class :=
  .ofMethods (Parcel.firstFreeSerial + 2) "Sample::Mute" "Sample" (some Parcel.obj) inertFlag [
    ⟨Method.constructorName, .value Parcel.anyObject, [], .onClass (.linked "empty"), false⟩]

/-- The core parcel and the three classes. -/
def inertRegistry : Registry :=
  ((Registry.Logged.mk .empty .fresh).run
    [.registerCore, .register still, .register hushed, .register mute]).registry

/-- The site of the three classes.  Only the root of all classes and the integers are bound. -/
def inertSite : Site where
  machine := machine
  registry := inertRegistry
  module := ⟨"sample", [CoreBinding.root.table Parcel.obj, integerBinding.table Parcel.integer],
    .empty⟩

/-- A subclass of a class of the core parcel is well formed if its names are new. -/
theorem built_below {serial : Nat} {name : String} {p : Class} {methods : List Method}
    (hp : p ∈ Parcel.classes) (hname : ∀ a ∈ p.ancestry, a.name ≠ name)
    (hmethods : (methods.map Method.name).Nodup) :
    (Class.ofMethods serial name "Sample" (some p) inertFlag methods).Built := by
  refine .ofMethods (fun q hq => ?_) (fun q hq => ?_) hmethods
  · obtain rfl := Option.some.inj hq
    exact Parcel.built_of_mem _ hp
  · obtain rfl := Option.some.inj hq
    exact hname

/-- The registry of the example has a history. -/
theorem inertRegistry_built : inertRegistry.Built := by
  unfold inertRegistry
  refine Registry.Logged.run_built .fresh _ fun c hc => ?_
  have hc : c = still ∨ c = hushed ∨ c = mute := by simpa using hc
  rcases hc with rfl | rfl | rfl
  · exact built_below (by simp [Parcel.classes]) (by decide +kernel) (by decide)
  · exact built_below (by simp [Parcel.classes]) (by decide +kernel) (by decide)
  · exact built_below (by simp [Parcel.classes]) (by decide +kernel) (by decide)

/-- The module of the example was emitted from its registry. -/
theorem inertSite_made : inertSite.Made where
  built := inertRegistry_built
  emitted := by
    have hroot : Emission.Sound Parcel.registry CoreBinding.root Parcel.obj :=
      ⟨by decide +kernel, by decide +kernel, by decide +kernel⟩
    obtain ⟨l', hemit⟩ := (BindingSet.emit_ok_iff (l := .fresh) Parcel.registry_built).2
      ⟨_, .cons ⟨_, hroot, rfl⟩ (.cons ⟨_, sound_integerBinding, rfl⟩ .nil), rfl⟩
    exact ⟨⟨[CoreBinding.root, integerBinding]⟩, "sample", Parcel.registry, _, .fresh, l',
      Parcel.registry_built, hemit, rfl⟩

/-- The code of the example stays within the licence that leaves the inert classes out. -/
theorem inertSite_restrained : inertSite.Restrained where
  linked := image_heeds
  custom l t ht name run hrun := by
    rcases List.mem_cons.1 ht with rfl | ht
    · obtain ⟨d, hd, -, rfl⟩ := ClassBinding.custom_mem_rows.1 hrun
      rcases List.mem_cons.1 hd with rfl | hd
      · exact CoreBinding.isA_heeds l
      · obtain rfl := List.mem_singleton.1 hd
        exact CoreBinding.decRefcount_heeds l
    · obtain rfl := List.mem_singleton.1 ht
      obtain ⟨d, hd, -⟩ := ClassBinding.custom_mem_rows.1 hrun
      exact absurd hd List.not_mem_nil

/-- The example knows the inert class of the core parcel and its own. -/
theorem inertSite_fetch :
    inertSite.registry.fetch "Clownfish::Util::StringHelper" = .ok Parcel.stringHelper ∧
      inertSite.registry.fetch "Sample::Still" = .ok still := by
  decide +kernel

/-- Of the two inert classes one is bound and reaches the constructor of the integers. -/
theorem inertSite_reach : inertSite.module.isBound Parcel.stringHelper = false ∧
    inertSite.module.isBound still = true ∧
      inertSite.module.nearestMaker? still = some integerMaker := by
  decide +kernel

/-- The class of functions never has an instance, and the one below the integers gets one. -/
theorem inertSite_instances : (inertSite.Made ∧ inertSite.Restrained) ∧
    (∀ session p o, (inertSite.run (.ofProgram .ready) session).heap.get? p = some o →
      o.cls ≠ Parcel.stringHelper) ∧
    (∀ args w, inertSite.construct "Clownfish::Util::StringHelper" args w =
      .error (.ofError (.methodNotFound "Clownfish::Util::StringHelper" "init")) w) ∧
    ∃ args p o, (inertSite.run (.ofProgram .ready) [.construct "Sample::Still" args]).heap.get? p =
      some o ∧ o.cls = still := by
  obtain ⟨hhelper, hstill⟩ := inertSite_fetch
  obtain ⟨hunbound, hbound, hmaker⟩ := inertSite_reach
  have hnot : ¬ inertSite.Makeable Parcel.stringHelper := fun hc =>
    absurd (hunbound.symm.trans hc.2.1) Bool.false_ne_true
  obtain ⟨hruns, hcalls⟩ := Site.inert_instances inertSite_made inertSite_restrained .ready
  refine ⟨⟨inertSite_made, inertSite_restrained⟩, fun session p o ho hcls => ?_, ?_, ?_⟩
  · exact hnot (hcls ▸ (hruns session).1 p o ho (hcls ▸ rfl))
  · exact (hcalls _ _ hhelper).1 hnot
  · exact (hcalls _ _ hstill).2 Parcel.integer (by simp [Parcel.classes]) integerMaker rfl hbound
      hmaker

/-- Asks for an object of each of the three classes: one constructor is inherited from a class
that is bound, one from a class that is not, and one is the class's own. -/
def inertSession : List Operation := [
  .construct "Sample::Still" ⟨[.int 7], []⟩,
  .construct "Sample::Hushed" ⟨[.int 7], []⟩,
  .construct "Sample::Mute" .empty]

/-- **Inert classes do have instances,** whichever way they come by a constructor. -/
theorem inertSession_populates : inertSite.Made ∧ ∀ c ∈ [still, hushed, mute], c.isInert = true ∧
    ∃ p o, (inertSite.run (.ofProgram .ready) inertSession).heap.get? p = some o ∧ o.cls = c := by
  have hfound : ∀ c ∈ [still, hushed, mute], c.isInert = true ∧ ∃ i ∈ [2, 3, 4],
      ((inertSite.run (.ofProgram .ready) inertSession).heap.get? ⟨i⟩).map Obj.cls = some c := by
    decide +kernel
  refine ⟨inertSite_made, fun c hc => ?_⟩
  obtain ⟨hinert, i, -, hi⟩ := hfound c hc
  obtain ⟨o, ho, hcls⟩ := Option.map_eq_some_iff.1 hi
  exact ⟨hinert, ⟨i⟩, o, ho, hcls⟩

end Sample

end Interop

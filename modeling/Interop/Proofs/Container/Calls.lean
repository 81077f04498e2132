/-
# Calls on containers

A call of the module of the core parcel on a container that a world tracks runs the code of
its class and nothing else.  What the code does to the container (`ContainerKind.Updates`) and
what it returns are then all there is to know: the call answers the value that the result
presents, and the world tracks the container with its new content
(`Site.callMethod_returned`, `Tracks.update`).  A call that is refused, or whose code throws a
plain error before it does anything, changes no content.

The class, the methods and the module are those of the core parcel; nothing is assumed about
the native code of other classes but that it can be trusted (`Family`).
-/

import Interop.Proofs.Binding.CoreModule
import Interop.Proofs.Container.Tracked

namespace Interop

open World Conversion

/-- What a plain native error becomes when no class of errors has a way of its own. -/
def HostException.native (message : String) : HostException :=
  ⟨.runtimeError, message, some "Clownfish::Err", []⟩

/-- A site with the module of the core parcel. -/
structure Site.Core (s : Site) (K : Class → Prop) : Prop where
  family : Family s.machine K
  fetch : ∀ c ∈ Parcel.classes, s.registry.fetch c.name = .ok c
  module_eq : s.module = CoreBinding.clownfish

/-- No method of a container gives back what its caller lent. -/
theorem Parcel.name_ne_of_declared : ∀ c ∈ containers, ∀ m ∈ c.declaredMethods,
    m.name ≠ "Dec_RefCount" := by
  decide +kernel

/-- Without mappings a plain error is raised with its own message. -/
theorem HostException.exceptionFor_err (message : String) :
    ExceptionMap.empty.exceptionFor Parcel.err message = .native message := rfl

namespace Site

variable {s : Site} {K : Class → Prop} {α : Type} {kind : ContainerKind α} {w w₁ : World}
  {wrappers : List Wrapper} {contents : List α} {o : Wrapper} {i : Nat} {args : CallArgs}
  {m : Method} {a : α} {frame : Frame} {taken : Multiset ObjId} {op : CoreMethod}

/-- The name that an exception gets on its way out of a call. -/
def label (c : Class) (name : String) : String :=
  c.shortName ++ "." ++ name

/-- **A method that a container declares** is what its host name runs. -/
theorem callMethod_eq (core : s.Core K) (hkind : kind.cls ∈ Parcel.containers)
    (hm : m ∈ kind.cls.declaredMethods) (hpublic : m.isPrivate = false)
    (hcls : o.cls = kind.cls) : s.callMethod o m.hostName args =
      HostM.inFrame (label kind.cls m.hostName)
        (s.invoke m kind.cls (some o) args (toHost s.machine)) := by
  have hoffers := CoreBinding.offers_of_declared _ hkind m hm hpublic
  have hresolve := CoreBinding.resolve?_of_offers hoffers
  rw [CoreBinding.offers, Bool.and_eq_true, Bool.and_eq_true, beq_iff_eq] at hoffers
  rw [callMethod, callMethodAt, hcls, core.module_eq, label]
  congr 1
  simp only [hresolve, hoffers.1.2, Option.getD_some]

/-- The public methods of the containers can be bound. -/
theorem canBeBound_of_declared (hkind : kind.cls ∈ Parcel.containers)
    (hm : m ∈ kind.cls.declaredMethods) (hpublic : m.isPrivate = false) : m.canBeBound = true := by
  have hoffers := CoreBinding.offers_of_declared _ hkind m hm hpublic
  rw [CoreBinding.offers, Bool.and_eq_true] at hoffers
  exact hoffers.2

/-- A call with a frame runs its code; the exceptions that it raises get a name. -/
theorem callMethod_staged (core : s.Core K) (hkind : kind.cls ∈ Parcel.containers)
    (hm : m ∈ kind.cls.declaredMethods) (hpublic : m.isPrivate = false) (hcls : o.cls = kind.cls)
    (hstage : s.stage m (some o) args w = .ok frame w₁) : s.callMethod o m.hostName args w =
      HostM.inFrame (label kind.cls m.hostName) (Call.runTrapped s.machine .empty kind.cls
        (toHost s.machine) m.code frame) w₁ := by
  rw [callMethod_eq core hkind hm hpublic hcls, HostM.inFrame_apply, HostM.inFrame_apply, invoke,
    if_pos (canBeBound_of_declared hkind hm hpublic), Steps.bind_apply, hstage, core.module_eq,
    CoreBinding.exceptions_eq]

/-- **A call that is refused** changes nothing. -/
theorem callMethod_refused (core : s.Core K) (hkind : kind.cls ∈ Parcel.containers)
    (hm : m ∈ kind.cls.declaredMethods) (hpublic : m.isPrivate = false)
    (t : Tracks K kind w wrappers contents) (ho : wrappers[i]? = some o) {e : BridgeError}
    (hstage : s.stage m (some o) args w = .error (.ofError e) w₁) (hstaged : w.Staged 0 w₁) :
    s.callMethod o m.hostName args w =
        .error ((HostException.ofError e).withFrame (label kind.cls m.hostName)) w₁ ∧
      Tracks K kind w₁ wrappers contents := by
  have hcls := (t.owned o (List.mem_of_getElem? ho)).2
  refine ⟨?_, t.of_unchanged hstaged.unchanged (balanced_of_staged core.family t.balanced hstaged)⟩
  rw [callMethod_eq core hkind hm hpublic hcls, HostM.inFrame_apply, invoke,
    if_pos (canBeBound_of_declared hkind hm hpublic), Steps.bind_apply, hstage]

section Staged

variable (core : s.Core K) (hkind : kind.cls ∈ Parcel.containers)
  (hm : m ∈ kind.cls.declaredMethods) (hpublic : m.isPrivate = false)
  (hcode : m.code = .onObject (.core op)) (t : Tracks K kind w wrappers contents)
  (ho : wrappers[i]? = some o) (hstage : s.stage m (some o) args w = .ok frame w₁)
  (l : Staging.Lends w taken ⟨w₁, frame⟩)
  (hreceiver : frame.receiver = some (w.handle o.handle).object)
  (htaken : ∀ q ∈ taken, q ∈ w.roots wrappers)

include core t ho hstage l in
/-- The receiver is of the class of containers. -/
theorem standing_of_tracked : frame.Standing kind.cls w₁.heap := by
  refine standing_of_staged t.balanced
    (balanced_of_staged core.family t.balanced l.accounted.staged) ?_ hstage l.accounted
  intro o' ho'
  obtain rfl := Option.some.inj ho'
  have hmem := List.mem_of_getElem? ho
  obtain ⟨x, hx, hcls, -⟩ := t.get?_root (Tracks.root_mem hmem)
  obtain ⟨y, hy, hhandle⟩ := t.balanced.cls_eq o.handle (t.owned o hmem).1
  obtain rfl := Option.some.inj (hx.symm.trans hy)
  rw [← hhandle, hcls]

include core hkind hm in
/-- The methods of the containers keep the heap orderly. -/
theorem keeps_of_container : Keeps core.family kind.cls m.code := by
  have hK := core.family.core _ (Parcel.containers_subset hkind)
  exact keeps_of_declared core.family hK (Class.mem_ancestry_self _) (List.mem_append_left _ hm)
    (Parcel.name_ne_of_declared _ hkind m hm)

include hcode hreceiver in
/-- The frame of a method runs it on the object of the handle. -/
theorem codeFor_of_container : Call.codeFor s.machine.image m.code kind.cls frame =
    some (Parcel.runMethod (w.handle o.handle).object frame.args op) := by
  rw [hcode, Call.codeFor, hreceiver]
  rfl

include core hkind hm hpublic hcode t ho hstage l hreceiver htaken

/-- **A call whose code returns** answers the value that the result presents. -/
theorem callMethod_returned {ret : Ret} {h' : Heap} {v : HostValue}
    (hrun : Parcel.runMethod (w.handle o.handle).object frame.args op
      (s.machine.env w₁.program.registryView) w₁.heap = .ok ret h')
    (u : kind.Updates (w.roots wrappers) (w.handle o.handle).object
      (frame.owned : Multiset ObjId) a w₁.heap h')
    (hret : ret.Presents (h'.view (w.roots wrappers)) v) :
    ∃ w', s.callMethod o m.hostName args w = .ok v w' ∧
      Tracks K kind w' wrappers (contents.set i a) := by
  have b₁ : Balanced K (frame.owned : Multiset ObjId) w₁ :=
    balanced_of_staged core.family t.balanced l.accounted.staged
  obtain ⟨w', hok, b', hshrinks, hkeeps⟩ := Call.runTrapped_returned core.family .empty b₁
    (standing_of_tracked core t ho hstage l) (keeps_of_container core hkind hm)
    (codeFor_of_container hcode hreceiver) hrun hret
  refine ⟨w', ?_, t.update ⟨l, b₁, b'⟩ htaken hkeeps ho (u.shrinks hshrinks)⟩
  have hcls := (t.owned o (List.mem_of_getElem? ho)).2
  rw [callMethod_staged core hkind hm hpublic hcls hstage, HostM.inFrame_apply, hok]

/-- **A call whose code throws a plain error** at once raises it as a `RuntimeError` and leaves
the contents as they were. -/
theorem callMethod_failed {message : String}
    (hrun : Parcel.runMethod (w.handle o.handle).object frame.args op
        (s.machine.env w₁.program.registryView) w₁.heap =
      NativeM.fail message (s.machine.env w₁.program.registryView) w₁.heap) :
    ∃ w', s.callMethod o m.hostName args w =
        .error ((HostException.native message).withFrame (label kind.cls m.hostName)) w' ∧
      Tracks K kind w' wrappers contents := by
  have b₁ : Balanced K (frame.owned : Multiset ObjId) w₁ :=
    balanced_of_staged core.family t.balanced l.accounted.staged
  obtain ⟨w', herror, b', hshrinks, hkeeps⟩ := Call.runTrapped_failed core.family .empty
    (toHost s.machine) b₁ (standing_of_tracked core t ho hstage l)
    (keeps_of_container core hkind hm) (codeFor_of_container hcode hreceiver) hrun
  refine ⟨w', ?_, t.of_failed ⟨l, b₁, b'⟩ htaken hkeeps hshrinks⟩
  have hcls := (t.owned o (List.mem_of_getElem? ho)).2
  rw [callMethod_staged core hkind hm hpublic hcls hstage, HostM.inFrame_apply, herror,
    HostException.exceptionFor_err]

end Staged

/-! ### New containers -/

section Making

variable {maker : Method} {op : CoreConstructor}

/-- **The constructor of a container** is what makes one. -/
theorem construct_eq (core : s.Core K) (hkind : kind.cls ∈ Parcel.containers)
    (hmaker : kind.cls.maker = some maker) : s.construct kind.cls.name args =
      HostM.inFrame (kind.cls.shortName ++ ".__init__")
        (s.invoke maker kind.cls none args toWrapper) := by
  obtain ⟨hbound, hnearest⟩ := CoreBinding.offers_maker _ hkind
  have hfound : (if CoreBinding.clownfish.isBound kind.cls then
      CoreBinding.clownfish.nearestMaker? kind.cls else none) = some maker := by
    rw [if_pos hbound, hnearest, hmaker]
  have hgot : (HostM.ofExcept (.ok kind.cls) : HostM Class) = pure kind.cls := rfl
  rw [construct, core.fetch _ (Parcel.containers_subset hkind), core.module_eq, hgot, pure_bind]
  simp only [hfound]

/-- The constructors of the containers can be bound. -/
theorem canBeBound_of_maker (hkind : kind.cls ∈ Parcel.containers)
    (hmaker : kind.cls.maker = some maker) : maker.canBeBound = true := by
  have hall : ∀ c ∈ Parcel.containers, ∀ m ∈ c.maker.toList, m.canBeBound = true := by
    decide +kernel
  exact hall _ hkind maker (Option.mem_toList.2 hmaker)

/-- A constructor with a frame runs its code; the exceptions that it raises get a name. -/
theorem construct_staged (core : s.Core K) (hkind : kind.cls ∈ Parcel.containers)
    (hmaker : kind.cls.maker = some maker) (hstage : s.stage maker none args w = .ok frame w₁) :
    s.construct kind.cls.name args w = HostM.inFrame (kind.cls.shortName ++ ".__init__")
      (Call.runTrapped s.machine .empty kind.cls toWrapper maker.code frame) w₁ := by
  rw [construct_eq core hkind hmaker, HostM.inFrame_apply, HostM.inFrame_apply, invoke,
    if_pos (canBeBound_of_maker hkind hmaker), Steps.bind_apply, hstage, core.module_eq,
    CoreBinding.exceptions_eq]

/-- **A constructor that is refused** changes nothing. -/
theorem construct_refused (core : s.Core K) (hkind : kind.cls ∈ Parcel.containers)
    (hmaker : kind.cls.maker = some maker) (t : Tracks K kind w wrappers contents)
    {e : BridgeError} (hstage : s.stage maker none args w = .error (.ofError e) w₁)
    (hstaged : w.Staged 0 w₁) :
    s.construct kind.cls.name args w =
        .error ((HostException.ofError e).withFrame (kind.cls.shortName ++ ".__init__")) w₁ ∧
      Tracks K kind w₁ wrappers contents := by
  refine ⟨?_, t.of_unchanged hstaged.unchanged (balanced_of_staged core.family t.balanced hstaged)⟩
  rw [construct_eq core hkind hmaker, HostM.inFrame_apply, invoke,
    if_pos (canBeBound_of_maker hkind hmaker), Steps.bind_apply, hstage]

variable (core : s.Core K) (hkind : kind.cls ∈ Parcel.containers)
  (hmaker : kind.cls.maker = some maker) (hcode : maker.code = .onClass (.core op))
  (t : Tracks K kind w wrappers contents) (hstage : s.stage maker none args w = .ok frame w₁)
  (l : Staging.Lends w taken ⟨w₁, frame⟩) (htaken : ∀ q ∈ taken, q ∈ w.roots wrappers)

include core hkind hmaker in
/-- The constructors of the containers keep the heap orderly. -/
theorem keeps_of_maker : Keeps core.family kind.cls maker.code := by
  intro frame native start owned hcode _ f hholds
  have hK := core.family.core _ (Parcel.containers_subset hkind)
  exact Family.maker_safely (f := f) core.family hK (Class.mem_ancestry_self _) hmaker hcode hholds

include hcode in
/-- The frame of a constructor runs it with its arguments. -/
theorem codeFor_of_maker : Call.codeFor s.machine.image maker.code kind.cls frame =
    some (Parcel.runConstructor kind.cls frame.args op) := by
  rw [hcode]
  rfl

include core t hstage l in
/-- A constructor asks nothing of its frame. -/
theorem standing_of_maker : frame.Standing kind.cls w₁.heap :=
  standing_of_staged t.balanced (balanced_of_staged core.family t.balanced l.accounted.staged)
    (fun _ ho => absurd ho (by simp)) hstage l.accounted

include core hkind hmaker hcode t hstage l htaken

/-- **A constructor that makes an empty container:** it is tracked beside the others. -/
theorem construct_made {payload : Payload}
    (hrun : Parcel.runConstructor kind.cls frame.args op
        (s.machine.env w₁.program.registryView) w₁.heap =
      .ok (.incremented (w₁.heap.alloc kind.cls payload).1) (w₁.heap.alloc kind.cls payload).2)
    (hrefs : payload.references = []) (hshows : ∀ V, kind.Shows V a payload) :
    ∃ o w', s.construct kind.cls.name args w = .ok o w' ∧
      Tracks K kind w' (wrappers ++ [o]) (contents ++ [a]) := by
  have b₁ : Balanced K (frame.owned : Multiset ObjId) w₁ :=
    balanced_of_staged core.family t.balanced l.accounted.staged
  obtain ⟨o, w', hok, b', hshrinks, hcls, hobject, howned, hkeep, hheld⟩ :=
    Call.runTrapped_made core.family .empty b₁ (standing_of_maker core t hstage l)
      (keeps_of_maker core hkind hmaker) (codeFor_of_maker hcode) hrun
  have hmortal : kind.cls.hasImmortalInstances = false := by
    have hall : ∀ c ∈ Parcel.containers, c.hasImmortalInstances = false := by decide +kernel
    exact hall _ hkind
  rw [Heap.obj_of_get? (Heap.get?_alloc_self _ _)] at hcls
  refine ⟨o, w', ?_, t.extend ⟨l, b₁, b'⟩ htaken hcls hobject howned hkeep hheld hshrinks hrefs
    hmortal hshows⟩
  rw [construct_staged core hkind hmaker hstage, HostM.inFrame_apply, hok]

/-- **A constructor that throws a plain error** at once raises it as a `RuntimeError`. -/
theorem construct_failed {message : String}
    (hrun : Parcel.runConstructor kind.cls frame.args op
        (s.machine.env w₁.program.registryView) w₁.heap =
      NativeM.fail message (s.machine.env w₁.program.registryView) w₁.heap) :
    ∃ w', s.construct kind.cls.name args w =
        .error ((HostException.native message).withFrame (kind.cls.shortName ++ ".__init__")) w' ∧
      Tracks K kind w' wrappers contents := by
  have b₁ : Balanced K (frame.owned : Multiset ObjId) w₁ :=
    balanced_of_staged core.family t.balanced l.accounted.staged
  obtain ⟨w', herror, b', hshrinks, hkeeps⟩ := Call.runTrapped_failed core.family .empty
    toWrapper b₁ (standing_of_maker core t hstage l) (keeps_of_maker core hkind hmaker)
    (codeFor_of_maker hcode) hrun
  refine ⟨w', ?_, t.of_failed ⟨l, b₁, b'⟩ htaken hkeeps hshrinks⟩
  rw [construct_staged core hkind hmaker hstage, HostM.inFrame_apply, herror,
    HostException.exceptionFor_err]

end Making

end Site

end Interop

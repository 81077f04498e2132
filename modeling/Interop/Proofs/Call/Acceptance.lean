/-
# Acceptance of a call

A call has two parts.  `Site.accept` does everything up to the point where the implementation
starts: it looks the class and the name up, takes the reference to the receiver and converts
the arguments.  `Site.enter` runs the native code or the host code that was found.  A call is
the one followed by the other (`Site.performAt_eq`), so a call that fails before its
implementation is entered is one that is not accepted.

**A call that is not accepted leaves no trace** (`Site.perform_of_refused`): what was taken
and made for it is undone, and no machine has anything to say in it.
-/

import Interop.Proofs.Call.Filling
import Interop.Sample.Native

namespace Interop

/-- A call of host code. -/
inductive Request
  | construct (className : String) (args : CallArgs)
  | method (receiver : Wrapper) (name : String) (args : CallArgs)
  | static (className name : String) (args : CallArgs)

namespace Request

/-- The arguments of the call. -/
def args : Request → CallArgs
  | construct _ args => args
  | method _ _ args => args
  | static _ _ args => args

end Request

/-- The implementation that a call is about to enter. -/
inductive Entrance
  /-- A native constructor. -/
  | maker (method : Method) (cls : Class) (frame : Frame)
  /-- A native instance method or inert function. -/
  | native (method : Method) (cls : Class) (frame : Frame)
  /-- Host code. -/
  | custom (run : CustomEntry) (receiver : Wrapper) (args : CallArgs)

/-- A call that was accepted, with the frame that its exceptions pass through. -/
structure Accepted where
  label : String
  entrance : Entrance

namespace Site

variable {α : Type} (s : Site)

/-! ### The two parts -/

/-- Fills the frame of a native call and makes sure that there is code to run with it. -/
def prepare (method : Method) (cls : Class) (receiver : Option Wrapper) (args : CallArgs) :
    HostM Frame :=
  if method.canBeBound then do
    let frame ← s.stage method receiver args
    if (Call.codeFor s.machine.image method.code cls frame).isSome then return frame
    else
      modify (World.releaseAll s.machine frame.owned)
      HostM.refuse (.nativeFailure (cls.name ++ " method called without a receiver"))
  else HostM.refuse (.unbindable method.name)

/-- Does everything about a call but running its implementation. -/
def accept : Request → HostM Accepted
  | .construct className args => do
    let cls ← HostM.ofExcept (s.registry.fetch className)
    match if s.module.isBound cls then s.module.nearestMaker? cls else none with
    | none => HostM.refuse (.methodNotFound cls.name Method.constructorName)
    | some maker =>
      let label := cls.shortName ++ ".__init__"
      HostM.inFrame label do
        return ⟨label, .maker maker cls (← s.prepare maker cls none args)⟩
  | .method o name args =>
    let label := o.cls.shortName ++ "." ++ name
    HostM.inFrame label (match s.module.resolve? o.cls name with
      | some (.custom run) => return ⟨label, .custom run o args⟩
      | some (.method m) => do
        let m := (o.cls.method? m.name).getD m
        return ⟨label, .native m o.cls (← s.prepare m o.cls (some o) args)⟩
      | some (.function m) => return ⟨label, .native m o.cls (← s.prepare m o.cls none args)⟩
      | none => HostM.refuse (.methodNotFound o.cls.name name))
  | .static className name args => do
    let cls ← HostM.ofExcept (s.registry.fetch className)
    let label := cls.shortName ++ "." ++ name
    HostM.inFrame label (match s.module.resolve? cls name with
      | some (.function m) => return ⟨label, .native m cls (← s.prepare m cls none args)⟩
      | _ => HostM.refuse (.methodNotFound cls.name name))

/-- What host code `depth` calls above the limit sees of the module. -/
def view (depth : Nat) : ModuleView where
  machine := s.machine
  registry := s.registry
  exceptions := s.module.exceptions
  construct := s.construct
  callMethod := s.callMethodAt depth
  callStatic := s.callStatic

/-- Runs the implementation of a call that was accepted. -/
def enter (depth : Nat) (a : Accepted) : HostM HostValue :=
  HostM.inFrame a.label (match a.entrance with
    | .maker method cls frame => do
      let o ←
        Call.runTrapped s.machine s.module.exceptions cls Conversion.toWrapper method.code frame
      return .object o
    | .native method cls frame =>
      Call.runTrapped s.machine s.module.exceptions cls (Conversion.toHost s.machine) method.code
        frame
    | .custom run o args => run (s.view depth) o args)

/-- A call from host code that may nest `depth` calls more; a new object is answered as a
value. -/
def performAt (depth : Nat) : Request → HostM HostValue
  | .construct className args => return .object (← s.construct className args)
  | .method o name args => s.callMethodAt (depth + 1) o name args
  | .static className name args => s.callStatic className name args

/-! ### A call is the one followed by the other -/

/-- A call prepares a frame and then runs the code in it. -/
theorem invoke_eq (method : Method) (cls : Class) (receiver : Option Wrapper) (args : CallArgs)
    (convert : Ret → CheckM α) :
    s.invoke method cls receiver args convert = s.prepare method cls receiver args >>= fun frame =>
      Call.runTrapped s.machine s.module.exceptions cls convert method.code frame := by
  funext w
  simp only [invoke, prepare]
  split_ifs with hbound
  · simp only [Steps.bind_apply]
    rcases s.stage method receiver args w with ⟨frame, w'⟩ | ⟨e, w'⟩
    · rcases hcode : Call.codeFor s.machine.image method.code cls frame with _ | native
      · simp only [hcode, Call.runTrapped]
        rfl
      · simp only [hcode, Option.isSome_some, if_true, Steps.pure_apply]
    · rfl
  · rfl

/-- A native call that returns what it converts. -/
theorem inFrame_invoke (label : String) (method : Method) (cls : Class) (receiver : Option Wrapper)
    (args : CallArgs) (depth : Nat) :
    HostM.inFrame label (s.invoke method cls receiver args (Conversion.toHost s.machine)) =
      HostM.inFrame label (do
        return ⟨label, .native method cls (← s.prepare method cls receiver args)⟩) >>=
        s.enter depth := by
  funext w
  simp only [invoke_eq, HostM.inFrame_apply, Steps.bind_apply]
  rcases s.prepare method cls receiver args w with ⟨frame, w'⟩ | ⟨e, w'⟩ <;> rfl

/-- **Every call is accepted or refused, and then entered.** -/
theorem performAt_eq (depth : Nat) (r : Request) :
    s.performAt depth r = s.accept r >>= s.enter depth := by
  -- what a call does until its frame stands is `accept`, and the rest is `enter`
  cases r with
  | construct className args =>
    funext w
    simp only [performAt, accept, construct]
    rcases s.registry.fetch className with e | cls
    · rfl
    rcases hmaker : (if s.module.isBound cls then s.module.nearestMaker? cls else none) with
      _ | maker
    · simp [HostM.ofExcept, hmaker]
    · simp only [HostM.ofExcept, Steps.bind_apply, Steps.pure_apply, hmaker, invoke_eq,
        HostM.inFrame_apply]
      rcases s.prepare maker cls none args w with ⟨frame, w'⟩ | ⟨e, w'⟩
      · simp only [enter, HostM.inFrame_apply, Steps.bind_apply, Steps.pure_apply]
        rcases Call.runTrapped s.machine s.module.exceptions cls Conversion.toWrapper maker.code
          frame w' with ⟨o, w''⟩ | ⟨e, w''⟩ <;> rfl
      · rfl
  | method o name args =>
    simp only [performAt, accept, callMethodAt]
    rcases s.module.resolve? o.cls name with _ | ⟨m | m | run⟩
    · rfl
    · exact s.inFrame_invoke _ _ _ _ _ depth
    · exact s.inFrame_invoke _ _ _ _ _ depth
    · rfl
  | static className name args =>
    funext w
    simp only [performAt, accept, callStatic]
    rcases s.registry.fetch className with e | cls
    · rfl
    simp only [HostM.ofExcept, Steps.bind_apply, Steps.pure_apply]
    rcases s.module.resolve? cls name with _ | ⟨m | m | run⟩
    · rfl
    · rfl
    · exact congrFun (s.inFrame_invoke _ _ _ _ _ depth) w
    · rfl

end Site

/-! ### What a refusal leaves -/

/-- The two worlds have the same handles, the same program and the same objects. -/
structure World.Unchanged (w w' : World) : Prop where
  handles_eq : w'.handles = w.handles
  program_eq : w'.program = w.program
  heap_same : Heap.Same w.heap w'.heap

/-- When nothing of what was taken is owned any more, nothing is left of it. -/
theorem World.Staged.unchanged {w w' : World} (s : w.Staged 0 w') : w.Unchanged w' :=
  ⟨s.handles_eq, s.program_eq, s.ledger.same_of_temporary s.transient fun _ hq =>
    absurd hq (Multiset.notMem_zero _)⟩

/-- What an entrance holds accounts for everything since `w₀`. -/
def Entrance.Accounted (w₀ w : World) : Entrance → Prop
  | .maker _ _ frame => Staging.Accounted w₀ ⟨w, frame⟩
  | .native _ _ frame => Staging.Accounted w₀ ⟨w, frame⟩
  | .custom _ _ _ => w = w₀

/-- The step `x` ends in the same way on every machine: with `post`, or refused and with
nothing owned. -/
def Decides (w₀ : World) {α : Type} (post : α → World → Prop) (x : Machine → HostM α) : Prop :=
  ∃ r : EStateM.Result HostException World α, (∀ m, x m w₀ = r) ∧
    match r with
    | .ok a w => post a w
    | .error _ w => w₀.Staged 0 w

namespace Decides

variable {w₀ : World} {α β : Type} {post : α → World → Prop} {post' : β → World → Prop}
  {x : Machine → HostM α}

/-- A value decides at once. -/
theorem pure {a : α} (h : post a w₀) : Decides w₀ post (fun _ => pure a) :=
  ⟨.ok a w₀, fun _ => rfl, h⟩

/-- A refusal decides at once. -/
theorem refuse (e : BridgeError) : Decides w₀ post (fun _ => HostM.refuse e) :=
  ⟨.error (.ofError e) w₀, fun _ => rfl, .refl w₀⟩

/-- A value that was looked up before. -/
theorem ofExcept {y : Except BridgeError β} {f : Machine → β → HostM α}
    (h : ∀ b, Decides w₀ post (fun m => f m b)) :
    Decides w₀ post (fun m => HostM.ofExcept y >>= f m) := by
  rcases y with e | b
  · exact .refuse e
  · exact h b

/-- What is decided stays decided when the answer is changed. -/
theorem map {f : α → β} (hx : Decides w₀ post x) (hf : ∀ a w, post a w → post' (f a) w) :
    Decides w₀ post' (fun m => do return f (← x m)) := by
  obtain ⟨r, hr, hs⟩ := hx
  rcases r with ⟨a, w⟩ | ⟨e, w⟩
  · refine ⟨.ok (f a) w, fun m => ?_, hf a w hs⟩
    show (x m >>= fun a => Pure.pure (f a)) w₀ = _
    rw [Steps.bind_apply, hr]
    rfl
  · refine ⟨.error e w, fun m => ?_, hs⟩
    show (x m >>= fun a => Pure.pure (f a)) w₀ = _
    rw [Steps.bind_apply, hr]

/-- What is decided stays decided within a frame of the traceback. -/
theorem inFrame (label : String) (hx : Decides w₀ post x) :
    Decides w₀ post (fun m => HostM.inFrame label (x m)) := by
  obtain ⟨r, hr, hs⟩ := hx
  rcases r with ⟨a, w⟩ | ⟨e, w⟩
  · refine ⟨.ok a w, fun m => ?_, hs⟩
    show HostM.inFrame label (x m) w₀ = _
    rw [HostM.inFrame_apply, hr]
  · refine ⟨.error (e.withFrame label) w, fun m => ?_, hs⟩
    show HostM.inFrame label (x m) w₀ = _
    rw [HostM.inFrame_apply, hr]

end Decides

namespace Site

variable {w₀ : World} (registry : Registry) (module : Module)

/-- Whether there is code to run is a matter of the method and the receiver. -/
theorem codeFor_isSome (image image' : Image) (code : Code) (cls : Class) (frame : Frame) :
    (Call.codeFor image code cls frame).isSome = (Call.codeFor image' code cls frame).isSome := by
  cases code <;> simp [Call.codeFor]

/-- A frame that is ready accounts for everything. -/
theorem prepare_decides (g : w₀.Grounded) (method : Method) (cls : Class)
    (receiver : Option Wrapper) {args : CallArgs} (hargs : args.WellFormed) :
    Decides w₀ (fun frame w => Staging.Accounted w₀ ⟨w, frame⟩)
      (fun m => (Site.mk m registry module).prepare method cls receiver args) := by
  simp only [prepare]
  split_ifs
  · obtain ⟨r, hr, hs⟩ := stage_accounted g registry module method receiver hargs
    rcases r with ⟨frame, w⟩ | ⟨e, w⟩
    · obtain ⟨w', hall, hw⟩ := World.Staged.releaseAll frame.owned
        ((add_zero (frame.owned : Multiset ObjId)).symm ▸ hs.staged)
      have hsome := fun image => codeFor_isSome image .idle method.code cls frame
      rcases hcode : (Call.codeFor .idle method.code cls frame).isSome with _ | _
      · refine ⟨.error (.ofError (.nativeFailure (cls.name ++ " method called without a receiver")))
          w', fun m => ?_, hw⟩
        simp only [Steps.bind_apply, hr, hsome, hcode]
        simp [hall]
      · refine ⟨.ok frame w, fun m => ?_, hs⟩
        simp only [Steps.bind_apply, hr, hsome, hcode]
        rfl
    · refine ⟨.error e w, fun m => ?_, hs⟩
      simp only [Steps.bind_apply, hr]
  · exact .refuse _

/-- **Acceptance** ends in the same way on every machine; when it ends with a refusal nothing
is owned. -/
theorem accept_decides (g : w₀.Grounded) {r : Request} (hargs : r.args.WellFormed) :
    Decides w₀ (fun a w => a.entrance.Accounted w₀ w)
      (fun m => (Site.mk m registry module).accept r) := by
  cases r with
  | construct className args =>
    simp only [accept]
    refine Decides.ofExcept fun cls => ?_
    rcases (if module.isBound cls then module.nearestMaker? cls else none) with _ | maker
    · exact .refuse _
    · exact ((prepare_decides registry module g maker cls none hargs).map fun _ _ h => h).inFrame _
  | method o name args =>
    simp only [accept]
    refine Decides.inFrame _ ?_
    rcases module.resolve? o.cls name with _ | ⟨m | m | run⟩
    · exact .refuse _
    · exact (prepare_decides registry module g _ _ _ hargs).map fun _ _ h => h
    · exact (prepare_decides registry module g _ _ _ hargs).map fun _ _ h => h
    · exact .pure rfl
  | static className name args =>
    simp only [accept]
    refine Decides.ofExcept fun cls => Decides.inFrame _ ?_
    rcases module.resolve? cls name with _ | ⟨m | m | run⟩
    · exact .refuse _
    · exact .refuse _
    · exact (prepare_decides registry module g _ _ _ hargs).map fun _ _ h => h
    · exact .refuse _

/-- **A call that is not accepted leaves no trace.** On every machine it ends with the same
refusal in the same world, so no native code but teardown by the core parcel has run; and
that world has the same objects, handles and program as before. -/
theorem perform_of_refused {r : Request} {w w' : World} {e : HostException} (g : w.Grounded)
    (hargs : r.args.WellFormed) {m : Machine}
    (h : (Site.mk m registry module).accept r w = .error e w') :
    w.Unchanged w' ∧
      ∀ (m : Machine) depth, (Site.mk m registry module).performAt depth r w = .error e w' := by
  obtain ⟨res, hall, hs⟩ := accept_decides registry module g hargs
  have hres := (hall m).symm.trans h
  subst hres
  refine ⟨World.Staged.unchanged hs, fun m depth => ?_⟩
  rw [performAt_eq, Steps.bind_apply]
  have hrun := hall m
  simp only at hrun
  rw [hrun]

end Site

/-! ### A vector and a released text -/

namespace Sample

/-- The method that appends to a vector. -/
def pushMethod : Method :=
  Parcel.method "Push" .void [("element", Parcel.maybeObject)] .vectorPush

/-- A module that offers one method of vectors. -/
def vectorSite : Site :=
  ⟨machine, Parcel.registry, ⟨"sample", [⟨Parcel.vector, none, [("push", .method pushMethod)]⟩],
    .empty⟩⟩

/-- A list whose last element is released is refused after two of its elements were made. -/
def releasedRequest : Request :=
  .method ⟨⟨0⟩, Parcel.vector⟩ "push"
    ⟨[.list [.str "a", .dict [("k", .int 3)], .object ⟨⟨1⟩, Parcel.string⟩]], []⟩

/-- A call on a released handle is refused and leaves the example world as it was. -/
theorem releasedRequest_unchanged :
    ∃ e w', vectorSite.accept releasedRequest vectorWorld = .error e w' ∧
      vectorWorld.Unchanged w' := by
  have hargs : releasedRequest.args.WellFormed := by
    refine ⟨fun v hv => ?_, fun e he => absurd he List.not_mem_nil⟩
    obtain rfl := List.mem_singleton.1 hv
    exact ⟨trivial, ⟨List.pairwise_singleton _ _, trivial, trivial⟩, trivial, trivial⟩
  exact ⟨_, _, rfl, (Site.perform_of_refused vectorSite.registry vectorSite.module
    vectorWorld_grounded hargs rfl).1⟩

end Sample

end Interop

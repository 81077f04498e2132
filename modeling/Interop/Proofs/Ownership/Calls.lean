/-
# Calls keep the balance

A call takes a reference to its receiver and makes objects for its arguments, all of which
its frame owns; it runs native code; it converts what that code returns or throws; and it
gives back what the frame owns.  When the code can be trusted, the world is balanced before
and after, whether the call is rejected, throws or succeeds (`Site.invoke_leads`).

For the methods that a module with honest tables finds in a family of classes the code can
be trusted, so the three calls of host code keep the balance (`Site.construct_leads`,
`Site.callMethod_leads`, `Site.callStatic_leads`).
-/

import Interop.Proofs.Binding.Emitted
import Interop.Proofs.Call.Filling
import Interop.Proofs.Ownership.Results

namespace Interop

/-! ### The receiver in a frame -/

/-- When the step succeeds, the frame has the receiver that it had before. -/
def StageM.KeepsReceiver {α : Type} (x : StageM α) : Prop :=
  ∀ s a s', x s = .ok a s' → s'.frame.receiver = s.frame.receiver

namespace StageM.KeepsReceiver

variable {α β : Type}

/-- A value keeps the receiver. -/
theorem pure (a : α) : KeepsReceiver (pure a : StageM α) := by
  intro s b s' h
  obtain ⟨-, rfl⟩ := EStateM.Result.ok.inj h
  rfl

/-- A failure keeps the receiver. -/
theorem throw (e : BridgeError) : KeepsReceiver (throw e : StageM α) :=
  fun _ _ _ h => absurd h (by simp)

/-- Reading the state keeps the receiver. -/
theorem get : KeepsReceiver (get : StageM Staging) := by
  intro s b s' h
  obtain ⟨-, rfl⟩ := EStateM.Result.ok.inj h
  rfl

/-- Pushing an argument keeps the receiver. -/
theorem push (arg : Arg) : KeepsReceiver (StageM.push arg) := by
  intro s b s' h
  obtain ⟨-, rfl⟩ := EStateM.Result.ok.inj h
  rfl

/-- Adopting an object keeps the receiver. -/
theorem adopt (p : ObjId) : KeepsReceiver (StageM.adopt p) := by
  intro s b s' h
  obtain ⟨-, rfl⟩ := EStateM.Result.ok.inj h
  rfl

/-- A step of the world keeps the receiver. -/
theorem lift (x : CheckM α) : KeepsReceiver (StageM.lift x) := by
  intro s a s' h
  obtain ⟨world, -, rfl⟩ := StageM.lift_ok h
  rfl

/-- Two steps that each keep the receiver keep it together. -/
theorem bind {x : StageM α} {f : α → StageM β} (hx : KeepsReceiver x)
    (hf : ∀ a, KeepsReceiver (f a)) : KeepsReceiver (x >>= f) := by
  intro s b s' h
  obtain ⟨a, s₁, hxa, hfa⟩ := Steps.bind_ok h
  rw [hf a s₁ b s' hfa, hx s a s₁ hxa]

end StageM.KeepsReceiver

namespace Conversion

open StageM

/-- A wrapper in the place of a text keeps the receiver. -/
theorem keepsReceiver_pushWrappedText (param : Param) (v : HostValue) (o : Wrapper) :
    KeepsReceiver (pushWrappedText param v o) := by
  refine (KeepsReceiver.lift _).bind fun p => (KeepsReceiver.adopt p).bind fun _ => ?_
  refine KeepsReceiver.get.bind fun s => ?_
  split_ifs
  · exact .push _
  · exact .throw _

/-- An object argument keeps the receiver. -/
theorem keepsReceiver_pushObject (m : Machine) (registry : Registry) (param : Param)
    (constraint : Option String) (v : HostValue) :
    KeepsReceiver (pushObject m registry param constraint v) := by
  refine (KeepsReceiver.lift _).bind fun q => ?_
  rcases q with _ | p
  · exact .throw _
  refine (KeepsReceiver.adopt p).bind fun _ => ?_
  rcases constraint with _ | name
  · exact .push _
  dsimp only
  rcases registry.fetch name with e | c
  · exact .throw e
  refine KeepsReceiver.get.bind fun s => ?_
  split_ifs
  · exact .push _
  · exact .throw _

/-- One argument keeps the receiver. -/
theorem keepsReceiver_pushArg (m : Machine) (registry : Registry) (param : Param)
    (v : HostValue) : KeepsReceiver (pushArg m registry param v) := by
  unfold pushArg
  split_ifs
  · exact .push _
  · exact .throw _
  · split
    · exact .push _
    · split_ifs
      · exact .push _
      · exact .throw _
    · exact .push _
    · exact .push _
    · exact (KeepsReceiver.lift _).bind fun p => (KeepsReceiver.adopt p).bind fun _ => .push _
    · exact keepsReceiver_pushWrappedText param _ _
    · exact keepsReceiver_pushObject m registry param _ _
    · exact .throw _
    · exact .throw _

/-- The slots of a call keep the receiver. -/
theorem keepsReceiver_pushSlots (m : Machine) (registry : Registry) (missing : BridgeError) :
    ∀ slots : List (Param × Option HostValue), KeepsReceiver (pushSlots m registry missing slots)
  | [] => .pure _
  | (param, some v) :: rest =>
    (keepsReceiver_pushArg m registry param v).bind fun _ =>
      keepsReceiver_pushSlots m registry missing rest
  | (param, none) :: rest => by
    unfold pushSlots
    split_ifs
    · exact (KeepsReceiver.push _).bind fun _ => keepsReceiver_pushSlots m registry missing rest
    · exact .throw _

/-- **Arguments leave the receiver alone.** -/
theorem keepsReceiver_pushArgs (m : Machine) (registry : Registry) (method : Method)
    (args : CallArgs) : KeepsReceiver (pushArgs m registry method args) := by
  unfold pushArgs
  split
  · exact .throw _
  · exact keepsReceiver_pushSlots m registry _ _

end Conversion

namespace Site

variable {s : Site} {method : Method} {receiver : Option Wrapper} {args : CallArgs}
  {w w' : World} {frame : Frame}

/-- Only an instance method that is called on an object gets a receiver: the object of the
handle, which owns a reference. -/
theorem pushReceiver_ok {s₁ : Staging} (h : pushReceiver method receiver ⟨w, .empty⟩ = .ok () s₁) :
    (s₁.frame.receiver = none ∧ (receiver = none ∨ method.kind ≠ .instanceMethod)) ∨
      ∃ o, receiver = some o ∧ (w.handle o.handle).owned = true ∧
        s₁.frame.receiver = some (w.handle o.handle).object := by
  have hnone : ∀ {x : StageM Unit}, x ⟨w, .empty⟩ = .ok () s₁ → x = pure () →
      s₁.frame.receiver = none := by
    rintro x hx rfl
    obtain ⟨-, rfl⟩ := EStateM.Result.ok.inj hx
    rfl
  rcases receiver with _ | o
  · exact Or.inl ⟨hnone h rfl, Or.inl rfl⟩
  unfold pushReceiver at h
  rcases hcode : method.code with routine | routine | routine <;> simp only [hcode] at h
  case onClass => exact Or.inl ⟨hnone h rfl, Or.inr (by simp [Method.kind, hcode, Code.kind])⟩
  case onNothing => exact Or.inl ⟨hnone h rfl, Or.inr (by simp [Method.kind, hcode, Code.kind])⟩
  case onObject =>
    obtain ⟨p, s₂, hlift, hset⟩ := Steps.bind_ok h
    obtain ⟨world, hretain, rfl⟩ := StageM.lift_ok hlift
    obtain ⟨-, rfl⟩ := EStateM.Result.ok.inj hset
    rw [Handle.retain_apply] at hretain
    split_ifs at hretain with howned
    refine Or.inr ⟨o, rfl, howned, ?_⟩
    dsimp only at hretain
    rcases hr : w.heap.retain (w.handle o.handle).object with e | heap <;> rw [hr] at hretain
    · exact absurd hretain (by simp)
    · exact congrArg some (EStateM.Result.ok.inj hretain).1.symm

/-- **The receiver in a frame** is the one that was installed before the arguments. -/
theorem stage_pushed (h : s.stage method receiver args w = .ok frame w') :
    ∃ s₁, pushReceiver method receiver ⟨w, .empty⟩ = .ok () s₁ ∧
      frame.receiver = s₁.frame.receiver := by
  unfold stage at h
  rcases hfill : s.fillFrame method receiver args ⟨w, .empty⟩ with ⟨u, done⟩ | ⟨e, done⟩ <;>
    rw [hfill] at h
  swap
  · exact absurd h (by simp)
  obtain ⟨rfl, -⟩ := EStateM.Result.ok.inj h
  obtain ⟨_, s₁, hreceiver, hargs⟩ := Steps.bind_ok hfill
  exact ⟨s₁, hreceiver, Conversion.keepsReceiver_pushArgs _ _ _ _ s₁ u done hargs⟩

/-- **A receiver in a frame** is the object of a handle that owns a reference. -/
theorem stage_receiver (h : s.stage method receiver args w = .ok frame w') {p : ObjId}
    (hp : frame.receiver = some p) :
    ∃ o, receiver = some o ∧ (w.handle o.handle).owned = true ∧ (w.handle o.handle).object = p := by
  obtain ⟨s₁, hreceiver, hframe⟩ := stage_pushed h
  rw [hframe] at hp
  rcases pushReceiver_ok hreceiver with ⟨hnone, -⟩ | ⟨o, ho, howned, hsome⟩
  · exact absurd (hnone.symm.trans hp) (by simp)
  · exact ⟨o, ho, howned, Option.some.inj (hsome.symm.trans hp)⟩

/-- **The frame of an instance method** that is called on an object holds the object. -/
theorem receiver_of_stage {o : Wrapper} (h : s.stage method (some o) args w = .ok frame w')
    (hkind : method.kind = .instanceMethod) :
    frame.receiver = some (w.handle o.handle).object := by
  obtain ⟨s₁, hreceiver, hframe⟩ := stage_pushed h
  rw [hframe]
  rcases pushReceiver_ok hreceiver with ⟨-, hnone | hother⟩ | ⟨o', ho, -, hsome⟩
  · exact absurd hnone (by simp)
  · exact absurd hkind hother
  · obtain rfl := Option.some.inj ho
    exact hsome

end Site

/-! ### Running code -/

open World

section Running

variable {machine : Machine} {K : Class → Prop} {extra : Multiset ObjId} {w : World}
  {frame : Frame} {native : NativeM Ret} {cls : Class} {code : Code} {α : Type}

/-- What a converter of results has to do: whatever the result, it takes care of the
reference that the result hands over. -/
def Settles (K : Class → Prop) (convert : Ret → CheckM α) : Prop :=
  ∀ (extra : Multiset ObjId) (ret : Ret) (w : World), Conversion.Received K extra ret w →
    Leads (fun _ => Balanced K extra) (Balanced K extra) (convert ret) w

/-- Native code keeps the heap orderly wherever it starts with a frame that stands. -/
def Keeps (fam : Family machine K) (cls : Class) (code : Code) : Prop :=
  ∀ (frame : Frame) (native : NativeM Ret) (start : Heap) (owned : Multiset ObjId),
    Call.codeFor machine.image code cls frame = some native → frame.Standing cls start →
    let f : Footing := ⟨machine, K, fam.core, start, owned⟩
    f.Holds owned start → f.Safely f.Returned native start

/-- What a result hands over is owned beside `extra`. -/
theorem Call.received_of_returned (fam : Family machine K) (b : Balanced K extra w) {ret : Ret}
    {h' : Heap} (hret : let f : Footing := ⟨machine, K, fam.core, w.heap, extra + w.held⟩
      f.Returned ret h') : Conversion.Received K extra ret (w.settle h') := by
  have hmoves : ∀ handed, Heap.Moves K w.heap (handed + (extra + w.held)) h' →
      Balanced K (handed + extra) (w.settle h') := fun handed m =>
    b.of_moves rfl ((add_assoc handed extra w.held).symm ▸ m)
  have hnone : Heap.Moves K w.heap (extra + w.held) h' →
      Balanced K (0 + extra) (w.settle h') := fun m =>
    hmoves 0 ((zero_add (extra + w.held)).symm ▸ m)
  cases ret with
  | incremented p => exact ⟨hmoves {p} hret, fun q hq => absurd hq (by simp)⟩
  | borrowed p =>
    refine ⟨hnone hret.1, fun q hq => ?_⟩
    obtain rfl := Ret.borrowed.inj hq
    exact hret.2
  | _ => exact ⟨hnone hret, fun q hq => absurd hq (by simp)⟩

/-- What is thrown is owned beside `extra`. -/
theorem Call.balanced_of_thrown (b : Balanced K extra w) {p : ObjId} {h' : Heap}
    (m : Heap.Moves K w.heap (p ::ₘ (extra + w.held)) h') :
    Balanced K (p ::ₘ extra) (w.settle h') := by
  refine b.of_moves rfl ?_
  rw [Multiset.cons_add]
  exact m

/-- **Running native code:** its outcome is settled. -/
theorem Call.runCode_leads (fam : Family machine K) (exceptions : ExceptionMap)
    {convert : Ret → CheckM α} (hconvert : Settles K convert) (b : Balanced K extra w)
    (hsafe : let f : Footing := ⟨machine, K, fam.core, w.heap, extra + w.held⟩
      f.Safely f.Returned native w.heap) :
    Leads (fun _ => Balanced K extra) (Balanced K extra)
      (Call.runCode machine exceptions convert native) w := by
  have hrun := hsafe w.program.registryView
  unfold Leads Call.runCode World.runNative
  rcases hend : native (machine.env w.program.registryView) w.heap with ⟨ret, h'⟩ | ⟨t, h'⟩ <;>
    rw [hend] at hrun
  · exact (hconvert extra ret _ (Call.received_of_returned fam b hrun)).check
  · exact exceptions.toException_balanced machine (Call.balanced_of_thrown b hrun)

/-- **A trapped call:** afterwards the references of the frame are given back. -/
theorem Call.runTrapped_leads (fam : Family machine K) (exceptions : ExceptionMap)
    {convert : Ret → CheckM α} (hconvert : Settles K convert)
    (b : Balanced K (frame.owned : Multiset ObjId) w) (hstands : frame.Standing cls w.heap)
    (hkeeps : Keeps fam cls code) :
    Leads (fun _ => Balanced K 0) (Balanced K 0)
      (Call.runTrapped machine exceptions cls convert code frame) w := by
  have hclean : ∀ w', Balanced K (frame.owned : Multiset ObjId) w' →
      Balanced K 0 (w'.releaseAll machine frame.owned) := fun w' b' =>
    Balanced.releaseAll frame.owned ((add_zero (frame.owned : Multiset ObjId)).symm ▸ b') machine
  unfold Call.runTrapped
  rcases hcode : Call.codeFor machine.image code cls frame with _ | native
  · exact Leads.closing (Q := Balanced K frame.owned) (.throw b) hclean
  · refine Leads.closing (Q := Balanced K frame.owned) ?_ hclean
    exact Call.runCode_leads fam exceptions hconvert b
      (hkeeps frame native w.heap _ hcode hstands b.moves_refl)

end Running

namespace Site

variable {s : Site} {K : Class → Prop} {w : World} {method : Method} {cls : Class} {α : Type}
  {args : CallArgs}

/-- What was made for the arguments is of classes of the core parcel. -/
theorem balanced_of_staged (fam : Family s.machine K) (b : Balanced K 0 w) {w' : World}
    {owned : Multiset ObjId} (hs : w.Staged owned w') : Balanced K owned w' := by
  refine b.of_moves hs.handles_eq ?_
  have m := b.moves_refl.added hs.ledger fun p o hn ho => ?_
  · rw [zero_add] at m
    exact m
  · have htemp := hs.transient p o hn ho
    have hhome : o.payload.home ∈ Parcel.classes := by
      cases o.payload <;> simp [Payload.home, Parcel.classes]
    refine ⟨?_, ?_, fun _ => htemp.referenced⟩
    · rw [htemp.home]
      exact fam.core _ hhome
    · rw [htemp.home]
      exact .self hhome

/-- The objects in a frame that was staged are there, and the receiver is of the class of its
handle. -/
theorem standing_of_staged (b : Balanced K 0 w) {frame : Frame} {w₁ : World}
    {receiver : Option Wrapper} (b₁ : Balanced K (frame.owned : Multiset ObjId) w₁)
    (hreceiver : ∀ o, receiver = some o → (w.handle o.handle).cls = cls)
    (hstage : s.stage method receiver args w = .ok frame w₁)
    (hframe : Staging.Accounted w ⟨w₁, frame⟩) : frame.Standing cls w₁.heap := by
  constructor
  case receiver =>
    intro p hp
    obtain ⟨o, rfl, howned, rfl⟩ := stage_receiver hstage hp
    obtain ⟨x, hx, hcls⟩ := b.cls_eq o.handle howned
    obtain ⟨count, hc, -⟩ := hframe.staged.ledger.kept _ x hx
    refine ⟨_, hc, ?_⟩
    show cls ∈ x.cls.ancestry
    rw [hcls, hreceiver o rfl]
    exact Class.mem_ancestry_self cls
  case args =>
    intro p hp
    exact b₁.orderly.get?_of_mem
      (Multiset.mem_add.2 (Or.inl (Multiset.mem_coe.2 (hframe.args_mem p hp))))

/-- **A call of native code keeps the balance,** whether it is rejected, throws or
succeeds. -/
theorem invoke_leads (fam : Family s.machine K) (b : Balanced K 0 w) (receiver : Option Wrapper)
    (hreceiver : ∀ o, receiver = some o → (w.handle o.handle).cls = cls)
    (hargs : args.WellFormed) {convert : Ret → CheckM α} (hconvert : Settles K convert)
    (hkeeps : Keeps fam cls method.code) :
    Leads (fun _ => Balanced K 0) (Balanced K 0) (s.invoke method cls receiver args convert) w := by
  unfold invoke
  split_ifs
  swap
  · exact .throw b
  refine .bind ?_
  obtain ⟨r, hr, hs⟩ := stage_accounted b.grounded s.registry s.module method receiver hargs
  unfold Leads
  rcases hstage : s.stage method receiver args w with ⟨frame, w₁⟩ | ⟨e, w₁⟩
  · obtain rfl := (hr s.machine).symm.trans hstage
    have hframe : Staging.Accounted w ⟨w₁, frame⟩ := hs
    have b₁ := balanced_of_staged fam b hframe.staged
    have hstands := standing_of_staged b b₁ hreceiver hstage hframe
    exact Call.runTrapped_leads fam s.module.exceptions hconvert b₁ hstands hkeeps
  · obtain rfl := (hr s.machine).symm.trans hstage
    exact balanced_of_staged fam b hs

/-! ### The calls of host code -/

/-- Answering a result takes care of the reference that it hands over. -/
theorem settles_toHost (m : Machine) : Settles K (Conversion.toHost m) :=
  fun _ _ _ r => Conversion.toHost_leads m r

/-- Wrapping a result takes care of the reference that it hands over. -/
theorem settles_toWrapper : Settles K Conversion.toWrapper :=
  fun _ _ _ r => Conversion.toWrapper_leads r

/-- What was looked up before a call. -/
theorem leads_ofExcept {β : Type} {x : Except BridgeError α} {f : α → HostM β} (b : Balanced K 0 w)
    (hf : ∀ a, x = .ok a → Leads (fun _ => Balanced K 0) (Balanced K 0) (f a) w) :
    Leads (fun _ => Balanced K 0) (Balanced K 0) (HostM.ofExcept x >>= f) w := by
  rcases x with e | a
  · exact .bind (.throw b)
  · exact .bind (.pure (hf a rfl))

/-- **Host code of the core parcel** keeps the balance. -/
theorem custom_leads {run : CustomEntry}
    (hrun : run = CoreBinding.isA ∨ run = CoreBinding.decRefcount) (b : Balanced K 0 w)
    (view : ModuleView) (o : Wrapper) (args : CallArgs) :
    Leads (fun _ => Balanced K 0) (Balanced K 0) (run view o args) w := by
  rcases hrun with rfl | rfl
  · exact leads_ofExcept b fun _ _ => .bind (leads_ofExcept b fun _ _ => .pure b)
  · exact leads_ofExcept b fun _ _ =>
      .bind ((b.release_leads view.machine).check.mono fun _ _ b' => .pure b')

/-- The method that an instance method stands for in the class of a receiver is declared in
the ancestry of that class. -/
theorem override_declared (fam : Family s.machine K) (hK : K cls) {a : Class}
    (ha : a ∈ cls.ancestry) (hm : method ∈ a.ownMethods) :
    ∃ a ∈ cls.ancestry, (cls.method? method.name).getD method ∈ a.ownMethods ∧
      ((cls.method? method.name).getD method).name = method.name := by
  rcases hover : cls.method? method.name with _ | m
  · exact ⟨a, ha, hm, rfl⟩
  · obtain ⟨root, hoff⟩ := (fam.trusted cls hK).offspring
    obtain ⟨hname, c, hc, hmc⟩ := hoff.declared_of_method? hover
    exact ⟨c, hc, List.mem_append_left _ hmc, hname⟩

/-- The code that an ancestor declares keeps the heap orderly, with one exception. -/
theorem keeps_of_declared (fam : Family s.machine K) (hK : K cls) {a : Class}
    (ha : a ∈ cls.ancestry) (hm : method ∈ a.ownMethods) (hname : method.name ≠ "Dec_RefCount") :
    Keeps fam cls method.code := by
  intro frame native start owned hcode hstands f hholds
  exact Family.method_safely (f := f) fam hK ha hm hname hcode hholds hstands

/-- **Constructing an object** keeps the balance. -/
theorem construct_leads (fam : Family s.machine K) (honest : ∀ t ∈ s.module.tables, t.Honest)
    (hplay : ∀ name c, s.registry.fetch name = .ok c → s.module.isBound c = true → K c)
    (b : Balanced K 0 w) (className : String) (hargs : args.WellFormed) :
    Leads (fun _ => Balanced K 0) (Balanced K 0) (s.construct className args) w := by
  refine leads_ofExcept b fun cls hfetch => ?_
  dsimp only
  rcases hmaker : (if s.module.isBound cls then s.module.nearestMaker? cls else none) with
    _ | maker
  · exact .throw b
  · split_ifs at hmaker with hbound
    have hK := hplay className cls hfetch hbound
    obtain ⟨a, ha, hown⟩ := Module.nearestMaker?_ok (fun t ht => (honest t ht).maker_eq) hmaker
    refine .inFrame _ (invoke_leads fam b none (fun o ho => absurd ho (by simp)) hargs
      settles_toWrapper ?_)
    intro frame native start owned hcode _ f hholds
    exact Family.maker_safely (f := f) fam hK ha hown hcode hholds

/-- **Calling a function** keeps the balance. -/
theorem callStatic_leads (fam : Family s.machine K) (honest : ∀ t ∈ s.module.tables, t.Honest)
    (hplay : ∀ name c, s.registry.fetch name = .ok c → s.module.isBound c = true → K c)
    (b : Balanced K 0 w) (className name : String) (hargs : args.WellFormed) :
    Leads (fun _ => Balanced K 0) (Balanced K 0) (s.callStatic className name args) w := by
  refine leads_ofExcept b fun cls hfetch => .inFrame _ ?_
  rcases hentry : s.module.resolve? cls name with _ | ⟨m | m | run⟩
  · exact .throw b
  · exact .throw b
  · have hK := hplay className cls hfetch (Module.isBound_of_resolve? hentry)
    obtain ⟨t, ht, ha, he⟩ := Module.resolve?_ok hentry
    obtain ⟨hm, hname⟩ := (honest t ht).function name m he
    exact invoke_leads fam b none (fun o ho => absurd ho (by simp)) hargs
      (settles_toHost s.machine) (keeps_of_declared fam hK ha hm hname)
  · exact .throw b

/-- **Calling a method** of a wrapped object keeps the balance. -/
theorem callMethod_leads (fam : Family s.machine K) (honest : ∀ t ∈ s.module.tables, t.Honest)
    (b : Balanced K 0 w) (h : HandleId) (name : String) (hargs : args.WellFormed) :
    Leads (fun _ => Balanced K 0) (Balanced K 0)
      (s.callMethod (Wrapper.ofHandle h w) name args) w := by
  have hK := b.known h
  rw [callMethod, callMethodAt]
  refine .inFrame _ ?_
  rcases hentry : s.module.resolve? (Wrapper.ofHandle h w).cls name with _ | ⟨m | m | run⟩
  · exact .throw b
  · obtain ⟨t, ht, ha, he⟩ := Module.resolve?_ok hentry
    obtain ⟨hm, hname⟩ := (honest t ht).method name m he
    obtain ⟨a, ha', hover, hsame⟩ := override_declared fam hK ha hm
    have hkeeps := keeps_of_declared fam hK ha' hover (by rw [hsame]; exact hname)
    refine invoke_leads fam b (some (Wrapper.ofHandle h w)) (fun o ho => ?_) hargs
      (settles_toHost s.machine) hkeeps
    obtain rfl := Option.some.inj ho
    rfl
  · obtain ⟨t, ht, ha, he⟩ := Module.resolve?_ok hentry
    obtain ⟨hm, hname⟩ := (honest t ht).function name m he
    exact invoke_leads fam b none (fun o ho => absurd ho (by simp)) hargs
      (settles_toHost s.machine) (keeps_of_declared fam hK ha hm hname)
  · obtain ⟨t, ht, ha, he⟩ := Module.resolve?_ok hentry
    exact custom_leads ((honest t ht).custom name run he) b _ _ args

end Site

end Interop

/-
# Sessions of host code

Host code makes objects, calls methods and functions, and clones, drops and releases the
wrappers that it has.  A session is any sequence of these operations, whether each of them
succeeds, is rejected or throws.

**In every state between two operations the references are conserved**
(`Site.run_conserved`): a mortal object counts one reference for each handle that still owns
one to it and one for each value of a hash and each element of a vector that it is; handles
and payloads refer to objects that are there; and as many objects live as there are mortal
objects.  This is so for a module of the core parcel, with more bindings that add nothing of
their own, as long as the classes beside the core parcel can be trusted.  Nothing is asked of
the graph of objects: `Sample.boxSession` makes one that holds itself.
-/

import Interop.Proofs.Binding.CoreModule
import Interop.Proofs.Ownership.Calls
import Interop.Sample.Native

namespace Interop

/-! ### Operations -/

/-- What host code does with a module and with the wrappers of handles. -/
inductive Operation
  | construct (className : String) (args : CallArgs)
  | callMethod (receiver : HandleId) (name : String) (args : CallArgs)
  | callStatic (className name : String) (args : CallArgs)
  /-- Clones a wrapper of the handle. -/
  | clone (h : HandleId)
  /-- Drops a wrapper of the handle. -/
  | drop (h : HandleId)
  /-- Releases the handle. -/
  | release (h : HandleId)

/-- Every dict in the arguments has ascending keys. -/
def Operation.WellFormed : Operation → Prop
  | construct _ args => args.WellFormed
  | callMethod _ _ args => args.WellFormed
  | callStatic _ _ args => args.WellFormed
  | _ => True

/-- The world after a step, however it ended. -/
def World.after {ε α : Type} (x : EStateM ε World α) (w : World) : World :=
  match x w with
  | .ok _ w => w
  | .error _ w => w

namespace Site

/-- The world after one operation. -/
def step (s : Site) (w : World) : Operation → World
  | .construct className args => w.after (s.construct className args)
  | .callMethod h name args => w.after (s.callMethod (.ofHandle h w) name args)
  | .callStatic className name args => w.after (s.callStatic className name args)
  | .clone h => Handle.share h w
  | .drop h => Handle.drop s.machine h w
  | .release h => w.after (Handle.release s.machine h)

/-- The world after a sequence of operations. -/
def run (s : Site) (w : World) (session : List Operation) : World :=
  session.foldl s.step w

/-- The classes of which there can be objects: those of the core parcel, and those that the
registry offers and the module has bound, directly or through an ancestor. -/
def InPlay (s : Site) (c : Class) : Prop :=
  c ∈ Parcel.classes ∨ (∃ name, s.registry.fetch name = .ok c) ∧ s.module.isBound c = true

/-- The module was made from the bindings of the core parcel and others that add nothing of
their own, over a registry that holds the core parcel, and all classes in play can be
trusted.  How errors become exceptions is left open. -/
structure Standard (s : Site) : Prop where
  core : ∀ c ∈ Parcel.classes, s.registry.fetch c.name = .ok c
  emitted : ∃ (extra : List ClassBinding) (name : String) (module : Module)
    (logger logger' : Log.Logger), (∀ b ∈ extra, b.Modest s.registry) ∧
      BindingSet.emit ⟨CoreBinding.bindings.bindings ++ extra⟩ name s.registry logger =
        .ok module logger' ∧ s.module.tables = module.tables
  trusted : ∀ name c, s.registry.fetch name = .ok c → s.module.isBound c = true →
    c.Trusted s.machine s.InPlay

end Site

/-! ### Conserved references -/

/-- Every reference is owned by a handle or stands in a payload, all of them are to objects
that are there, the mortal objects are counted, and nothing was given back that nobody
owned. -/
structure World.Conserved (w : World) : Prop where
  refcount_eq : ∀ p o, w.heap.get? p = some o → o.immortal = false →
    o.refcount = w.held.count p + (w.heap.slots 0).count p
  handle : ∀ h, (w.handle h).owned = true → ∃ o, w.heap.get? (w.handle h).object = some o
  slot : ∀ p o, w.heap.get? p = some o → ∀ q ∈ o.payload.references,
    ∃ x, w.heap.get? q = some x
  live_eq : w.heap.live = w.heap.mortals 0
  fault_eq : w.heap.fault = none

namespace World

variable {K : Class → Prop} {w : World}

/-- A balanced world conserves its references. -/
theorem Balanced.conserved (b : Balanced K 0 w) : w.Conserved where
  refcount_eq p o ho himm := by
    have hcount := b.refcount_eq ho himm
    rw [zero_add, Multiset.count_add] at hcount
    exact hcount
  handle h howned := by
    obtain ⟨o, ho, -⟩ := b.cls_eq h howned
    exact ⟨o, ho⟩
  slot p o ho q hq := b.orderly.get?_of_reference ho hq
  live_eq := by
    have hlive := b.orderly.ledger.live_eq
    rw [show Heap.void.live = 0 from rfl, zero_add] at hlive
    exact hlive
  fault_eq := b.orderly.ledger.fault_eq

/-- What a step leads to holds afterwards, whether it succeeds or fails. -/
theorem Leads.after {ε α : Type} {Q : World → Prop} {x : EStateM ε World α}
    (hx : Leads (fun _ => Q) Q x w) : Q (w.after x) := by
  unfold Leads at hx
  unfold World.after
  rcases hrun : x w with ⟨a, w'⟩ | ⟨e, w'⟩ <;> rw [hrun] at hx
  · exact hx
  · exact hx

/-- **At the start** there are only the truth values. -/
theorem balanced_ofProgram (hcore : ∀ c ∈ Parcel.classes, K c) (program : Program) :
    Balanced K 0 (.ofProgram program) := by
  have hmem : Parcel.boolean ∈ Parcel.classes := by simp [Parcel.classes]
  have hget : ∀ b, Heap.initial.get? (Heap.booleanId b) =
      some ⟨Parcel.boolean, true, 1, .boolean b⟩ := fun b => by cases b <;> rfl
  have hgive : ∀ b, (Heap.fresh Parcel.boolean (.boolean b)).GivesBack := fun b =>
    (Payload.boolean b).givesBack_home _ _
  -- the references of the two objects are not counted, so nobody has to own them
  have l : Ledger Heap.void 0 Heap.initial := by
    have hmade : ∀ {owned : Multiset ObjId} {h : Heap} (b : Bool), Ledger Heap.void owned h →
        Ledger Heap.void ((h.alloc Parcel.boolean (.boolean b)).1 ::ₘ owned)
          (h.alloc Parcel.boolean (.boolean b)).2 := by
      intro owned h b l
      have hnone : Ledger Heap.void (((Payload.boolean b).references : Multiset ObjId) + owned) h :=
        (zero_add owned).symm ▸ l
      exact hnone.alloc (hgive b)
    have l₂ := hmade false (hmade true (Ledger.refl Heap.void))
    have l₃ := l₂.of_immortal (hget false) rfl fun q hq => (Multiset.count_cons_of_ne hq _).symm
    exact l₃.of_immortal (hget true) rfl fun q hq => (Multiset.count_cons_of_ne hq _).symm
  have horderly : Heap.initial.Orderly K (0 + 0) := by
    constructor
    case ledger =>
      rw [zero_add]
      exact l
    case proper =>
      rintro ⟨i⟩ o ho
      have hproper : ∀ b, (⟨Parcel.boolean, true, 1, .boolean b⟩ : Obj).Proper K := fun b =>
        ⟨hcore _ hmem, .self hmem, fun himm => absurd himm (by simp)⟩
      rcases i with _ | _ | i
      · exact Option.some.inj ho ▸ hproper true
      · exact Option.some.inj ho ▸ hproper false
      · exact absurd (Heap.index_lt_of_get? ho) (by simp [Heap.initial, Heap.alloc])
    case truth => exact fun b => ⟨1, hget b⟩
  constructor
  case orderly => exact horderly
  case cls_eq =>
    intro h howned
    exact absurd howned (by simp [World.handle, ofProgram, HandleState.vacant])
  case known =>
    intro h
    exact hcore _ (by simp [World.handle, ofProgram, HandleState.vacant, Parcel.classes])

end World

namespace Site

variable {s : Site} {w : World}

/-- The classes in play are a family. -/
theorem Standard.family (r : s.Standard) : Family s.machine s.InPlay where
  core _ hc := Or.inl hc
  trusted c hc := by
    rcases hc with hc | ⟨⟨name, hfetch⟩, hbound⟩
    · exact .of_core hc
    · exact r.trusted name c hfetch hbound

/-- The tables of a standard site are honest. -/
theorem Standard.honest (r : s.Standard) : ∀ t ∈ s.module.tables, t.Honest := by
  obtain ⟨extra, name, module, logger, logger', hmodest, hemit, htables⟩ := r.emitted
  intro t ht
  refine CoreBinding.honest_of_emit r.core (fun n c hfetch hbound => ?_) hmodest hemit
    (htables ▸ ht)
  refine (r.trusted n c hfetch ?_).offspring
  have hsame : s.module.isBound c = module.isBound c := by
    simp only [Module.isBound, Module.table?, htables]
  exact hsame.trans hbound

/-- **One operation** keeps the balance. -/
theorem step_balanced (r : s.Standard) (b : w.Balanced s.InPlay 0) {op : Operation}
    (hop : op.WellFormed) : (s.step w op).Balanced s.InPlay 0 := by
  have hplay : ∀ name c, s.registry.fetch name = .ok c → s.module.isBound c = true →
      s.InPlay c := fun name c hfetch hbound => Or.inr ⟨⟨name, hfetch⟩, hbound⟩
  cases op with
  | construct className args =>
    exact (construct_leads r.family r.honest hplay b className hop).after
  | callMethod h name args => exact (callMethod_leads r.family r.honest b h name hop).after
  | callStatic className name args =>
    exact (callStatic_leads r.family r.honest hplay b className name hop).after
  | clone h => exact b.share
  | drop h => exact b.drop s.machine
  | release h => exact (b.release_leads s.machine).after

/-- Every sequence of operations keeps the balance. -/
theorem run_balanced (r : s.Standard) (session : List Operation) :
    ∀ {w : World}, w.Balanced s.InPlay 0 → (∀ op ∈ session, op.WellFormed) →
      (s.run w session).Balanced s.InPlay 0 := by
  induction session with
  | nil => exact fun b _ => b
  | cons op rest ih =>
    intro w b hall
    exact ih (step_balanced r b (hall op List.mem_cons_self)) fun x hx =>
      hall x (List.mem_cons_of_mem op hx)

/-- **References are conserved** in every session from the start of a program. -/
theorem run_conserved (r : s.Standard) (program : Program) {session : List Operation}
    (hsession : ∀ op ∈ session, op.WellFormed) :
    (s.run (.ofProgram program) session).Conserved :=
  (run_balanced r session (World.balanced_ofProgram (fun _ => Or.inl) program) hsession).conserved

end Site

/-! ### The registry of the core parcel -/

namespace Parcel

/-- A registered class of the core parcel is one of its classes. -/
theorem mem_classes_of_get? {name : String} {c : Class} (h : registry.table.get? name = some c) :
    c ∈ classes := by
  have hall : ∀ e ∈ registry.table.entries, e.2 ∈ classes := by
    decide +kernel
  exact hall _ (mem_of_findEntry h)

end Parcel

/-! ### A vector that holds itself -/

namespace Sample

/-- A class of vectors with a method that returns its receiver and one that throws it. -/
def box : Class :=
  .ofMethods Parcel.firstFreeSerial "Sample::Box" "Sample" (some Parcel.vector) 0 [
    ⟨"Itself", .value Parcel.anyObject, [], .onObject (.linked "self_inc"), false⟩,
    ⟨"Fail", .void, [], .onObject (.linked "throw_self"), false⟩]

/-- The core parcel and the class of boxes. -/
def boxRegistry : Registry :=
  Parcel.registry.assign box.name box

/-- The bindings of the core parcel and one for boxes. -/
def boxBindings : BindingSet :=
  ⟨CoreBinding.bindings.bindings ++ [.plain "Sample" "Sample::Box"]⟩

/-- The module that was made, or one without tables. -/
def madeModule : EStateM.Result BridgeError Log.Logger Module → Module
  | .ok module _ => module
  | .error _ _ => .new "sample"

/-- The module of these bindings. -/
def boxModule : Module :=
  madeModule (boxBindings.emit "sample" boxRegistry .fresh)

/-- The module of these bindings, on the sample machine. -/
def boxSite : Site :=
  ⟨machine, boxRegistry, boxModule⟩

/-- Makes a box, puts a list and the box itself into it, fetches the box out of the box, has
the box thrown, and then clones, drops and releases the first handle and uses it once more. -/
def boxSession : List Operation := [
  .construct "Sample::Box" .empty,
  .callMethod ⟨0⟩ "push" ⟨[.list [.str "a", .object ⟨⟨0⟩, box⟩]], []⟩,
  .callMethod ⟨0⟩ "push" ⟨[.object ⟨⟨0⟩, box⟩], []⟩,
  .callMethod ⟨0⟩ "fetch" ⟨[.int 1], []⟩,
  .callMethod ⟨0⟩ "fail" .empty,
  .clone ⟨0⟩, .drop ⟨0⟩, .release ⟨0⟩,
  .callMethod ⟨0⟩ "itself" .empty]

/-- The registry of the example knows its class and the core parcel. -/
theorem boxRegistry_fetch (name : String) : boxRegistry.fetch name =
    if name = box.name then .ok box else Parcel.registry.fetch name :=
  Registry.fetch_assign Parcel.registry_open

/-- A new plain error is handed over. -/
theorem handsOver_fail {K : Class → Prop} (hcore : ∀ c ∈ Parcel.classes, K c) (h : Heap)
    (message : String) : h.HandsOver K {(h.alloc Parcel.err (.err message)).1}
      (h.alloc Parcel.err (.err message)).2 := by
  have hmem : Parcel.err ∈ Parcel.classes := by simp [Parcel.classes]
  have hnone : Ledger h (((Payload.err message).references : Multiset ObjId) + 0) h :=
    (zero_add (0 : Multiset ObjId)).symm ▸ Ledger.refl h
  refine ⟨hnone.alloc ((Payload.err message).givesBack_home _ _), fun p o hn ho => ?_⟩
  rw [Heap.get?_alloc] at ho
  split_ifs at ho
  · obtain rfl := Option.some.inj ho
    exact ⟨hcore _ hmem, .self hmem, fun _ => Nat.one_pos⟩
  · exact absurd (Heap.index_lt_of_get? ho) (Nat.not_lt.2 hn)

/-- A reference that is taken is handed over. -/
theorem handsOver_retain {K : Class → Prop} {owned : Multiset ObjId} {h h' : Heap} {p : ObjId}
    {o : Obj} (d : h.Orderly K owned) (ho : h.get? p = some o) (hr : h.retain p = .ok h') :
    h.HandsOver K {p} h' := by
  refine ⟨(Ledger.refl h).retain (d.backed ho) hr, fun q x hn hx => ?_⟩
  have hlt := Heap.index_lt_of_get? hx
  rw [Heap.size_of_retain hr] at hlt
  omega

/-- The class of the example can be trusted. -/
theorem box_trusted {K : Class → Prop} (hcore : ∀ c ∈ Parcel.classes, K c) :
    box.Trusted machine K where
  offspring := by
    refine ⟨Parcel.vector, .extend (.self (by simp [Parcel.classes])) _ _ _ _ _ ?_⟩
    decide
  conventional a ha hnot method hm := by
    have hbox : a = box := by
      rcases List.mem_cons.1 ha with rfl | ha
      · rfl
      · exact absurd (Parcel.mem_classes_of_ancestry Parcel.vector (by simp [Parcel.classes]) a ha)
          hnot
    subst hbox
    intro cls frame native hcode owned h global d hstands
    have hcases : method.code = .onObject (.linked "self_inc") ∨
        method.code = .onObject (.linked "throw_self") := by
      rcases List.mem_cons.1 hm with rfl | hm
      · exact Or.inl rfl
      · obtain rfl := List.mem_singleton.1 hm
        exact Or.inr rfl
    rcases hcases with hsymbol | hsymbol <;> rw [hsymbol] at hcode
    · obtain ⟨p, hp, rfl⟩ := Option.map_eq_some_iff.1 hcode
      obtain ⟨o, ho, -⟩ := hstands.receiver p hp
      have hrun : machine.image.runOnObject (.linked "self_inc") p frame.args
          (machine.env global) h =
        (NativeM.retain p >>= fun p => pure (Ret.incremented p)) (machine.env global) h := rfl
      rw [hrun, NativeM.bind_apply, NativeM.retain_apply]
      rcases hr : h.retain p with e | h'
      · exact handsOver_fail hcore h e.message
      · exact ⟨handsOver_retain d ho hr, fun q hq => absurd hq (by simp)⟩
    · obtain ⟨p, hp, rfl⟩ := Option.map_eq_some_iff.1 hcode
      obtain ⟨o, ho, -⟩ := hstands.receiver p hp
      have hrun : machine.image.runOnObject (.linked "throw_self") p frame.args
          (machine.env global) h =
        (NativeM.retain p >>= fun p => throw ⟨p⟩) (machine.env global) h := rfl
      rw [hrun, NativeM.bind_apply, NativeM.retain_apply]
      rcases hr : h.retain p with e | h'
      · exact handsOver_fail hcore h e.message
      · exact handsOver_retain d ho hr

/-- Whether a module was made. -/
def isMade : EStateM.Result BridgeError Log.Logger Module → Bool
  | .ok _ _ => true
  | .error _ _ => false

/-- A module that was made is the one that was made. -/
theorem eq_madeModule {r : EStateM.Result BridgeError Log.Logger Module} (h : isMade r = true) :
    ∃ logger, r = .ok (madeModule r) logger := by
  cases r with
  | ok module logger => exact ⟨logger, rfl⟩
  | error e logger => exact absurd h (by simp [isMade])

/-- The module of the example was emitted. -/
theorem boxModule_emitted :
    ∃ logger, boxBindings.emit "sample" boxRegistry .fresh = .ok boxModule logger :=
  eq_madeModule (by decide +kernel)

/-- The site of the example is a standard one. -/
theorem boxSite_standard : boxSite.Standard where
  core := by
    intro c hc
    have hname : ∀ c ∈ Parcel.classes, c.name ≠ box.name := by decide +kernel
    show boxRegistry.fetch c.name = .ok c
    rw [boxRegistry_fetch, if_neg (hname c hc), Parcel.registry_fetch c hc]
  emitted := by
    obtain ⟨logger, hemit⟩ := boxModule_emitted
    refine ⟨[.plain "Sample" "Sample::Box"], "sample", boxModule, .fresh, logger, ?_, hemit, rfl⟩
    intro b hb
    obtain rfl := List.mem_singleton.1 hb
    constructor
    case addedDefs_eq => exact fun _ => rfl
    case not_root =>
      intro hroot
      have hfetch : boxRegistry.fetch box.name = .ok Parcel.obj := hroot
      rw [boxRegistry_fetch, if_pos rfl] at hfetch
      exact absurd (Except.ok.inj hfetch) (by decide)
  trusted name c hfetch _ := by
    have hfetch : boxRegistry.fetch name = .ok c := hfetch
    rw [boxRegistry_fetch] at hfetch
    split_ifs at hfetch
    · obtain rfl := Except.ok.inj hfetch
      exact box_trusted fun _ => Or.inl
    · exact .of_core (Parcel.mem_classes_of_get? (Registry.fetch_ok_iff.1 hfetch))

/-- The requests of the example are well formed. -/
theorem boxSession_wellFormed : ∀ op ∈ boxSession, op.WellFormed := by
  have hnone : ∀ e : String × HostValue, e ∈ [] → e.2.WellFormed :=
    fun e he => absurd he List.not_mem_nil
  have hone : ∀ v : HostValue, v.WellFormed → CallArgs.WellFormed ⟨[v], []⟩ := fun v hv =>
    ⟨fun x hx => List.mem_singleton.1 hx ▸ hv, hnone⟩
  have hempty : CallArgs.empty.WellFormed := ⟨fun v hv => absurd hv List.not_mem_nil, hnone⟩
  simp only [boxSession, List.forall_mem_cons, List.not_mem_nil, false_implies, implies_true,
    and_true]
  exact ⟨hempty, hone _ ⟨trivial, trivial, trivial⟩, hone _ trivial, hone _ trivial, hempty,
    trivial, trivial, trivial, hempty⟩

/-- The box goes on living with a reference of its own, and all its references are
accounted for. -/
theorem boxSession_conserved : boxSite.Standard ∧ (∀ op ∈ boxSession, op.WellFormed) ∧
    (boxSite.run (.ofProgram .ready) boxSession).Conserved :=
  ⟨boxSite_standard, boxSession_wellFormed,
    Site.run_conserved boxSite_standard .ready boxSession_wellFormed⟩

end Sample

end Interop

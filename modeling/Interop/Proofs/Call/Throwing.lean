/-
# Calls whose implementation throws

A call was accepted, its implementation is code of the core parcel, and this code throws.
Then the error becomes an exception, the reference of the error and those of the frame are
given back, and what the code has stranded is all that remains: every object is there as it
was but for the stranded references to it (`Site.performAt_of_thrown`).  So the objects are
as before exactly when nothing is stranded but references to immortal objects, which are not
counted.

Three methods strand what they took for a receiver that then turns out to hold another
payload.  The class of such a receiver has a constructor of its own; `Sample.storeRequest`
stores into an object of such a class, and one object more lives afterwards.
-/

import Interop.Proofs.Call.Acceptance
import Interop.Proofs.Native.Throwing

namespace Interop

/-- The code is of the core parcel. -/
def Code.IsCore : Code → Prop
  | .onObject (.core _) => True
  | .onClass (.core _) => True
  | .onNothing (.core _) => True
  | _ => False

/-- The references that the code of a method has taken and does not give back when it throws. -/
def Call.stranded (h : Heap) (frame : Frame) : Code → List ObjId
  | .onObject (.core op) => Parcel.stranded h frame.args op
  | _ => []

namespace Heap

/-- Every object that a payload refers to is there and counts a reference. -/
def Sound (h : Heap) : Prop :=
  ∀ p o, h.get? p = some o → ∀ q ∈ o.payload.references,
    ∃ x, h.get? q = some x ∧ (x.immortal = false → 0 < x.refcount)

/-- The objects that were there before are as they were, and no more objects live than
before. -/
structure Intact (h h' : Heap) : Prop where
  get?_eq : ∀ p o, h.get? p = some o → h'.get? p = some o
  live_eq : h'.live = h.live

end Heap

namespace Ledger

variable {base h : Heap} {owned : Multiset ObjId} {p q : ObjId} {o : Obj}

/-- A reference can be taken to everything that a payload refers to. -/
theorem backed_references (l : Ledger base owned h) (hsound : base.Sound) (ho : h.get? p = some o)
    (hq : q ∈ o.payload.references) : base.Backed h q := by
  rcases Nat.lt_or_ge p.index base.cells.size with hlt | hge
  · obtain ⟨count, hb⟩ := l.of_base hlt ho
    obtain ⟨x, hx, hpos⟩ := hsound p _ hb q hq
    obtain ⟨count', hc, -⟩ := l.kept q x hx
    refine ⟨_, hc, fun _ himm => ?_⟩
    rw [Heap.obj_of_get? hx]
    exact hpos himm
  · exact l.backed q (Multiset.mem_add.2 (Or.inr (Heap.mem_slots.2 ⟨p, o, hge, ho, hq⟩)))

/-- **The objects are as before** exactly when all references that are still owned are to
immortal objects that were there before. -/
theorem intact_iff (l : Ledger base owned h) (t : h.Transient base.cells.size) :
    base.Intact h ↔ ∀ p ∈ owned, ∃ o, base.get? p = some o ∧ o.immortal = true := by
  constructor
  · intro hintact p hp
    obtain ⟨o, ho⟩ := l.get?_of_mem hp
    have hlt : p.index < base.cells.size := by
      by_contra hnew
      -- a new object is mortal and lives
      have hge := Nat.le_of_not_lt hnew
      have hone : 1 ≤ h.mortals base.cells.size := by
        have hle := Heap.le_total (fun o : Obj => if o.immortal then 0 else 1) ho hge
        simpa [(t p o hge ho).mortal, Heap.mortals] using hle
      have hlive := l.live_eq
      have hlive' := hintact.live_eq
      omega
    obtain ⟨count, hb⟩ := l.of_base hlt ho
    refine ⟨_, hb, ?_⟩
    by_contra himm
    have hsame := hintact.get?_eq p _ hb
    rw [ho, Option.some.injEq] at hsame
    have hcount := l.count_eq p o ho (by simpa using himm)
    have hpos : 0 < (owned + h.slots base.cells.size).count p :=
      Multiset.count_pos.2 (Multiset.mem_add.2 (Or.inl hp))
    rw [Heap.obj_of_get? hb, ← hsame] at hcount
    omega
  · intro howned
    have hsame : Heap.Same base h := l.same_of_temporary t fun q hq => by
      obtain ⟨o, ho, himm⟩ := howned q hq
      exact ⟨Heap.index_lt_of_get? ho, by rw [Heap.obj_of_get? ho, himm]⟩
    exact ⟨fun p o ho => by rw [hsame.get?_eq, ho], hsame.live_eq⟩

end Ledger

namespace Parcel

variable {base h : Heap} {owned : Multiset ObjId} {args : List Arg}

/-- References can be taken to all objects to which a method takes some first. -/
theorem backed_takenFirst (l : Ledger base owned h) (hsound : base.Sound)
    (hargs : ∀ p, Arg.object p ∈ args → p ∈ owned) (op : CoreMethod) :
    ∀ q ∈ takenFirst h args op, base.Backed h q := by
  have harg : ∀ q, Arg.object q ∈ args → base.Backed h q := fun q hq =>
    l.backed q (Multiset.mem_add.2 (Or.inl (hargs q hq)))
  intro q hq
  cases op with
  | hashStore =>
    obtain ⟨key, value, rest, text, rfl, htext⟩ := storedValue_ne_nil (List.ne_nil_of_mem hq)
    rw [takenFirst, storedValue, if_pos (Option.isSome_iff_exists.2 ⟨text, htext⟩),
      List.mem_singleton] at hq
    subst hq
    exact harg q (List.mem_cons_of_mem _ List.mem_cons_self)
  | vectorPush =>
    obtain ⟨element, rest, rfl⟩ := pushedElement_ne_nil (List.ne_nil_of_mem hq)
    rw [takenFirst, pushedElement, List.mem_singleton] at hq
    subst hq
    exact harg q List.mem_cons_self
  | vectorPushAll =>
    obtain ⟨source, rest, elements, rfl, hpay⟩ := pushedElements_ne_nil (List.ne_nil_of_mem hq)
    rw [takenFirst, pushedElements, hpay] at hq
    obtain ⟨o, ho⟩ := l.get?_of_mem (hargs source List.mem_cons_self)
    refine l.backed_references hsound ho ?_
    rw [Heap.obj_of_get? ho] at hpay
    rw [hpay]
    exact hq
  | _ => exact absurd hq List.not_mem_nil

end Parcel

namespace Call

variable {base h h' : Heap} {owned : Multiset ObjId} {m : Machine} {global : Registry}
  {code : Code} {cls : Class} {frame : Frame} {native : NativeM Ret} {t : Thrown}

/-- **Code of the core parcel that throws** leaves the error, and what it has stranded. -/
theorem codeFor_leaves (l : Ledger base owned h) (hsound : base.Sound)
    (hargs : ∀ p, Arg.object p ∈ frame.args → p ∈ owned) (hcore : code.IsCore)
    (hcode : codeFor m.image code cls frame = some native)
    (hrun : native (m.env global) h = .error t h') :
    Parcel.Leaves base owned (stranded h frame code) h t h' := by
  cases code with
  | onObject routine =>
    cases routine with
    | linked symbol => exact absurd hcore id
    | core op =>
      obtain ⟨p, -, rfl⟩ := Option.map_eq_some_iff.1 hcode
      exact Parcel.runMethod_leaves l (Parcel.backed_takenFirst l hsound hargs op) hrun
  | onClass routine =>
    cases routine with
    | linked symbol => exact absurd hcore id
    | core op =>
      obtain rfl := Option.some.inj hcode
      exact Parcel.runConstructor_leaves l hrun
  | onNothing routine =>
    cases routine with
    | linked symbol => exact absurd hcore id
    | core op =>
      obtain rfl := Option.some.inj hcode
      have hback : ∀ q, Arg.object q ∈ frame.args → base.Backed h q := fun q hq =>
        l.backed q (Multiset.mem_add.2 (Or.inl (hargs q hq)))
      exact Parcel.runFunction_leaves l hback hrun

end Call

/-- The reference of the error is given back, and the message is logged. -/
theorem ExceptionMap.toException_world (exceptions : ExceptionMap) (m : Machine) (t : Thrown)
    (w : World) : (exceptions.toException m t w).2.heap =
      (m.release w.program.registryView t.object w.heap).2 ∧
    (exceptions.toException m t w).2.handles = w.handles :=
  ⟨rfl, rfl⟩

namespace Site

/-- **A call whose implementation throws:** when the implementation is code of the core
parcel, every object of before is there with its payload, and the counts are as before but
for the references that the implementation has stranded.  The objects are as they were
exactly when these are references to immortal objects. -/
theorem performAt_of_thrown (s : Site) (depth : Nat) {r : Request} {w w₁ : World} {label : String}
    {method : Method} {cls : Class} {frame : Frame} {native : NativeM Ret} {t : Thrown} {h : Heap}
    (g : w.Grounded) (hsound : w.heap.Sound) (hargs : r.args.WellFormed)
    (haccept : s.accept r w = .ok ⟨label, .native method cls frame⟩ w₁)
    (hcore : method.code.IsCore)
    (hcode : Call.codeFor s.machine.image method.code cls frame = some native)
    (hthrow : native (s.machine.env w₁.program.registryView) w₁.heap = .error t h) :
    ∃ e w', s.performAt depth r w = .error e w' ∧ w'.handles = w.handles ∧
      Ledger w.heap (Call.stranded w₁.heap frame method.code) w'.heap ∧
      (w.heap.Intact w'.heap ↔ ∀ p ∈ Call.stranded w₁.heap frame method.code,
        ∃ o, w.heap.get? p = some o ∧ o.immortal = true) := by
  -- what the frame owns accounts for everything that was taken and made so far
  obtain ⟨res, hall, hs⟩ := accept_decides s.registry s.module g hargs
  obtain rfl := (hall s.machine).symm.trans haccept
  have hframe : Staging.Accounted w ⟨w₁, frame⟩ := hs
  have hleft := Call.codeFor_leaves hframe.staged.ledger hsound
    (fun p hp => Multiset.mem_coe.2 (hframe.args_mem p hp)) hcore hcode hthrow
  -- the error and the frame are given back
  obtain ⟨h₁, hone, l₁, s₁⟩ := hleft.ledger.release
  rw [add_comm] at l₁
  obtain ⟨h₂, hrest, l₂, s₂⟩ := l₁.giveBackAll frame.owned
  have htransient := ((hleft.transient hframe.staged.transient).shrinks s₁).shrinks s₂
  have hworld := ExceptionMap.toException_world s.module.exceptions s.machine t
    (w₁.settle h)
  have hheap : ((s.module.exceptions.toException s.machine t (w₁.settle h)).2.releaseAll
      s.machine frame.owned).heap = h₂ := by
    rw [World.releaseAll_heap, hworld.1, World.settle_heap, hone]
    exact hrest _ _
  have hrun : s.performAt depth r w = .error
      ((s.module.exceptions.toException s.machine t (w₁.settle h)).1.withFrame label)
      ((s.module.exceptions.toException s.machine t (w₁.settle h)).2.releaseAll s.machine
        frame.owned) := by
    rw [performAt_eq, Steps.bind_apply, haccept]
    simp only [enter, HostM.inFrame_apply,
      Call.runTrapped_of_thrown s.module.exceptions _ hcode hthrow]
  refine ⟨_, _, hrun, ?_, hheap ▸ l₂, hheap ▸ l₂.intact_iff htransient⟩
  rw [World.releaseAll_handles]
  exact hworld.2.trans hframe.staged.handles_eq

end Site

/-! ### Storing into an object that is not a hash -/

namespace Sample

/-- The method that stores into a hash. -/
def storeMethod : Method :=
  Parcel.method "Store" .void [("key", Parcel.text), ("value", Parcel.anyObject)] .hashStore

/-- A class of hashes whose constructor makes integers. -/
def weird : Class :=
  .ofMethods Parcel.firstFreeSerial "Weird" "Sample" (some Parcel.hash) 0
    [⟨Method.constructorName, .value Parcel.anyObject, [], .onClass (.linked "int"), false⟩]

/-- An integer of the class `weird` with a handle. -/
def weirdWorld : World where
  heap := (Heap.initial.alloc weird (.integer 7)).2
  handles := #[⟨⟨2⟩, weird, true, .strict, 1⟩]
  program := .ready

/-- A module that offers one method of hashes. -/
def hashSite : Site :=
  ⟨machine, Parcel.registry, ⟨"sample", [⟨Parcel.hash, none, [("store", .method storeMethod)]⟩],
    .empty⟩⟩

/-- Stores a new text under a key. -/
def storeRequest : Request :=
  .method ⟨⟨0⟩, weird⟩ "store" ⟨[.str "k", .str "value"], []⟩

/-- Everything in the example world stands for something. -/
theorem weirdWorld_grounded : weirdWorld.Grounded where
  truth b := by cases b <;> exact ⟨1, rfl⟩
  referenced h howned := by
    obtain ⟨i⟩ := h
    match i with
    | 0 => exact ⟨Heap.fresh weird (.integer 7), rfl, fun _ => Nat.one_pos⟩
    | i + 1 => exact absurd howned (by simp [World.handle, weirdWorld, HandleState.vacant])

/-- The references of the example world are counted. -/
theorem weirdWorld_sound : weirdWorld.heap.Sound := by
  intro p o ho q hq
  obtain ⟨i⟩ := p
  have hnone : o.payload.references = [] := by
    match i with
    | 0 => exact Option.some.inj ho ▸ rfl
    | 1 => exact Option.some.inj ho ▸ rfl
    | 2 => exact Option.some.inj ho ▸ rfl
    | i + 3 => exact absurd (Heap.index_lt_of_get? ho) (by simp [weirdWorld, Heap.initial])
  rw [hnone] at hq
  exact absurd hq List.not_mem_nil

/-- The refused request of the example strands the text that it was given. -/
theorem storeRequest_strands :
    ∃ e w', hashSite.performAt 0 storeRequest weirdWorld = .error e w' ∧
      (weirdWorld.heap.Intact w'.heap ↔
        ∀ p ∈ [(⟨4⟩ : ObjId)], ∃ o, weirdWorld.heap.get? p = some o ∧ o.immortal = true) := by
  have hargs : storeRequest.args.WellFormed := by
    refine ⟨fun v hv => ?_, fun e he => absurd he List.not_mem_nil⟩
    rcases List.mem_cons.1 hv with rfl | hv
    · trivial
    · obtain rfl := List.mem_singleton.1 hv
      trivial
  obtain ⟨e, w', hrun, -, -, hiff⟩ := Site.performAt_of_thrown hashSite 0 weirdWorld_grounded
    weirdWorld_sound hargs rfl trivial rfl rfl
  exact ⟨e, w', hrun, hiff⟩

/-- The new text that was to be stored lives on. -/
theorem storeRequest_not_intact :
    ∃ e w', hashSite.performAt 0 storeRequest weirdWorld = .error e w' ∧
      ¬ weirdWorld.heap.Intact w'.heap := by
  refine ⟨_, _, rfl, fun hintact => ?_⟩
  have hlive := hintact.live_eq
  exact absurd hlive (by decide)

end Sample

end Interop

/-
# What the code of containers does

A method of a container is described without a heap: a `Behaviour` takes the values of the
arguments and the content of the container to an answer and a new content.  The code of the
method performs the behaviour (`ContainerKind.Performs`) when it does to a container what the
behaviour does to its content, and what it returns presents the answer.

The code relies on what it finds (`ContainerKind.Ready`): arguments that show the values in
the slots of its parameters, and room for the references that it takes.
-/

import Interop.Proofs.Binding.CoreModule
import Interop.Proofs.Container.Tracked
import Interop.Proofs.Native.Answering

namespace Interop

open Conversion

/-- What a method does with the values of its arguments: it takes a content to an answer and
a new content, or makes a plain error. -/
abbrev Behaviour (α : Type) : Type :=
  List (Option HostValue) → α → Except String (HostValue × α)

/-- A capacity is refused that cannot be reserved. -/
def capacityRefusal (room : Nat → Bool) (message : String) :
    List (Option HostValue) → Option String
  | [some (.int n)] =>
    if room n.toInt.toNat then none else some (message ++ toString n.toInt.toNat)
  | _ => none

/-- A whole number is refused as a capacity if it cannot be reserved. -/
theorem capacityRefusal_int (room : Nat → Bool) (message : String) (n : Int64) :
    capacityRefusal room message [some (.int n)] =
      if room n.toInt.toNat then none else some (message ++ toString n.toInt.toNat) := rfl

/-! ### What the code does -/

namespace ContainerKind

variable {α : Type}

/-- What the code of a method finds: a container with some content, arguments that show
values, and room for a reference to everything in the container. -/
structure Ready (kind : ContainerKind α) (K : Class → Prop) (params : List Param) (h : Heap)
    (hidden : List ObjId) (owned refs : Multiset ObjId) (p : ObjId) (a : α) (args : List Arg)
    (slots : List (Option HostValue)) : Prop where
  has : kind.Has h hidden p a
  hidden_mem : p ∈ hidden
  hidden_there : ∀ q ∈ hidden, ∃ x, h.get? q = some x
  shown : List.Forall₂ (Arg.Shows h hidden) args (params.zip slots)
  accepted : List.Forall₂ (SlotAccepted Parcel.registry) params slots
  args_owned : ∀ q, Arg.object q ∈ args → q ∈ owned
  room : ∀ q ∈ (h.obj p).payload.references, h.Room [q]
  orderly : h.Orderly K refs

/-- Run in the heap `h` that came from `h₀`, the code gives the container at `p` the content `a`
and returns what presents `v`. -/
def Yields (kind : ContainerKind α) (hidden : List ObjId) (owned : Multiset ObjId) (p : ObjId)
    (env : NativeEnv) (h₀ : Heap) (v : HostValue) (a : α) (x : NativeM Ret) (h : Heap) : Prop :=
  ∃ ret h', x env h = .ok ret h' ∧ kind.Updates hidden p owned a h₀ h' ∧
    ret.Presents (h'.view hidden) v

/-- The code does to a container what the behaviour does to its content. -/
def Performs (kind : ContainerKind α) (params : List Param) (op : CoreMethod)
    (does : Behaviour α) : Prop :=
  ∀ (machine : Machine) (global : Registry) {K : Class → Prop} {h : Heap} {hidden : List ObjId}
    {owned refs : Multiset ObjId} {p : ObjId} {a : α} {args : List Arg}
    {slots : List (Option HostValue)},
    kind.Ready K params h hidden owned refs p a args slots →
    match does slots a with
    | .ok (v, a') => kind.Yields hidden owned p (machine.env global) h v a'
        (Parcel.runMethod p args op) h
    | .error message => Parcel.runMethod p args op (machine.env global) h =
        NativeM.fail message (machine.env global) h

/-- The code makes a container with the content `empty`, or a plain error. -/
def Makes (kind : ContainerKind α) (params : List Param) (op : CoreConstructor)
    (refuses : Memory → List (Option HostValue) → Option String) (empty : α) : Prop :=
  ∃ payload : Payload, payload.references = [] ∧ (∀ V, kind.Shows V empty payload) ∧
    ∀ (env : NativeEnv) {h : Heap} {hidden : List ObjId} {args : List Arg}
      {slots : List (Option HostValue)},
      List.Forall₂ (Arg.Shows h hidden) args (params.zip slots) →
      List.Forall₂ (SlotAccepted Parcel.registry) params slots →
      Parcel.runConstructor kind.cls args op env h =
        match refuses env.memory slots with
        | none => .ok (.incremented (h.alloc kind.cls payload).1) (h.alloc kind.cls payload).2
        | some message => NativeM.fail message env h

namespace Yields

variable {kind : ContainerKind α} {hidden : List ObjId} {owned : Multiset ObjId} {p : ObjId}
  {env : NativeEnv} {h₀ h h₁ : Heap} {v : HostValue} {a : α} {β : Type} {x : NativeM β}
  {f : β → NativeM Ret} {b : β} {ret : Ret}

/-- A first step that returns. -/
theorem bind (hx : x env h = .ok b h₁) (hf : kind.Yields hidden owned p env h₀ v a (f b) h₁) :
    kind.Yields hidden owned p env h₀ v a (x >>= f) h := by
  obtain ⟨ret, h', hrun, hrest⟩ := hf
  exact ⟨ret, h', (NativeM.bind_of_ok hx).trans hrun, hrest⟩

/-- A method that only returns presents its result. -/
theorem pure (u : kind.Updates hidden p owned a h₀ h) (hret : ret.Presents (h.view hidden) v) :
    kind.Yields hidden owned p env h₀ v a (pure ret) h :=
  ⟨ret, h, rfl, u, hret⟩

end Yields

end ContainerKind

/-- Where there is one reference there is room for another. -/
theorem Heap.Single.room {h : Heap} {p : ObjId} (hp : h.Single p) : h.Room [p] := by
  obtain ⟨o, ho, hone⟩ := hp
  intro q hq himm
  obtain rfl := List.mem_singleton.1 hq
  rw [Heap.obj_of_get? ho] at himm ⊢
  rw [hone himm, List.count_singleton_self]
  decide

/-! ### Arguments -/

namespace Conversion.SlotAccepted

variable {registry : Registry} {param : Param} {slot : Option HostValue}

/-- What is accepted where null is not is a value other than null. -/
theorem value (h : SlotAccepted registry param slot) (hnot : param.spec.nullable = false) :
    ∃ v, slot = some v ∧ v.isNull = false ∧ refusal? registry param v = none := by
  rcases slot with _ | v
  · exact absurd (hnot.symm.trans h) Bool.false_ne_true
  · have hv : refusal? registry param v = none := h
    refine ⟨v, rfl, ?_, hv⟩
    rcases hnull : v.isNull with _ | _
    · rfl
    · exact absurd hv (by simp [refusal?, hnull, hnot])

/-- What is accepted as a text is one. -/
theorem text (h : SlotAccepted registry param slot) (hspec : param.spec = Parcel.text) :
    ∃ value, slot = some (.str value) := by
  obtain ⟨v, rfl, -, hv⟩ := h.value (by rw [hspec]; rfl)
  unfold refusal? at hv
  rw [hspec] at hv
  cases v with
  | str value => exact ⟨value, rfl⟩
  | _ => exact absurd hv (by simp [Parcel.text, Value.isNull])

/-- What is accepted as an object of any class is not null. -/
theorem object (h : SlotAccepted registry param slot) (hspec : param.spec = Parcel.anyObject) :
    ∃ v, slot = some v ∧ v.isNull = false := by
  obtain ⟨v, hv, hnull, -⟩ := h.value (by rw [hspec]; rfl)
  exact ⟨v, hv, hnull⟩

/-- An accepted size is null or not negative. -/
theorem integer (h : SlotAccepted registry param slot) (hkind : param.spec.kind = .int .usize) :
    slot = none ∨ slot = some .null ∨ ∃ n : Int64, slot = some (.int n) ∧ 0 ≤ n.toInt := by
  rcases slot with _ | v
  · exact Or.inl rfl
  · have hv : refusal? registry param v = none := h
    unfold refusal? at hv
    rw [hkind] at hv
    cases v with
    | null => exact Or.inr (Or.inl rfl)
    | int n =>
      replace hv : (if IntWidth.contains .usize n then none else some _) = none := hv
      split_ifs at hv with hwidth
      exact Or.inr (Or.inr ⟨n, rfl, (IntWidth.contains_iff.1 hwidth).1⟩)
    | _ => exact absurd hv (by simp [Value.isNull])

/-- A size that must be there is not negative. -/
theorem size (h : SlotAccepted registry param slot) (hspec : param.spec = Parcel.size) :
    ∃ n : Int64, slot = some (.int n) ∧ 0 ≤ n.toInt := by
  obtain ⟨v, rfl, hnull, -⟩ := h.value (by rw [hspec]; rfl)
  rcases h.integer (by rw [hspec]; rfl) with hnone | hv | hn
  · exact absurd hnone (by simp)
  · obtain rfl := Option.some.inj hv
    exact absurd hnull (by simp [Value.isNull])
  · exact hn

/-- What is accepted as a vector is a list. -/
theorem vector (h : SlotAccepted Parcel.registry param slot)
    (hspec : param.spec = ⟨.object (some "Clownfish::Vector"), false⟩) :
    ∃ items, slot = some (.list items) := by
  have hfetch : Parcel.registry.fetch "Clownfish::Vector" = .ok Parcel.vector :=
    Parcel.registry_fetch Parcel.vector (Parcel.containers_subset (by simp [Parcel.containers]))
  obtain ⟨v, rfl, hnull, hv⟩ := h.value (by rw [hspec])
  unfold refusal? at hv
  rw [hspec, hnull] at hv
  replace hv : objectRefusal? Parcel.registry param v (some "Clownfish::Vector") = none := hv
  rw [objectRefusal?, Option.or_eq_none_iff, hfetch] at hv
  have hsub : (plainClass? v).any (·.isSubclassOf Parcel.vector) = true := by
    by_contra hnot
    exact absurd hv.2 (by simp [hnot])
  have hothers : ∀ c ∈ [Parcel.boolean, Parcel.integer, Parcel.float, Parcel.string, Parcel.hash],
      c.isSubclassOf Parcel.vector ≠ true := by decide +kernel
  cases v with
  | list items => exact ⟨items, rfl⟩
  | null => exact absurd hsub Bool.false_ne_true
  | object o => exact absurd hsub Bool.false_ne_true
  | _ => exact absurd hsub (hothers _ (by simp))

end Conversion.SlotAccepted

section

variable {h : Heap} {hidden : List ObjId} {args : List Arg} {slots : List (Option HostValue)}
  {param param' : Param} {registry : Registry}

/-- What is passed for one parameter. -/
theorem Conversion.args_one (hshown : List.Forall₂ (Arg.Shows h hidden) args ([param].zip slots))
    (haccepted : List.Forall₂ (SlotAccepted registry) [param] slots) :
    ∃ arg slot, args = [arg] ∧ slots = [slot] ∧ arg.Shows h hidden (param, slot) ∧
      SlotAccepted registry param slot := by
  obtain ⟨slot, _, hslot, hnil, rfl⟩ := List.forall₂_cons_left_iff.1 haccepted
  obtain rfl := List.forall₂_nil_left_iff.1 hnil
  obtain ⟨arg, _, harg, hnil, rfl⟩ := List.forall₂_cons_right_iff.1 hshown
  obtain rfl := List.forall₂_nil_right_iff.1 hnil
  exact ⟨arg, slot, rfl, rfl, harg, hslot⟩

/-- What is passed for two parameters. -/
theorem Conversion.args_two
    (hshown : List.Forall₂ (Arg.Shows h hidden) args ([param, param'].zip slots))
    (haccepted : List.Forall₂ (SlotAccepted registry) [param, param'] slots) :
    ∃ arg arg' slot slot', args = [arg, arg'] ∧ slots = [slot, slot'] ∧
      (arg.Shows h hidden (param, slot) ∧ SlotAccepted registry param slot) ∧
      arg'.Shows h hidden (param', slot') ∧ SlotAccepted registry param' slot' := by
  obtain ⟨slot, _, hslot, hrest, rfl⟩ := List.forall₂_cons_left_iff.1 haccepted
  obtain ⟨arg, _, harg, hothers, rfl⟩ := List.forall₂_cons_right_iff.1 hshown
  obtain ⟨arg', slot', rfl, rfl, hone⟩ := args_one hothers hrest
  exact ⟨arg, arg', slot, slot', rfl, rfl, ⟨harg, hslot⟩, hone⟩

end

namespace Arg.Shows

variable {h : Heap} {hidden : List ObjId} {arg : Arg} {param : Param} {slot : Option HostValue}

/-- A text is shown by an object that holds it. -/
theorem text {value : String} (hs : arg.Shows h hidden (param, some (.str value)))
    (hspec : param.spec = Parcel.text) :
    ∃ q, arg = .object q ∧ (h.obj q).payload.text? = some value := by
  cases arg with
  | object q =>
    obtain ⟨-, v, hv, hshows, -⟩ := hs
    obtain rfl := Option.some.inj hv
    obtain ⟨_, ⟨rfl⟩, hq⟩ := hshows
    refine ⟨q, rfl, ?_⟩
    rw [obj_payload_of_holds hq]
    rfl
  | null => exact absurd hs (by simp [Arg.Shows])
  | _ => exact absurd hs (by simp [Arg.Shows, hspec, Parcel.text])

/-- An integer is passed as it is. -/
theorem integer {n : Int64} {width : IntWidth} (hs : arg.Shows h hidden (param, some (.int n)))
    (hkind : param.spec.kind = .int width) : arg = .int n := by
  cases arg with
  | int m =>
    obtain ⟨-, hm⟩ := hs
    rw [Value.int.inj (Option.some.inj hm)]
  | null => exact absurd hs (by simp [Arg.Shows])
  | _ => exact absurd hs (by simp [Arg.Shows, hkind])

/-- A size that is null is passed as null. -/
theorem null {width : IntWidth} (hs : arg.Shows h hidden (param, slot))
    (hslot : slot = none ∨ slot = some .null) (hkind : param.spec.kind = .int width) :
    arg = .null := by
  cases arg with
  | null => rfl
  | int m => rcases hslot with rfl | rfl <;> exact absurd hs (by simp [Arg.Shows])
  | _ => exact absurd hs (by simp [Arg.Shows, hkind])

/-- Where an object is asked for, null is passed as it is, and another value is shown by a new
object, which holds new objects if it is a vector. -/
theorem object {constraint : Option String} (hs : arg.Shows h hidden (param, slot))
    (hkind : param.spec.kind = .object constraint) :
    (arg = .null ∧ slot.getD .null = .null) ∨ ∃ q v, arg = .object q ∧ slot = some v ∧
      (h.view hidden).Shows v (some q) ∧ h.Single q ∧
      ∀ elements, (h.obj q).payload = .vector elements → ∀ z, some z ∈ elements → h.Single z := by
  cases arg with
  | null =>
    refine Or.inl ⟨rfl, ?_⟩
    rcases hs with rfl | rfl <;> rfl
  | object q =>
    obtain ⟨-, v, hv, hnew⟩ := hs
    exact Or.inr ⟨q, v, rfl, hv, hnew⟩
  | _ => exact absurd hs (by simp [Arg.Shows, hkind])

end Arg.Shows

/-! ### Constructors -/

/-- **A constructor that looks at a capacity** makes an empty container, or a plain error. -/
theorem ContainerKind.makes_of_capacity {α : Type} {kind : ContainerKind α} {op : CoreConstructor}
    {room : Memory → Nat → Bool} (hzero : ∀ memory, room memory 0 = true)
    {capacity : Arg → NativeM Nat} {message : String} {payload : Payload} {empty : α}
    (hcode : ∀ args, Parcel.runConstructor kind.cls args op = do
      let n ← capacity (← argAt args 0)
      if ← NativeM.reserve room n then
        return .incremented (← NativeM.alloc kind.cls payload)
      else NativeM.fail (message ++ toString n))
    (hnull : ∀ env h, capacity .null env h = .ok 0 h)
    (hint : ∀ env h n, 0 ≤ n.toInt → capacity (.int n) env h = .ok n.toInt.toNat h)
    (hrefs : payload.references = []) (hshows : ∀ V, kind.Shows V empty payload) :
    kind.Makes [⟨"capacity", Parcel.maybeSize⟩] op
      (fun memory => capacityRefusal (room memory) message) empty := by
  refine ⟨payload, hrefs, hshows, ?_⟩
  intro env h hidden args slots hshown haccepted
  obtain ⟨arg, slot, rfl, rfl, harg, hslot⟩ := args_one hshown haccepted
  rw [hcode, NativeM.bind_of_ok (NativeM.argAt_run env h rfl)]
  rcases hslot.integer rfl with rfl | rfl | ⟨n, rfl, hn⟩
  · obtain rfl := harg.null (Or.inl rfl) rfl
    rw [NativeM.bind_of_ok (hnull env h), NativeM.bind_of_ok (NativeM.reserve_apply env h room _),
      if_pos (hzero _)]
    rfl
  · obtain rfl := harg.null (Or.inr rfl) rfl
    rw [NativeM.bind_of_ok (hnull env h), NativeM.bind_of_ok (NativeM.reserve_apply env h room _),
      if_pos (hzero _)]
    rfl
  · obtain rfl := harg.integer rfl
    rw [NativeM.bind_of_ok (hint env h n hn),
      NativeM.bind_of_ok (NativeM.reserve_apply env h room _)]
    simp only [capacityRefusal_int]
    split_ifs <;> rfl

end Interop

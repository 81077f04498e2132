/-
# Equality of integers

The method `Equals` of integers compares numbers of every kind, so it widens them to floats
first.  Integers of more than 53 binary digits are rounded by that, and **two integers are
equal** exactly when the numbers nearest to them are the same
(`Site.integers_equal_as_floats`): for numbers up to `2 ^ 53` when they are equal themselves.

A call of the module answers the same for an integer of host code as for a wrapped object that
holds it: the one becomes an object for the length of the call, to the other the frame takes a
reference, and neither changes what the objects hold (`Conversion.build_integer`).
-/

import Interop.Proofs.Call.Screening
import Interop.Proofs.Container.Requests
import Interop.Proofs.Number.Rounding

namespace Interop

open Binary64

/-! ### The native method -/

namespace Parcel

/-- The method that compares numbers. -/
def numberEquality : Method :=
  method "Equals" (.value truth) [("other", maybeObject)] .numberEquals

/-- Integers are compared by the method of the numbers. -/
theorem integer_equality : integer.method? "Equals" = some numberEquality := by
  decide +kernel

/-- Two objects that hold integers are compared as floats; nothing happens to them. -/
theorem runMethod_numberEquals {h : Heap} {p q : ObjId} {a b : Int64} (env : NativeEnv)
    (hp : (h.obj p).payload = .integer a) (hq : (h.obj q).payload = .integer b) :
    runMethod p [.object q] .numberEquals env h =
      .ok (.bool (decide (nearestInt a.toInt = nearestInt b.toInt))) h := by
  have hvalues : Number.sameValue (h.obj p).payload (h.obj q).payload =
      decide (nearestInt a.toInt = nearestInt b.toInt) := by
    rw [hp, hq, Number.sameValue, Payload.numeric?, Payload.numeric?]
    exact ofInt_beq a b
  rw [← hvalues]
  rfl

end Parcel

/-! ### Integers in host values -/

/-- The value is the integer, or wraps an object that holds it. -/
inductive StandsFor (w : World) (b : Int64) : HostValue → Prop
  | int : StandsFor w b (.int b)
  | wrapped (o : Wrapper) (howns : w.owns o.handle = true)
    (hvalue : (w.obj (w.handle o.handle).object).payload = .integer b) :
    StandsFor w b (.object o)

section

variable {w w' : World} {b : Int64} {v : HostValue} {p : ObjId} {taken : Multiset ObjId}

/-- What an object holds is the same after references were taken. -/
theorem World.Grew.payload_eq (g : w.Grew taken w') {o : Obj} (hp : w.heap.get? p = some o) :
    (w'.heap.obj p).payload = (w.heap.obj p).payload := by
  obtain ⟨count, hc, -⟩ := g.kept p o hp
  rw [Heap.obj_of_get? hc, Heap.obj_of_get? hp]

namespace StandsFor

/-- What stands for a number is not null. -/
theorem isNull_eq (h : StandsFor w b v) : v.isNull = false := by
  cases h <;> rfl

/-- What is behind the value is there. -/
theorem exists_behind (h : StandsFor w b v) (hw : w.Grounded) :
    ∀ q ∈ w.behind v.objects, ∃ x, w.heap.get? q = some x := by
  intro q hq
  cases h with
  | int => exact absurd hq (Multiset.notMem_zero q)
  | wrapped o howns _ =>
    obtain rfl := Multiset.mem_singleton.1 hq
    obtain ⟨x, hx, -⟩ := hw.referenced o.handle howns
    exact ⟨x, hx⟩

/-- What stands for a number still does after references were taken. -/
theorem grew (h : StandsFor w b v) (hw : w.Grounded) (g : w.Grew taken w') :
    StandsFor w' b v := by
  cases h with
  | int => exact .int
  | wrapped o howns hvalue =>
    obtain ⟨x, hx, -⟩ := hw.referenced o.handle howns
    refine .wrapped o (by rw [g.owns_eq, howns]) ?_
    rw [World.obj, g.handle_eq, g.payload_eq hx]
    exact hvalue

end StandsFor

open Conversion

/-- **An integer becomes an object that holds it.** -/
theorem Conversion.build_integer (m : Machine) (param : String) (h : StandsFor w b v)
    (hw : w.Grounded) (room : w.Spare (w.behind v.objects)) :
    ∃ q w', build m param v w = .ok (some q) w' ∧ w.Grew (w.behind v.objects) w' ∧
      (w'.heap.obj q).payload = .integer b := by
  cases h with
  | int =>
    refine ⟨_, _, rfl, .alloc Parcel.integer (.integer b) w, ?_⟩
    exact congrArg Obj.payload (Heap.obj_of_get? (Heap.get?_alloc_self _ _))
  | wrapped o howns hvalue =>
    obtain ⟨w', hretain⟩ := retain_complete hw howns room
    obtain ⟨-, -, x, hx, hgrew⟩ := retain_sound hw hretain
    refine ⟨(w.handle o.handle).object, w', ?_, hgrew, ?_⟩
    · rw [build, Steps.bind_apply, hretain]
      rfl
    · rw [hgrew.payload_eq hx]
      exact hvalue

end

/-! ### Calls of a module -/

namespace Site

variable {s : Site} {w : World} {o : Wrapper} {a b : Int64} {v : HostValue} {args : CallArgs}
  {m : Method}

open Conversion

/-- Staging takes what the call borrows and changes nothing that the objects hold. -/
theorem stage_equality (s : Site) (hw : w.Grounded) (ho : StandsFor w a (.object o))
    (hv : StandsFor w b v) (room : w.Spare (w.behind (o :: v.objects)))
    (hargs : args.bind ["other"] = .ok [some v]) :
    ∃ p q owned w₁, s.stage Parcel.numberEquality (some o) args w =
        .ok ⟨some p, [.object q], owned⟩ w₁ ∧
      (w₁.heap.obj p).payload = .integer a ∧ (w₁.heap.obj q).payload = .integer b := by
  cases ho with
  | wrapped _ howns hvalue =>
  have hroom : w.Spare ({(w.handle o.handle).object} + w.behind v.objects) := by
    rw [show ({(w.handle o.handle).object} : Multiset ObjId) = w.behind [o] from rfl,
      ← World.behind_append]
    exact room
  obtain ⟨x, hx, -⟩ := hw.referenced o.handle howns
  have hcode : Parcel.numberEquality.code = .onObject (.core .numberEquals) := rfl
  obtain ⟨w₀, hreceives⟩ := receives_some hcode hw howns hroom.left
  obtain ⟨hreceiver, hgrew, -, -⟩ := hreceives
  have hgrew₀ : w.Grew {(w.handle o.handle).object} w₀ := hgrew
  have hroom₀ : w₀.Spare (w₀.behind v.objects) := by
    rw [hgrew₀.behind_eq]
    exact hroom.grew hgrew₀ (hv.exists_behind hw)
  obtain ⟨q, w₁, hbuild, hgrew₁, hq⟩ := build_integer s.machine "other" (hv.grew hw hgrew₀)
    (hgrew₀.grounded hw) hroom₀
  have hpush : pushArg s.machine s.registry ⟨"other", Parcel.maybeObject⟩ v
      ⟨w₀, Frame.empty.withReceiver (w.handle o.handle).object⟩ = .ok () ⟨w₁,
        ((Frame.empty.withReceiver (w.handle o.handle).object).adopt q).push (.object q)⟩ := by
    have hkind : Parcel.maybeObject.kind = .object none := rfl
    rw [pushArg_object s.machine hkind hv.isNull_eq]
    simp only [pushObject, Steps.bind_apply, StageM.lift_apply, hbuild]
    rfl
  refine ⟨(w.handle o.handle).object, q, [(w.handle o.handle).object, q], w₁, ?_, ?_, hq⟩
  · have hparams : Parcel.numberEquality.params = [⟨"other", Parcel.maybeObject⟩] := rfl
    have hnames : Parcel.numberEquality.paramNames = ["other"] := rfl
    simp only [stage, fillFrame, Steps.bind_apply, hreceiver, pushArgs, hnames, hargs, hparams,
      List.zip_cons_cons, List.zip_nil_right, pushSlots, hpush, Steps.pure_apply]
    rfl
  · rw [(hgrew₀.trans hgrew₁).payload_eq hx]
    exact hvalue

/-- A call of `equals` with an integer. -/
theorem callMethod_equals (hoffer : s.module.resolve? o.cls "equals" = some (.method m))
    (hmethod : o.cls.method? m.name = some Parcel.numberEquality) (hw : w.Grounded)
    (ho : StandsFor w a (.object o)) (hv : StandsFor w b v)
    (room : w.Spare (w.behind (o :: v.objects)))
    (hargs : args.bind ["other"] = .ok [some v]) :
    ∃ w', s.callMethod o "equals" args w =
      .ok (.bool (decide (nearestInt a.toInt = nearestInt b.toInt))) w' := by
  obtain ⟨p, q, owned, w₁, hstage, hp, hq⟩ := stage_equality s hw ho hv room hargs
  refine ⟨w₁.releaseAll s.machine owned, ?_⟩
  have hrun := Parcel.runMethod_numberEquals (s.machine.env w₁.program.registryView) hp hq
  rw [callMethod, callMethodAt, hoffer]
  simp only [hmethod, Option.getD_some, HostM.inFrame_apply]
  rw [invoke, if_pos (by decide), Steps.bind_apply, hstage]
  have hcode : Call.codeFor s.machine.image Parcel.numberEquality.code o.cls
      ⟨some p, [.object q], owned⟩ = some (Parcel.runMethod p [.object q] .numberEquals) := rfl
  simp only [Call.runTrapped_of_returned _ _ hcode hrun, World.settle_self]
  rfl

/-- **Integers are equal when they are as floats.**  For each two integers there is one answer,
which objects get that hold them, and host code that asks a module: whether the numbers nearest
to them are the same.  Up to `2 ^ 53` that is whether they are the same themselves. -/
theorem integers_equal_as_floats (a b : Int64) : ∃ answer : Bool,
    (answer = true ↔ nearestInt a.toInt = nearestInt b.toInt) ∧
    (a.toInt.natAbs ≤ 2 ^ 53 → b.toInt.natAbs ≤ 2 ^ 53 → (answer = true ↔ a = b)) ∧
    Parcel.integer.method? "Equals" = some Parcel.numberEquality ∧
    (∀ (env : NativeEnv) (h : Heap) (p q : ObjId), (h.obj p).payload = .integer a →
      (h.obj q).payload = .integer b →
      Parcel.runMethod p [.object q] .numberEquals env h = .ok (.bool answer) h) ∧
    ∀ (s : Site) (m : Method) (o : Wrapper) (v : HostValue) (args : CallArgs) (w : World),
      s.module.resolve? o.cls "equals" = some (.method m) →
      o.cls.method? m.name = some Parcel.numberEquality → w.Grounded →
      StandsFor w a (.object o) → StandsFor w b v → w.Spare (w.behind (o :: v.objects)) →
      args.bind ["other"] = .ok [some v] →
      ∃ w', s.callMethod o "equals" args w = .ok (.bool answer) w' := by
  refine ⟨decide (nearestInt a.toInt = nearestInt b.toInt), decide_eq_true_iff, fun ha hb => ?_,
    Parcel.integer_equality, fun env h p q hp hq => Parcel.runMethod_numberEquals env hp hq, ?_⟩
  · rw [decide_eq_true_iff, nearestInt_of_le ha, nearestInt_of_le hb, Int64.toInt_inj]
  · intro s m o v args w hoffer hmethod hw ho hv room hargs
    exact callMethod_equals hoffer hmethod hw ho hv room hargs

end Site

namespace Sample

/-- A world with one integer, which host code wraps. -/
def integerWorld (a : Int64) : World where
  heap := (Heap.initial.alloc Parcel.integer (.integer a)).2
  handles := #[⟨⟨2⟩, Parcel.integer, true, .strict, 1⟩]
  program := .ready

/-- The wrapper of the integer. -/
def integerWrapper : Wrapper :=
  ⟨⟨0⟩, Parcel.integer⟩

/-- Everything in the example world stands for something. -/
theorem integerWorld_grounded (a : Int64) : (integerWorld a).Grounded where
  truth b := by cases b <;> exact ⟨1, rfl⟩
  referenced h howned := by
    obtain ⟨i⟩ := h
    match i with
    | 0 => exact ⟨Heap.fresh Parcel.integer (.integer a), rfl, fun _ => Nat.one_pos⟩
    | i + 1 => exact absurd howned (by simp [World.handle, integerWorld, HandleState.vacant])

/-- The wrapper of the example stands for its number. -/
theorem integerWorld_stands (a : Int64) :
    StandsFor (integerWorld a) a (.object integerWrapper) :=
  .wrapped integerWrapper rfl rfl

/-- There is room for two more references. -/
theorem integerWorld_spare (a : Int64) : (integerWorld a).Spare ({⟨2⟩} + {⟨2⟩}) := by
  intro p hp o ho _
  obtain rfl : p = ⟨2⟩ := by simpa using hp
  obtain rfl := Option.some.inj ho
  show 1 + Multiset.count (⟨2⟩ : ObjId) ({⟨2⟩} + {⟨2⟩}) ≤ maxCount
  decide

/-- There is room for one more reference in the example. -/
theorem integerWorld_room (a : Int64) :
    (integerWorld a).Spare ((integerWorld a).behind [integerWrapper]) :=
  (integerWorld_spare a).left

/-- The module of the core parcel offers the method. -/
theorem clownfishSite_offers : clownfishSite.module.resolve? Parcel.integer "equals" =
    some (.method Parcel.numberEquality) := by
  have hname : Parcel.numberEquality.hostName = "equals" := by decide +kernel
  rw [clownfishSite_module, ← hname]
  exact CoreBinding.resolve?_of_offers (CoreBinding.offers_of_integer _ (by decide +kernel))

/-- From 7 the integer 9 of host code differs, and the object itself does not. -/
theorem clownfishSite_equality :
    (∃ w', clownfishSite.callMethod integerWrapper "equals" ⟨[.int 9], []⟩ (integerWorld 7) =
      .ok (.bool false) w') ∧
    ∃ w', clownfishSite.callMethod integerWrapper "equals" ⟨[.object integerWrapper], []⟩
      (integerWorld 7) = .ok (.bool true) w' := by
  obtain ⟨differ, -, hdiffer, -, -, hcall⟩ := Site.integers_equal_as_floats 7 9
  obtain ⟨same, hsame, -, -, -, hcall'⟩ := Site.integers_equal_as_floats 7 7
  obtain rfl : differ = false := by
    rw [← Bool.not_eq_true, hdiffer (by decide) (by decide)]
    decide
  obtain rfl : same = true := hsame.2 rfl
  exact ⟨hcall clownfishSite _ integerWrapper _ _ _ clownfishSite_offers Parcel.integer_equality
      (integerWorld_grounded 7) (integerWorld_stands 7) .int (integerWorld_room 7) rfl,
    hcall' clownfishSite _ integerWrapper _ _ _ clownfishSite_offers Parcel.integer_equality
      (integerWorld_grounded 7) (integerWorld_stands 7) (integerWorld_stands 7)
      (integerWorld_spare 7) rfl⟩

/-- An integer of host code is compared with the one that is wrapped. -/
theorem integerWrapper_equals (a b : Int64) :
    ∃ w', clownfishSite.callMethod integerWrapper "equals" ⟨[.int b], []⟩ (integerWorld a) =
      .ok (.bool (decide (nearestInt a.toInt = nearestInt b.toInt))) w' :=
  Site.callMethod_equals clownfishSite_offers Parcel.integer_equality (integerWorld_grounded a)
    (integerWorld_stands a) .int (integerWorld_room a) rfl

/-- The first two integers that one float stands for differ, but not for the method. -/
theorem great_integers_equal :
    (∃ w', clownfishSite.callMethod integerWrapper "equals" ⟨[.int 9007199254740993], []⟩
      (integerWorld 9007199254740992) = .ok (.bool true) w') ∧
    (9007199254740992 : Int64) ≠ 9007199254740993 := by
  obtain ⟨w', hcall⟩ := integerWrapper_equals 9007199254740992 9007199254740993
  have hnearest : nearestInt (9007199254740992 : Int64).toInt =
      nearestInt (9007199254740993 : Int64).toInt := by decide +kernel
  rw [decide_eq_true hnearest] at hcall
  exact ⟨⟨w', hcall⟩, by decide⟩

end Sample

end Interop

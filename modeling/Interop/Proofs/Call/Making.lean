/-
# Making objects

A call that makes an object uses the nearest constructor on offer, for the class that was asked
for.  Where there is none, or where no class of the ancestry is bound, it is refused and nothing
runs.

A constructor of the core parcel has one parameter, which takes no object as it is, so the frame
of its call owns one reference at most: to a text that was made for the argument, or to one that
host code wraps (`Conversion.Passes`).  It is given back with the frame.  **What remains of the
call** (`Site.construct_nearest`) is a new wrapper, the only owner of an object that was not there
before: one of the class asked for, not of the one that declares the constructor, and with the
argument in it (`Carries`).
-/

import Interop.Proofs.Binding.Makers
import Interop.Proofs.Call.Dispatch
import Interop.Proofs.Call.Screening
import Interop.Proofs.Heap.Added
import Interop.Proofs.Native.Containers
import Interop.Proofs.Ownership.Sessions

namespace Interop

/-! ### Worlds in which everything is there -/

/-- A grounded world in which everything is there that objects refer to. -/
structure World.Whole (w : World) : Prop extends w.Grounded where
  references : ∀ q x, w.heap.get? q = some x → ∀ r ∈ x.payload.references,
    ∃ y, w.heap.get? r = some y

/-- So it is wherever all references are accounted for. -/
theorem World.Balanced.whole {K : Class → Prop} {extra : Multiset ObjId} {w : World}
    (b : World.Balanced K extra w) : w.Whole where
  truth := b.orderly.truth
  referenced h howned := by
    obtain ⟨o, ho, -⟩ := b.cls_eq h howned
    exact ⟨o, ho, (b.orderly.proper _ o ho).referenced⟩
  references q x hq r hr := b.orderly.get?_of_reference hq hr

/-! ### The argument of a constructor -/

/-- The text that a value stands for: a text of host code, or a wrapped one. -/
def HostValue.textIn (w : World) : HostValue → Option String
  | .str t => some t
  | .object o => (w.obj (w.handle o.handle).object).payload.text?
  | _ => none

/-- The payload is what a constructor of the core parcel makes of its argument. -/
inductive Carries (w : World) : CoreConstructor → Option HostValue → Payload → Prop
  | string {v : HostValue} {t : String} (h : HostValue.textIn w v = some t) :
    Carries w .string (some v) (.str t)
  | integer (n : Int64) : Carries w .integer (some (.int n)) (.integer n)
  | float (x : Float) : Carries w .float (some (.float x)) (.float x)
  | widened (n : Int64) : Carries w .float (some (.int n)) (.float (Float.ofInt n.toInt))
  | hash (slot : Option HostValue) : Carries w .hash slot (.hash .empty)
  | vector (slot : Option HostValue) : Carries w .vector slot (.vector [])
  | error {v : HostValue} {t : String} (h : HostValue.textIn w v = some t) :
    Carries w .error (some v) (.err t)

/-- The class of the core parcel that declares the constructor. -/
def CoreConstructor.home : CoreConstructor → Class
  | .string => Parcel.string
  | .integer => Parcel.integer
  | .float => Parcel.float
  | .hash => Parcel.hash
  | .vector => Parcel.vector
  | .error => Parcel.err

namespace Carries

variable {w : World} {op : CoreConstructor} {slot : Option HostValue} {payload : Payload}

/-- What is made is of the kind of the class that declares the constructor. -/
theorem home_eq (h : Carries w op slot payload) : payload.home = op.home := by
  cases h <;> rfl

/-- What a constructor of the core parcel makes holds no references. -/
theorem references_eq (h : Carries w op slot payload) : payload.references = [] := by
  cases h <;> rfl

end Carries

namespace Conversion

/-- What becomes of a value for a parameter that takes no object as it is: the argument, the
references that the frame then owns, and the world. -/
inductive Passes (w : World) : Option HostValue → Arg → List ObjId → World → Prop
  | missing : Passes w none .null [] w
  | null : Passes w (some .null) .null [] w
  | bool (b : Bool) : Passes w (some (.bool b)) (.bool b) [] w
  | int (n : Int64) : Passes w (some (.int n)) (.int n) [] w
  | float (x : Float) : Passes w (some (.float x)) (.float x) [] w
  | widened (n : Int64) : Passes w (some (.int n)) (.float (Float.ofInt n.toInt)) [] w
  | made (t : String) : Passes w (some (.str t)) (.object (w.heap.alloc Parcel.string (.str t)).1)
      [(w.heap.alloc Parcel.string (.str t)).1]
      { w with heap := (w.heap.alloc Parcel.string (.str t)).2 }
  | lent (o : Wrapper) (heap : Heap) (howned : (w.handle o.handle).owned = true)
    (hretain : w.heap.retain (w.handle o.handle).object = .ok heap) :
    Passes w (some (.object o)) (.object (w.handle o.handle).object)
      [(w.handle o.handle).object] { w with heap }

variable {w : World} {m : Machine} {registry : Registry} {param : Param} {v : HostValue}
  {s : Staging}

/-- A wrapper in the place of a text passes its text as one argument. -/
theorem pushWrappedText_passes {o : Wrapper}
    (h : pushWrappedText param v o ⟨w, .empty⟩ = .ok () s) :
    ∃ arg owned w₁, Passes w (some (.object o)) arg owned w₁ ∧ s = ⟨w₁, none, [arg], owned⟩ := by
  simp only [pushWrappedText, Steps.bind_apply, StageM.lift_apply, Handle.retain_apply,
    StageM.adopt_apply, Steps.get_apply] at h
  by_cases howned : (w.handle o.handle).owned = true
  swap
  · rw [if_neg howned] at h
    exact absurd h (by simp)
  rw [if_pos howned] at h
  rcases hretain : w.heap.retain (w.handle o.handle).object with e | heap <;> rw [hretain] at h
  · exact absurd h (by simp)
  simp only at h
  split_ifs at h
  · obtain rfl := (EStateM.Result.ok.inj h).2
    exact ⟨_, _, _, .lent o heap howned hretain, rfl⟩
  · exact absurd h (by simp [mismatch])

/-- A value for a parameter that takes no object passes as one argument. -/
theorem pushArg_passes (hkind : ∀ constraint, param.spec.kind ≠ .object constraint)
    (h : pushArg m registry param v ⟨w, .empty⟩ = .ok () s) :
    ∃ arg owned w₁, Passes w (some v) arg owned w₁ ∧ s = ⟨w₁, none, [arg], owned⟩ := by
  have hfail : ∀ {e : BridgeError}, (throw e : StageM Unit) ⟨w, .empty⟩ ≠ .ok () s := by simp
  have hpush : ∀ {arg : Arg}, StageM.push arg ⟨w, .empty⟩ = .ok () s →
      s = ⟨w, none, [arg], []⟩ := fun hs => (EStateM.Result.ok.inj hs).2.symm
  unfold pushArg at h
  split_ifs at h with hnull hnullable
  · obtain rfl : v = .null := by cases v <;> simp_all [Value.isNull]
    exact ⟨_, _, _, .null, hpush h⟩
  · exact absurd h hfail
  -- per kind one form of value passes, and the others were refused
  cases hspec : param.spec.kind with
  | bool =>
    rw [hspec] at h
    cases v with
    | bool b => exact ⟨_, _, _, .bool b, hpush h⟩
    | _ => exact absurd h hfail
  | int width =>
    rw [hspec] at h
    cases v with
    | int n =>
      simp only at h
      split_ifs at h
      · exact ⟨_, _, _, .int n, hpush h⟩
      · exact absurd h hfail
    | _ => exact absurd h hfail
  | float =>
    rw [hspec] at h
    cases v with
    | float x => exact ⟨_, _, _, .float x, hpush h⟩
    | int n => exact ⟨_, _, _, .widened n, hpush h⟩
    | _ => exact absurd h hfail
  | text =>
    rw [hspec] at h
    cases v with
    | str t => exact ⟨_, _, _, .made t, (EStateM.Result.ok.inj h).2.symm⟩
    | object o => exact pushWrappedText_passes h
    | _ => exact absurd h hfail
  | object constraint => exact absurd hspec (hkind constraint)
  | pointer =>
    rw [hspec] at h
    exact absurd h hfail

/-- The text that the argument holds is the one that the value stands for. -/
theorem Passes.textIn_eq {slot : Option HostValue} {arg : Arg} {owned : List ObjId} {w₁ : World}
    {q : ObjId} {t : String} (p : Passes w slot arg owned w₁) (harg : arg = .object q)
    (ht : (w₁.heap.obj q).payload.text? = some t) :
    ∃ v, slot = some v ∧ HostValue.textIn w v = some t := by
  cases p with
  | made text =>
    obtain rfl := Arg.object.inj harg
    rw [Heap.obj_of_get? (Heap.get?_alloc_self _ _)] at ht
    exact ⟨_, rfl, ht⟩
  | lent o heap howned hretain =>
    obtain rfl := Arg.object.inj harg
    refine ⟨_, rfl, ?_⟩
    rw [HostValue.textIn, World.obj, ← ht, Heap.payload_retain _ hretain]
  | _ => exact absurd harg (by simp)

end Conversion

/-! ### What is left of a frame -/

namespace Conversion.Passes

variable {w w₁ : World} {slot : Option HostValue} {arg : Arg} {owned : List ObjId}

/-- Passing an argument makes no handle. -/
theorem handles_eq (p : Passes w slot arg owned w₁) : w₁.handles = w.handles := by
  cases p <;> rfl

/-- **Once the frame has given back what it owned,** a new object is all that there is more. -/
theorem adds (p : Passes w slot arg owned w₁) (g : w.Grounded) (m : Machine) (global : Registry)
    (cls : Class) (payload : Payload) :
    w.heap.Adds (w₁.heap.alloc cls payload).1 (Heap.fresh cls payload)
      ((w₁.heap.alloc cls payload).2.giveBackAll (m.release global) owned) := by
  cases p with
  | made t => exact Heap.adds_of_text m global w.heap t cls payload
  | lent o heap howned hretain =>
    obtain ⟨x, hx, hpos⟩ := g.referenced o.handle howned
    exact Heap.adds_of_retained m global hx hpos hretain cls payload
  | _ => exact Heap.adds_alloc w.heap cls payload

end Conversion.Passes

/-! ### Running a constructor -/

namespace Parcel

open NativeM Conversion

variable {env : NativeEnv} {h h' : Heap} {arg : Arg} {ret : Ret} {cls : Class} {w w₁ : World}
  {slot : Option HostValue} {owned : List ObjId}

/-- What is made from a text is made from the text that the argument holds. -/
theorem makes_of_text (payload : String → Payload)
    (hrun : (do
        let text ← (← argAt [arg] 0).toText
        return .incremented (← alloc cls (payload text)) : NativeM Ret) env h = .ok ret h') :
    ∃ q t, arg = .object q ∧ (h.obj q).payload.text? = some t ∧
      ret = .incremented (h.alloc cls (payload t)).1 ∧ h' = (h.alloc cls (payload t)).2 := by
  obtain ⟨found, h₁, harg, hrun⟩ := bind_inv hrun
  obtain ⟨rfl, rfl⟩ := EStateM.Result.ok.inj harg
  obtain ⟨t, h₂, htext, hrun⟩ := bind_inv hrun
  obtain ⟨q, rfl, hq⟩ := toText_ok htext
  obtain ⟨-, rfl⟩ := EStateM.Result.ok.inj ((toText_run env hq).symm.trans htext)
  obtain ⟨rfl, rfl⟩ := EStateM.Result.ok.inj hrun
  exact ⟨q, t, rfl, hq, rfl, rfl⟩

/-- Asking for the capacity changes nothing. -/
theorem capacity_keeps {room : Nat} :
    (Hash.capacity arg env h = .ok room h' → h' = h) ∧
      (Vector.capacity arg env h = .ok room h' → h' = h) := by
  constructor
  · intro hrun
    cases arg with
    | null => exact (EStateM.Result.ok.inj hrun).2.symm
    | int n => exact (EStateM.Result.ok.inj hrun).2.symm
    | _ => exact absurd hrun (by simp [Hash.capacity, Arg.toInt, Arg.unexpected])
  · intro hrun
    cases arg with
    | null => exact (EStateM.Result.ok.inj hrun).2.symm
    | int n =>
      simp only [Vector.capacity, Vector.tick, Arg.toInt, bind_apply, pure_apply] at hrun
      split_ifs at hrun
      · exact absurd hrun (by simp)
      · exact (EStateM.Result.ok.inj hrun).2.symm
    | _ => exact absurd hrun (by simp [Vector.capacity, Vector.tick, Arg.toInt, Arg.unexpected])

/-- **A constructor of the core parcel that returns** has made an object of the class that it
was asked for, from its argument. -/
theorem runConstructor_carries (op : CoreConstructor) (p : Passes w slot arg owned w₁)
    (hrun : runConstructor cls [arg] op env w₁.heap = .ok ret h') :
    ∃ payload, Carries w op slot payload ∧ ret = .incremented (w₁.heap.alloc cls payload).1 ∧
      h' = (w₁.heap.alloc cls payload).2 := by
  -- the body reads the argument in one way only, so how it passed decides what is made
  cases op with
  | string =>
    obtain ⟨q, t, harg, ht, hret, hheap⟩ := makes_of_text .str hrun
    obtain ⟨v, rfl, hv⟩ := p.textIn_eq harg ht
    exact ⟨.str t, .string hv, hret, hheap⟩
  | error =>
    obtain ⟨q, t, harg, ht, hret, hheap⟩ := makes_of_text .err hrun
    obtain ⟨v, rfl, hv⟩ := p.textIn_eq harg ht
    exact ⟨.err t, .error hv, hret, hheap⟩
  | integer =>
    cases p with
    | int n =>
      obtain ⟨rfl, rfl⟩ := EStateM.Result.ok.inj hrun
      exact ⟨_, .integer n, rfl, rfl⟩
    | _ => exact absurd hrun (by simp [runConstructor, Number.makeInteger, argAt, Arg.toInt,
        Arg.unexpected])
  | float =>
    cases p with
    | float x =>
      obtain ⟨rfl, rfl⟩ := EStateM.Result.ok.inj hrun
      exact ⟨_, .float x, rfl, rfl⟩
    | widened n =>
      obtain ⟨rfl, rfl⟩ := EStateM.Result.ok.inj hrun
      exact ⟨_, .widened n, rfl, rfl⟩
    | int n =>
      obtain ⟨rfl, rfl⟩ := EStateM.Result.ok.inj hrun
      exact ⟨_, .widened n, rfl, rfl⟩
    | _ => exact absurd hrun (by simp [runConstructor, Number.makeFloat, argAt, Arg.toFloat,
        Arg.unexpected])
  | hash =>
    obtain ⟨found, h₁, harg, hrun⟩ := bind_inv hrun
    obtain ⟨rfl, rfl⟩ := EStateM.Result.ok.inj harg
    obtain ⟨room, h₂, hroom, hrun⟩ := bind_inv hrun
    obtain rfl := capacity_keeps.1 hroom
    rw [bind_of_ok (reserve_apply env _ _ room)] at hrun
    split_ifs at hrun
    · obtain ⟨rfl, rfl⟩ := EStateM.Result.ok.inj hrun
      exact ⟨_, .hash slot, rfl, rfl⟩
    · exact absurd hrun (by simp)
  | vector =>
    obtain ⟨found, h₁, harg, hrun⟩ := bind_inv hrun
    obtain ⟨rfl, rfl⟩ := EStateM.Result.ok.inj harg
    obtain ⟨room, h₂, hroom, hrun⟩ := bind_inv hrun
    obtain rfl := capacity_keeps.2 hroom
    rw [bind_of_ok (reserve_apply env _ _ room)] at hrun
    split_ifs at hrun
    · obtain ⟨rfl, rfl⟩ := EStateM.Result.ok.inj hrun
      exact ⟨_, .vector slot, rfl, rfl⟩
    · exact absurd hrun (by simp)

/-- Whether the method is the constructor that `root` declares, of one parameter that takes no
object as it is. -/
def isMakerOf (root : Class) (m : Method) : Bool :=
  match m.params, m.code with
  | [param], .onClass (.core op) =>
    (op.home == root) && (match param.spec.kind with
      | .object _ => false
      | _ => true)
  | _, _ => false

/-- The constructors of the core parcel make what their classes hold. -/
theorem isMakerOf_of_mem : ∀ root ∈ classes, ∀ m ∈ root.maker.toList, isMakerOf root m = true := by
  decide +kernel

/-- **The constructors of the core parcel** have one parameter each. -/
theorem maker_shape {root : Class} (hroot : root ∈ classes) {m : Method}
    (hm : root.maker = some m) : ∃ param op, m.params = [param] ∧
      (∀ constraint, param.spec.kind ≠ .object constraint) ∧ m.code = .onClass (.core op) ∧
        op.home = root := by
  have hshape := isMakerOf_of_mem root hroot m (Option.mem_toList.2 hm)
  obtain ⟨name, ret, params, code, hidden⟩ := m
  unfold isMakerOf at hshape
  split at hshape
  case h_1 param op hparams hcode =>
    obtain ⟨hhome, hkind⟩ := Bool.and_eq_true_iff.1 hshape
    refine ⟨param, op, hparams, fun constraint hspec => ?_, hcode, beq_iff_eq.1 hhome⟩
    rw [hspec] at hkind
    exact absurd hkind (by simp)
  case h_2 => exact absurd hshape (by simp)

end Parcel

/-! ### New wrappers -/

/-- A new handle stands for its object, and all others are as they were. -/
theorem Handle.handle_acquire (p : ObjId) (w : World) (g : HandleId) :
    (Handle.acquire p w).2.handle g = if g = ⟨w.handles.size⟩ then
      ⟨p, (w.obj p).cls, true, w.program.current.1.releasePolicy, 1⟩ else w.handle g := by
  have hget : (Handle.acquire p w).2.handles[g.index]? =
      if g.index = w.handles.size then
        some ⟨p, (w.obj p).cls, true, w.program.current.1.releasePolicy, 1⟩
      else w.handles[g.index]? := Array.getElem?_push
  by_cases hg : g = ⟨w.handles.size⟩
  · rw [World.handle, hget, if_pos (congrArg HandleId.index hg), if_pos hg, Option.getD_some]
  · have hindex : g.index ≠ w.handles.size := fun h => hg (congrArg HandleId.mk h)
    rw [World.handle, World.handle, hget, if_neg hindex, if_neg hg]

/-- In `w'` there is a new wrapper `o`, the only owner of an object that is new, too, an instance
of `c` with this payload. -/
structure World.Makes (w : World) (c : Class) (payload : Payload) (o : Wrapper) (w' : World) :
    Prop where
  adds : w.heap.Adds (w'.handle o.handle).object (Heap.fresh c payload) w'.heap
  cls_eq : o.cls = c
  handle_new : o.handle = ⟨w.handles.size⟩
  owned : (w'.handle o.handle).owned = true
  shares_eq : (w'.handle o.handle).shares = 1
  handle_eq : ∀ g, g ≠ o.handle → w'.handle g = w.handle g
  /-- No other handle owns a reference to the object. -/
  only_handle : ∀ g, (w'.handle g).owned = true →
    (w'.handle g).object = (w'.handle o.handle).object → g = o.handle
  /-- No object refers to it. -/
  no_reference : ∀ q x, w'.heap.get? q = some x →
    (w'.handle o.handle).object ∉ x.payload.references

namespace World

variable {w w' : World} {c : Class} {payload : Payload} {p : ObjId}

/-- A wrapper that adopts the one reference to a new object. -/
theorem makes_of_adds (hw : w.Whole) (hrefs : payload.references = [])
    (hadds : w.heap.Adds p (Heap.fresh c payload) w'.heap) {policy : ReleasePolicy}
    (hhandle : ∀ g, w'.handle g =
      if g = ⟨w.handles.size⟩ then ⟨p, c, true, policy, 1⟩ else w.handle g) :
    w.Makes c payload ⟨⟨w.handles.size⟩, c⟩ w' := by
  have hnew : w'.handle ⟨w.handles.size⟩ = ⟨p, c, true, policy, 1⟩ := by rw [hhandle, if_pos rfl]
  have hold : ∀ g, g ≠ ⟨w.handles.size⟩ → w'.handle g = w.handle g := fun g hg => by
    rw [hhandle, if_neg hg]
  constructor
  case adds =>
    rw [hnew]
    exact hadds
  case cls_eq => rfl
  case handle_new => rfl
  case owned => rw [hnew]
  case shares_eq => rw [hnew]
  case handle_eq => exact hold
  case only_handle =>
    intro g howned hobject
    by_contra hg
    rw [hold g hg] at howned hobject
    rw [hnew] at hobject
    -- the handle would own a reference to an object that is not there
    obtain ⟨x, hx, -⟩ := hw.referenced g howned
    rw [hobject, hadds.vacant] at hx
    exact absurd hx (by simp)
  case no_reference =>
    intro q x hq hmem
    rw [hnew] at hmem
    rw [hadds.get?_eq] at hq
    split_ifs at hq with hqp
    · obtain rfl := Option.some.inj hq
      rw [Heap.fresh, hrefs] at hmem
      exact absurd hmem List.not_mem_nil
    · obtain ⟨y, hy⟩ := hw.references q x hq p hmem
      rw [hadds.vacant] at hy
      exact absurd hy (by simp)

end World

namespace Site

variable {s : Site} {c : Class} {args : CallArgs} {m : Method} {param : Param} {w w₁ w' : World}
  {frame : Frame} {o : Wrapper} {op : CoreConstructor}

/-- The frame of a call with one argument. -/
theorem stage_passes (hparams : m.params = [param])
    (hkind : ∀ constraint, param.spec.kind ≠ .object constraint)
    (h : s.stage m none args w = .ok frame w₁) :
    ∃ slot arg owned, args.bind m.paramNames = .ok [slot] ∧
      Conversion.Passes w slot arg owned w₁ ∧ frame = ⟨none, [arg], owned⟩ := by
  unfold stage at h
  rcases hfill : s.fillFrame m none args ⟨w, .empty⟩ with ⟨u, done⟩ | ⟨e, done⟩ <;>
    rw [hfill] at h
  swap
  · exact absurd h (by simp)
  obtain ⟨rfl, rfl⟩ := EStateM.Result.ok.inj h
  have hpush : Conversion.pushArgs s.machine s.registry m args ⟨w, .empty⟩ = .ok () done := hfill
  unfold Conversion.pushArgs at hpush
  rcases hbind : args.bind m.paramNames with e | slots <;> rw [hbind] at hpush
  · exact absurd hpush (by simp)
  have hlength : slots.length = 1 := by
    rw [(CallArgs.bind_perm hbind).1, Method.paramNames, hparams]
    rfl
  obtain ⟨slot, rfl⟩ := List.length_eq_one_iff.1 hlength
  rw [hparams] at hpush
  rcases slot with _ | v
  · simp only [List.zip_cons_cons, List.zip_nil_left, Conversion.pushSlots] at hpush
    split_ifs at hpush
    · obtain rfl := (EStateM.Result.ok.inj hpush).2
      exact ⟨none, _, _, rfl, .missing, rfl⟩
    · exact absurd hpush (by simp)
  · obtain ⟨_, s₁, hv, hrest⟩ := Steps.bind_ok hpush
    obtain rfl := (EStateM.Result.ok.inj hrest).2
    obtain ⟨arg, owned, w₂, hpasses, rfl⟩ := Conversion.pushArg_passes hkind hv
    exact ⟨some v, arg, owned, rfl, hpasses, rfl⟩

/-- **A constructor of the core parcel that is called for a class** makes an instance of it. -/
theorem invoke_makes (hw : w.Whole) (hparams : m.params = [param])
    (hkind : ∀ constraint, param.spec.kind ≠ .object constraint)
    (hcode : m.code = .onClass (.core op))
    (h : s.invoke m c none args Conversion.toWrapper w = .ok o w') :
    ∃ slot payload, args.bind m.paramNames = .ok [slot] ∧ Carries w op slot payload ∧
      w.Makes c payload o w' := by
  unfold invoke at h
  split_ifs at h
  swap
  · exact absurd h (by simp)
  obtain ⟨frame, w₁, hstage, hrun⟩ := Steps.bind_ok h
  obtain ⟨slot, arg, owned, hbind, hpasses, rfl⟩ := stage_passes hparams hkind hstage
  rw [hcode] at hrun
  have hcodeFor : Call.codeFor s.machine.image (.onClass (.core op)) c ⟨none, [arg], owned⟩ =
      some (Parcel.runConstructor c [arg] op) := rfl
  rcases hnative : Parcel.runConstructor c [arg] op (s.machine.env w₁.program.registryView) w₁.heap
    with ⟨ret, h'⟩ | ⟨t, h'⟩
  swap
  · rw [Call.runTrapped_of_thrown _ _ hcodeFor hnative] at hrun
    exact absurd hrun (by simp)
  rw [Call.runTrapped_of_returned _ _ hcodeFor hnative] at hrun
  obtain ⟨payload, hcarries, rfl, rfl⟩ := Parcel.runConstructor_carries op hpasses hnative
  -- making an object does not look at the registry
  rw [World.settle_of_eq (h := (w₁.heap.alloc c payload).2) rfl] at hrun
  obtain ⟨rfl, rfl⟩ := EStateM.Result.ok.inj hrun
  refine ⟨slot, payload, hbind, hcarries, ?_⟩
  let p := (w₁.heap.alloc c payload).1
  let w₂ : World := { w₁ with heap := (w₁.heap.alloc c payload).2 }
  have hcls : (w₂.obj p).cls = c :=
    congrArg Obj.cls (Heap.obj_of_get? (Heap.get?_alloc_self c payload))
  have hhandle : ∀ g, (Handle.acquire p w₂).2.handle g = if g = ⟨w.handles.size⟩ then
      ⟨p, c, true, w₂.program.current.1.releasePolicy, 1⟩ else w.handle g := by
    intro g
    have hsame : w₂.handles = w.handles := hpasses.handles_eq
    rw [Handle.handle_acquire, hcls, hsame, World.handle, hsame, World.handle]
  have hwrapper : (Wrapper.adopt p w₂).1 = ⟨⟨w.handles.size⟩, c⟩ := by
    have hnew : (Handle.acquire p w₂).1 = ⟨w.handles.size⟩ :=
      congrArg (fun handles => HandleId.mk handles.size) hpasses.handles_eq
    show Wrapper.ofHandle (Handle.acquire p w₂).1 (Handle.acquire p w₂).2 = _
    rw [Wrapper.ofHandle, hhandle, hnew, if_pos rfl]
  show w.Makes c payload (Wrapper.adopt p w₂).1
    (World.releaseAll s.machine owned (Wrapper.adopt p w₂).2)
  rw [hwrapper]
  exact World.makes_of_adds hw hcarries.references_eq
    (hpasses.adds hw.toGrounded s.machine _ c payload) hhandle

/-! ### The choice of a constructor -/

variable {bindings : BindingSet} {registry : Registry} {name className : String} {module : Module}
  {l l' : Log.Logger}

/-- The constructor that is found is called for the class that was asked for. -/
theorem construct_of_maker (args : CallArgs) (hfetch : s.registry.fetch className = .ok c)
    (hbound : s.module.isBound c = true) (hmaker : s.module.nearestMaker? c = some m) :
    s.construct className args = HostM.inFrame (c.shortName ++ ".__init__")
      (s.invoke m c none args Conversion.toWrapper) := by
  unfold construct
  simp only [hfetch, HostM.ofExcept, pure_bind, hbound, if_true, hmaker]

/-- Without one nothing runs. -/
theorem constructBy_of_none (run : Runner) (hfetch : s.registry.fetch className = .ok c)
    (hnone : s.module.isBound c = false ∨ s.module.nearestMaker? c = none) :
    s.constructBy run className args = HostM.refuse (.methodNotFound c.name "init") := by
  have hmaker : (if s.module.isBound c then s.module.nearestMaker? c else none) = none := by
    rcases hnone with hbound | hmaker
    · rw [hbound, if_neg (by simp)]
    · rw [hmaker, ite_self]
  unfold constructBy
  simp only [hfetch, HostM.ofExcept, pure_bind, hmaker]
  rfl

/-- **A call that makes an object of the class `c`,** which was asked for by any of its names.
Where no class in the ancestry is bound, or none offers a constructor, it is refused and nothing
runs.  Otherwise it runs the nearest constructor on offer, for the class `c`.  If that is one of
the core parcel and the call succeeds, the result is the only owner of a new object of exactly
this class, which holds what the constructor makes of the argument. -/
theorem construct_nearest (hr : registry.Built) (hemit : bindings.emit name registry l =
      .ok module l') (htables : s.module.tables = module.tables)
    (hfetch : s.registry.fetch className = .ok c) :
    (¬ bindings.Covers registry c ∨ (∀ a ∈ c.ancestry, ∀ m, ¬ bindings.Offers registry a m) →
      ∀ args w, s.construct className args w =
          .error (.ofError (.methodNotFound c.name "init")) w ∧
        ∀ run, s.constructBy run className args w =
          .error (.ofError (.methodNotFound c.name "init")) w) ∧
    ((∃ m, bindings.Nearest registry c m) ∨
      ∀ a ∈ c.ancestry, ∀ m, ¬ bindings.Offers registry a m) ∧
    ∀ m, bindings.Covers registry c → bindings.Nearest registry c m →
      (∀ args, s.construct className args = HostM.inFrame (c.shortName ++ ".__init__")
        (s.invoke m c none args Conversion.toWrapper)) ∧
      ∀ root ∈ Parcel.classes, root.maker = some m → ∀ args w o w', w.Whole →
        s.construct className args w = .ok o w' → ∃ op slot payload,
          m.code = .onClass (.core op) ∧ args.bind m.paramNames = .ok [slot] ∧
          Carries w op slot payload ∧ payload.home = root ∧ w.Makes c payload o w' := by
  have hbound := bindings.isBound_iff (c := c) hr hemit htables
  have hmaker := fun m => bindings.nearestMaker?_iff (c := c) (m := m) hr hemit htables
  refine ⟨fun hnone args w => ?_, bindings.nearest_or_none hr hemit htables c,
    fun m hcovers hnearest => ?_⟩
  · have hnone' : s.module.isBound c = false ∨ s.module.nearestMaker? c = none :=
      hnone.imp (fun h => Bool.eq_false_iff.2 (mt hbound.1 h))
        (bindings.nearestMaker?_eq_none hr hemit htables).2
    have hrun : ∀ run, s.constructBy run className args w =
        .error (.ofError (.methodNotFound c.name "init")) w := fun run => by
      rw [constructBy_of_none run hfetch hnone']
      rfl
    exact ⟨hrun s.trap, hrun⟩
  · have hcall := fun args => construct_of_maker args hfetch (hbound.2 hcovers)
      ((hmaker m).2 hnearest)
    refine ⟨hcall, fun root hroot hm args w o w' hw hok => ?_⟩
    obtain ⟨param, op, hparams, hkind, hcode, hhome⟩ := Parcel.maker_shape hroot hm
    rw [hcall, HostM.inFrame_apply] at hok
    rcases hinvoke : s.invoke m c none args Conversion.toWrapper w with ⟨o', w₁⟩ | ⟨e, w₁⟩ <;>
      rw [hinvoke] at hok
    · obtain ⟨rfl, rfl⟩ := EStateM.Result.ok.inj hok
      obtain ⟨slot, payload, hbind, hcarries, hmakes⟩ :=
        invoke_makes hw hparams hkind hcode hinvoke
      exact ⟨op, slot, payload, hcode, hbind, hcarries, hcarries.home_eq.trans hhome, hmakes⟩
    · exact absurd hok (by simp)

end Site

/-! ### An instance of a class without a constructor of its own -/

namespace Sample

/-- The bindings of the site of the sealed integers. -/
def sealedBindings : BindingSet := ⟨[integerBinding]⟩

/-- The constructor of the integers. -/
def integerMaker : Method :=
  Parcel.maker [("value", Parcel.longInt)] .integer

/-- The binding of the integers is in force in the example. -/
theorem sealedBindings_inForce :
    sealedBindings.inForce? Parcel.registry Parcel.integer = some integerBinding :=
  List.find?_cons_of_pos (by decide +kernel)

/-- The nearest constructor for the example is that of the integers. -/
theorem sealedBindings_nearest : sealedBindings.Nearest Parcel.registry sealed integerMaker := by
  refine ⟨[sealed], Parcel.integer, [Parcel.obj], rfl, ⟨rfl, by decide, fun b hb => ?_⟩,
    fun x hx n hn => ?_⟩
  · obtain rfl := Option.some.inj (sealedBindings_inForce.symm.trans hb)
    rfl
  · obtain rfl := List.mem_singleton.1 hx
    exact absurd hn.1 (by simp [show sealed.maker = none from rfl])

/-- The example knows its class by name. -/
theorem sealedSite_fetch : sealedSite.registry.fetch "Sample::Sealed" = .ok sealed := by
  decide +kernel

/-- A sealed integer is made with the constructor of the integers. -/
theorem sealedSite_makes :
    (Parcel.registry.Built ∧ sealedSite.registry.fetch "Sample::Sealed" = .ok sealed ∧
      (World.ofProgram .ready).Whole) ∧
    ∃ o w', sealedSite.construct "Sample::Sealed" ⟨[.int 7], []⟩ (.ofProgram .ready) = .ok o w' ∧
      (World.ofProgram .ready).Makes sealed (.integer 7) o w' := by
  have hwhole : (World.ofProgram .ready).Whole :=
    (World.balanced_ofProgram (K := (· ∈ Parcel.classes)) (fun _ hc => hc) .ready).whole
  refine ⟨⟨Parcel.registry_built, sealedSite_fetch, hwhole⟩, ?_⟩
  obtain ⟨l', hemit⟩ : ∃ l', sealedBindings.emit "sample" Parcel.registry .fresh = .ok _ l' :=
    (BindingSet.emit_ok_iff Parcel.registry_built).2
      ⟨_, .cons ⟨_, sound_integerBinding, rfl⟩ .nil, rfl⟩
  obtain ⟨-, -, hmakes⟩ := Site.construct_nearest (s := sealedSite)
    Parcel.registry_built hemit rfl sealedSite_fetch
  obtain ⟨hcall, hcore⟩ := hmakes integerMaker
    ⟨Parcel.integer, by decide +kernel, integerBinding, sealedBindings_inForce⟩
    sealedBindings_nearest
  have hruns : ∃ o w', sealedSite.invoke integerMaker sealed none ⟨[.int 7], []⟩
      Conversion.toWrapper (.ofProgram .ready) = .ok o w' := ⟨_, _, rfl⟩
  obtain ⟨o, w', hinvoke⟩ := hruns
  have hok : sealedSite.construct "Sample::Sealed" ⟨[.int 7], []⟩ (.ofProgram .ready) =
      .ok o w' := by
    rw [hcall, HostM.inFrame_apply, hinvoke]
  obtain ⟨op, slot, payload, hop, hslot, hcarries, -, hnew⟩ :=
    hcore Parcel.integer (by decide) rfl _ _ o w' hwhole hok
  obtain rfl : CoreConstructor.integer = op := by
    have hcode : integerMaker.code = .onClass (.core .integer) := rfl
    exact Routine.core.inj (Code.onClass.inj (hcode.symm.trans hop))
  obtain rfl : some (.int 7) = slot := by
    have hbind : CallArgs.bind ⟨[.int 7], []⟩ integerMaker.paramNames = .ok [some (.int 7)] := rfl
    exact (List.cons.inj (Except.ok.inj (hbind.symm.trans hslot))).1
  cases hcarries
  exact ⟨o, w', hok, hnew⟩

end Sample

end Interop

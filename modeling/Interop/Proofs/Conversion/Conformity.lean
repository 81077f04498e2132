/-
# Which arguments are accepted

The arguments of a call are accepted exactly when each of them fits the type of its parameter
(`Param.Accepts`), and then native code gets one argument for each parameter, in order and of
the kind that its type asks for (`Arg.Conforms`).  Both halves are `pushArgs_ok_iff`.

What fits is said of the world in which the call begins.  It is the same in every world that
the arguments before have grown, since growing leaves the class and the payload of an object
alone.
-/

import Interop.Proofs.Conversion.Convertible
import Interop.Sample.Native
import Mathlib.Data.List.Forall2

namespace Interop

/-! ### Values and types -/

/-- Whether a value other than null can be an argument of this kind. -/
def TypeKind.Accepts (w : World) (registry : Registry) : TypeKind → HostValue → Prop
  | .bool, .bool _ => True
  | .int width, .int n => width.low ≤ n.toInt ∧ n.toInt ≤ width.high
  | .float, .float _ => True
  | .float, .int _ => True
  | .text, .str _ => True
  | .text, .object o => w.owns o.handle = true ∧
    ∃ text, (w.obj (w.handle o.handle).object).payload = .str text
  | .object constraint, v => v.Convertible w.owns ∧ ∀ name, constraint = some name →
    ∃ c d, registry.fetch name = .ok c ∧ w.nativeClass v = some d ∧ d.isSubclassOf c = true
  | _, _ => False

/-- Whether a parameter can do with what is in its slot.  Null and an empty slot are for
parameters that may be null. -/
def Param.Accepts (w : World) (registry : Registry) (param : Param) : Option HostValue → Prop
  | none => param.spec.nullable = true
  | some v => if v.isNull then param.spec.nullable = true else param.spec.kind.Accepts w registry v

/-- The argument is what a parameter of the type `spec` gets for the value in its slot, where
`w` is the world before the call and `w'` the one in which native code starts. -/
def Arg.Conforms (w w' : World) (registry : Registry) (spec : TypeSpec) (slot : Option HostValue) :
    Arg → Prop
  | .null => spec.nullable = true ∧ (slot = none ∨ slot = some .null)
  | .bool b => spec.kind = .bool ∧ slot = some (.bool b)
  | .int n => slot = some (.int n) ∧
    ∃ width, spec.kind = .int width ∧ width.low ≤ n.toInt ∧ n.toInt ≤ width.high
  | .float x => spec.kind = .float ∧
    (slot = some (.float x) ∨ ∃ n : Int64, slot = some (.int n) ∧ x = Float.ofInt n.toInt)
  | .object p => ∃ v o, slot = some v ∧ w'.heap.get? p = some o ∧ w.nativeClass v = some o.cls ∧
    (∀ x, v = .object x → p = (w.handle x.handle).object) ∧
    ((spec.kind = .text ∧ ∃ text, o.payload = .str text ∧ ∀ t, v = .str t → text = t) ∨
      ∃ constraint, spec.kind = .object constraint ∧ ∀ name, constraint = some name →
        ∃ c, registry.fetch name = .ok c ∧ o.cls.isSubclassOf c = true)

variable {w w' w'' : World} {r : Multiset ObjId} {registry : Registry}

/-- What fits a type can be built. -/
theorem TypeKind.Accepts.convertible {kind : TypeKind} {v : HostValue}
    (h : kind.Accepts w registry v) : v.Convertible w.owns := by
  cases kind with
  | object constraint => exact h.1
  | text =>
    cases v with
    | object o => exact h.1
    | str text => exact trivial
    | _ => exact absurd h id
  | _ =>
    cases v with
    | _ => first | exact trivial | exact absurd h id

/-- A world that grew accepts what it accepted before. -/
theorem TypeKind.accepts_grew (g : w.Grew r w') (hw : w.Grounded) {kind : TypeKind}
    {v : HostValue} (hv : v.Convertible w.owns) :
    kind.Accepts w' registry v ↔ kind.Accepts w registry v := by
  cases kind with
  | object constraint =>
    simp only [TypeKind.Accepts, g.owns_eq, g.nativeClass_eq hw hv]
  | text =>
    cases v with
    | object o =>
      obtain ⟨x, hx, -⟩ := hw.referenced o.handle hv
      obtain ⟨count, hc, -⟩ := g.kept _ x hx
      simp only [TypeKind.Accepts, g.owns_eq, g.handle_eq, World.obj, Heap.obj_of_get? hx,
        Heap.obj_of_get? hc]
    | _ => exact Iff.rfl
  | _ => cases v with
    | _ => exact Iff.rfl

/-- What a parameter accepts can be converted. -/
theorem Param.Accepts.convertible {param : Param} {v : HostValue}
    (h : param.Accepts w registry (some v)) : v.Convertible w.owns := by
  rw [Param.Accepts] at h
  split_ifs at h with hnull
  · cases v with
    | null => exact trivial
    | _ => exact absurd hnull Bool.false_ne_true
  · exact h.convertible

/-- What a parameter accepts does not change when references are taken. -/
theorem Param.accepts_grew (g : w.Grew r w') (hw : w.Grounded) {param : Param}
    {slot : Option HostValue} (hv : ∀ v, slot = some v → v.Convertible w.owns) :
    param.Accepts w' registry slot ↔ param.Accepts w registry slot := by
  rcases slot with _ | v
  · exact Iff.rfl
  · rw [Param.Accepts, Param.Accepts, TypeKind.accepts_grew g hw (hv v rfl)]

/-- What an argument is does not change while others are added. -/
theorem Arg.Conforms.grew {spec : TypeSpec} {slot : Option HostValue} {arg : Arg}
    (h : arg.Conforms w w' registry spec slot) (g : w'.Grew r w'') :
    arg.Conforms w w'' registry spec slot := by
  cases arg with
  | object p =>
    obtain ⟨v, o, hslot, ho, hcls, hsame, hkind⟩ := h
    obtain ⟨count, hc, -⟩ := g.kept p o ho
    exact ⟨v, _, hslot, hc, hcls, hsame, hkind⟩
  | _ => exact h

/-- What an argument is can be said of the world before it grew. -/
theorem Arg.Conforms.of_grew {spec : TypeSpec} {slot : Option HostValue} {arg : Arg}
    (h : arg.Conforms w' w'' registry spec slot) (g : w.Grew r w') (hw : w.Grounded)
    (hv : ∀ v, slot = some v → v.Convertible w.owns) : arg.Conforms w w'' registry spec slot := by
  cases arg with
  | object p =>
    obtain ⟨v, o, hslot, ho, hcls, hsame, hkind⟩ := h
    rw [g.nativeClass_eq hw (hv v hslot)] at hcls
    rw [g.handle_eq] at hsame
    exact ⟨v, o, hslot, ho, hcls, hsame, hkind⟩
  | _ => exact h

namespace Conversion

variable {s s' : Staging}

/-! ### One argument -/

/-- One argument was added to the frame, for what is in the slot of the parameter; the
references that the wrappers in the slot ask for were taken. -/
def Pushed (registry : Registry) (param : Param) (slot : Option HostValue) (s s' : Staging) :
    Prop :=
  s.world.Grew (s.world.behind ((slot.map Value.objects).getD [])) s'.world ∧
    ∃ arg, s'.frame.args = s.frame.args ++ [arg] ∧
      arg.Conforms s.world s'.world registry param.spec slot

/-- An argument without wrappers that conforms to its parameter has been pushed. -/
theorem pushed_of_push (arg : Arg) {param : Param} {slot : Option HostValue}
    (hslot : (slot.map Value.objects).getD [] = [])
    (harg : arg.Conforms s.world s.world registry param.spec slot)
    (h : StageM.push arg s = .ok () s') : Pushed registry param slot s s' := by
  obtain rfl : { s with frame := s.frame.push arg } = s' := by simpa using h
  rw [Pushed, hslot]
  exact ⟨.refl s.world, arg, rfl, harg⟩

/-- An object that was built and taken over by the frame. -/
theorem pushed_of_adopt {param : Param} {v : HostValue} {p : ObjId} {w : World}
    (hgrew : s.world.Grew (s.world.behind v.objects) w)
    (harg : (Arg.object p).Conforms s.world w registry param.spec (some v)) :
    Pushed registry param (some v) s ⟨w, (s.frame.adopt p).push (.object p)⟩ :=
  ⟨hgrew, .object p, rfl, harg⟩

/-- A wrapper that was pushed as a text wraps a text. -/
theorem pushWrappedText_sound (g : s.world.Grounded) {param : Param}
    (hkind : param.spec.kind = .text) {o : Wrapper}
    (h : pushWrappedText param (.object o) o s = .ok () s') :
    TypeKind.text.Accepts s.world registry (.object o) ∧
      Pushed registry param (some (.object o)) s s' := by
  obtain ⟨p, s₁, hlift, hrest⟩ := Steps.bind_ok h
  obtain ⟨w₁, hretain, rfl⟩ := StageM.lift_ok hlift
  obtain ⟨howns, hobject, x, hx, hgrew⟩ := retain_sound g hretain
  obtain ⟨count, hc, -⟩ := hgrew.kept p x hx
  have hobj : w₁.obj p = { x with refcount := count } := Heap.obj_of_get? hc
  simp only [Steps.bind_apply, StageM.adopt_apply, Steps.get_apply, hobj] at hrest
  rcases htext : x.payload.text? with _ | text <;> simp only [htext] at hrest
  · exact absurd hrest (by simp [mismatch])
  obtain rfl : (⟨w₁, (s.frame.adopt p).push (.object p)⟩ : Staging) = s' := by simpa using hrest
  have hpayload : x.payload = .str text := by
    cases hpay : x.payload <;> rw [hpay] at htext <;> simp_all [Payload.text?]
  have hcls : s.world.nativeClass (.object o) = some x.cls := by
    rw [World.nativeClass, hobject, World.obj, Heap.obj_of_get? hx]
  refine ⟨⟨howns, text, ?_⟩, pushed_of_adopt ?_ ?_⟩
  · rw [hobject, World.obj, Heap.obj_of_get? hx, hpayload]
  · rw [← hobject] at hgrew
    exact hgrew
  · exact ⟨_, _, rfl, hc, hcls, fun y hy => by rw [← Value.object.inj hy, hobject],
      Or.inl ⟨hkind, text, hpayload, by simp⟩⟩

/-- A value that was pushed as an object is one that the parameter accepts. -/
theorem pushObject_sound (m : Machine) (g : s.world.Grounded) {param : Param}
    {constraint : Option String} (hkind : param.spec.kind = .object constraint) {v : HostValue}
    (h : pushObject m registry param constraint v s = .ok () s') :
    (TypeKind.object constraint).Accepts s.world registry v ∧
      Pushed registry param (some v) s s' := by
  obtain ⟨q, s₁, hlift, hrest⟩ := Steps.bind_ok h
  obtain ⟨w₁, hbuild, rfl⟩ := StageM.lift_ok hlift
  obtain ⟨hconv, hgrew, hbuilt⟩ := build_sound m param.name v g hbuild
  rcases q with _ | p
  · exact absurd hrest (by simp [mismatch])
  obtain ⟨hnull, ⟨x, hx, hcls⟩, hsame⟩ := hbuilt
  have hobj : w₁.obj p = x := Heap.obj_of_get? hx
  rcases constraint with _ | name
  · obtain rfl : (⟨w₁, (s.frame.adopt p).push (.object p)⟩ : Staging) = s' := by
      simpa using hrest
    exact ⟨⟨hconv, by simp⟩, pushed_of_adopt hgrew
      ⟨v, x, rfl, hx, hcls, hsame, Or.inr ⟨none, hkind, by simp⟩⟩⟩
  · rcases hfetch : registry.fetch name with e | c <;>
      simp only [hfetch, Steps.bind_apply, StageM.adopt_apply, Steps.get_apply, hobj] at hrest
    · exact absurd hrest (by simp)
    · split_ifs at hrest with hisA
      · obtain rfl : (⟨w₁, (s.frame.adopt p).push (.object p)⟩ : Staging) = s' := by
          simpa using hrest
        refine ⟨⟨hconv, ?_⟩, pushed_of_adopt hgrew ⟨v, x, rfl, hx, hcls, hsame,
          Or.inr ⟨some name, hkind, ?_⟩⟩⟩
        · rintro _ ⟨rfl⟩
          exact ⟨c, x.cls, hfetch, hcls, hisA⟩
        · rintro _ ⟨rfl⟩
          exact ⟨c, hfetch, hisA⟩
      · exact absurd hrest (by simp [mismatch])

/-- **An argument that was added fits its parameter.** -/
theorem pushArg_sound (m : Machine) (g : s.world.Grounded) {param : Param} {v : HostValue}
    (h : pushArg m registry param v s = .ok () s') :
    param.Accepts s.world registry (some v) ∧ Pushed registry param (some v) s s' := by
  have hfail : ∀ {e : BridgeError}, (throw e : StageM Unit) s ≠ .ok () s' := by simp
  unfold pushArg at h
  rw [Param.Accepts]
  split_ifs at h ⊢ with hnull hnullable
  · obtain rfl : v = .null := by cases v <;> simp_all [Value.isNull]
    exact ⟨hnullable, pushed_of_push .null rfl ⟨hnullable, Or.inr rfl⟩ h⟩
  · exact absurd h hfail
  · -- per kind one form of value is pushed, and the others were refused
    cases hkind : param.spec.kind with
    | bool =>
      rw [hkind] at h
      cases v with
      | bool b => exact ⟨trivial, pushed_of_push (.bool b) rfl ⟨hkind, rfl⟩ h⟩
      | _ => exact absurd h hfail
    | int width =>
      rw [hkind] at h
      cases v with
      | int n =>
        by_cases hn : width.contains n = true
        · have hbounds := IntWidth.contains_iff.1 hn
          simp only [hn, if_true] at h
          exact ⟨hbounds, pushed_of_push (.int n) rfl ⟨rfl, width, hkind, hbounds⟩ h⟩
        · simp only [hn] at h
          exact absurd h hfail
      | _ => exact absurd h hfail
    | float =>
      rw [hkind] at h
      cases v with
      | float x => exact ⟨trivial, pushed_of_push (.float x) rfl ⟨hkind, Or.inl rfl⟩ h⟩
      | int n => exact ⟨trivial, pushed_of_push (.float _) rfl ⟨hkind, Or.inr ⟨n, rfl, rfl⟩⟩ h⟩
      | _ => exact absurd h hfail
    | text =>
      rw [hkind] at h
      cases v with
      | str text =>
        obtain rfl : (⟨(World.alloc Parcel.string (.str text) s.world).2,
            (s.frame.adopt (World.alloc Parcel.string (.str text) s.world).1).push
              (.object (World.alloc Parcel.string (.str text) s.world).1)⟩ : Staging) = s' := by
          simpa using h
        exact ⟨trivial, pushed_of_adopt (.alloc _ _ _) ⟨_, _, rfl, Heap.get?_alloc_self _ _, rfl,
          by simp, Or.inl ⟨hkind, text, rfl, fun t ht => Value.str.inj ht⟩⟩⟩
      | object o => exact pushWrappedText_sound g hkind h
      | _ => exact absurd h hfail
    | object constraint =>
      rw [hkind] at h
      exact pushObject_sound m g hkind h
    | pointer =>
      rw [hkind] at h
      exact absurd h hfail

/-- A wrapper of a text is pushed where there is room for a reference to it. -/
theorem pushWrappedText_complete (g : s.world.Grounded) {param : Param} {v : HostValue}
    {o : Wrapper} (ho : TypeKind.text.Accepts s.world registry (.object o))
    (room : s.world.Spare {(s.world.handle o.handle).object}) :
    ∃ s', pushWrappedText param v o s = .ok () s' := by
  obtain ⟨w', hretain⟩ := retain_complete g ho.1 room
  obtain ⟨-, -, x, hx, hgrew⟩ := retain_sound g hretain
  obtain ⟨count, hc, -⟩ := hgrew.kept _ x hx
  obtain ⟨text, htext⟩ := ho.2
  rw [World.obj, Heap.obj_of_get? hx] at htext
  have hsome : (w'.obj (s.world.handle o.handle).object).payload.text?.isSome = true := by
    rw [World.obj, Heap.obj_of_get? hc]
    show x.payload.text?.isSome = true
    rw [htext]
    rfl
  refine ⟨⟨w', (s.frame.adopt (s.world.handle o.handle).object).push
    (.object (s.world.handle o.handle).object)⟩, ?_⟩
  simp only [pushWrappedText, Steps.bind_apply, StageM.lift_apply, hretain, StageM.adopt_apply,
    Steps.get_apply, hsome, if_true]
  rfl

/-- A value that the parameter accepts is pushed as an object where there is room for what it
holds. -/
theorem pushObject_complete (m : Machine) (g : s.world.Grounded) {param : Param}
    {constraint : Option String} {v : HostValue} (hnull : ¬ v.isNull = true)
    (hv : (TypeKind.object constraint).Accepts s.world registry v)
    (room : s.world.Spare (s.world.behind v.objects)) :
    ∃ s', pushObject m registry param constraint v s = .ok () s' := by
  obtain ⟨q, w', hbuild⟩ := build_complete m param.name v g hv.1 room
  obtain ⟨-, -, hbuilt⟩ := build_sound m param.name v g hbuild
  rcases q with _ | p
  · exact absurd hbuilt hnull
  obtain ⟨-, ⟨x, hx, hcls⟩, -⟩ := hbuilt
  refine ⟨⟨w', (s.frame.adopt p).push (.object p)⟩, ?_⟩
  simp only [pushObject, Steps.bind_apply, StageM.lift_apply, hbuild, StageM.adopt_apply]
  rcases constraint with _ | name
  · rfl
  · obtain ⟨c, d, hfetch, hd, hsub⟩ := hv.2 name rfl
    obtain rfl := Option.some.inj (hcls.symm.trans hd)
    have hisA : (w'.obj p).isA c = true := by
      rw [World.obj, Heap.obj_of_get? hx]
      exact hsub
    simp only [hfetch, Steps.bind_apply, Steps.get_apply, hisA, if_true]
    rfl

/-- **An argument that fits its parameter can be added**, if the counts have room. -/
theorem pushArg_complete (m : Machine) (g : s.world.Grounded) {param : Param} {v : HostValue}
    (hv : param.Accepts s.world registry (some v))
    (room : s.world.Spare (s.world.behind v.objects)) :
    ∃ s', pushArg m registry param v s = .ok () s' := by
  rw [Param.Accepts] at hv
  unfold pushArg
  split_ifs at hv ⊢ with hnull
  · exact ⟨_, rfl⟩
  · cases hkind : param.spec.kind with
    | bool =>
      rw [hkind] at hv
      cases v with
      | bool b => exact ⟨_, rfl⟩
      | _ => exact absurd hv id
    | int width =>
      rw [hkind] at hv
      cases v with
      | int n =>
        have hn : width.contains n = true := IntWidth.contains_iff.2 hv
        simp only [hn, if_true]
        exact ⟨_, rfl⟩
      | _ => exact absurd hv id
    | float =>
      rw [hkind] at hv
      cases v with
      | float x => exact ⟨_, rfl⟩
      | int n => exact ⟨_, rfl⟩
      | _ => exact absurd hv id
    | text =>
      rw [hkind] at hv
      cases v with
      | str text => exact ⟨_, rfl⟩
      | object o => exact pushWrappedText_complete g hv room
      | _ => exact absurd hv id
    | object constraint =>
      rw [hkind] at hv
      exact pushObject_complete m g hnull hv room
    | pointer =>
      rw [hkind] at hv
      exact absurd hv id

/-! ### All arguments -/

/-- The wrappers in the slots. -/
def slotWrappers (slots : List (Param × Option HostValue)) : List Wrapper :=
  slots.flatMap fun b => (b.2.map Value.objects).getD []

/-- Every argument that was added is for its own parameter. -/
def PushedAll (registry : Registry) (slots : List (Param × Option HostValue)) (s s' : Staging) :
    Prop :=
  s.world.Grew (s.world.behind (slotWrappers slots)) s'.world ∧
    ∃ new, s'.frame.args = s.frame.args ++ new ∧
      List.Forall₂ (fun b arg => arg.Conforms s.world s'.world registry b.1.spec b.2) slots new

/-- One slot more has been pushed. -/
theorem PushedAll.cons {param : Param} {slot : Option HostValue}
    {rest : List (Param × Option HostValue)} {s₁ : Staging} (hw : s.world.Grounded)
    (h : Pushed registry param slot s s₁) (hrest : PushedAll registry rest s₁ s')
    (hconv : ∀ b ∈ rest, ∀ v, b.2 = some v → v.Convertible s.world.owns) :
    PushedAll registry ((param, slot) :: rest) s s' := by
  obtain ⟨hgrew, arg, hargs, harg⟩ := h
  obtain ⟨hgrew', new, hnew, hall⟩ := hrest
  refine ⟨?_, arg :: new, by rw [hnew, hargs, List.append_assoc, List.singleton_append], ?_⟩
  · rw [hgrew.behind_eq] at hgrew'
    rw [slotWrappers, List.flatMap_cons, World.behind_append]
    exact hgrew.trans hgrew'
  · have hboth := (List.forall₂_and_left rest new).2 ⟨hconv, hall⟩
    exact .cons (harg.grew hgrew') (hboth.imp fun b x hx => hx.2.of_grew hgrew hw hx.1)

/-- Slots that were pushed in turn are accepted, and have all been pushed. -/
theorem pushSlots_sound (m : Machine) (missing : BridgeError) :
    ∀ (slots : List (Param × Option HostValue)) {s s' : Staging}, s.world.Grounded →
      pushSlots m registry missing slots s = .ok () s' →
      (∀ b ∈ slots, b.1.Accepts s.world registry b.2) ∧ PushedAll registry slots s s'
  | [], s, s', _, h => by
    obtain rfl : s = s' := by simpa [pushSlots] using h
    exact ⟨by simp, .refl s.world, [], (List.append_nil _).symm, .nil⟩
  | (param, slot) :: rest, s, s', g, h => by
    -- whatever is in the slot, one argument is pushed and the rest follow
    obtain ⟨s₁, hslot, harg, hrest⟩ : ∃ s₁, param.Accepts s.world registry slot ∧
        Pushed registry param slot s s₁ ∧ pushSlots m registry missing rest s₁ = .ok () s' := by
      rcases slot with _ | v
      · rw [pushSlots] at h
        split_ifs at h with hnullable
        · obtain ⟨_, s₁, hpush, hrest⟩ := Steps.bind_ok h
          exact ⟨s₁, hnullable, pushed_of_push .null rfl ⟨hnullable, Or.inl rfl⟩ hpush, hrest⟩
        · exact absurd h (by simp)
      · obtain ⟨_, s₁, hpush, hrest⟩ := Steps.bind_ok h
        obtain ⟨hv, harg⟩ := pushArg_sound m g hpush
        exact ⟨s₁, hv, harg, hrest⟩
    obtain ⟨hall, hpushed⟩ := pushSlots_sound m missing rest (harg.1.grounded g) hrest
    have hconv : ∀ b ∈ rest, ∀ v, b.2 = some v → v.Convertible s.world.owns := by
      rintro ⟨param', _⟩ hb v ⟨rfl⟩
      rw [← harg.1.owns_eq]
      exact Param.Accepts.convertible (hall _ hb)
    refine ⟨?_, .cons g harg hpushed hconv⟩
    intro b hb
    rcases List.mem_cons.1 hb with rfl | hb
    · exact hslot
    · exact (Param.accepts_grew harg.1 g (hconv b hb)).1 (hall b hb)

/-- Slots that are accepted are pushed in turn where there is room for what they hold. -/
theorem pushSlots_complete (m : Machine) (missing : BridgeError) :
    ∀ (slots : List (Param × Option HostValue)) {s : Staging}, s.world.Grounded →
      (∀ b ∈ slots, b.1.Accepts s.world registry b.2) →
      s.world.Spare (s.world.behind (slotWrappers slots)) →
      ∃ s', pushSlots m registry missing slots s = .ok () s'
  | [], s, _, _, _ => ⟨s, rfl⟩
  | (param, slot) :: rest, s, g, hall, room => by
    rw [slotWrappers, List.flatMap_cons, World.behind_append] at room
    have hslot := hall _ List.mem_cons_self
    obtain ⟨s₁, harg, hstep⟩ : ∃ s₁, Pushed registry param slot s s₁ ∧
        pushSlots m registry missing ((param, slot) :: rest) s =
          pushSlots m registry missing rest s₁ := by
      rcases slot with _ | v
      · have hnullable : param.spec.nullable = true := hslot
        refine ⟨⟨s.world, s.frame.push .null⟩,
          pushed_of_push .null rfl ⟨hnullable, Or.inl rfl⟩ rfl, ?_⟩
        rw [pushSlots, if_pos hnullable]
        rfl
      · obtain ⟨s₁, hpush⟩ := pushArg_complete m g hslot room.left
        refine ⟨s₁, (pushArg_sound m g hpush).2, ?_⟩
        rw [pushSlots, Steps.bind_apply, hpush]
    have hconv : ∀ b ∈ rest, ∀ v, b.2 = some v → v.Convertible s.world.owns := by
      rintro ⟨param', _⟩ hb v ⟨rfl⟩
      exact Param.Accepts.convertible (hall _ (List.mem_cons_of_mem _ hb))
    have howns : ∀ o ∈ slotWrappers rest, s.world.owns o.handle = true := by
      intro o ho
      obtain ⟨⟨param', slot'⟩, hb, ho⟩ := List.mem_flatMap.1 ho
      rcases slot' with _ | v
      · exact absurd ho List.not_mem_nil
      · exact (hconv _ hb v rfl).owns_objects o ho
    have room' := room.grew harg.1 (g.get?_behind howns)
    rw [← harg.1.behind_eq] at room'
    obtain ⟨s', hs'⟩ := pushSlots_complete m missing rest (harg.1.grounded g)
      (fun b hb =>
        (Param.accepts_grew harg.1 g (hconv b hb)).2 (hall b (List.mem_cons_of_mem _ hb)))
      room'
    exact ⟨s', hstep.trans hs'⟩

end Conversion

/-! ### Binding -/

namespace CallArgs

/-- All values that a call brings. -/
def values (args : CallArgs) : List HostValue :=
  args.positional ++ args.keyword.map (·.2)

/-- The wrappers in all values that a call brings. -/
def wrappers (args : CallArgs) : List Wrapper :=
  args.values.flatMap Value.objects

/-- An empty slot that is filled adds one value. -/
theorem filterMap_set {α : Type} {x : α} : ∀ {slots : List (Option α)} {i : Nat},
    i < slots.length → (slots[i]?).join = none →
    ((slots.set i (some x)).filterMap id).Perm (x :: slots.filterMap id)
  | [], i, hi, _ => absurd hi (Nat.not_lt_zero i)
  | none :: slots, 0, _, _ => .refl _
  | some y :: slots, 0, _, h => absurd h (by simp)
  | none :: slots, i + 1, hi, h => filterMap_set (i := i) (Nat.succ_lt_succ_iff.1 hi) h
  | some y :: slots, i + 1, hi, h =>
    ((filterMap_set (i := i) (Nat.succ_lt_succ_iff.1 hi) h).cons y).trans (.swap x y _)

/-- Keywords fill as many slots as there are keywords, and no slot is added. -/
theorem bindKeywords_perm {params : List String} :
    ∀ {keyword : List (String × HostValue)} {slots bound : List (Option HostValue)},
      slots.length = params.length → bindKeywords params slots keyword = .ok bound →
      bound.length = params.length ∧
        (bound.filterMap id).Perm (slots.filterMap id ++ keyword.map (·.2))
  | [], slots, bound, hlen, h => by
    obtain rfl := Except.ok.inj h
    exact ⟨hlen, by rw [List.map_nil, List.append_nil]⟩
  | (name, value) :: rest, slots, bound, hlen, h => by
    rw [bindKeywords] at h
    rcases hi : params.findIdx? (· == name) with _ | i <;> simp only [hi] at h
    · exact absurd h (by simp)
    split_ifs at h with hfilled
    have hlt : i < slots.length := by
      rw [hlen]
      exact (List.findIdx?_eq_some_iff_getElem.1 hi).1
    have hempty : (slots[i]?).join = none := by simpa using hfilled
    obtain ⟨hlen', hperm⟩ := bindKeywords_perm (by rw [List.length_set, hlen]) h
    refine ⟨hlen', hperm.trans (((filterMap_set hlt hempty).append_right _).trans ?_)⟩
    rw [List.map_cons, List.cons_append]
    exact List.perm_middle.symm

/-- **Every value of a call is in exactly one slot**, and there is a slot for each
parameter. -/
theorem bind_perm {args : CallArgs} {params : List String} {slots : List (Option HostValue)}
    (h : args.bind params = .ok slots) :
    slots.length = params.length ∧ (slots.filterMap id).Perm args.values := by
  rw [bind] at h
  split_ifs at h with hmany
  have hlen : (fillSlots args.positional params.length).length = params.length := by
    rw [fillSlots, List.length_append, List.length_map, List.length_replicate]
    omega
  have hfilled : (fillSlots args.positional params.length).filterMap id = args.positional := by
    rw [fillSlots, List.filterMap_append, List.filterMap_map, List.filterMap_replicate]
    simp
  have hperm := bindKeywords_perm hlen h
  rwa [hfilled] at hperm

end CallArgs

namespace Conversion

/-- The wrappers in the slots are those of the call. -/
theorem slotWrappers_perm {params : List Param} {args : CallArgs}
    {slots : List (Option HostValue)} (hlen : slots.length = params.length)
    (h : (slots.filterMap id).Perm args.values) :
    (slotWrappers (params.zip slots)).Perm args.wrappers := by
  have hzip : slotWrappers (params.zip slots) = (slots.filterMap id).flatMap Value.objects := by
    clear h
    induction slots generalizing params with
    | nil => rw [List.zip_nil_right]; rfl
    | cons slot slots ih =>
      obtain ⟨param, params, rfl⟩ := List.exists_cons_of_length_eq_add_one hlen.symm
      rw [List.zip_cons_cons, slotWrappers, List.flatMap_cons]
      have ih' := ih (Nat.succ.inj hlen)
      rw [slotWrappers] at ih'
      rw [ih']
      cases slot <;> rfl
  rw [hzip]
  exact h.flatMap_right Value.objects

/-- **Arguments are accepted exactly when they fit.** Binding must succeed, every parameter
must accept what is in its slot, and then native code gets one argument for each parameter,
in order, that conforms to its type.  The counts need room for the references that the
wrappers of the call ask for. -/
theorem pushArgs_ok_iff (m : Machine) (registry : Registry) (method : Method) (args : CallArgs)
    {s : Staging} (g : s.world.Grounded) (room : s.world.Spare (s.world.behind args.wrappers)) :
    ((∃ s', pushArgs m registry method args s = .ok () s') ↔
      ∃ slots, args.bind method.paramNames = .ok slots ∧
        ∀ b ∈ method.params.zip slots, b.1.Accepts s.world registry b.2) ∧
    ∀ s', pushArgs m registry method args s = .ok () s' →
      ∃ slots new, args.bind method.paramNames = .ok slots ∧
        slots.length = method.params.length ∧ s'.frame.args = s.frame.args ++ new ∧
        List.Forall₂ (fun b arg => arg.Conforms s.world s'.world registry b.1.spec b.2)
          (method.params.zip slots) new := by
  -- binding comes first, and what it gives is pushed slot by slot
  rcases hbind : args.bind method.paramNames with e | slots
  · have hfail : ∀ s', pushArgs m registry method args s ≠ .ok () s' := by
      simp [pushArgs, hbind]
    refine ⟨⟨?_, ?_⟩, fun s' hs' => absurd hs' (hfail s')⟩
    · rintro ⟨s', hs'⟩
      exact absurd hs' (hfail s')
    · rintro ⟨_, h, _⟩
      exact absurd h (by simp)
  · obtain ⟨hlen, hperm⟩ := CallArgs.bind_perm hbind
    rw [Method.paramNames, List.length_map] at hlen
    have hbehind : s.world.behind (slotWrappers (method.params.zip slots)) =
        s.world.behind args.wrappers :=
      Multiset.coe_eq_coe.2 ((slotWrappers_perm hlen hperm).map _)
    have hpush : pushArgs m registry method args s = pushSlots m registry
        (.argumentCount method.params.length (slots.filterMap id).length)
        (method.params.zip slots) s := by
      rw [pushArgs, hbind]
    simp only [hpush]
    refine ⟨⟨?_, ?_⟩, ?_⟩
    · rintro ⟨s', hs'⟩
      exact ⟨slots, rfl, (pushSlots_sound m _ _ g hs').1⟩
    · rintro ⟨_, ⟨rfl⟩, hall⟩
      exact pushSlots_complete m _ _ g hall (hbehind ▸ room)
    · intro s' hs'
      obtain ⟨-, -, new, hnew, hall⟩ := pushSlots_sound m _ _ g hs'
      exact ⟨slots, new, rfl, hlen, hnew, hall⟩

end Conversion

/-- A list with a text and a vector is accepted where any object is. -/
theorem Sample.list_accepted : ∃ s', Conversion.pushArgs machine Parcel.registry
    (Parcel.method "Push" .void [("element", Parcel.maybeObject)] .vectorPush)
    ⟨[.list [.str "a", .object ⟨⟨0⟩, Parcel.vector⟩]], []⟩ ⟨vectorWorld, .empty⟩ = .ok () s' := by
  refine (Conversion.pushArgs_ok_iff _ _ _ _ vectorWorld_grounded ?_).1.2 ⟨_, rfl, ?_⟩
  · intro p hp o ho _
    obtain rfl : p = ⟨2⟩ := List.mem_singleton.1 hp
    obtain rfl : Heap.fresh Parcel.vector (.vector []) = o := Option.some.inj ho
    decide
  · intro b hb
    obtain rfl := List.mem_singleton.1 hb
    exact ⟨⟨trivial, rfl, trivial⟩, by simp⟩

end Interop

/-
# Calls with plain arguments

Whether the arguments of a call are accepted can be decided from the call alone when they are
plain: nothing in the world but the registry has a say in it.  `Method.screen` decides it,
with the very error of a refusal.

**A frame is filled as the screening says** (`Site.stage_screened`).  Each argument then shows
the value in its slot (`Arg.Shows`), and apart from the reference to the receiver nothing that
was there before has changed.  A wrapper as the one argument is lent to the frame as well
(`Site.stage_wrapped`).
-/

import Interop.Proofs.Conversion.Conformity
import Interop.Proofs.Conversion.RoundTrip
import Interop.Proofs.Ownership.Calls

namespace Interop

/-! ### What plain values are refused for -/

namespace Conversion

/-- The class of the object that is made for a value, where one is made. -/
def plainClass? : HostValue → Option Class
  | .null => none
  | .bool _ => some Parcel.boolean
  | .int _ => some Parcel.integer
  | .float _ => some Parcel.float
  | .str _ => some Parcel.string
  | .list _ => some Parcel.vector
  | .dict _ => some Parcel.hash
  | .object _ => none

/-- What a value of the wrong kind is refused with. -/
def wrongKind (param : Param) (v : HostValue) : BridgeError :=
  .argumentType param.name param.spec.kind.describe v.kindName

/-- Why a plain value other than null is refused where an object of some class is asked for. -/
def objectRefusal? (registry : Registry) (param : Param) (v : HostValue) :
    Option String → Option BridgeError
  | none => (missing? param.name v).map .missingValue
  | some name => ((missing? param.name v).map .missingValue).or
    (match registry.fetch name with
      | .error e => some e
      | .ok c => if (plainClass? v).any (·.isSubclassOf c) then none else some (wrongKind param v))

/-- Why a plain value is refused for a parameter, if it is. -/
def refusal? (registry : Registry) (param : Param) (v : HostValue) : Option BridgeError :=
  if v.isNull then
    if param.spec.nullable then none else some (.missingValue param.name)
  else
    match param.spec.kind, v with
    | .bool, .bool _ => none
    | .int width, .int value =>
      if width.contains value then none else some (.overflow param.name value width.name)
    | .float, .float _ => none
    | .float, .int _ => none
    | .text, .str _ => none
    | .object constraint, _ => objectRefusal? registry param v constraint
    | .pointer, _ => some (.unbindable param.name)
    | _, _ => some (wrongKind param v)

/-- Why the values in the slots of the parameters are refused, `missing` being what an empty
slot of a parameter that may not be null is refused with. -/
def slotsRefusal? (registry : Registry) (missing : BridgeError) :
    List (Param × Option HostValue) → Option BridgeError
  | [] => none
  | (param, some v) :: rest => (refusal? registry param v).or (slotsRefusal? registry missing rest)
  | (param, none) :: rest =>
    if param.spec.nullable then slotsRefusal? registry missing rest else some missing

end Conversion

/-- What a call of the method with plain arguments comes to before its code runs: the values
in the slots of the parameters, or a refusal. -/
def Method.screen (registry : Registry) (method : Method) (args : CallArgs) :
    Except BridgeError (List (Option HostValue)) :=
  match args.bind method.paramNames with
  | .error e => .error e
  | .ok slots =>
    match Conversion.slotsRefusal? registry
        (.argumentCount method.params.length (slots.filterMap id).length)
        (method.params.zip slots) with
    | some e => .error e
    | none => .ok slots

namespace Conversion

variable {registry registry' : Registry} {missing : BridgeError}

/-- Two registries that agree on the constraints of a parameter refuse the same values. -/
theorem refusal?_congr {param : Param} (v : HostValue)
    (h : ∀ name, param.spec.kind = .object (some name) →
      registry.fetch name = registry'.fetch name) :
    refusal? registry param v = refusal? registry' param v := by
  have hobject : ∀ constraint, param.spec.kind = .object constraint →
      objectRefusal? registry param v constraint = objectRefusal? registry' param v constraint := by
    rintro (_ | name) hkind
    · rfl
    · simp only [objectRefusal?, h name hkind]
  unfold refusal?
  rcases hkind : param.spec.kind with _ | _ | _ | _ | constraint | _
  case object =>
    show (if v.isNull = true then _ else objectRefusal? registry param v constraint) = _
    rw [hobject constraint hkind]
  all_goals cases v <;> rfl

/-- Only the classes that the parameters ask for are looked up. -/
theorem slotsRefusal?_congr : ∀ {slots : List (Param × Option HostValue)},
    (∀ b ∈ slots, ∀ name, b.1.spec.kind = .object (some name) →
      registry.fetch name = registry'.fetch name) →
    slotsRefusal? registry missing slots = slotsRefusal? registry' missing slots
  | [], _ => rfl
  | (param, slot) :: rest, h => by
    have hrest : slotsRefusal? registry missing rest = slotsRefusal? registry' missing rest :=
      slotsRefusal?_congr fun b hb => h b (List.mem_cons_of_mem _ hb)
    have hparam := h (param, slot) List.mem_cons_self
    rcases slot with _ | v
    · rw [slotsRefusal?, slotsRefusal?, hrest]
    · rw [slotsRefusal?, slotsRefusal?, hrest, refusal?_congr v hparam]

/-- The value in the slot of a parameter is accepted; an empty slot is null. -/
def SlotAccepted (registry : Registry) (param : Param) : Option HostValue → Prop
  | none => param.spec.nullable = true
  | some v => refusal? registry param v = none

/-- Arguments that are not refused are accepted slot by slot. -/
theorem accepted_of_slotsRefusal? : ∀ {slots : List (Param × Option HostValue)},
    slotsRefusal? registry missing slots = none → ∀ b ∈ slots, SlotAccepted registry b.1 b.2
  | [], _, b, hb => absurd hb List.not_mem_nil
  | (param, none) :: rest, h, b, hb => by
    rw [slotsRefusal?] at h
    split_ifs at h with hnull
    rcases List.mem_cons.1 hb with rfl | hb
    · exact hnull
    · exact accepted_of_slotsRefusal? h b hb
  | (param, some v) :: rest, h, b, hb => by
    rw [slotsRefusal?, Option.or_eq_none_iff] at h
    rcases List.mem_cons.1 hb with rfl | hb
    · exact h.1
    · exact accepted_of_slotsRefusal? h.2 b hb

end Conversion

namespace Method

variable {registry registry' : Registry} {method : Method} {args : CallArgs}
  {slots : List (Option HostValue)}

/-- Two registries that agree on the constraints of a method screen its arguments alike. -/
theorem screen_congr (h : ∀ param ∈ method.params, ∀ name, param.spec.kind = .object (some name) →
    registry.fetch name = registry'.fetch name) :
    method.screen registry args = method.screen registry' args := by
  unfold screen
  rcases args.bind method.paramNames with e | slots
  · rfl
  · have hslots : ∀ missing, Conversion.slotsRefusal? registry missing (method.params.zip slots) =
        Conversion.slotsRefusal? registry' missing (method.params.zip slots) := fun missing =>
      Conversion.slotsRefusal?_congr fun b hb => h b.1 (List.of_mem_zip hb).1
    simp only [hslots]

/-- What was not refused is accepted for each parameter. -/
theorem screen_ok (h : method.screen registry args = .ok slots) :
    List.Forall₂ (Conversion.SlotAccepted registry) method.params slots := by
  unfold screen at h
  rcases hbind : args.bind method.paramNames with e | bound <;> rw [hbind] at h
  · exact absurd h (by simp)
  · obtain ⟨hlen, -⟩ := CallArgs.bind_perm hbind
    rw [Method.paramNames, List.length_map] at hlen
    rcases hrefusal : Conversion.slotsRefusal? registry
        (.argumentCount method.params.length (bound.filterMap id).length)
        (method.params.zip bound) with _ | e <;> simp only [hrefusal] at h
    · obtain rfl := Except.ok.inj h
      refine List.forall₂_iff_zip.2 ⟨hlen.symm, fun {param slot} hmem => ?_⟩
      exact Conversion.accepted_of_slotsRefusal? hrefusal (param, slot) hmem
    · exact absurd h (by simp)

end Method

/-- No value of the call holds a wrapper. -/
def CallArgs.Plain (args : CallArgs) : Prop :=
  ∀ v ∈ args.values, v.objects = []

/-! ### What arguments show -/

/-- There is an object at `p`, and if it is mortal there is one reference to it. -/
def Heap.Single (h : Heap) (p : ObjId) : Prop :=
  ∃ o, h.get? p = some o ∧ (o.immortal = false → o.refcount = 1)

/-- The argument is of the kind of its parameter and shows what is in its slot.  An object was
made for it, and so were the elements that it holds if it is a vector. -/
def Arg.Shows (h : Heap) (hidden : List ObjId) : Arg → Param × Option HostValue → Prop
  | .null, (_, slot) => slot = none ∨ slot = some .null
  | .bool b, (param, slot) => param.spec.kind = .bool ∧ slot = some (.bool b)
  | .int n, (param, slot) => (∃ width, param.spec.kind = .int width) ∧ slot = some (.int n)
  | .float x, (param, slot) => param.spec.kind = .float ∧ (slot = some (.float x) ∨
    ∃ n : Int64, slot = some (.int n) ∧ x = Float.ofInt n.toInt)
  | .object p, (param, slot) =>
    (param.spec.kind = .text ∨ ∃ constraint, param.spec.kind = .object constraint) ∧
    ∃ v, slot = some v ∧ (h.view hidden).Shows v (some p) ∧ h.Single p ∧
      ∀ elements, (h.obj p).payload = .vector elements → ∀ q, some q ∈ elements → h.Single q

namespace World.Grew

variable {w w' : World} {hidden : List ObjId} {p : ObjId}

/-- The references to an object are as many as before when none were taken. -/
theorem single (g : w.Grew 0 w') (h : w.heap.Single p) : w'.heap.Single p := by
  obtain ⟨o, ho, hone⟩ := h
  obtain ⟨count, hc, hcount⟩ := g.kept p o ho
  refine ⟨_, hc, fun himm => ?_⟩
  have heq := hcount himm
  rw [Multiset.count_zero, hone himm] at heq
  exact heq

/-- What shows an argument shows it after other objects were made. -/
theorem argShows (g : w.Grew 0 w') {arg : Arg} {slot : Param × Option HostValue}
    (h : arg.Shows w.heap hidden slot) : arg.Shows w'.heap hidden slot := by
  cases arg with
  | object p =>
    obtain ⟨hkind, v, hslot, hshows, hsingle, hall⟩ := h
    refine ⟨hkind, v, hslot, hshows.mono g.view, g.single hsingle, fun elements hpay q hq => ?_⟩
    obtain ⟨o, ho, -⟩ := hsingle
    obtain ⟨count, hc, -⟩ := g.kept p o ho
    rw [Heap.obj_of_get? hc] at hpay
    refine g.single (hall elements ?_ q hq)
    rw [Heap.obj_of_get? ho]
    exact hpay
  | _ => exact h

end World.Grew

namespace Conversion

variable {param : String} {w w' : World} {hidden : List ObjId} {v : HostValue} {p : ObjId}

/-- What is built for a plain value takes no reference. -/
theorem build_grew (m : Machine) {q : Option ObjId} (g : w.Grounded) (hv : v.objects = [])
    (h : build m param v w = .ok q w') : w.Grew 0 w' := by
  obtain ⟨-, hgrew, -⟩ := build_sound m param v g h
  rw [hv] at hgrew
  exact hgrew

/-- A value that holds no wrappers becomes an object with one reference. -/
theorem build_single (m : Machine) (g : w.Grounded) (hv : v.objects = [])
    (h : build m param v w = .ok (some p) w') : w'.heap.Single p := by
  obtain ⟨o, ho, -, hone⟩ := build_made m g (ne_object_of_plain hv) h
  exact ⟨o, ho, hone⟩

/-- The elements that are built for a list of plain values have one reference each. -/
theorem buildList_single (m : Machine) :
    ∀ (items : List HostValue) {built elements : List (Option ObjId)} {w w' : World}, w.Grounded →
      Value.objectsOfList items = [] → buildList m param built items w = .ok elements w' →
      (∀ q, some q ∈ built → w.heap.Single q) → ∀ q, some q ∈ elements → w'.heap.Single q
  | [], built, elements, w, w', _, _, h, hbuilt => by
    obtain ⟨rfl, rfl⟩ : built = elements ∧ w = w' := by simpa [buildList] using h
    exact hbuilt
  | v :: rest, built, elements, w, w', g, hobjects, h, hbuilt => by
    obtain ⟨hv, hrest⟩ := List.append_eq_nil_iff.1 hobjects
    obtain ⟨q, w₁, hone, hothers⟩ := Steps.bind_ok h
    have hbuild := World.onRefusal_ok hone
    have hgrew := build_grew m g hv hbuild
    refine buildList_single m rest (hgrew.grounded g) hrest hothers fun x hx => ?_
    rcases List.mem_append.1 hx with hx | hx
    · exact hgrew.single (hbuilt x hx)
    · obtain rfl := List.mem_singleton.1 hx
      exact build_single m g hv hbuild

/-- The elements of a vector that is built for a plain value have one reference each. -/
theorem build_elements (m : Machine) (g : w.Grounded) (hv : v.objects = [])
    (h : build m param v w = .ok (some p) w') {elements : List (Option ObjId)}
    (hpay : (w'.heap.obj p).payload = .vector elements) :
    ∀ q, some q ∈ elements → w'.heap.Single q := by
  have hother : ∀ (cls : Class) (payload : Payload) {w₁}, payload ≠ .vector elements →
      newObject cls payload w₁ = .ok (some p) w' → False := by
    intro cls payload w₁ hne hnew
    obtain ⟨hp, rfl⟩ := newObject_eq hnew
    obtain rfl := Option.some.inj hp
    exact hne ((Heap.obj_of_get? (Heap.get?_alloc_self cls payload) ▸ hpay :))
  cases v with
  | null => exact absurd h (by simp [build])
  | bool value =>
    obtain ⟨rfl, rfl⟩ : Heap.booleanId value = p ∧ w = w' := by simpa [build] using h
    obtain ⟨count, ho⟩ := g.truth value
    rw [Heap.obj_of_get? ho] at hpay
    exact absurd hpay (by simp)
  | object o => exact absurd hv (List.cons_ne_nil o [])
  | int value => exact (hother _ (.integer value) (by simp) h).elim
  | float value => exact (hother _ (.float value) (by simp) h).elim
  | str value => exact (hother _ (.str value) (by simp) h).elim
  | dict entries =>
    obtain ⟨built, w₁, -, hnew⟩ := Steps.bind_ok h
    exact (hother _ (.hash built) (by simp) hnew).elim
  | list items =>
    obtain ⟨built, w₁, hlist, hnew⟩ := Steps.bind_ok h
    obtain ⟨hp, rfl⟩ := newObject_eq hnew
    obtain rfl := Option.some.inj hp
    obtain rfl : built = elements :=
      Payload.vector.inj (Heap.obj_of_get? (Heap.get?_alloc_self _ _) ▸ hpay :)
    intro q hq
    refine (World.Grew.alloc ..).single (buildList_single m items g hv hlist ?_ q hq)
    exact fun x hx => absurd hx List.not_mem_nil

/-- What is built for a plain value is of the class that is made for it. -/
theorem build_class (m : Machine) (g : w.Grounded) (hv : v.objects = [])
    (h : build m param v w = .ok (some p) w') :
    ∃ o, w'.heap.get? p = some o ∧ plainClass? v = some o.cls := by
  obtain ⟨-, -, -, ⟨o, ho, hcls⟩, -⟩ := build_sound m param v g h
  refine ⟨o, ho, ?_⟩
  cases v with
  | object x => exact absurd hv (List.cons_ne_nil x [])
  | _ => exact hcls

end Conversion

/-! ### Filling frames -/

namespace Conversion

variable {registry : Registry} {param : Param} {s : Staging} {hidden : List ObjId} {v : HostValue}

/-- The frame got these arguments, which show what is in the slots, and nothing but what was
made for them is new. -/
def Fitted (hidden : List ObjId) (slots : List (Param × Option HostValue)) (s s' : Staging) :
    Prop :=
  s.world.Grew 0 s'.world ∧ ∃ new, s'.frame.args = s.frame.args ++ new ∧
    List.Forall₂ (Arg.Shows s'.world.heap hidden) new slots

/-- A step that a screening decides: it ends with its error, or with these arguments. -/
def Screened (hidden : List ObjId) (refusal : Option BridgeError)
    (slots : List (Param × Option HostValue)) (x : StageM Unit) (s : Staging) : Prop :=
  match refusal with
  | some e => ∃ s', x s = .error e s'
  | none => ∃ s', x s = .ok () s' ∧ Fitted hidden slots s s'

/-- One argument more. -/
theorem Fitted.one {s' : Staging} {arg : Arg} {slot : Param × Option HostValue}
    (g : s.world.Grew 0 s'.world) (hargs : s'.frame.args = s.frame.args ++ [arg])
    (harg : arg.Shows s'.world.heap hidden slot) : Fitted hidden [slot] s s' :=
  ⟨g, [arg], hargs, .cons harg .nil⟩

/-- An argument that shows a slot is pushed, and nothing else is. -/
theorem screened_push (arg : Arg) {slot : Param × Option HostValue}
    (harg : arg.Shows s.world.heap hidden slot) :
    Screened hidden none [slot] (StageM.push arg) s :=
  ⟨_, rfl, .one (.refl s.world) rfl harg⟩

/-- An object for a plain value. -/
theorem pushObject_screened (m : Machine) (g : s.world.Grounded) (hhidden : s.world.Hides hidden)
    (hv : v.objects = []) (hwell : v.WellFormed) (hnull : v.isNull = false)
    {constraint : Option String} (hkind : param.spec.kind = .object constraint) :
    Screened hidden (objectRefusal? registry param v constraint) [(param, some v)]
      (pushObject m registry param constraint v) s := by
  have hplain := build_plain m param.name g hhidden hv hwell hnull
  -- the value is built first, and the constraint is looked up only then
  rcases hmissing : missing? param.name v with _ | place <;> rw [hmissing] at hplain
  · obtain ⟨p, w', hbuild, -, hshows, hsingle⟩ := hplain
    obtain ⟨o, ho, hcls⟩ := build_class m g hv hbuild
    have hfitted : Fitted hidden [(param, some v)] s ⟨w', (s.frame.adopt p).push (.object p)⟩ :=
      .one (build_grew m g hv hbuild) rfl ⟨Or.inr ⟨constraint, hkind⟩, v, rfl, hshows, hsingle,
        fun _ => build_elements m g hv hbuild⟩
    rcases constraint with _ | name
    · rw [objectRefusal?, hmissing]
      refine ⟨_, ?_, hfitted⟩
      simp only [pushObject, Steps.bind_apply, StageM.lift_apply, hbuild, StageM.adopt_apply]
      rfl
    · rcases hfetch : registry.fetch name with e | c
      · simp only [objectRefusal?, hmissing, hfetch, Option.map_none, Option.none_or]
        refine ⟨⟨w', s.frame.adopt p⟩, ?_⟩
        simp only [pushObject, Steps.bind_apply, StageM.lift_apply, hbuild, StageM.adopt_apply,
          hfetch, Steps.throw_apply]
      · have hisA : (w'.obj p).isA c = (plainClass? v).any (·.isSubclassOf c) := by
          rw [hcls, World.obj, Heap.obj_of_get? ho]
          rfl
        have hrefusal : objectRefusal? registry param v (some name) =
            if (plainClass? v).any (·.isSubclassOf c) then none else some (wrongKind param v) := by
          simp only [objectRefusal?, hmissing, hfetch, Option.map_none, Option.none_or]
        have hrun : pushObject m registry param (some name) v s =
            (if (w'.obj p).isA c then StageM.push (.object p) else mismatch param v)
              ⟨w', s.frame.adopt p⟩ := by
          simp only [pushObject, Steps.bind_apply, StageM.lift_apply, hbuild, StageM.adopt_apply,
            hfetch, Steps.get_apply]
        rw [hisA] at hrun
        rw [hrefusal]
        by_cases hsub : (plainClass? v).any (·.isSubclassOf c) = true
        · rw [if_pos hsub] at hrun ⊢
          exact ⟨_, hrun, hfitted⟩
        · rw [if_neg hsub] at hrun ⊢
          exact ⟨_, hrun⟩
  · obtain ⟨w', hbuild, -⟩ := hplain
    have hrefusal : objectRefusal? registry param v constraint = some (.missingValue place) := by
      rcases constraint with _ | name <;> simp [objectRefusal?, hmissing]
    rw [hrefusal]
    refine ⟨⟨w', s.frame⟩, ?_⟩
    simp only [pushObject, Steps.bind_apply, StageM.lift_apply, hbuild]

/-- **One plain argument** is accepted or refused as the screening says. -/
theorem pushArg_screened (m : Machine) (g : s.world.Grounded) (hhidden : s.world.Hides hidden)
    (hv : v.objects = []) (hwell : v.WellFormed) :
    Screened hidden (refusal? registry param v) [(param, some v)]
      (pushArg m registry param v) s := by
  have hrefused : ∀ e : BridgeError, Screened hidden (some e) [(param, some v)] (throw e) s :=
    fun e => ⟨s, rfl⟩
  unfold pushArg refusal?
  rcases hnull : v.isNull with _ | _
  · rw [if_neg Bool.false_ne_true, if_neg Bool.false_ne_true]
    -- both sides branch on the kind and then on the form of the value
    cases hkind : param.spec.kind with
    | bool =>
      cases v with
      | bool value => exact screened_push (.bool value) ⟨hkind, rfl⟩
      | _ => exact hrefused _
    | int width =>
      cases v with
      | int value =>
        show Screened hidden (if width.contains value then none else _) _
          (if width.contains value then StageM.push (.int value) else throw _) s
        split_ifs
        · exact screened_push (.int value) ⟨⟨width, hkind⟩, rfl⟩
        · exact hrefused _
      | _ => exact hrefused _
    | float =>
      cases v with
      | float value => exact screened_push (.float value) ⟨hkind, Or.inl rfl⟩
      | int value => exact screened_push _ ⟨hkind, Or.inr ⟨value, rfl, rfl⟩⟩
      | _ => exact hrefused _
    | text =>
      cases v with
      | str value =>
        have hnew := Heap.get?_alloc_self (h := s.world.heap) Parcel.string (.str value)
        refine ⟨_, rfl, .one (.alloc Parcel.string (.str value) s.world) rfl
          ⟨Or.inl hkind, _, rfl, ⟨_, rfl, ?_⟩, ⟨_, hnew, fun _ => rfl⟩, fun elements hpay => ?_⟩⟩
        · exact holds_newObject hhidden fun p hp => absurd hp List.not_mem_nil
        · exact absurd (Heap.obj_of_get? hnew ▸ hpay :) (by simp [Heap.fresh])
      | object o => exact absurd hv (List.cons_ne_nil o [])
      | _ => exact hrefused _
    | object constraint => exact pushObject_screened m g hhidden hv hwell hnull hkind
    | pointer => exact hrefused _
  · rw [if_pos rfl, if_pos rfl, HostValue.eq_null hnull]
    split_ifs
    · exact screened_push .null (Or.inr rfl)
    · exact ⟨s, rfl⟩

/-- The arguments in turn. -/
theorem pushSlots_screened (m : Machine) (registry : Registry) (missing : BridgeError) :
    ∀ (slots : List (Param × Option HostValue)) {s : Staging}, s.world.Grounded →
      s.world.Hides hidden →
      (∀ b ∈ slots, ∀ v, b.2 = some v → v.objects = [] ∧ v.WellFormed) →
      Screened hidden (slotsRefusal? registry missing slots) slots
        (pushSlots m registry missing slots) s
  | [], s, _, _, _ => ⟨s, rfl, .refl s.world, [], (List.append_nil _).symm, .nil⟩
  | (param, slot) :: rest, s, g, hhidden, hall => by
    -- what comes after an argument starts from what it left
    have hstep : ∀ {refusal : Option BridgeError} {x : StageM Unit},
        Screened hidden refusal [(param, slot)] x s →
        Screened hidden (refusal.or (slotsRefusal? registry missing rest))
          ((param, slot) :: rest) (x >>= fun _ => pushSlots m registry missing rest) s := by
      intro refusal x hx
      rcases refusal with _ | e
      · obtain ⟨s₁, hx, hgrew, new, hargs, hnew⟩ := hx
        have hrest := pushSlots_screened m registry missing rest (hgrew.grounded g)
          (hhidden.grew hgrew) fun b hb => hall b (List.mem_cons_of_mem _ hb)
        rw [Option.none_or]
        rcases hrefusal : slotsRefusal? registry missing rest with _ | e <;> rw [hrefusal] at hrest
        · obtain ⟨s₂, hx', hgrew', new', hargs', hnew'⟩ := hrest
          refine ⟨s₂, ?_, hgrew.trans hgrew', new ++ new', ?_, ?_⟩
          · rw [Steps.bind_apply, hx]
            exact hx'
          · rw [hargs', hargs, List.append_assoc]
          · have hold := hnew.imp fun _ _ h => hgrew'.argShows h
            exact List.rel_append hold hnew'
        · obtain ⟨s₂, hx'⟩ := hrest
          refine ⟨s₂, ?_⟩
          rw [Steps.bind_apply, hx]
          exact hx'
      · obtain ⟨s₁, hx⟩ := hx
        exact ⟨s₁, by rw [Steps.bind_apply, hx]⟩
    rcases slot with _ | v
    · rw [pushSlots, slotsRefusal?]
      split_ifs
      · exact hstep (screened_push .null (Or.inl rfl))
      · exact ⟨s, rfl⟩
    · obtain ⟨hv, hwell⟩ := hall _ List.mem_cons_self v rfl
      exact hstep (pushArg_screened m g hhidden hv hwell)

/-- **Plain arguments** are accepted or refused as the screening of the method says. -/
theorem pushArgs_screened (m : Machine) (registry : Registry) (g : s.world.Grounded)
    (hhidden : s.world.Hides hidden) (method : Method) {args : CallArgs} (hplain : args.Plain)
    (hwell : args.WellFormed) :
    match method.screen registry args with
    | .error e => ∃ s', pushArgs m registry method args s = .error e s'
    | .ok slots => ∃ s', pushArgs m registry method args s = .ok () s' ∧
      Fitted hidden (method.params.zip slots) s s' := by
  unfold pushArgs Method.screen
  rcases hbind : args.bind method.paramNames with e | slots
  · exact ⟨s, rfl⟩
  · obtain ⟨hlen, hperm⟩ := CallArgs.bind_perm hbind
    rw [Method.paramNames, List.length_map] at hlen
    have hall : ∀ b ∈ method.params.zip slots, ∀ v, b.2 = some v →
        v.objects = [] ∧ v.WellFormed := by
      rintro ⟨param, _⟩ hb v ⟨rfl⟩
      have hv := (List.of_mem_zip hb).2
      exact ⟨hplain v (hperm.subset (List.mem_filterMap.2 ⟨some v, hv, rfl⟩)),
        hwell.of_bind hbind hv⟩
    let missing : BridgeError := .argumentCount method.params.length (slots.filterMap id).length
    have hscreened := pushSlots_screened m registry missing (method.params.zip slots) g hhidden hall
    dsimp only
    rcases hrefusal : slotsRefusal? registry missing (method.params.zip slots) with _ | e <;>
      rw [hrefusal] at hscreened
    · exact hscreened
    · exact hscreened

end Conversion

/-! ### Staging calls -/

/-- The frame accounts for what was taken and made for it since `w`, and of what was there
before it owns the references in `taken`. -/
structure Staging.Lends (w : World) (taken : Multiset ObjId) (s : Staging) : Prop where
  accounted : s.Accounted w
  grew : w.Grew taken s.world
  taken_le : taken ≤ (s.frame.owned : Multiset ObjId)

namespace Site

open Conversion

variable {s : Site} {w : World} {hidden : List ObjId} {method : Method} {receiver : Option Wrapper}
  {args : CallArgs} {s₀ : Staging}

/-- The step that takes a reference to the receiver, if the call has one. -/
structure Receives (method : Method) (receiver : Option Wrapper) (w : World) (s₀ : Staging) :
    Prop where
  run_eq : pushReceiver method receiver ⟨w, .empty⟩ = .ok () s₀
  grew : w.Grew (optionRef s₀.frame.receiver) s₀.world
  args_eq : s₀.frame.args = []
  owned_eq : (s₀.frame.owned : Multiset ObjId) = optionRef s₀.frame.receiver

/-- A call without a receiver. -/
theorem receives_none (method : Method) (w : World) : Receives method none w ⟨w, .empty⟩ :=
  ⟨rfl, .refl w, rfl, rfl⟩

/-- A call of an instance method through a handle, when the count has room for one reference. -/
theorem receives_some {o : Wrapper} {routine : Routine CoreMethod}
    (hcode : method.code = .onObject routine) (g : w.Grounded) (howns : w.owns o.handle = true)
    (room : w.Spare {(w.handle o.handle).object}) :
    ∃ w₀, Receives method (some o) w ⟨w₀, Frame.empty.withReceiver (w.handle o.handle).object⟩ := by
  obtain ⟨w₀, hretain⟩ := retain_complete g howns room
  obtain ⟨-, -, x, hx, hgrew⟩ := retain_sound g hretain
  refine ⟨w₀, ?_, hgrew, rfl, rfl⟩
  simp only [pushReceiver, hcode, Steps.bind_apply, StageM.lift_apply, hretain]
  rfl

/-- **A call with plain arguments** is staged or refused as the screening says. -/
theorem stage_screened (g : w.Grounded) (hhidden : w.Hides hidden) (hplain : args.Plain)
    (hwell : args.WellFormed) (hreceives : Receives method receiver w s₀) :
    match method.screen s.registry args with
    | .error e => ∃ w₁, s.stage method receiver args w = .error (.ofError e) w₁ ∧ w.Staged 0 w₁
    | .ok slots => ∃ frame w₁, s.stage method receiver args w = .ok frame w₁ ∧
      Staging.Lends w (optionRef s₀.frame.receiver) ⟨w₁, frame⟩ ∧
      frame.receiver = s₀.frame.receiver ∧
      List.Forall₂ (Arg.Shows w₁.heap hidden) frame.args (method.params.zip slots) := by
  obtain ⟨hreceiver, hgrew₀, hargs₀, -⟩ := hreceives
  have hpushed := pushArgs_screened s.machine s.registry (hgrew₀.grounded g) (hhidden.grew hgrew₀)
    method hplain hwell
  obtain ⟨r, hr, haccounted⟩ := stage_accounted g s.registry s.module method receiver hwell
  have hfill : s.fillFrame method receiver args ⟨w, .empty⟩ =
      pushArgs s.machine s.registry method args s₀ := by
    rw [fillFrame, Steps.bind_apply, hreceiver]
  rcases hscreen : method.screen s.registry args with e | slots <;> rw [hscreen] at hpushed
  · obtain ⟨s', hs'⟩ := hpushed
    have hstage : s.stage method receiver args w =
        .error (.ofError e) (s'.world.releaseAll s.machine s'.frame.owned) := by
      simp only [stage, hfill, hs']
    obtain rfl := (hr s.machine).symm.trans hstage
    exact ⟨_, hstage, haccounted⟩
  · obtain ⟨s', hs', hgrew, new, hargs, hshow⟩ := hpushed
    have hstage : s.stage method receiver args w = .ok s'.frame s'.world := by
      simp only [stage, hfill, hs']
    obtain rfl := (hr s.machine).symm.trans hstage
    have hreceiver_eq := keepsReceiver_pushArgs _ _ _ _ s₀ () s' hs'
    have haccounted' : Staging.Accounted w s' := haccounted
    refine ⟨s'.frame, s'.world, hstage,
      ⟨haccounted', add_zero (optionRef _) ▸ hgrew₀.trans hgrew, ?_⟩, hreceiver_eq, ?_⟩
    · rcases hp : s₀.frame.receiver with _ | p
      · exact Multiset.zero_le _
      · exact Multiset.singleton_le.2
          (Multiset.mem_coe.2 (haccounted'.receiver_mem p (hreceiver_eq.trans hp)))
    · rw [hargs, hargs₀, List.nil_append]
      exact hshow

/-- **A call with one wrapper** where an object of its class is asked for: the frame owns one
more reference to the object behind it. -/
theorem stage_wrapped {o : Wrapper} {param : Param} {name : String} {c : Class} {x : Obj}
    (g : w.Grounded) (hwell : args.WellFormed) (hreceives : Receives method receiver w s₀)
    (hparams : method.params = [param]) (hkind : param.spec.kind = .object (some name))
    (hfetch : s.registry.fetch name = .ok c)
    (hbind : args.bind method.paramNames = .ok [some (.object o)])
    (howns : w.owns o.handle = true) (hx : w.heap.get? (w.handle o.handle).object = some x)
    (hisA : x.isA c = true) (room : s₀.world.Spare {(w.handle o.handle).object}) :
    ∃ frame w₁, s.stage method receiver args w = .ok frame w₁ ∧
      Staging.Lends w (optionRef s₀.frame.receiver + {(w.handle o.handle).object}) ⟨w₁, frame⟩ ∧
      frame.receiver = s₀.frame.receiver ∧ frame.args = [.object (w.handle o.handle).object] := by
  obtain ⟨hreceiver, hgrew₀, hargs₀, howned₀⟩ := hreceives
  have g₀ := hgrew₀.grounded g
  have hretain : ∃ w₁, Handle.retain o.handle s₀.world = .ok (w.handle o.handle).object w₁ := by
    rw [← hgrew₀.handle_eq] at room ⊢
    exact retain_complete g₀ (by rw [hgrew₀.owns_eq, howns]) room
  obtain ⟨w₁, hretain⟩ := hretain
  obtain ⟨-, -, -, -, hgrew⟩ := retain_sound g₀ hretain
  have hgrew₁ := hgrew₀.trans hgrew
  obtain ⟨count, hc, -⟩ := hgrew₁.kept _ x hx
  have hclass : (w₁.obj (w.handle o.handle).object).isA c = true := by
    rw [World.obj, Heap.obj_of_get? hc]
    exact hisA
  let frame := (s₀.frame.adopt (w.handle o.handle).object).push (.object (w.handle o.handle).object)
  have hpush : pushArg s.machine s.registry param (.object o) s₀ = .ok () ⟨w₁, frame⟩ := by
    rw [pushArg_object s.machine hkind rfl]
    simp only [pushObject, build, Steps.bind_apply, StageM.lift_apply, hretain, Steps.pure_apply,
      StageM.adopt_apply, hfetch, Steps.get_apply, hclass, if_true]
    rfl
  have hstage : s.stage method receiver args w = .ok frame w₁ := by
    have hslots : pushArgs s.machine s.registry method args s₀ = .ok () ⟨w₁, frame⟩ := by
      simp only [pushArgs, hbind, hparams, List.zip_cons_cons, List.zip_nil_right, pushSlots,
        Steps.bind_apply, hpush, Steps.pure_apply]
    simp only [stage, fillFrame, Steps.bind_apply, hreceiver, hslots]
  obtain ⟨r, hr, haccounted⟩ := stage_accounted g s.registry s.module method receiver hwell
  obtain rfl := (hr s.machine).symm.trans hstage
  refine ⟨frame, w₁, hstage, ⟨haccounted, hgrew₁, ?_⟩, rfl, ?_⟩
  · rw [← howned₀]
    exact (Multiset.coe_add s₀.frame.owned [(w.handle o.handle).object]).le
  · show s₀.frame.args ++ _ = _
    rw [hargs₀, List.nil_append]

end Site

end Interop

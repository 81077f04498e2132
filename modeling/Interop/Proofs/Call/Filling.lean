/-
# Filling a frame

Whatever becomes of the arguments, the frame owns a reference for everything that was taken
or made for it so far: `Staging.Accounted` holds after every step, whether it succeeds or is
refused.  So giving back what the frame owns undoes all of it (`Site.stage_accounted`).
-/

import Interop.Proofs.Conversion.Building

namespace Interop

/-- The frame owns what was taken and made since `w₀`, and the receiver and the objects among
the arguments are owned by it. -/
structure Staging.Accounted (w₀ : World) (s : Staging) : Prop where
  staged : w₀.Staged (s.frame.owned : Multiset ObjId) s.world
  receiver_mem : ∀ p, s.frame.receiver = some p → p ∈ s.frame.owned
  args_mem : ∀ p, Arg.object p ∈ s.frame.args → p ∈ s.frame.owned

namespace Staging.Accounted

variable {w₀ w : World} {s : Staging} {p : ObjId}

/-- A frame that has nothing yet. -/
theorem empty (w : World) : Accounted w ⟨w, .empty⟩ :=
  ⟨.refl w, fun _ h => absurd h (by simp [Frame.empty]), fun _ h => absurd h List.not_mem_nil⟩

/-- A reference to `p` is owned beside those of the frame, which takes it over. -/
theorem adopt (a : Accounted w₀ s) (hw : w₀.Staged (p ::ₘ (s.frame.owned : Multiset ObjId)) w) :
    Accounted w₀ ⟨w, s.frame.adopt p⟩ := by
  constructor
  case staged =>
    show w₀.Staged ((s.frame.owned ++ [p] : List ObjId) : Multiset ObjId) w
    rw [← Multiset.coe_add, add_comm]
    exact hw
  case receiver_mem =>
    intro q hq
    exact List.mem_append_left _ (a.receiver_mem q hq)
  case args_mem =>
    intro q hq
    exact List.mem_append_left _ (a.args_mem q hq)

/-- The frame takes over a reference to the receiver. -/
theorem withReceiver (a : Accounted w₀ s)
    (hw : w₀.Staged (p ::ₘ (s.frame.owned : Multiset ObjId)) w) :
    Accounted w₀ ⟨w, s.frame.withReceiver p⟩ := by
  refine ⟨(a.adopt hw).staged, fun q hq => ?_, (a.adopt hw).args_mem⟩
  obtain rfl := Option.some.inj hq
  exact List.mem_append_right _ (List.mem_singleton_self _)

/-- The frame gets an argument; an object must be owned. -/
theorem push {arg : Arg} (a : Accounted w₀ s) (harg : ∀ q, arg = .object q → q ∈ s.frame.owned) :
    Accounted w₀ ⟨s.world, s.frame.push arg⟩ := by
  refine ⟨a.staged, a.receiver_mem, fun q hq => ?_⟩
  rcases List.mem_append.1 hq with hq | hq
  · exact a.args_mem q hq
  · exact harg q (List.mem_singleton.1 hq).symm

end Staging.Accounted

/-! ### Steps that fill -/

/-- The step `x` ends in the same way on every machine: with `post`, or refused and with a
frame that accounts for everything. -/
def Fills (w₀ : World) {α : Type} (post : α → Staging → Prop) (x : Machine → StageM α)
    (s : Staging) : Prop :=
  ∃ r : EStateM.Result BridgeError Staging α, (∀ m, x m s = r) ∧
    match r with
    | .ok a s' => post a s'
    | .error _ s' => s'.Accounted w₀

namespace Fills

variable {w₀ : World} {s : Staging} {α β : Type} {post : α → Staging → Prop}
  {post' : β → Staging → Prop}

/-- A value leaves the frame as it is. -/
theorem pure {a : α} (h : post a s) : Fills w₀ post (fun _ => pure a) s :=
  ⟨.ok a s, fun _ => rfl, h⟩

/-- A refusal leaves an accounted frame. -/
theorem refuse (e : BridgeError) (h : s.Accounted w₀) : Fills w₀ post (fun _ => throw e) s :=
  ⟨.error e s, fun _ => rfl, h⟩

/-- The second step starts from what the first left. -/
theorem bind {x : Machine → StageM α} {f : Machine → α → StageM β} (hx : Fills w₀ post x s)
    (hf : ∀ a s', post a s' → Fills w₀ post' (fun m => f m a) s') :
    Fills w₀ post' (fun m => x m >>= f m) s := by
  obtain ⟨r, hr, hs⟩ := hx
  rcases r with ⟨a, s'⟩ | ⟨e, s'⟩
  · obtain ⟨r', hr', hs'⟩ := hf a s' hs
    refine ⟨r', fun m => ?_, hs'⟩
    show (x m >>= f m) s = r'
    rw [Steps.bind_apply, hr]
    exact hr' m
  · refine ⟨.error e s', fun m => ?_, hs⟩
    show (x m >>= f m) s = _
    rw [Steps.bind_apply, hr]

/-- Reading the state changes nothing. -/
theorem get (s : Staging) :
    Fills w₀ (fun now s' => now = s ∧ s' = s) (fun _ => (MonadState.get : StageM Staging)) s :=
  ⟨.ok s s, fun _ => rfl, rfl, rfl⟩

/-- A step that builds leaves the frame alone. -/
theorem lift {refs : α → Multiset ObjId} {x : Machine → CheckM α} (a : s.Accounted w₀)
    (hx : Builds w₀ (s.frame.owned : Multiset ObjId) refs x s.world) :
    Fills w₀ (fun v s' => s'.frame = s.frame ∧ s.Accounted w₀ ∧
      w₀.Staged (refs v + (s.frame.owned : Multiset ObjId)) s'.world)
      (fun m => StageM.lift (x m)) s := by
  obtain ⟨r, hr, hs⟩ := hx
  rcases r with ⟨v, w⟩ | ⟨e, w⟩
  · refine ⟨.ok v { s with world := w }, fun m => ?_, rfl, a, hs⟩
    show StageM.lift (x m) s = _
    rw [StageM.lift_apply, hr]
  · refine ⟨.error e { s with world := w }, fun m => ?_, hs, a.receiver_mem, a.args_mem⟩
    show StageM.lift (x m) s = _
    rw [StageM.lift_apply, hr]

/-- An argument is pushed, and if it is an object, the frame owns it. -/
theorem push {arg : Arg} (a : s.Accounted w₀) (harg : ∀ q, arg = .object q → q ∈ s.frame.owned) :
    Fills w₀ (fun _ s' => s'.Accounted w₀) (fun _ => StageM.push arg) s :=
  ⟨.ok () ⟨s.world, s.frame.push arg⟩, fun _ => rfl, a.push harg⟩

end Fills

namespace Conversion

variable {w₀ : World} {s : Staging}

/-- The frame accounts for everything and owns a reference to `p`. -/
def Adopted (w₀ : World) (p : ObjId) (s : Staging) : Prop :=
  s.Accounted w₀ ∧ p ∈ s.frame.owned

/-- A reference that a step built is taken over by the frame. -/
theorem adopt_fills {s' : Staging} {p : ObjId} (a : s.Accounted w₀) (hframe : s'.frame = s.frame)
    (hw : w₀.Staged (p ::ₘ (s.frame.owned : Multiset ObjId)) s'.world) :
    Fills w₀ (fun _ => Adopted w₀ p) (fun _ => StageM.adopt p) s' := by
  refine ⟨.ok () { s' with frame := s'.frame.adopt p }, fun _ => rfl, ?_, ?_⟩
  · rw [hframe]
    exact a.adopt hw
  · exact List.mem_append_right _ (List.mem_singleton_self p)

/-- The object that was adopted is pushed. -/
theorem pushAdopted_fills {p : ObjId} (h : Adopted w₀ p s) :
    Fills w₀ (fun _ s' => s'.Accounted w₀) (fun _ => StageM.push (.object p)) s :=
  Fills.push h.1 fun _ hq => Arg.object.inj hq ▸ h.2

/-- A wrapper in the place of a text leaves an accounted frame. -/
theorem pushWrappedText_fills (g : w₀.Grounded) (a : s.Accounted w₀) (param : Param)
    (v : HostValue) (o : Wrapper) :
    Fills w₀ (fun _ s' => s'.Accounted w₀) (fun _ => pushWrappedText param v o) s := by
  refine Fills.bind (Fills.lift a (retain_builds g a.staged o.handle)) ?_
  rintro p s₁ ⟨hframe, -, hw⟩
  refine Fills.bind (adopt_fills a hframe hw) fun _ s₂ h => ?_
  refine Fills.bind (Fills.get s₂) ?_
  rintro _ _ ⟨rfl, rfl⟩
  split_ifs
  · exact pushAdopted_fills h
  · exact Fills.refuse _ h.1

/-- An object argument leaves an accounted frame. -/
theorem pushObject_fills (g : w₀.Grounded) (a : s.Accounted w₀) (registry : Registry)
    (param : Param) (constraint : Option String) {v : HostValue} (hv : v.WellFormed) :
    Fills w₀ (fun _ s' => s'.Accounted w₀)
      (fun m => pushObject m registry param constraint v) s := by
  refine Fills.bind (Fills.lift a (build_builds g param.name v hv a.staged)) ?_
  rintro q s₁ ⟨hframe, -, hw⟩
  rcases q with _ | p
  · rw [optionRef, Option.toList_none, Multiset.coe_nil, zero_add, ← hframe] at hw
    exact Fills.refuse _ ⟨hw, hframe ▸ a.receiver_mem, hframe ▸ a.args_mem⟩
  refine Fills.bind (adopt_fills a hframe hw) fun _ s₂ h => ?_
  rcases constraint with _ | name
  · exact pushAdopted_fills h
  rcases hfetch : registry.fetch name with e | c <;> simp only [hfetch]
  · exact Fills.refuse e h.1
  refine Fills.bind (Fills.get s₂) ?_
  rintro _ _ ⟨rfl, rfl⟩
  split_ifs
  · exact pushAdopted_fills h
  · exact Fills.refuse _ h.1

/-- A new text for a text parameter. -/
theorem pushText_fills (a : s.Accounted w₀) (text : String) :
    Fills w₀ (fun _ s' => s'.Accounted w₀) (fun _ => do
      let p ← StageM.lift (modifyGet (World.alloc Parcel.string (.str text)))
      StageM.adopt p
      StageM.push (.object p)) s := by
  have hnone : w₀.Staged (((Payload.str text).references : Multiset ObjId) +
      (s.frame.owned : Multiset ObjId)) s.world :=
    (zero_add (s.frame.owned : Multiset ObjId)).symm ▸ a.staged
  have hs : w₀.Staged ((World.alloc Parcel.string (.str text) s.world).1 ::ₘ
      (s.frame.owned : Multiset ObjId)) (World.alloc Parcel.string (.str text) s.world).2 :=
    hnone.alloc rfl
  have hbuilds : Builds w₀ (s.frame.owned : Multiset ObjId) (fun p => {p})
      (fun _ => modifyGet (World.alloc Parcel.string (.str text))) s.world :=
    ⟨.ok _ _, fun _ => rfl, hs⟩
  refine Fills.bind (Fills.lift a hbuilds) ?_
  rintro p s₁ ⟨hframe, -, hw⟩
  exact Fills.bind (adopt_fills a hframe hw) fun _ s₂ h => pushAdopted_fills h

/-- **One argument:** the frame accounts for it, or for what was taken before it was
refused. -/
theorem pushArg_fills (g : w₀.Grounded) (a : s.Accounted w₀) (registry : Registry)
    (param : Param) {v : HostValue} (hv : v.WellFormed) :
    Fills w₀ (fun _ s' => s'.Accounted w₀) (fun m => pushArg m registry param v) s := by
  have hpush : ∀ {arg : Arg}, (∀ q, arg ≠ .object q) →
      Fills w₀ (fun _ s' => s'.Accounted w₀) (fun _ => StageM.push arg) s := fun h =>
    Fills.push a fun q hq => absurd hq (h q)
  unfold pushArg
  split_ifs
  · exact hpush (by simp)
  · exact Fills.refuse _ a
  · cases param.spec.kind with
    | bool =>
      cases v with
      | bool value => exact hpush (by simp)
      | _ => exact Fills.refuse _ a
    | int width =>
      cases v with
      | int value =>
        show Fills w₀ _ (fun _ => if width.contains value = true then StageM.push (.int value)
          else throw (.overflow param.name value width.name)) s
        split_ifs
        · exact hpush (by simp)
        · exact Fills.refuse _ a
      | _ => exact Fills.refuse _ a
    | float =>
      cases v with
      | float value => exact hpush (by simp)
      | int value => exact hpush (by simp)
      | _ => exact Fills.refuse _ a
    | text =>
      cases v with
      | str value => exact pushText_fills a value
      | object o => exact pushWrappedText_fills g a param _ o
      | _ => exact Fills.refuse _ a
    | object constraint => exact pushObject_fills g a registry param constraint hv
    | pointer => exact Fills.refuse _ a

/-- The arguments in turn. -/
theorem pushSlots_fills (g : w₀.Grounded) (registry : Registry) (missing : BridgeError) :
    ∀ (slots : List (Param × Option HostValue)) {s : Staging}, s.Accounted w₀ →
      (∀ param v, (param, some v) ∈ slots → v.WellFormed) →
      Fills w₀ (fun _ s' => s'.Accounted w₀) (fun m => pushSlots m registry missing slots) s
  | [], _, a, _ => .pure a
  | (param, some v) :: rest, _, a, hv =>
    (pushArg_fills g a registry param (hv param v List.mem_cons_self)).bind fun _ _ a' =>
      pushSlots_fills g registry missing rest a' fun param v h =>
        hv param v (List.mem_cons_of_mem _ h)
  | (param, none) :: rest, s, a, hv => by
    show Fills w₀ _ (fun m => if param.spec.nullable = true then
      (StageM.push .null >>= fun _ => pushSlots m registry missing rest) else throw missing) s
    split_ifs
    · refine Fills.bind (Fills.push a (by simp)) fun _ _ a' => ?_
      exact pushSlots_fills g registry missing rest a' fun param v h =>
        hv param v (List.mem_cons_of_mem _ h)
    · exact Fills.refuse _ a

end Conversion

/-! ### Arguments and receivers -/

namespace CallArgs

/-- Every dict in the arguments has ascending keys. -/
structure WellFormed (args : CallArgs) : Prop where
  positional : ∀ v ∈ args.positional, v.WellFormed
  keyword : ∀ e ∈ args.keyword, e.2.WellFormed

/-- Arguments are well formed when each of their values is. -/
theorem wellFormed_iff {args : CallArgs} : args.WellFormed ↔
    (∀ v ∈ args.positional, v.WellFormed) ∧ ∀ e ∈ args.keyword, e.2.WellFormed :=
  ⟨fun h => ⟨h.positional, h.keyword⟩, fun h => ⟨h.1, h.2⟩⟩

/-- What is bound to a keyword was in its slot or among the keywords. -/
theorem mem_bindKeywords {params : List String} {v : HostValue} :
    ∀ {keyword : List (String × HostValue)} {slots bound : List (Option HostValue)},
      bindKeywords params slots keyword = .ok bound → some v ∈ bound →
      some v ∈ slots ∨ ∃ e ∈ keyword, e.2 = v
  | [], slots, bound, h, hv => by
    obtain rfl := Except.ok.inj h
    exact Or.inl hv
  | (name, value) :: rest, slots, bound, h, hv => by
    rw [bindKeywords] at h
    rcases hi : params.findIdx? (· == name) with _ | i <;> simp only [hi] at h
    · exact absurd h (by simp)
    split_ifs at h
    rcases mem_bindKeywords h hv with hset | ⟨e, he, hev⟩
    · rcases List.mem_or_eq_of_mem_set hset with hold | hnew
      · exact Or.inl hold
      · exact Or.inr ⟨(name, value), List.mem_cons_self, (Option.some.inj hnew).symm⟩
    · exact Or.inr ⟨e, List.mem_cons_of_mem _ he, hev⟩

/-- Every value in a slot is an argument of the call. -/
theorem mem_bind {args : CallArgs} {params : List String} {slots : List (Option HostValue)}
    {v : HostValue} (h : args.bind params = .ok slots) (hv : some v ∈ slots) :
    v ∈ args.positional ∨ ∃ e ∈ args.keyword, e.2 = v := by
  rw [bind] at h
  split_ifs at h
  rcases mem_bindKeywords h hv with hfill | hkey
  · rcases List.mem_append.1 hfill with hpos | hnone
    · obtain ⟨x, hx, hxv⟩ := List.mem_map.1 hpos
      exact Or.inl (Option.some.inj hxv ▸ hx)
    · exact absurd (List.eq_of_mem_replicate hnone) (by simp)
  · exact Or.inr hkey

/-- What is bound to a slot is as well formed as the arguments. -/
theorem WellFormed.of_bind {args : CallArgs} (hargs : args.WellFormed) {params : List String}
    {slots : List (Option HostValue)} {v : HostValue} (h : args.bind params = .ok slots)
    (hv : some v ∈ slots) : v.WellFormed := by
  rcases mem_bind h hv with hpos | ⟨e, he, rfl⟩
  · exact hargs.positional v hpos
  · exact hargs.keyword e he

end CallArgs

variable {w₀ : World} {s : Staging}

/-- All arguments of a call. -/
theorem Conversion.pushArgs_fills (g : w₀.Grounded) (a : s.Accounted w₀) (registry : Registry)
    (method : Method) {args : CallArgs} (hargs : args.WellFormed) :
    Fills w₀ (fun _ s' => s'.Accounted w₀) (fun m => pushArgs m registry method args) s := by
  rcases hbind : args.bind method.paramNames with e | slots
  · refine ⟨.error e s, fun m => ?_, a⟩
    simp only [pushArgs, hbind, Steps.throw_apply]
  · obtain ⟨r, hr, hs⟩ := pushSlots_fills g registry
      (.argumentCount method.params.length (slots.filterMap id).length) (method.params.zip slots) a
      fun param v hv => hargs.of_bind hbind (List.of_mem_zip hv).2
    refine ⟨r, fun m => ?_, hs⟩
    simp only [pushArgs, hbind]
    exact hr m

namespace Site

/-- The receiver of an instance method. -/
theorem pushReceiver_fills (g : w₀.Grounded) (a : s.Accounted w₀) (method : Method)
    (receiver : Option Wrapper) :
    Fills w₀ (fun _ s' => s'.Accounted w₀) (fun _ => pushReceiver method receiver) s := by
  rcases receiver with _ | o
  · exact .pure a
  simp only [pushReceiver]
  cases method.code with
  | onObject routine =>
    refine Fills.bind (Fills.lift a (Conversion.retain_builds g a.staged o.handle)) ?_
    rintro p s₁ ⟨hframe, -, hw⟩
    refine ⟨.ok () { s₁ with frame := s₁.frame.withReceiver p }, fun _ => rfl, ?_⟩
    rw [hframe]
    exact a.withReceiver hw
  | onClass routine => exact .pure a
  | onNothing routine => exact .pure a

/-- A frame is filled with everything accounted for, or the call is refused and everything
is as it was. -/
theorem stage_accounted (g : w₀.Grounded) (registry : Registry) (module : Module) (method : Method)
    (receiver : Option Wrapper) {args : CallArgs} (hargs : args.WellFormed) :
    ∃ r : EStateM.Result HostException World Frame,
      (∀ m, (Site.mk m registry module).stage method receiver args w₀ = r) ∧
      match r with
      | .ok frame w => Staging.Accounted w₀ ⟨w, frame⟩
      | .error _ w => w₀.Staged 0 w := by
  have hfill : Fills w₀ (fun _ s' => s'.Accounted w₀)
      (fun m => (Site.mk m registry module).fillFrame method receiver args) ⟨w₀, .empty⟩ :=
    Fills.bind (pushReceiver_fills g (.empty w₀) method receiver) fun _ _ a =>
      Conversion.pushArgs_fills g a registry method hargs
  obtain ⟨r, hr, hs⟩ := hfill
  rcases r with ⟨_, s⟩ | ⟨e, s⟩
  · refine ⟨.ok s.frame s.world, fun m => ?_, hs⟩
    have hrun := hr m
    simp only at hrun
    simp only [stage, hrun]
  · obtain ⟨w, hall, hw⟩ := World.Staged.releaseAll s.frame.owned
      ((add_zero (s.frame.owned : Multiset ObjId)).symm ▸ hs.staged)
    refine ⟨.error (.ofError e) w, fun m => ?_, hw⟩
    have hrun := hr m
    simp only at hrun
    simp only [stage, hrun, hall]

end Site

end Interop

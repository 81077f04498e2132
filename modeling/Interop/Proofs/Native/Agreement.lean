/-
# The code of the core parcel agrees with its signatures

The types of a method are written down as an encoding, apart from the body behind it.  What is
written is what the signature says (`Parcel.exists_declaration`).  That signature and body agree is
a matter of the tables (`Parcel.isFitting_of_mem`): each body asks for what the signature promises,
and it reads in its receiver the payload of the class that declares it.

An object is genuine when its payload is the one that the nearest constructor puts into
objects of its class (`Obj.Genuine`).  The constructors of the core parcel and the conversion
of arguments make no others, so arguments that are accepted fit what the body asks for
(`Arg.Conforms.fits`), and `Conversion.native_agrees` joins the three: code of the core parcel
that is called with accepted arguments answers.
-/

import Interop.Proofs.Conversion.Conformity
import Interop.Proofs.Conversion.RoundTrip
import Interop.Proofs.Native.Answering
import Interop.Proofs.Ownership.Sessions

namespace Interop

/-! ### Genuine objects -/

/-- The nearest class in the ancestry that has a constructor of its own. -/
def Class.constructing? (c : Class) : Option Class :=
  c.ancestry.find? fun a => a.maker.isSome

/-- The payload is the one that is made for objects of this class: by the constructor that the
class has or inherits, or because it is the class of such payloads. -/
def Obj.Genuine (o : Obj) : Prop :=
  o.cls = o.payload.home ∨ o.cls.constructing? = some o.payload.home

/-- No ancestor with a constructor is below the nearest one. -/
theorem Class.mem_ancestry_of_constructing {a b c : Class} (hfind : c.constructing? = some b)
    (ha : a ∈ c.ancestry) (hmaker : a.maker.isSome = true) : a ∈ b.ancestry := by
  induction c with
  | root record =>
    obtain rfl := List.mem_singleton.1 ha
    obtain rfl := List.mem_singleton.1 (List.mem_of_find?_eq_some hfind)
    exact ha
  | extend record parent ih =>
    rw [constructing?, ancestry, List.find?_cons] at hfind
    split at hfind
    · obtain rfl := Option.some.inj hfind
      exact ha
    · rename_i hself
      rcases List.mem_cons.1 ha with rfl | ha
      · exact absurd hmaker (Bool.eq_false_iff.1 hself)
      · exact ih hfind ha

/-- Every payload has its home in the core parcel. -/
theorem Payload.home_mem (payload : Payload) : payload.home ∈ Parcel.classes := by
  cases payload <;> simp [Payload.home, Parcel.classes]

/-- A genuine object has the payload of every class of the core parcel that has a constructor
and is in its ancestry. -/
theorem Obj.Genuine.home_eq {o : Obj} {c : Class} (g : o.Genuine) (hc : c ∈ o.cls.ancestry)
    (hmaker : c.maker.isSome = true) : o.payload.home = c := by
  have hmem : c ∈ o.payload.home.ancestry := by
    rcases g with hcls | hfind
    · rw [← hcls]
      exact hc
    · exact Class.mem_ancestry_of_constructing hfind hc hmaker
  rcases Parcel.maker_of_ancestry _ o.payload.home_mem c hmem with rfl | hnone
  · rfl
  · rw [hnone] at hmaker
    exact absurd hmaker Bool.false_ne_true

namespace Parcel

/-- **The constructors of the core parcel make genuine objects**, of their own class and of
every class that inherits them. -/
theorem runConstructor_genuine {op : CoreConstructor} {cls : Class} {args : List Arg}
    {env : NativeEnv} {h h' : Heap} {ret : Ret} (hcls : cls.constructing? = some (makerHome op))
    (hrun : runConstructor cls args op env h = .ok ret h') :
    ∃ p o, ret = .incremented p ∧ h'.get? p = some o ∧ o.cls = cls ∧ o.Genuine := by
  have hmade : ∀ (payload : Payload) {h₁ : Heap}, payload.home = makerHome op →
      (NativeM.alloc cls payload >>= fun p => pure (.incremented p)) env h₁ = .ok ret h' →
      ∃ p o, ret = .incremented p ∧ h'.get? p = some o ∧ o.cls = cls ∧ o.Genuine := by
    intro payload h₁ hhome hend
    obtain ⟨rfl, rfl⟩ := EStateM.Result.ok.inj hend
    exact ⟨_, _, rfl, Heap.get?_alloc_self _ _, rfl, Or.inr (hhome ▸ hcls)⟩
  cases op with
  | string =>
    obtain ⟨arg, h₁, -, hrest⟩ := NativeM.bind_inv hrun
    obtain ⟨value, h₂, -, hend⟩ := NativeM.bind_inv hrest
    exact hmade (.str value) rfl hend
  | integer =>
    obtain ⟨arg, h₁, -, hrest⟩ := NativeM.bind_inv hrun
    obtain ⟨value, h₂, -, hend⟩ := NativeM.bind_inv hrest
    exact hmade (.integer value) rfl hend
  | float =>
    obtain ⟨arg, h₁, -, hrest⟩ := NativeM.bind_inv hrun
    obtain ⟨value, h₂, -, hend⟩ := NativeM.bind_inv hrest
    exact hmade (.float value) rfl hend
  | hash =>
    obtain ⟨arg, h₁, -, hrest⟩ := NativeM.bind_inv hrun
    obtain ⟨room, h₂, -, hroom⟩ := NativeM.bind_inv hrest
    obtain ⟨reserved, h₃, -, hend⟩ := NativeM.bind_inv hroom
    split_ifs at hend
    · exact hmade (.hash .empty) rfl hend
    · exact absurd hend (by simp)
  | vector =>
    obtain ⟨arg, h₁, -, hrest⟩ := NativeM.bind_inv hrun
    obtain ⟨room, h₂, -, hroom⟩ := NativeM.bind_inv hrest
    obtain ⟨reserved, h₃, -, hend⟩ := NativeM.bind_inv hroom
    split_ifs at hend
    · exact hmade (.vector []) rfl hend
    · exact absurd hend (by simp)
  | error =>
    obtain ⟨arg, h₁, -, hrest⟩ := NativeM.bind_inv hrun
    obtain ⟨value, h₂, -, hend⟩ := NativeM.bind_inv hrest
    exact hmade (.err value) rfl hend

end Parcel

/-! ### Genuine arguments -/

namespace World

/-- If the value is a wrapper, then that of a genuine object. -/
def Vouches (w : World) (v : HostValue) : Prop :=
  ∀ x, v = .object x → (w.obj (w.handle x.handle).object).Genuine

/-- The object is there and genuine. -/
def HasGenuine (w : World) (p : ObjId) : Prop :=
  ∃ o, w.heap.get? p = some o ∧ o.Genuine

variable {w w' : World} {taken : Multiset ObjId}

/-- A genuine object stays genuine when references are taken. -/
theorem HasGenuine.grew {p : ObjId} (h : w.HasGenuine p) (g : w.Grew taken w') :
    w'.HasGenuine p := by
  obtain ⟨o, ho, hgenuine⟩ := h
  obtain ⟨count, hc, -⟩ := g.kept p o ho
  exact ⟨_, hc, hgenuine⟩

/-- The object behind a wrapper that owns its reference is there. -/
theorem Vouches.hasGenuine {x : Wrapper} (h : w.Vouches (.object x)) (hw : w.Grounded)
    (howns : w.owns x.handle = true) : w.HasGenuine (w.handle x.handle).object := by
  obtain ⟨o, ho, -⟩ := hw.referenced x.handle howns
  have hgenuine := h x rfl
  rw [World.obj, Heap.obj_of_get? ho] at hgenuine
  exact ⟨o, ho, hgenuine⟩

/-- A value that stands for a genuine object does so after references were taken. -/
theorem Vouches.grew {v : HostValue} (h : w.Vouches v) (g : w.Grew taken w') (hw : w.Grounded)
    (hv : v.Convertible w.owns) : w'.Vouches v := by
  rintro x rfl
  obtain ⟨o, ho, hgenuine⟩ := (h.hasGenuine hw hv).grew g
  rw [g.handle_eq, World.obj, Heap.obj_of_get? ho]
  exact hgenuine

end World

namespace Conversion

variable {registry : Registry} {param : Param} {s s' : Staging}

/-- What is built is genuine. -/
theorem build_genuine (m : Machine) {name : String} {v : HostValue} {w w' : World} {p : ObjId}
    (g : w.Grounded) (hv : w.Vouches v) (h : build m name v w = .ok (some p) w') :
    w'.HasGenuine p := by
  obtain ⟨hconv, hgrew, -, -, hsame⟩ := build_sound m name v g h
  by_cases hobject : ∃ x, v = .object x
  · obtain ⟨x, rfl⟩ := hobject
    obtain rfl := hsame x rfl
    exact (hv.hasGenuine g hconv).grew hgrew
  · obtain ⟨o, ho, hhome, -⟩ := build_made m g (not_exists.1 hobject) h
    exact ⟨o, ho, Or.inl hhome⟩

/-- An object that is added was built for its value. -/
theorem pushObject_inv (m : Machine) {constraint : Option String} {v : HostValue}
    (h : pushObject m registry param constraint v s = .ok () s') :
    ∃ p w, build m param.name v s.world = .ok (some p) w ∧
      s' = ⟨w, (s.frame.adopt p).push (.object p)⟩ := by
  obtain ⟨q, s₁, hlift, hrest⟩ := Steps.bind_ok h
  obtain ⟨w, hbuild, rfl⟩ := StageM.lift_ok hlift
  rcases q with _ | p
  · exact absurd hrest (by simp [mismatch])
  refine ⟨p, w, hbuild, ?_⟩
  rcases constraint with _ | name
  · exact (EStateM.Result.ok.inj hrest).2.symm
  · rcases hfetch : registry.fetch name with e | c <;>
      simp only [hfetch, Steps.bind_apply, StageM.adopt_apply, Steps.get_apply] at hrest
    · exact absurd hrest (by simp)
    · split_ifs at hrest
      · exact (EStateM.Result.ok.inj hrest).2.symm
      · exact absurd hrest (by simp [mismatch])

/-- **An object that becomes an argument is genuine.** -/
theorem pushArg_genuine (m : Machine) (g : s.world.Grounded) {v : HostValue}
    (hv : s.world.Vouches v) (h : pushArg m registry param v s = .ok () s') {p : ObjId}
    (hp : Arg.object p ∈ s'.frame.args) :
    Arg.object p ∈ s.frame.args ∨ s'.world.HasGenuine p := by
  obtain ⟨haccepts, hgrew, arg, hargs, hconforms⟩ := pushArg_sound m g h
  have hconv := haccepts.convertible
  rw [hargs] at hp
  rcases List.mem_append.1 hp with hp | hp
  · exact Or.inl hp
  obtain rfl := List.mem_singleton.1 hp
  refine Or.inr ?_
  obtain ⟨_, o, hslot, ho, hcls, hsame, hkind⟩ := hconforms
  obtain rfl := Option.some.inj hslot
  have hnull : v.isNull = false := by
    cases v with
    | null => exact absurd hcls (by simp [World.nativeClass])
    | _ => rfl
  rcases hkind with ⟨hkind, text, hpayload, -⟩ | ⟨constraint, hkind, -⟩
  · -- a text is made from a text or stands behind a wrapper
    rw [Param.Accepts, hnull, if_neg Bool.false_ne_true, hkind] at haccepts
    cases v with
    | str value =>
      refine ⟨o, ho, Or.inl ?_⟩
      rw [hpayload]
      exact (Option.some.inj hcls).symm
    | object x =>
      obtain rfl := hsame x rfl
      exact (hv.hasGenuine g hconv).grew hgrew
    | _ => exact absurd haccepts id
  · rw [pushArg_object m hkind hnull] at h
    obtain ⟨q, w, hbuild, rfl⟩ := pushObject_inv m h
    obtain rfl : q = p := by simpa [Frame.push, Frame.adopt] using hargs
    exact build_genuine m g hv hbuild

/-- The objects among the arguments of a call are genuine. -/
theorem pushSlots_genuine (m : Machine) (missing : BridgeError) :
    ∀ (slots : List (Param × Option HostValue)) {s s' : Staging}, s.world.Grounded →
      (∀ b ∈ slots, ∀ v, b.2 = some v → s.world.Vouches v) →
      pushSlots m registry missing slots s = .ok () s' →
      ∀ p, Arg.object p ∈ s'.frame.args → Arg.object p ∈ s.frame.args ∨ s'.world.HasGenuine p
  | [], s, s', _, _, h, p, hp => by
    obtain rfl : s = s' := by simpa [pushSlots] using h
    exact Or.inl hp
  | (param, slot) :: rest, s, s', g, hall, h, p, hp => by
    obtain ⟨haccepts, -⟩ := pushSlots_sound m missing ((param, slot) :: rest) g h
    have hrestconv : ∀ b ∈ rest, ∀ v, b.2 = some v → v.Convertible s.world.owns := by
      rintro ⟨param', _⟩ hb v ⟨rfl⟩
      exact Param.Accepts.convertible (haccepts _ (List.mem_cons_of_mem _ hb))
    -- the step adds a genuine argument, or null
    obtain ⟨s₁, taken, hgrew, hnew, hrest⟩ : ∃ s₁ taken, s.world.Grew taken s₁.world ∧
        (Arg.object p ∈ s₁.frame.args → Arg.object p ∈ s.frame.args ∨ s₁.world.HasGenuine p) ∧
        pushSlots m registry missing rest s₁ = .ok () s' := by
      rcases slot with _ | v
      · rw [pushSlots] at h
        split_ifs at h
        · obtain ⟨_, s₁, hpush, hrest⟩ := Steps.bind_ok h
          obtain rfl := (EStateM.Result.ok.inj hpush).2
          refine ⟨⟨s.world, s.frame.push .null⟩, 0, .refl s.world, fun hp => Or.inl ?_, hrest⟩
          simpa [Frame.push] using hp
        · exact absurd h (by simp)
      · obtain ⟨_, s₁, hpush, hrest⟩ := Steps.bind_ok h
        obtain ⟨-, hgrew, -⟩ := pushArg_sound m g hpush
        exact ⟨s₁, _, hgrew, pushArg_genuine m g (hall _ List.mem_cons_self v rfl) hpush, hrest⟩
    have hall' : ∀ b ∈ rest, ∀ v, b.2 = some v → s₁.world.Vouches v := fun b hb v hbv =>
      (hall b (List.mem_cons_of_mem _ hb) v hbv).grew hgrew g (hrestconv b hb v hbv)
    obtain ⟨-, hgrew', -⟩ := pushSlots_sound m missing rest (hgrew.grounded g) hrest
    rcases pushSlots_genuine m missing rest (hgrew.grounded g) hall' hrest p hp with hp | hp
    · exact (hnew hp).imp_right fun hp => hp.grew hgrew'
    · exact Or.inr hp

end Conversion

/-! ### Signatures and bodies -/

/-- **What conforms fits**, if it is genuine and the name of vectors stands for their class. -/
theorem Arg.Conforms.fits {w w' : World} {registry : Registry} {spec : TypeSpec}
    {slot : Option HostValue} {arg : Arg} (h : arg.Conforms w w' registry spec slot)
    (hvector : registry.fetch Parcel.vector.name = .ok Parcel.vector)
    (hgenuine : ∀ p, arg = .object p → w'.HasGenuine p) : arg.Fits w'.heap spec := by
  cases arg with
  | null => exact h.1
  | bool b => exact h.1
  | int n =>
    obtain ⟨-, width, hkind, hlow, -⟩ := h
    exact ⟨width, hkind, hlow⟩
  | float x => exact h.1
  | object p =>
    obtain ⟨_, o, -, ho, -, -, hkind⟩ := h
    rw [Arg.Fits, Heap.obj_of_get? ho]
    rcases hkind with ⟨hkind, text, hpayload, -⟩ | ⟨constraint, hkind, hclass⟩
    · exact Or.inl ⟨hkind, text, by rw [hpayload]; rfl⟩
    · refine Or.inr ⟨constraint, hkind, ?_⟩
      rintro rfl
      obtain ⟨c, hfetch, hsub⟩ := hclass _ rfl
      obtain rfl := Except.ok.inj (hvector.symm.trans hfetch)
      obtain ⟨x, hx, hgen⟩ := hgenuine p rfl
      obtain rfl := Option.some.inj (ho.symm.trans hx)
      refine Parcel.vector_of_home (hgen.home_eq (Class.isSubclassOf_iff.1 hsub) ?_)
      exact Option.isSome_iff_ne_none.2 Parcel.maker_vector

namespace Code

/-- What code of the core parcel asks for. -/
def asks : Code → List TypeSpec
  | .onObject (.core op) => op.asks
  | .onClass (.core op) => op.asks
  | .onNothing (.core op) => op.asks
  | _ => []

/-- The references that code of the core parcel takes. -/
def takes (h : Heap) (frame : Frame) : Code → List ObjId
  | .onObject (.core op) => (frame.receiver.map fun p => op.takes h p frame.args).getD []
  | .onNothing (.core .rethrow) => Parcel.pushedElement frame.args
  | _ => []

/-- What code of the core parcel throws although it got what it asks for. -/
def limit? (memory : Memory) (h : Heap) (frame : Frame) : Code → Option String
  | .onObject (.core op) => frame.receiver.bind fun p => op.limit? h p frame.args
  | .onClass (.core op) => op.limit? memory frame.args
  | _ => none

end Code

namespace Parcel

/-- Whether the code of a method that the class `c` declares is of the core parcel, asks for
what the signature promises, and reads in its receiver nothing but payloads for which `c` has
the constructor. -/
def isFitting (c : Class) (method : Method) : Bool :=
  (method.signature.params == method.code.asks) &&
    match method.code with
    | .onObject (.core op) => op.reads?.all fun a => a == c && c.maker.isSome
    | .onClass (.core _) => true
    | .onNothing (.core _) => true
    | _ => false

/-- **Every method is declared with an encoding**, which reads as its signature. -/
theorem exists_declaration {c : Class} (hc : c ∈ classes) {method : Method}
    (hmethod : method ∈ c.ownMethods ++ c.maker.toList) :
    ∃ d, (c, d) ∈ declarations ∧ d.method = method ∧
      Signature.parse d.encoding = .ok method.signature := by
  have htable : ∀ c ∈ classes, ∀ method ∈ c.ownMethods ++ c.maker.toList,
      declarations.any (fun e => e.1 == c && e.2.method == method) = true := by decide +kernel
  obtain ⟨⟨_, d⟩, hmem, heq⟩ := List.any_eq_true.1 (htable c hc method hmethod)
  obtain ⟨hcls, hd⟩ := Bool.and_eq_true_iff.1 heq
  obtain rfl := beq_iff_eq.1 hcls
  obtain rfl := beq_iff_eq.1 hd
  exact ⟨d, hmem, rfl, (Method.signature_of_make d.written).1⟩

/-- **The tables of the core parcel fit its code.** -/
theorem isFitting_of_mem :
    ∀ c ∈ classes, ∀ method ∈ c.ownMethods ++ c.maker.toList, isFitting c method = true := by
  decide +kernel

end Parcel

namespace Conversion

open NativeM

variable {registry : Registry} {method : Method} {args : CallArgs} {s s' : Staging}

/-- Arguments are accepted slot by slot, every value of the call being in one of them. -/
theorem pushArgs_inv (m : Machine) (hpush : pushArgs m registry method args s = .ok () s') :
    ∃ slots missing, slots.length = method.params.length ∧
      (slots.filterMap id).Perm args.values ∧
      pushSlots m registry missing (method.params.zip slots) s = .ok () s' := by
  unfold pushArgs at hpush
  rcases hbind : args.bind method.paramNames with e | slots <;> rw [hbind] at hpush
  · exact absurd hpush (by simp)
  · obtain ⟨hlen, hperm⟩ := CallArgs.bind_perm hbind
    rw [Method.paramNames, List.length_map] at hlen
    exact ⟨slots, _, hlen, hperm, hpush⟩

/-- Accepted arguments fit the signature. -/
theorem allFit_of_pushArgs (m : Machine)
    (hvector : registry.fetch Parcel.vector.name = .ok Parcel.vector) (g : s.world.Grounded)
    (hargs : s.frame.args = []) (hvouched : ∀ v ∈ args.values, s.world.Vouches v)
    (hpush : pushArgs m registry method args s = .ok () s') :
    Arg.AllFit s'.world.heap method.signature.params s'.frame.args := by
  obtain ⟨slots, missing, hlen, hperm, hslots⟩ := pushArgs_inv m hpush
  obtain ⟨-, -, new, hnew, hall⟩ := pushSlots_sound m _ _ g hslots
  rw [hargs, List.nil_append] at hnew
  have hvouched' : ∀ b ∈ method.params.zip slots, ∀ v, b.2 = some v → s.world.Vouches v := by
    intro b hb v hbv
    exact hvouched v (hperm.subset (List.mem_filterMap.2 ⟨b.2, (List.of_mem_zip hb).2, hbv⟩))
  have hgenuine : ∀ arg ∈ new, ∀ p, arg = .object p → s'.world.HasGenuine p := by
    rintro _ hmem p rfl
    rcases pushSlots_genuine m _ _ g hvouched' hslots p (hnew ▸ hmem) with hp | hp
    · rw [hargs] at hp
      exact absurd hp List.not_mem_nil
    · exact hp
  have hboth := (List.forall₂_and_left new _).2 ⟨hgenuine, hall.flip⟩
  have hfst : method.params = (method.params.zip slots).map Prod.fst :=
    (List.map_fst_zip hlen.ge).symm
  rw [hnew, Arg.AllFit, Method.signature, hfst, List.map_map, List.forall₂_map_left_iff]
  exact hboth.flip.imp fun b arg h => Arg.Conforms.fits h.2 hvector h.1

/-- **The code of the core parcel agrees with the encodings.** A method, a constructor or a
function of a class of the core parcel was called with arguments that were accepted; its signature
is what was read from the encoding with which the class declares it.  The
receiver, if there is one, is an object of that class or of one below it; it is genuine, as
the objects behind the wrappers among the arguments are, and there is room for the references
that the code takes.  Then the code answers: no type, no null and no payload is other than it
wants.  It returns, or it throws for a place beyond the end of a vector or for a capacity that
cannot be reserved; the one function that is there to throw throws its argument. -/
theorem native_agrees (m : Machine) (env : NativeEnv) {c cls : Class} {native : NativeM Ret}
    (hcore : ∀ c ∈ Parcel.classes, registry.fetch c.name = .ok c)
    (hmethod : c ∈ Parcel.classes ∧ (method ∈ c.ownMethods ∨ c.maker = some method))
    (g : s.world.Grounded) (hargs : s.frame.args = [])
    (hreceiver : ∀ p, s.frame.receiver = some p →
      ∃ o, s.world.heap.get? p = some o ∧ c ∈ o.cls.ancestry ∧ o.Genuine)
    (hvouched : ∀ v ∈ args.values, s.world.Vouches v)
    (hpush : pushArgs m registry method args s = .ok () s')
    (room : s'.world.heap.Room (method.code.takes s'.world.heap s'.frame))
    (hcode : Call.codeFor m.image method.code cls s'.frame = some native) :
    (∃ d, (c, d) ∈ Parcel.declarations ∧ d.method = method ∧
      Signature.parse d.encoding = .ok method.signature) ∧
    if method.code = .onNothing (.core .rethrow) then
      ∃ q h', s'.frame.args = [.object q] ∧ s'.world.heap.retain q = .ok h' ∧
        native env s'.world.heap = .error ⟨q⟩ h'
    else native.Answers (method.code.limit? env.memory s'.world.heap s'.frame) env
      s'.world.heap := by
  obtain ⟨hc, hmem⟩ := hmethod
  refine ⟨Parcel.exists_declaration hc
    (List.mem_append.2 (hmem.imp_right Option.mem_toList.2)), ?_⟩
  have hvector := hcore Parcel.vector (by simp [Parcel.classes])
  have hfit := allFit_of_pushArgs m hvector g hargs hvouched hpush
  have htable : Parcel.isFitting c method = true :=
    Parcel.isFitting_of_mem c hc method
      (List.mem_append.2 (hmem.imp_right Option.mem_toList.2))
  obtain ⟨hparams, hcodes⟩ := Bool.and_eq_true_iff.1 htable
  rw [beq_iff_eq] at hparams
  rw [hparams] at hfit
  rcases hof : method.code with ⟨op | symbol⟩ | ⟨op | symbol⟩ | ⟨op | symbol⟩ <;>
    rw [hof] at hcode hcodes hfit room
  case onObject.core =>
    obtain ⟨p, hp, rfl⟩ := Option.map_eq_some_iff.1 hcode
    rw [if_neg (by simp)]
    have hlimit : (Code.onObject (.core op)).limit? env.memory s'.world.heap s'.frame =
        op.limit? s'.world.heap p s'.frame.args := by rw [Code.limit?, hp]; rfl
    have htakes : (Code.onObject (.core op)).takes s'.world.heap s'.frame =
        op.takes s'.world.heap p s'.frame.args := by rw [Code.takes, hp]; rfl
    rw [hlimit]
    rw [htakes] at room
    refine Parcel.runMethod_answers env ?_ hfit room
    intro a ha
    -- the receiver is still what it was when the arguments were accepted
    obtain ⟨o, ho, hancestor, hgenuine⟩ :=
      hreceiver p ((keepsReceiver_pushArgs m registry method args s () s' hpush).symm.trans hp)
    obtain ⟨slots, missing, -, -, hslots⟩ := pushArgs_inv m hpush
    obtain ⟨-, hgrew, -⟩ := pushSlots_sound m _ _ g hslots
    obtain ⟨count, hcount, -⟩ := hgrew.kept p o ho
    rw [Heap.obj_of_get? hcount]
    have hreads : (op.reads?.all fun a => a == c && c.maker.isSome) = true := hcodes
    rw [ha] at hreads
    obtain ⟨hac, hmaker⟩ := Bool.and_eq_true_iff.1 hreads
    obtain rfl := beq_iff_eq.1 hac
    exact hgenuine.home_eq hancestor hmaker
  case onClass.core =>
    obtain rfl := Option.some.inj hcode
    rw [if_neg (by simp)]
    exact Parcel.runConstructor_answers env cls hfit
  case onNothing.core =>
    obtain rfl := Option.some.inj hcode
    by_cases hop : op = .rethrow
    · subst hop
      rw [if_pos rfl]
      exact Parcel.rethrow_throws env hfit room
    · rw [if_neg (by simpa using hop)]
      exact Parcel.runFunction_returns env hop hfit
  all_goals exact absurd hcodes (by simp)

end Conversion

namespace Sample

/-- The method that puts an element at a place. -/
def insertMethod : Method :=
  Parcel.method "Insert" .void [("tick", Parcel.size), ("element", Parcel.maybeObject)]
    .vectorInsert

/-- An empty vector is the receiver. -/
def onVector : Staging :=
  ⟨vectorWorld, ⟨some ⟨2⟩, [], []⟩⟩

/-- An empty vector is the receiver, and a text is to be put at its second place. -/
def beyondEnd : Staging :=
  ⟨(vectorWorld.alloc Parcel.string (.str "a")).2, ⟨some ⟨2⟩, [.int 1, .object ⟨3⟩], [⟨3⟩]⟩⟩

/-- An empty vector has no second place to put an element at. -/
theorem insert_beyondEnd :
    Conversion.pushArgs machine Parcel.registry insertMethod ⟨[.int 1, .str "a"], []⟩ onVector =
      .ok () beyondEnd ∧
    Parcel.runMethod ⟨2⟩ beyondEnd.frame.args .vectorInsert (machine.env Parcel.registry)
        beyondEnd.world.heap =
      NativeM.fail "Tick 1 out of bounds for vector of size 0" (machine.env Parcel.registry)
        beyondEnd.world.heap := by
  have hpush : Conversion.pushArgs machine Parcel.registry insertMethod ⟨[.int 1, .str "a"], []⟩
      onVector = .ok () beyondEnd := rfl
  have hcore : ∀ c ∈ Parcel.classes, Parcel.registry.fetch c.name = .ok c :=
    Parcel.registry_fetch
  have hmethod : Parcel.vector ∈ Parcel.classes ∧
      (insertMethod ∈ Parcel.vector.ownMethods ∨ Parcel.vector.maker = some insertMethod) := by
    decide +kernel
  have g : onVector.world.Grounded := vectorWorld_grounded
  have hargs : onVector.frame.args = [] := rfl
  have hreceiver : ∀ p, onVector.frame.receiver = some p →
      ∃ o, onVector.world.heap.get? p = some o ∧ Parcel.vector ∈ o.cls.ancestry ∧ o.Genuine := by
    rintro _ ⟨rfl⟩
    exact ⟨Heap.fresh Parcel.vector (.vector []), rfl, Class.mem_ancestry_self _, Or.inl rfl⟩
  have hvouched : ∀ v ∈ CallArgs.values ⟨[.int 1, .str "a"], []⟩, onVector.world.Vouches v := by
    rintro v hv x rfl
    exact absurd hv (by simp [CallArgs.values])
  have room : beyondEnd.world.heap.Room
      (insertMethod.code.takes beyondEnd.world.heap beyondEnd.frame) := by
    intro p hp _
    obtain rfl : p = ⟨3⟩ := List.mem_singleton.1 hp
    decide
  have hcode : Call.codeFor machine.image insertMethod.code Parcel.vector beyondEnd.frame =
      some (Parcel.runMethod ⟨2⟩ beyondEnd.frame.args .vectorInsert) := rfl
  have hlimit : insertMethod.code.limit? (machine.env Parcel.registry).memory
      beyondEnd.world.heap beyondEnd.frame =
      some "Tick 1 out of bounds for vector of size 0" := by
    decide +kernel
  have hanswers := (Conversion.native_agrees machine (machine.env Parcel.registry) hcore hmethod g
    hargs hreceiver hvouched hpush room hcode).2
  rw [if_neg (by decide), hlimit] at hanswers
  exact ⟨hpush, hanswers⟩

end Sample

end Interop

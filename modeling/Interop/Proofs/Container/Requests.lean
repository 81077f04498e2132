/-
# Requests to containers

Host code makes containers and calls methods on those that it has; each request gets a reply.
What the reply should be is said without a heap: a `Behaviour` takes the values of the
arguments and the content of one container to an answer and a new content, and `Method.reply`
adds what happens to arguments that are refused.

**A request is answered as its behaviour says** when the code of the method does to the
container what the behaviour does to its content (`Site.ask_refines`, `Site.make_refines`),
and then so is every sequence of requests (`replies_eq`).
-/

import Interop.Proofs.Container.Behaviour
import Interop.Proofs.Container.Calls
import Interop.Proofs.Ownership.Sessions

namespace Interop

open World Conversion

/-- What comes back for a request. -/
inductive Reply
  | made
  | answered (v : HostValue)
  | raised (e : HostException)
  /-- There is no such container. -/
  | absent

/-! ### Sequences of requests -/

section Sequences

variable {σ τ ρ : Type}

/-- The replies to requests that are made in turn. -/
def replies (step : σ → ρ → Reply × σ) : σ → List ρ → List Reply
  | _, [] => []
  | x, r :: rest => (step x r).1 :: replies step (step x r).2 rest

/-- Each request is allowed in the state in which it is made. -/
def Allowed (step : σ → ρ → Reply × σ) (ok : σ → ρ → Prop) : σ → List ρ → Prop
  | _, [] => True
  | x, r :: rest => ok x r ∧ Allowed step ok (step x r).2 rest

instance Allowed.decide {step : σ → ρ → Reply × σ} {ok : σ → ρ → Prop}
    [∀ x r, Decidable (ok x r)] :
    ∀ (requests : List ρ) (x : σ), Decidable (Allowed step ok x requests)
  | [], _ => isTrue trivial
  | r :: rest, x => @instDecidableAnd _ _ (inferInstanceAs (Decidable (ok x r)))
    (Allowed.decide rest (step x r).2)

/-- **Equal replies** come from steps that keep two states in relation. -/
theorem replies_eq {step : σ → ρ → Reply × σ} {step' : τ → ρ → Reply × τ} {R : σ → τ → Prop}
    {ok : σ → ρ → Prop} (hstep : ∀ {x y r}, R x y → ok x r →
      (step x r).1 = (step' y r).1 ∧ R (step x r).2 (step' y r).2) (requests : List ρ) :
    ∀ {x : σ} {y : τ}, R x y → Allowed step ok x requests →
      replies step x requests = replies step' y requests := by
  induction requests with
  | nil => exact fun _ _ => rfl
  | cons r rest ih =>
    intro x y hR hallowed
    obtain ⟨hreply, hnext⟩ := hstep hR hallowed.1
    rw [replies, replies, hreply, ih hnext hallowed.2]

/-- What every request in a list has, it has whatever the state. -/
theorem allowed_of_forall {step : σ → ρ → Reply × σ} {ok : ρ → Prop} {requests : List ρ}
    (h : ∀ r ∈ requests, ok r) (x : σ) : Allowed step (fun _ => ok) x requests := by
  induction requests generalizing x with
  | nil => trivial
  | cons r rest ih =>
    exact ⟨h r List.mem_cons_self, ih (fun y hy => h y (List.mem_cons_of_mem r hy)) _⟩

/-- Two conditions that each hold at every request hold together. -/
theorem Allowed.and {step : σ → ρ → Reply × σ} {ok ok' : σ → ρ → Prop} {requests : List ρ} :
    ∀ {x : σ}, Allowed step ok x requests → Allowed step ok' x requests →
      Allowed step (fun x r => ok x r ∧ ok' x r) x requests := by
  induction requests with
  | nil => exact fun _ _ => trivial
  | cons r rest ih => exact fun h h' => ⟨⟨h.1, h'.1⟩, ih h.2 h'.2⟩

end Sequences

/-! ### Requests to a module -/

/-- A world and the wrappers of the containers that host code made in it. -/
structure Stock where
  world : World
  wrappers : List Wrapper

namespace Site

/-- Makes one more container. -/
def make (s : Site) (className : String) (args : CallArgs) (x : Stock) : Reply × Stock :=
  match s.construct className args x.world with
  | .ok o w => (.made, ⟨w, x.wrappers ++ [o]⟩)
  | .error e w => (.raised e, ⟨w, x.wrappers⟩)

/-- Calls a method on one of the containers. -/
def ask (s : Site) (target : Nat) (name : String) (args : CallArgs) (x : Stock) : Reply × Stock :=
  match x.wrappers[target]? with
  | none => (.absent, x)
  | some o =>
    match s.callMethod o name args x.world with
    | .ok v w => (.answered v, ⟨w, x.wrappers⟩)
    | .error e w => (.raised e, ⟨w, x.wrappers⟩)

end Site

/-! ### What the replies should be -/

namespace Method

variable {α : Type}

/-- The reply to a call of the method on a container, and its content from then on. -/
def reply (method : Method) (cls : Class) (does : Behaviour α) (args : CallArgs) (a : α) :
    Reply × α :=
  match method.screen Parcel.registry args with
  | .error e => (.raised ((HostException.ofError e).withFrame (Site.label cls method.hostName)), a)
  | .ok slots =>
    match does slots a with
    | .ok (v, a') => (.answered v, a')
    | .error message =>
      (.raised ((HostException.native message).withFrame (Site.label cls method.hostName)), a)

/-- The reply to a call of the method on one of the containers, and their contents. -/
def replyAt (method : Method) (cls : Class) (does : Behaviour α) (target : Nat) (args : CallArgs)
    (contents : List α) : Reply × List α :=
  match contents[target]? with
  | none => (.absent, contents)
  | some a =>
    ((method.reply cls does args a).1, contents.set target (method.reply cls does args a).2)

/-- The reply to a call of the constructor, which makes an empty container or, for some
arguments, a plain error. -/
def makerReply (maker : Method) (cls : Class) (refuses : List (Option HostValue) → Option String)
    (empty : α) (args : CallArgs) (contents : List α) : Reply × List α :=
  match maker.screen Parcel.registry args with
  | .error e =>
    (.raised ((HostException.ofError e).withFrame (cls.shortName ++ ".__init__")), contents)
  | .ok slots =>
    match refuses slots with
    | none => (.made, contents ++ [empty])
    | some message =>
      (.raised ((HostException.native message).withFrame (cls.shortName ++ ".__init__")), contents)

end Method

/-! ### Requests are answered as they should be -/

namespace World

variable {K : Class → Prop} {α : Type} {kind : ContainerKind α} {w w₁ : World}
  {wrappers : List Wrapper} {contents : List α} {o : Wrapper} {p q : ObjId} {x : Obj}
  {taken : Multiset ObjId}

/-- There is room for a reference to each container. -/
theorem Tracks.spare (t : Tracks K kind w wrappers contents) (hp : p ∈ w.roots wrappers) :
    w.Spare {p} := by
  intro q hq o ho _
  obtain rfl := Multiset.mem_singleton.1 hq
  obtain ⟨y, hy, -, -, hone⟩ := t.get?_root hp
  obtain rfl := Option.some.inj (hy.symm.trans ho)
  rw [hone, Multiset.count_singleton_self]
  decide

/-- Room for references is still there when none to these objects were taken. -/
theorem Grew.room {ps : List ObjId} (g : w.Grew taken w₁)
    (hthere : ∀ q ∈ ps, ∃ x, w.heap.get? q = some x) (hnot : ∀ q ∈ ps, q ∉ taken)
    (room : w.heap.Room ps) : w₁.heap.Room ps := by
  intro q hq himm
  obtain ⟨x, hx⟩ := hthere q hq
  obtain ⟨count, hc, hcount⟩ := g.kept q x hx
  have hroom := room q hq
  rw [Heap.obj_of_get? hc] at himm ⊢
  rw [Heap.obj_of_get? hx] at hroom
  have hle := hroom himm
  have heq := hcount himm
  rw [Multiset.count_eq_zero_of_notMem (hnot q hq)] at heq
  show count + _ ≤ maxCount
  omega

/-- There is room for references to what a container holds when a frame is staged, if there
was before: the frame takes references to containers only. -/
theorem Tracks.room_of_lends {ps : List ObjId} (t : Tracks K kind w wrappers contents)
    {frame : Frame} (l : Staging.Lends w taken ⟨w₁, frame⟩)
    (htaken : ∀ q ∈ taken, q ∈ w.roots wrappers) (hx : w.heap.get? p = some x)
    (hps : ∀ q ∈ ps, q ∈ x.payload.references) (room : w.heap.Room ps) : w₁.heap.Room ps := by
  refine l.grew.room (fun q hq => ?_) (fun q hq hmem => ?_) room
  · exact t.balanced.orderly.get?_of_reference hx (hps q hq)
  · exact t.apart q (htaken q hmem) (Heap.mem_slots.2 ⟨p, x, Nat.zero_le _, hx, hps q hq⟩)

end World

namespace Site

variable {s : Site} {K : Class → Prop} {α : Type} {kind : ContainerKind α} {w : World}
  {wrappers : List Wrapper} {contents : List α} {i : Nat} {args : CallArgs} {m : Method}
  {op : CoreMethod} {does : Behaviour α}

/-- Whether the classes that the parameters ask for are those of the core parcel. -/
def isParochial (params : List Param) : Bool :=
  params.all fun param =>
    match param.spec.kind with
    | .object (some name) => Parcel.classes.any (·.name == name)
    | _ => true

/-- A module for the core parcel screens arguments as the core parcel would. -/
theorem screen_eq (core : s.Core K) (hparams : isParochial m.params = true) :
    m.screen s.registry args = m.screen Parcel.registry args := by
  refine Method.screen_congr fun param hparam name hname => ?_
  have hclass := List.all_eq_true.1 hparams param hparam
  rw [hname] at hclass
  obtain ⟨c, hc, hcname⟩ := List.any_eq_true.1 hclass
  rw [← beq_iff_eq.1 hcname, core.fetch c hc, Parcel.registry_fetch c hc]

/-- **What the code of a method finds** when a frame is staged for one of the containers. -/
theorem ready_of_lends (core : s.Core K) {o : Wrapper} {a : α} {w₁ : World} {frame : Frame}
    {params : List Param} {slots : List (Option HostValue)}
    (t : Tracks K kind w wrappers contents) (ho : wrappers[i]? = some o)
    (ha : contents[i]? = some a)
    (l : Staging.Lends w (optionRef (some (w.handle o.handle).object)) ⟨w₁, frame⟩)
    (hshown : List.Forall₂ (Arg.Shows w₁.heap (w.roots wrappers)) frame.args (params.zip slots))
    (haccepted : List.Forall₂ (SlotAccepted Parcel.registry) params slots)
    (room : ∀ q ∈ (w.heap.obj (w.handle o.handle).object).payload.references,
      w.heap.Room [q]) :
    kind.Ready K params w₁.heap (w.roots wrappers) (frame.owned : Multiset ObjId)
      ((frame.owned : Multiset ObjId) + w₁.held) (w.handle o.handle).object a frame.args slots := by
  have hroot := Tracks.root_mem (w := w) (List.mem_of_getElem? ho)
  constructor
  case has => exact (t.shown i o a ho ha).grew l.grew
  case hidden_mem => exact hroot
  case hidden_there => exact fun q hq => (t.hides.grew l.grew q hq).1
  case shown => exact hshown
  case accepted => exact haccepted
  case args_owned => exact fun q hq => Multiset.mem_coe.2 (l.accounted.args_mem q hq)
  case room =>
    obtain ⟨x, hx, -⟩ := t.get?_root hroot
    obtain ⟨count, hc, -⟩ := l.grew.kept _ x hx
    have htaken : ∀ q ∈ optionRef (some (w.handle o.handle).object), q ∈ w.roots wrappers :=
      fun q hq => Multiset.mem_singleton.1 hq ▸ hroot
    intro q hq
    rw [Heap.obj_of_get? hc] at hq
    rw [Heap.obj_of_get? hx] at room
    exact t.room_of_lends l htaken hx (fun z hz => List.mem_singleton.1 hz ▸ hq) (room q hq)
  case orderly => exact (balanced_of_staged core.family t.balanced l.accounted.staged).orderly

/-- **A call with plain arguments** is answered as its behaviour says. -/
theorem ask_refines (core : s.Core K) (hkind : kind.cls ∈ Parcel.containers)
    (hm : m ∈ kind.cls.declaredMethods) (hpublic : m.isPrivate = false)
    (hcode : m.code = .onObject (.core op)) (hparams : isParochial m.params = true)
    (hdoes : kind.Performs m.params op does) (hplain : args.Plain) (hwell : args.WellFormed)
    (t : Tracks K kind w wrappers contents)
    (room : ∀ o ∈ wrappers, ∀ q ∈ (w.heap.obj (w.handle o.handle).object).payload.references,
      w.heap.Room [q]) :
    (s.ask i m.hostName args ⟨w, wrappers⟩).1 = (m.replyAt kind.cls does i args contents).1 ∧
      Tracks K kind (s.ask i m.hostName args ⟨w, wrappers⟩).2.world
        (s.ask i m.hostName args ⟨w, wrappers⟩).2.wrappers
        (m.replyAt kind.cls does i args contents).2 := by
  -- no such container, arguments that are refused, code that throws, or code that returns
  rcases ho : wrappers[i]? with _ | o
  · have ha : contents[i]? = none := by
      rw [List.getElem?_eq_none_iff, t.length_eq]
      exact List.getElem?_eq_none_iff.1 ho
    simp only [ask, ho, Method.replyAt, ha]
    exact ⟨trivial, t⟩
  · obtain ⟨a, ha⟩ := t.content ho
    have hmem := List.mem_of_getElem? ho
    have hroot := Tracks.root_mem (w := w) hmem
    obtain ⟨w₀, hreceives⟩ := receives_some hcode t.balanced.grounded
      (t.owned o hmem).1 (t.spare hroot)
    have hstaged := stage_screened (s := s) t.balanced.grounded t.hides hplain hwell hreceives
    rw [screen_eq core hparams] at hstaged
    have hsame : contents.set i a = contents := by
      obtain ⟨hlt, rfl⟩ := List.getElem?_eq_some_iff.1 ha
      exact List.set_getElem_self hlt
    rcases hscreen : m.screen Parcel.registry args with e | slots <;> rw [hscreen] at hstaged
    · obtain ⟨w₁, hstage, hs⟩ := hstaged
      obtain ⟨hcall, t₁⟩ := callMethod_refused core hkind hm hpublic t ho hstage hs
      simp only [ask, ho, hcall, Method.replyAt, ha, Method.reply, hscreen, hsame]
      exact ⟨trivial, t₁⟩
    · obtain ⟨frame, w₁, hstage, l, hreceiver, hshown⟩ := hstaged
      have htaken : ∀ q ∈ optionRef (some (w.handle o.handle).object), q ∈ w.roots wrappers :=
        fun q hq => Multiset.mem_singleton.1 hq ▸ hroot
      have hready := ready_of_lends core t ho ha l hshown (Method.screen_ok hscreen) (room o hmem)
      have hrun := hdoes s.machine w₁.program.registryView hready
      rcases houtcome : does slots a with message | ⟨v, a'⟩ <;> rw [houtcome] at hrun
      · obtain ⟨w', hcall, t'⟩ := callMethod_failed core hkind hm hpublic hcode t ho hstage l
          hreceiver htaken hrun
        simp only [ask, ho, hcall, Method.replyAt, ha, Method.reply, hscreen, houtcome, hsame]
        exact ⟨trivial, t'⟩
      · obtain ⟨ret, h', hrun, hupdates, hret⟩ := hrun
        obtain ⟨w', hcall, t'⟩ := callMethod_returned core hkind hm hpublic hcode t ho hstage l
          hreceiver htaken hrun hupdates hret
        simp only [ask, ho, hcall, Method.replyAt, ha, Method.reply, hscreen, houtcome]
        exact ⟨trivial, t'⟩

/-- **A constructor** makes one more container or is answered with an exception. -/
theorem make_refines {maker : Method} {op : CoreConstructor}
    {refuses : Memory → List (Option HostValue) → Option String} {empty : α} (core : s.Core K)
    (hkind : kind.cls ∈ Parcel.containers) (hmaker : kind.cls.maker = some maker)
    (hcode : maker.code = .onClass (.core op)) (hparams : isParochial maker.params = true)
    (hmakes : kind.Makes maker.params op refuses empty) (hplain : args.Plain)
    (hwell : args.WellFormed) (t : Tracks K kind w wrappers contents) :
    (s.make kind.cls.name args ⟨w, wrappers⟩).1 =
        (maker.makerReply kind.cls (refuses s.machine.image.memory) empty args contents).1 ∧
      Tracks K kind (s.make kind.cls.name args ⟨w, wrappers⟩).2.world
        (s.make kind.cls.name args ⟨w, wrappers⟩).2.wrappers
        (maker.makerReply kind.cls (refuses s.machine.image.memory) empty args contents).2 := by
  obtain ⟨payload, hrefs, hshows, hmakes⟩ := hmakes
  have hstaged := stage_screened (s := s) t.balanced.grounded t.hides hplain hwell
    (receives_none maker w)
  rw [screen_eq core hparams] at hstaged
  rcases hscreen : maker.screen Parcel.registry args with e | slots <;> rw [hscreen] at hstaged
  · obtain ⟨w₁, hstage, hs⟩ := hstaged
    obtain ⟨hcall, t₁⟩ := construct_refused core hkind hmaker t hstage hs
    simp only [make, hcall, Method.makerReply, hscreen]
    exact ⟨trivial, t₁⟩
  · obtain ⟨frame, w₁, hstage, l, -, hshown⟩ := hstaged
    have htaken : ∀ q ∈ optionRef none, q ∈ w.roots wrappers :=
      fun q hq => absurd hq (Multiset.notMem_zero q)
    have hrun := hmakes (s.machine.env w₁.program.registryView) hshown
      (Method.screen_ok hscreen)
    rw [show (s.machine.env w₁.program.registryView).memory = s.machine.image.memory from rfl]
      at hrun
    -- the argument was accepted, so nothing but the capacity is left to refuse
    rcases hrefuses : refuses s.machine.image.memory slots with _ | message <;>
      rw [hrefuses] at hrun
    · obtain ⟨o, w', hcall, t'⟩ := construct_made core hkind hmaker hcode t hstage l htaken hrun
        hrefs hshows
      simp only [make, hcall, Method.makerReply, hscreen, hrefuses]
      exact ⟨trivial, t'⟩
    · obtain ⟨w', hcall, t'⟩ := construct_failed core hkind hmaker hcode t hstage l htaken hrun
      simp only [make, hcall, Method.makerReply, hscreen, hrefuses]
      exact ⟨trivial, t'⟩

end Site

namespace Sample

/-- The core parcel, with its module. -/
def clownfishSite : Site :=
  ⟨machine, Parcel.registry, CoreBinding.clownfish⟩

/-- The registry of the example is that of the core parcel. -/
theorem clownfishSite_registry : clownfishSite.registry = Parcel.registry := by
  simp only [clownfishSite]

/-- The module of the example is that of the core parcel. -/
theorem clownfishSite_module : clownfishSite.module = CoreBinding.clownfish := by
  simp only [clownfishSite]

/-- The module of the example was emitted from its registry. -/
theorem clownfishSite_emitted :
    ∃ l', CoreBinding.coreModule clownfishSite.registry .fresh = .ok clownfishSite.module l' := by
  rw [clownfishSite_registry, clownfishSite_module]
  exact CoreBinding.coreModule_made

/-- The code of the example keeps to the core parcel. -/
theorem clownfishSite_family : Family clownfishSite.machine (· ∈ Parcel.classes) :=
  ⟨fun _ hc => hc, fun _ hc => .of_core hc⟩

end Sample

end Interop

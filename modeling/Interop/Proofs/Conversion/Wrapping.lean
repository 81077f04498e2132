/-
# What wrapping does to the world

`wrapLeaves` turns the plan of a conversion into a host value.  Where it succeeds, `Wraps` says
all that it did: each object of the plan has become a wrapper on a handle of its own, the
handles were made from left to right, and each owns one reference that was taken for it.

Nothing but the references can be refused (`wrapLeaves_settles`), so wrapping succeeds
wherever there is room for them, and what it does to a heap is what taking them does
(`Heap.get?_retainAll`): the counts of mortal objects rise, each by the number of its wrappers.
-/

import Interop.Conversion.ToHost
import Interop.Proofs.Native.Answering
import Interop.Proofs.Steps

namespace Interop

/-! ### References taken in turn -/

/-- The object after `n` references to it were taken. -/
def Obj.raised (o : Obj) (n : Nat) : Obj :=
  if o.immortal then o else { o with refcount := o.refcount + n }

/-- More references do not change the class. -/
@[simp] theorem Obj.raised_cls (o : Obj) (n : Nat) : (o.raised n).cls = o.cls := by
  rw [raised]
  split_ifs <;> rfl

/-- References are added up. -/
theorem Obj.raised_raised (o : Obj) (n k : Nat) : (o.raised n).raised k = o.raised (n + k) := by
  rcases himm : o.immortal with _ | _ <;> simp [raised, himm, Nat.add_assoc]

/-- No references more change nothing. -/
@[simp] theorem Obj.raised_zero (o : Obj) : o.raised 0 = o := by
  rw [raised, Nat.add_zero, ite_self]

namespace Heap

variable {h h' : Heap} {p : ObjId}

/-- A reference that is taken raises the count of its object and of no other. -/
theorem get?_retain (hr : h.retain p = .ok h') (q : ObjId) :
    h'.get? q = (h.get? q).map fun o => o.raised (if q = p then 1 else 0) := by
  have hsame : h.get? q = (h.get? q).map fun o => o.raised 0 := by simp
  by_cases hqp : q = p
  · subst hqp
    rcases hq : h.get? q with _ | o
    · rw [retain, obj_of_vacant hq] at hr
      split_ifs at hr <;> obtain rfl := Except.ok.inj hr
      · exact hq
      · rw [setCount, get?_modify, if_pos rfl, hq]
        rfl
    · rw [retain, obj_of_get? hq] at hr
      split_ifs at hr with himm hmax <;> obtain rfl := Except.ok.inj hr
      · simp [hq, Obj.raised, himm]
      · rw [setCount, get?_modify_self hq]
        simp [Obj.raised, himm]
  · rw [if_neg hqp]
    rw [retain] at hr
    split_ifs at hr <;> obtain rfl := Except.ok.inj hr
    · exact hsame
    · rw [setCount, get?_modify_of_ne hqp]
      exact hsame

/-- **What references taken in turn do to an object:** its count rises by their number, unless
it is immortal, and nothing else changes. -/
theorem get?_retainAll {ps : List ObjId} (hr : retainAll ps h = .ok h') (q : ObjId) :
    h'.get? q = (h.get? q).map fun o => o.raised (ps.count q) := by
  induction ps generalizing h with
  | nil =>
    obtain rfl := Except.ok.inj hr
    simp
  | cons p ps ih =>
    obtain ⟨h₁, hp, hps⟩ := retainAll_cons hr
    have hcount : (p :: ps).count q = (if q = p then 1 else 0) + ps.count q := by
      by_cases hqp : q = p
      · subst hqp
        rw [List.count_cons_self, if_pos rfl, Nat.add_comm]
      · rw [List.count_cons_of_ne (Ne.symm hqp), if_neg hqp, Nat.zero_add]
    rw [ih hps, get?_retain hp, Option.map_map, hcount]
    simp only [Function.comp_def, Obj.raised_raised]

/-- References that are taken neither make nor free objects. -/
theorem live_retainAll {ps : List ObjId} (hr : retainAll ps h = .ok h') :
    h'.live = h.live ∧ h'.fault = h.fault := by
  induction ps generalizing h with
  | nil =>
    obtain rfl := Except.ok.inj hr
    exact ⟨rfl, rfl⟩
  | cons p ps ih =>
    obtain ⟨h₁, hp, hps⟩ := retainAll_cons hr
    obtain ⟨hlive, hfault⟩ := ih hps
    rw [hlive, hfault]
    rw [retain] at hp
    split_ifs at hp <;> obtain rfl := Except.ok.inj hp
    · exact ⟨rfl, rfl⟩
    · exact ⟨live_modify _, fault_modify _⟩

/-- References that are taken keep the class of every object. -/
theorem cls_retainAll {ps : List ObjId} (hr : retainAll ps h = .ok h') (q : ObjId) :
    (h'.obj q).cls = (h.obj q).cls := by
  rw [obj, obj, get?_retainAll hr]
  rcases h.get? q with _ | o
  · rfl
  · exact o.raised_cls _

/-- References to one list and then to another are taken in turn. -/
theorem retainAll_append (ps qs : List ObjId) : ∀ h : Heap, retainAll (ps ++ qs) h =
    match retainAll ps h with
    | .ok h₁ => retainAll qs h₁
    | .error e => .error e := by
  induction ps with
  | nil => exact fun _ => rfl
  | cons p ps ih =>
    intro h
    rw [List.cons_append, retainAll, retainAll]
    rcases h.retain p with e | h₁
    · rfl
    · exact ih h₁

end Heap

/-! ### Values with other objects -/

namespace Value

variable {ω ω' : Type}

mutual

/-- The value with what `f` makes of its objects. -/
def map (f : ω → ω') : Value ω → Value ω'
  | null => null
  | bool value => bool value
  | int value => int value
  | float value => float value
  | str value => str value
  | list items => list (mapList f items)
  | dict entries => dict (mapEntries f entries)
  | object o => object (f o)

/-- The values with what `f` makes of their objects. -/
def mapList (f : ω → ω') : List (Value ω) → List (Value ω')
  | [] => []
  | v :: rest => v.map f :: mapList f rest

/-- The pairs with what `f` makes of the objects in their values. -/
def mapEntries (f : ω → ω') : List (String × Value ω) → List (String × Value ω')
  | [] => []
  | e :: rest => (e.1, e.2.map f) :: mapEntries f rest

end

end Value

/-- The configuration is resolved once. -/
theorem Program.current_current (p : Program) : p.current.2.current = p.current := by
  rcases hconfig : p.config with _ | config
  · rcases hread : p.readEnvironment with e | config <;> simp [current, hconfig, hread]
  · simp [current, hconfig]

/-- A wrapper is refused only where the reference cannot be taken. -/
theorem Wrapper.wrap_apply (p : ObjId) (w : World) : Wrapper.wrap p w =
    match w.heap.retain p with
    | .ok heap =>
      .ok (Wrapper.ofHandle ⟨w.handles.size⟩ (Handle.acquire p { w with heap }).2)
        (Handle.acquire p { w with heap }).2
    | .error e => .error e w := by
  rcases hr : w.heap.retain p with e | heap
  · simp [Wrapper.wrap, Handle.wrap, hr]
  · simp [Wrapper.wrap, Handle.wrap, hr]
    rfl

/-! ### Handles made in turn -/

namespace World

/-- The handle that a new wrapper of `p` gets. -/
def newHandle (w : World) (p : ObjId) : HandleState :=
  ⟨p, (w.obj p).cls, true, w.program.current.1.releasePolicy, 1⟩

/-- `later` has the handles of `w`, and maybe more. -/
def Extends (w later : World) : Prop :=
  ∃ more, later.handles = w.handles ++ more

/-- A handle was made for each object in turn, with a reference of its own; nothing else was
done, but that the configuration is resolved for the first of them. -/
structure Handled (w : World) (ps : List ObjId) (w' : World) : Prop where
  taken : Heap.retainAll ps w.heap = .ok w'.heap
  handles_eq : w'.handles = w.handles ++ (ps.map w.newHandle).toArray
  program_eq : w'.program = if ps = [] then w.program else w.program.current.2

variable {w w₁ w₂ later : World} {ps qs : List ObjId} {p : ObjId}

/-- A world extends itself. -/
theorem Extends.refl (w : World) : w.Extends w :=
  ⟨#[], (Array.append_empty).symm⟩

/-- Extensions follow each other. -/
theorem Extends.trans (h : w.Extends w₁) (h' : w₁.Extends later) : w.Extends later := by
  obtain ⟨more, hmore⟩ := h
  obtain ⟨rest, hrest⟩ := h'
  exact ⟨more ++ rest, by rw [hrest, hmore, Array.append_assoc]⟩

namespace Handled

/-- No object needs no handle. -/
theorem nil (w : World) : w.Handled [] w where
  taken := rfl
  handles_eq := by simp
  program_eq := rfl

/-- A world with more handles extends the one before. -/
theorem grew (h : w.Handled ps w₁) : w.Extends w₁ :=
  ⟨_, h.handles_eq⟩

/-- There is one more handle for each object. -/
theorem size_eq (h : w.Handled ps w₁) : w₁.handles.size = w.handles.size + ps.length := by
  rw [h.handles_eq]
  simp

/-- A handle that is made later is like one that is made at once. -/
theorem newHandle_eq (h : w.Handled ps w₁) : w₁.newHandle = w.newHandle := by
  have hcurrent : w₁.program.current.1 = w.program.current.1 := by
    rw [h.program_eq]
    split_ifs
    · rfl
    · rw [Program.current_current]
  funext p
  rw [newHandle, newHandle, hcurrent]
  exact congrArg (HandleState.mk p · true _ 1) (Heap.cls_retainAll h.taken p)

/-- **Handles for one list and then for another are handles for both.** -/
theorem append (h : w.Handled ps w₁) (h' : w₁.Handled qs w₂) : w.Handled (ps ++ qs) w₂ where
  taken := by
    rw [Heap.retainAll_append, h.taken]
    exact h'.taken
  handles_eq := by
    rw [h'.handles_eq, h.handles_eq, h.newHandle_eq, Array.append_assoc]
    simp
  program_eq := by
    rw [h'.program_eq, h.program_eq]
    rcases ps with _ | ⟨p, ps⟩
    · rfl
    · rcases qs with _ | ⟨q, qs⟩
      · simp
      · simp [Program.current_current]

/-- A wrapper is made with a handle. -/
theorem of_wrap {o : Wrapper} (h : Wrapper.wrap p w = .ok o w₁) :
    w.Handled [p] w₁ ∧ o.handle = ⟨w.handles.size⟩ := by
  rw [Wrapper.wrap_apply] at h
  rcases hr : w.heap.retain p with e | heap
  · simp [hr] at h
  · rw [hr] at h
    obtain ⟨rfl, rfl⟩ := EStateM.Result.ok.inj h
    have htaken : Heap.retainAll [p] w.heap = .ok heap := by
      rw [Heap.retainAll, hr]
      rfl
    refine ⟨⟨htaken, ?_, rfl⟩, rfl⟩
    show w.handles.push ⟨p, (heap.obj p).cls, true, w.program.current.1.releasePolicy, 1⟩ = _
    rw [Heap.cls_retainAll htaken p]
    exact Array.push_eq_append

end Handled

end World

/-! ### Wrapping the objects of a plan -/

namespace Conversion

variable {w w' w₁ w₂ : World} {plan : Value ObjId} {v : HostValue} {p : ObjId}

/-- The value with the objects that its wrappers are on. -/
def unwrapped (w : World) (v : HostValue) : Value ObjId :=
  v.map fun o => (w.handle o.handle).object

/-- The handles of the wrappers in the value, from left to right. -/
def handlesOf (v : HostValue) : List Nat :=
  v.objects.map fun o => o.handle.index

/-- The value is the plan with a wrapper for each object, and the world is as it is after these
were made from left to right: the wrappers are on new handles, and each handle on a reference
that was taken for it. -/
structure Wraps (w : World) (plan : Value ObjId) (v : HostValue) (w' : World) : Prop
    extends w.Handled plan.objects w' where
  numbered : handlesOf v = List.range' w.handles.size plan.objects.length
  unwrapped_eq : ∀ later, w'.Extends later → unwrapped later v = plan

/-- What wrapping a plan may end with: with the wrapped value, or because a reference to an
object of the plan cannot be taken. -/
def Settles (w : World) (plan : Value ObjId) : EStateM.Result BridgeError World HostValue → Prop
  | .ok v w' => Wraps w plan v w'
  | .error _ _ => ∃ e, Heap.retainAll plan.objects w.heap = .error e

namespace Wraps

/-- A value without objects needs no wrappers. -/
theorem of_plain (hplan : plan.objects = []) (hv : v.objects = [])
    (hmap : ∀ later, unwrapped later v = plan) : Wraps w plan v w where
  toHandled := by
    rw [hplan]
    exact .nil w
  numbered := by
    rw [handlesOf, hv, hplan]
    rfl
  unwrapped_eq := fun later _ => hmap later

/-- An object becomes a wrapper. -/
theorem of_wrap {o : Wrapper} (h : Wrapper.wrap p w = .ok o w₁) :
    Wraps w (.object p) (.object o) w₁ := by
  obtain ⟨hhandled, ho⟩ := World.Handled.of_wrap h
  refine ⟨hhandled, ?_, ?_⟩
  · show [o.handle.index] = _
    rw [ho]
    rfl
  · rintro later ⟨more, hmore⟩
    have hlast : later.handles[w.handles.size]? = some (w.newHandle p) := by
      rw [hmore, hhandled.handles_eq, Array.getElem?_append_left (by simp)]
      simp
    show Value.object (later.handle o.handle).object = _
    rw [World.handle, ho, hlast]
    rfl

/-- The handles in two parts of a value are numbered one after the other. -/
theorem numbered_append (h : Wraps w plan v w₁) {rest : Value ObjId} {xs : HostValue}
    (h' : Wraps w₁ rest xs w₂) :
    handlesOf v ++ handlesOf xs =
      List.range' w.handles.size (plan.objects ++ rest.objects).length := by
  rw [h.numbered, h'.numbered, h.size_eq, List.length_append, ← List.range'_append, Nat.one_mul]

/-- One more value in front of a list. -/
theorem list_cons (h : Wraps w plan v w₁) {rest : List (Value ObjId)} {xs : List HostValue}
    (h' : Wraps w₁ (.list rest) (.list xs) w₂) :
    Wraps w (.list (plan :: rest)) (.list (v :: xs)) w₂ where
  toHandled := h.toHandled.append h'.toHandled
  numbered := by
    rw [handlesOf]
    show (v.objects ++ Value.objectsOfList xs).map _ = _
    rw [List.map_append]
    exact h.numbered_append h'
  unwrapped_eq := by
    intro later hlater
    have hrest : Value.list (Value.mapList _ xs) = .list rest := h'.unwrapped_eq later hlater
    show Value.list (unwrapped later v :: Value.mapList _ xs) = _
    rw [h.unwrapped_eq later (h'.grew.trans hlater), Value.list.inj hrest]

/-- One more pair in front of a dict. -/
theorem dict_cons {key : String} (h : Wraps w plan v w₁) {rest : List (String × Value ObjId)}
    {xs : List (String × HostValue)} (h' : Wraps w₁ (.dict rest) (.dict xs) w₂) :
    Wraps w (.dict ((key, plan) :: rest)) (.dict ((key, v) :: xs)) w₂ where
  toHandled := h.toHandled.append h'.toHandled
  numbered := by
    rw [handlesOf]
    show (v.objects ++ Value.objectsOfEntries xs).map _ = _
    rw [List.map_append]
    exact h.numbered_append h'
  unwrapped_eq := by
    intro later hlater
    have hrest : Value.dict (Value.mapEntries _ xs) = .dict rest := h'.unwrapped_eq later hlater
    show Value.dict ((key, unwrapped later v) :: Value.mapEntries _ xs) = _
    rw [h.unwrapped_eq later (h'.grew.trans hlater), Value.dict.inj hrest]

end Wraps

/-- References that cannot all be taken cannot be taken with others after them. -/
theorem retainAll_append_error {ps : List ObjId} {h : Heap} (qs : List ObjId)
    (hps : ∃ e, Heap.retainAll ps h = .error e) : ∃ e, Heap.retainAll (ps ++ qs) h = .error e := by
  obtain ⟨e, he⟩ := hps
  exact ⟨e, by rw [Heap.retainAll_append, he]⟩

/-- References that cannot all be taken cannot be taken after others. -/
theorem retainAll_error_append {ps qs : List ObjId} {h h₁ : Heap}
    (hps : Heap.retainAll ps h = .ok h₁) (hqs : ∃ e, Heap.retainAll qs h₁ = .error e) :
    ∃ e, Heap.retainAll (ps ++ qs) h = .error e := by
  obtain ⟨e, he⟩ := hqs
  exact ⟨e, by rw [Heap.retainAll_append, hps]; exact he⟩

mutual

/-- **Wrapping does what `Wraps` says, or some reference cannot be taken.** -/
theorem wrapLeaves_settles (m : Machine) :
    ∀ (plan : Value ObjId) (w : World), Settles w plan (wrapLeaves m plan w)
  | .null, _ => .of_plain rfl rfl fun _ => rfl
  | .bool _, _ => .of_plain rfl rfl fun _ => rfl
  | .int _, _ => .of_plain rfl rfl fun _ => rfl
  | .float _, _ => .of_plain rfl rfl fun _ => rfl
  | .str _, _ => .of_plain rfl rfl fun _ => rfl
  | .object p, w => by
    rw [wrapLeaves, Steps.bind_apply]
    rcases ho : Wrapper.wrap p w with ⟨o, w'⟩ | ⟨e, w'⟩
    · exact .of_wrap ho
    · rw [Wrapper.wrap_apply] at ho
      rcases hr : w.heap.retain p with e' | heap
      · refine ⟨e', ?_⟩
        show Heap.retainAll [p] w.heap = _
        rw [Heap.retainAll, hr]
      · simp [hr] at ho
  | .list items, w => by
    have hitems := wrapList_settles m items [] w
    rw [wrapLeaves, Steps.bind_apply]
    rcases hx : wrapList m [] items w with ⟨all, w'⟩ | ⟨e, w'⟩
    · rw [hx] at hitems
      obtain ⟨xs, rfl, hwraps⟩ := hitems
      exact hwraps
    · rw [hx] at hitems
      exact hitems
  | .dict entries, w => by
    have hentries := wrapEntries_settles m entries [] w
    rw [wrapLeaves, Steps.bind_apply]
    rcases hx : wrapEntries m [] entries w with ⟨all, w'⟩ | ⟨e, w'⟩
    · rw [hx] at hentries
      obtain ⟨xs, rfl, hwraps⟩ := hentries
      exact hwraps
    · rw [hx] at hentries
      exact hentries

/-- The elements of a plan are wrapped in turn, or the first refusal is answered. -/
theorem wrapList_settles (m : Machine) :
    ∀ (items : List (Value ObjId)) (done : List HostValue) (w : World),
      match wrapList m done items w with
      | .ok all w' => ∃ xs, all = done ++ xs ∧ Wraps w (.list items) (.list xs) w'
      | .error _ _ => ∃ e, Heap.retainAll (Value.list items).objects w.heap = .error e
  | [], done, w => ⟨[], (List.append_nil done).symm, .of_plain rfl rfl fun _ => rfl⟩
  | v :: rest, done, w => by
    have hone := wrapLeaves_settles m v w
    rw [wrapList, Steps.bind_apply, World.onRefusal_apply]
    rcases hx : wrapLeaves m v w with ⟨x, w₁⟩ | ⟨e, w₁⟩
    · rw [hx] at hone
      have hrest := wrapList_settles m rest (done ++ [x]) w₁
      show (match wrapList m (done ++ [x]) rest w₁ with | .ok .. => _ | .error .. => _)
      rcases hxs : wrapList m (done ++ [x]) rest w₁ with ⟨all, w₂⟩ | ⟨e, w₂⟩
      · rw [hxs] at hrest
        obtain ⟨xs, hall, hwraps⟩ := hrest
        exact ⟨x :: xs, by rw [hall, List.append_assoc]; rfl, hone.list_cons hwraps⟩
      · rw [hxs] at hrest
        exact retainAll_error_append hone.taken hrest
    · rw [hx] at hone
      exact retainAll_append_error _ hone

/-- The entries of a plan are wrapped in turn, or the first refusal is answered. -/
theorem wrapEntries_settles (m : Machine) :
    ∀ (entries : List (String × Value ObjId)) (done : List (String × HostValue)) (w : World),
      match wrapEntries m done entries w with
      | .ok all w' => ∃ xs, all = done ++ xs ∧ Wraps w (.dict entries) (.dict xs) w'
      | .error _ _ => ∃ e, Heap.retainAll (Value.dict entries).objects w.heap = .error e
  | [], done, w => ⟨[], (List.append_nil done).symm, .of_plain rfl rfl fun _ => rfl⟩
  | e :: rest, done, w => by
    have hone := wrapLeaves_settles m e.2 w
    rw [wrapEntries, Steps.bind_apply, World.onRefusal_apply]
    rcases hx : wrapLeaves m e.2 w with ⟨x, w₁⟩ | ⟨e', w₁⟩
    · rw [hx] at hone
      have hrest := wrapEntries_settles m rest (done ++ [(e.1, x)]) w₁
      show (match wrapEntries m (done ++ [(e.1, x)]) rest w₁ with | .ok .. => _ | .error .. => _)
      rcases hxs : wrapEntries m (done ++ [(e.1, x)]) rest w₁ with ⟨all, w₂⟩ | ⟨e', w₂⟩
      · rw [hxs] at hrest
        obtain ⟨xs, hall, hwraps⟩ := hrest
        exact ⟨(e.1, x) :: xs, by rw [hall, List.append_assoc]; rfl, hone.dict_cons hwraps⟩
      · rw [hxs] at hrest
        exact retainAll_error_append hone.taken hrest
    · rw [hx] at hone
      exact retainAll_append_error _ hone

end

/-- **Where there is room for the references, a plan is wrapped.** -/
theorem wrapLeaves_of_room (m : Machine) (room : w.heap.Room plan.objects) :
    ∃ v w', wrapLeaves m plan w = .ok v w' ∧ Wraps w plan v w' := by
  obtain ⟨h', hall⟩ := Heap.retainAll_of_room room
  have hsettles := wrapLeaves_settles m plan w
  rcases hx : wrapLeaves m plan w with ⟨v, w'⟩ | ⟨e, w'⟩
  · rw [hx] at hsettles
    exact ⟨v, w', rfl, hsettles⟩
  · rw [hx] at hsettles
    obtain ⟨e', he⟩ := hsettles
    rw [hall] at he
    exact absurd he (by simp)

end Conversion

end Interop

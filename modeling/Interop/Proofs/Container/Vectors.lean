/-
# Vectors are lists

Host code that makes vectors and calls `push`, `push_all`, `insert`, `fetch`, `pop` and
`get_size` on them gets the replies that lists of host values would give, one list for each
vector (`Site.vectors_refine_lists`).  The argument of `push_all` may be a list, or a wrapper
of one of the vectors: of another one, or of the receiver itself.

Vectors can share what they hold, since `push_all` takes references to the elements and
copies nothing.  So the counts of the elements grow, and it has to be assumed that they do
not reach the greatest count (`Stock.Spares`).
-/

import Interop.Proofs.Container.Requests

namespace Interop

open World Conversion

/-- The methods of vectors that are called. -/
inductive VectorMethod
  | push
  | pushAll
  | insert
  | fetch
  | pop
  | getSize

namespace VectorMethod

/-- The name in host code. -/
def name : VectorMethod → String
  | push => "push"
  | pushAll => "push_all"
  | insert => "insert"
  | fetch => "fetch"
  | pop => "pop"
  | getSize => "get_size"

/-- The code of the method. -/
def op : VectorMethod → CoreMethod
  | push => .vectorPush
  | pushAll => .vectorPushAll
  | insert => .vectorInsert
  | fetch => .vectorFetch
  | pop => .vectorPop
  | getSize => .vectorSize

/-- The declaration of the method. -/
def method : VectorMethod → Method
  | push => Parcel.method "Push" .void [("element", Parcel.maybeObject)] .vectorPush
  | pushAll => Parcel.method "Push_All" .void
    [("other", ⟨.object (some "Clownfish::Vector"), false⟩)] .vectorPushAll
  | insert => Parcel.method "Insert" .void
    [("tick", Parcel.size), ("element", Parcel.maybeObject)] .vectorInsert
  | fetch => Parcel.method "Fetch" (.value Parcel.maybeObject) [("tick", Parcel.size)] .vectorFetch
  | pop => Parcel.method "Pop" (.value Parcel.maybeObject) [] .vectorPop
  | getSize => Parcel.method "Get_Size" (.value Parcel.longInt) [] .vectorSize

/-- What the method does to a list.  An element that is left out is null, and no other values
than these are ever accepted. -/
def does : VectorMethod → Behaviour (List HostValue)
  | push, [slot], items => .ok (.null, items ++ [slot.getD .null])
  | pushAll, [some (.list added)], items => .ok (.null, items ++ added)
  | insert, [some (.int tick), slot], items =>
    if tick.toInt.toNat > items.length then
      .error ("Tick " ++ toString tick.toInt.toNat ++ " out of bounds for vector of size " ++
        toString items.length)
    else .ok (.null, items.insertIdx tick.toInt.toNat (slot.getD .null))
  | fetch, [some (.int tick)], items => .ok ((items[tick.toInt.toNat]?).getD .null, items)
  | pop, _, items => .ok (items.getLast?.getD .null, items.dropLast)
  | getSize, _, items => .ok (.int (Int64.ofNat items.length), items)
  | _, _, items => .ok (.null, items)

end VectorMethod

/-- What host code asks of vectors: to make one, to call a method on the one that was made as
the `target`-th, or to append to it all that is in the `source`-th, whose wrapper comes as a
keyword argument or as a positional one. -/
inductive VectorRequest
  | make (args : CallArgs)
  | call (target : Nat) (method : VectorMethod) (args : CallArgs)
  | append (target source : Nat) (byKeyword : Bool)

namespace VectorRequest

/-- The arguments hold no wrappers, and dicts have ascending keys. -/
def Plain : VectorRequest → Prop
  | make args => args.Plain ∧ args.WellFormed
  | call _ _ args => args.Plain ∧ args.WellFormed
  | append _ _ _ => True

/-- The constructor of vectors. -/
def maker : Method :=
  Parcel.maker [("capacity", Parcel.maybeSize)] .vector

/-- The reply of lists, and the lists from then on.  Of the memory all that matters is which
capacities are refused. -/
def reply (memory : Memory) (lists : List (List HostValue)) :
    VectorRequest → Reply × List (List HostValue)
  | make args => maker.makerReply Parcel.vector
    (capacityRefusal memory.vectorRoom "Cannot allocate a vector of capacity ") [] args lists
  | call target m args => m.method.replyAt Parcel.vector m.does target args lists
  | append target source _ =>
    match lists[target]?, lists[source]? with
    | some items, some added => (.answered .null, lists.set target (items ++ added))
    | _, _ => (.absent, lists)

end VectorRequest

/-- The arguments of a call with one wrapper. -/
def CallArgs.wrapped (name : String) (byKeyword : Bool) (o : Wrapper) : CallArgs :=
  if byKeyword then ⟨[], [(name, .object o)]⟩ else ⟨[.object o], []⟩

/-- The reply of the module. -/
def Site.vectorStep (s : Site) (x : Stock) : VectorRequest → Reply × Stock
  | .make args => s.make "Clownfish::Vector" args x
  | .call target m args => s.ask target m.name args x
  | .append target source byKeyword =>
    match x.wrappers[source]? with
    | none => (.absent, x)
    | some o => s.ask target "push_all" (.wrapped "other" byKeyword o) x

namespace Stock

/-- What the container behind a wrapper holds. -/
def references (x : Stock) (o : Wrapper) : List ObjId :=
  (x.world.heap.obj (x.world.handle o.handle).object).payload.references

/-- No element has reached the greatest count, nor does one when a vector is appended. -/
def Spares (x : Stock) (r : VectorRequest) : Prop :=
  (∀ o ∈ x.wrappers, ∀ q ∈ x.references o, x.world.heap.Room [q]) ∧
    match r with
    | .append _ source _ => ∀ o, x.wrappers[source]? = some o →
      x.world.heap.Room (x.references o)
    | _ => True

instance (x : Stock) : ∀ r : VectorRequest, Decidable (x.Spares r)
  | .make _ => inferInstanceAs (Decidable ((∀ o ∈ x.wrappers, ∀ q ∈ x.references o, _) ∧ True))
  | .call .. => inferInstanceAs (Decidable ((∀ o ∈ x.wrappers, ∀ q ∈ x.references o, _) ∧ True))
  | .append _ source _ => inferInstanceAs (Decidable ((∀ o ∈ x.wrappers, ∀ q ∈ x.references o, _) ∧
      ∀ o, x.wrappers[source]? = some o → x.world.heap.Room (x.references o)))

end Stock

/-! ### What the code does -/

namespace ContainerKind

variable {K : Class → Prop} {params : List Param} {h h₁ : Heap} {hidden : List ObjId}
  {owned refs : Multiset ObjId} {p q : ObjId} {items : List HostValue} {args : List Arg}
  {slots : List (Option HostValue)} {x : Obj} {elements elements' : List (Option ObjId)}
  {env : NativeEnv}

/-- A vector holds objects that show the values of its list. -/
theorem Ready.listed (r : vector.Ready K params h hidden owned refs p items args slots) :
    ∃ x elements, h.get? p = some x ∧ x.payload = .vector elements ∧
      (h.obj p).payload = .vector elements ∧ (h.view hidden).ShowsList items elements := by
  obtain ⟨x, hx, -, -, elements, hpay, hshows⟩ := r.has
  refine ⟨x, elements, hx, hpay, ?_, hshows⟩
  rw [Heap.obj_of_get? hx, hpay]

open VectorMethod NativeM Parcel

/-- **A vector gets other elements** that show another list.  What it gains was looked at. -/
theorem edited_elements (owned : Multiset ObjId) {count : Nat} {items' added : List HostValue}
    {gained : List (Option ObjId)} (hidden_mem : p ∈ hidden) (e : Heap.Edits p 0 h h₁)
    (hx : h₁.get? p = some { x with refcount := count }) (hpay : x.payload = .vector elements)
    (hle : ((elements'.filterMap id : List ObjId) : Multiset ObjId) ≤
      ((elements.filterMap id : List ObjId) : Multiset ObjId) +
        ((gained.filterMap id : List ObjId) : Multiset ObjId))
    (hgained : (h.view hidden).ShowsList added gained)
    (hshows : (h.view hidden).ShowsList items' elements') :
    vector.Edited hidden p owned items' h ((gained.filterMap id : List ObjId) : Multiset ObjId)
      (h₁.setPayload p (.vector elements')) := by
  have hedits : Heap.Edits p ((gained.filterMap id : List ObjId) : Multiset ObjId) h
      (h₁.setPayload p (.vector elements')) := by
    rw [← zero_add ((gained.filterMap id : List ObjId) : Multiset ObjId)]
    refine e.setPayload hx ?_
    show ((elements'.filterMap id : List ObjId) : Multiset ObjId) ≤
      (x.payload.references : Multiset ObjId) + _
    rw [hpay]
    exact hle
  constructor
  case edits => exact hedits
  case shows_content =>
    exact ⟨_, Heap.get?_modify_self hx _, elements', rfl, hshows.mono (hedits.view hidden_mem)⟩
  case apart =>
    intro z hz hmem
    obtain ⟨y, hy, hyz⟩ := List.mem_filterMap.1 (Multiset.mem_coe.1 hmem)
    obtain rfl : y = some z := hyz
    obtain ⟨payload, hseen⟩ := hgained.seen z hy
    exact (Heap.view_eq_some.1 hseen).1 hz
  case sole => exact fun hfalse => absurd hfalse id

/-- A reference to an element that is passed for a parameter is taken; null is no element. -/
theorem element_run {arg : Arg} {param : Param} {slot : Option HostValue} (env : NativeEnv)
    (hs : arg.Shows h hidden (param, slot)) (hspec : param.spec = Parcel.maybeObject)
    (hx : h.get? p = some x) : ∃ q h₁ count, arg.toObject? env h = .ok q h ∧
      Parcel.Vector.retain q env h = .ok q h₁ ∧ Heap.Edits p 0 h h₁ ∧
      h₁.get? p = some { x with refcount := count } ∧
      (h.view hidden).Shows (slot.getD .null) q := by
  rcases hs.object (by rw [hspec]; rfl) with ⟨rfl, hnull⟩ | ⟨q, v, rfl, rfl, hq, hsingle, -⟩
  · rw [hnull]
    exact ⟨none, h, x.refcount, rfl, rfl, .refl p h, hx, rfl⟩
  · obtain ⟨h₁, hr⟩ := Heap.retain_of_room hsingle.room
    obtain ⟨count, hc⟩ := Heap.get?_of_retain hr hx
    refine ⟨some q, h₁, count, rfl, ?_, (Heap.Edits.refl p h).retain hr, hc, hq⟩
    rw [Parcel.Vector.retain, bind_of_ok (retain_run env hr)]
    rfl

/-- The references to the elements of two lists. -/
theorem coe_references_append (elements elements' : List (Option ObjId)) :
    (((elements ++ elements').filterMap id : List ObjId) : Multiset ObjId) =
      ((elements.filterMap id : List ObjId) : Multiset ObjId) +
        ((elements'.filterMap id : List ObjId) : Multiset ObjId) := by
  rw [List.filterMap_append, Multiset.coe_add]

/-- Pushing performs what the specification says. -/
theorem vector_push : vector.Performs VectorMethod.push.method.params .vectorPush push.does := by
  intro machine global K h hidden owned refs p items args slots r
  obtain ⟨arg, slot, rfl, rfl, hshown, -⟩ := args_one r.shown r.accepted
  obtain ⟨x, elements, hx, hpay, hobj, hshows⟩ := r.listed
  obtain ⟨q, h₁, count, hq, hretain, hedits, hx₁, hv⟩ :=
    element_run (machine.env global) hshown rfl hx
  have hobj₁ : (h₁.obj p).payload = .vector elements := by rw [Heap.obj_of_get? hx₁, hpay]
  have hedited := edited_elements owned r.hidden_mem hedits hx₁ hpay
    (coe_references_append elements [q]).le (.single hv) (hshows.append (.single hv))
  show vector.Yields hidden owned p _ h .null (items ++ [slot.getD .null])
    (Parcel.Vector.push p [arg]) h
  exact .bind (argAt_run _ h rfl) (.bind hq (.bind hretain (.bind (elements_run _ hobj₁)
    (.bind rfl (.pure hedited.updates rfl)))))

/-- **All that is in a vector is appended** to another vector, or to itself. -/
theorem yields_pushAll {items' : List HostValue} {added : List (Option ObjId)}
    (r : vector.Has h hidden p items) (hidden_mem : p ∈ hidden)
    (hadded : (h.obj q).payload = .vector added) (hshown : (h.view hidden).ShowsList items' added)
    (room : h.Room (added.filterMap id)) :
    vector.Yields hidden owned p env h .null (items ++ items')
      (Parcel.Vector.pushAll p [.object q]) h := by
  obtain ⟨x, hx, -, -, elements, hpay, hshows⟩ := r
  obtain ⟨h₁, hall⟩ := Heap.retainAll_of_room room
  obtain ⟨count, hx₁⟩ := Heap.get?_of_retainAll hall hx
  have hobj₁ : (h₁.obj p).payload = .vector elements := by rw [Heap.obj_of_get? hx₁, hpay]
  have hedited := edited_elements owned hidden_mem ((Heap.Edits.refl p h).retainAll hall)
    hx₁ hpay (coe_references_append elements added).le hshown (hshows.append hshown)
  rcases vectorRetainAll_run env added [] h with ⟨h₂, hall', hend⟩ | ⟨e, had, h₂, herror, -⟩
  · obtain rfl := Except.ok.inj (hall.symm.trans hall')
    refine ⟨.void, _, ?_, hedited.updates, rfl⟩
    rw [vectorPushAll_run [] hadded, bind_of_ok hend]
    exact vectorAppend_run hobj₁
  · rw [hall] at herror
    exact absurd herror (by simp)

/-- There is room for references to the elements of a vector when each of them is the only
one. -/
theorem room_of_singles (d : h.Orderly K refs) (hx : h.get? q = some x)
    (hpay : x.payload = .vector elements) (hall : ∀ z, some z ∈ elements → h.Single z) :
    h.Room (elements.filterMap id) := by
  intro z hz himm
  obtain ⟨_, hmem, rfl⟩ := List.mem_filterMap.1 hz
  obtain ⟨o, ho, hone⟩ := hall z hmem
  rw [Heap.obj_of_get? ho] at himm ⊢
  have hcount := d.count_le hx ho himm
  rw [hpay] at hcount
  have hle : (elements.filterMap id).count z ≤ o.refcount := hcount
  rw [hone himm] at hle ⊢
  have hmax : 2 ≤ maxCount := by decide
  omega

/-- Pushing all elements performs what the specification says, also for the vector itself. -/
theorem vector_pushAll : vector.Performs VectorMethod.pushAll.method.params .vectorPushAll
    pushAll.does := by
  intro machine global K h hidden owned refs p items args slots r
  obtain ⟨arg, slot, rfl, rfl, hshown, haccepted⟩ := args_one r.shown r.accepted
  obtain ⟨items', rfl⟩ := haccepted.vector rfl
  rcases hshown.object rfl with ⟨-, hnull⟩ | ⟨q, v, rfl, hv, hq, -, hnew⟩
  · exact absurd hnull (by simp)
  obtain rfl := Option.some.inj hv
  obtain ⟨_, added, ⟨rfl⟩, hq, hadded⟩ := hq
  have hpay := obj_payload_of_holds hq
  obtain ⟨y, hy, hpay'⟩ := Heap.get?_of_view hq.payload_eq
  exact yields_pushAll r.has r.hidden_mem hpay hadded
    (room_of_singles r.orderly hy hpay' (hnew added hpay))

/-- A list with one more value in some place. -/
theorem insertIdx_eq {α : Type} (a : α) : ∀ (items : List α) (n : Nat), n ≤ items.length →
    items.insertIdx n a = items.take n ++ a :: items.drop n
  | _, 0, _ => rfl
  | [], n + 1, h => absurd h (Nat.not_succ_le_zero n)
  | b :: items, n + 1, h => by
    rw [List.insertIdx_succ_cons, insertIdx_eq a items n (Nat.le_of_succ_le_succ h)]
    rfl

/-- Inserting performs what the specification says. -/
theorem vector_insert : vector.Performs VectorMethod.insert.method.params .vectorInsert
    insert.does := by
  intro machine global K h hidden owned refs p items args slots r
  obtain ⟨arg, arg', slot, slot', rfl, rfl, ⟨hplace, hplace'⟩, hshown, -⟩ :=
    args_two r.shown r.accepted
  obtain ⟨n, rfl, hn⟩ := hplace'.size rfl
  obtain rfl := hplace.integer rfl
  obtain ⟨x, elements, hx, hpay, hobj, hshows⟩ := r.listed
  obtain ⟨q, h₁, count, hq, hretain, hedits, hx₁, hv⟩ :=
    element_run (machine.env global) hshown rfl hx
  have hdoes : insert.does [some (.int n), slot'] items =
      if n.toInt.toNat > items.length then
        .error ("Tick " ++ toString n.toInt.toNat ++ " out of bounds for vector of size " ++
          toString items.length)
      else .ok (.null, items.insertIdx n.toInt.toNat (slot'.getD .null)) := rfl
  -- the specification and the code compare the place with the length first
  rw [hdoes, hshows.length_eq]
  split_ifs with hbeyond
  · show Parcel.Vector.insert p [.int n, arg'] _ h = NativeM.fail _ _ h
    rw [Parcel.Vector.insert, bind_of_ok (argAt_run _ h rfl), bind_of_ok (tick_run _ h hn),
      bind_of_ok (argAt_run _ h rfl), bind_of_ok hq, bind_of_ok (elements_run _ hobj),
      if_pos hbeyond]
  · have hperm : (elements.take n.toInt.toNat ++ q :: elements.drop n.toInt.toNat).Perm
        (elements ++ [q]) := by
      refine List.perm_middle.trans ?_
      rw [List.take_append_drop]
      exact (List.perm_append_singleton q elements).symm
    have hle := (Multiset.coe_eq_coe.2 (hperm.filterMap id)).trans
      (coe_references_append elements [q])
    have hinserted : (h.view hidden).ShowsList (items.insertIdx n.toInt.toNat (slot'.getD .null))
        (elements.take n.toInt.toNat ++ q :: elements.drop n.toInt.toNat) := by
      rw [insertIdx_eq _ items _ (hshows.length_eq ▸ Nat.le_of_not_lt hbeyond)]
      exact (hshows.take _).append ((View.ShowsList.single hv).append (hshows.drop _))
    have hedited := edited_elements owned r.hidden_mem hedits hx₁ hpay hle.le (.single hv) hinserted
    show vector.Yields hidden owned p _ h .null _ (Parcel.Vector.insert p [.int n, arg']) h
    refine .bind (argAt_run _ h rfl) (.bind (tick_run _ h hn) (.bind (argAt_run _ h rfl)
      (.bind hq (.bind (elements_run _ hobj) ?_))))
    rw [if_neg hbeyond]
    exact .bind hretain (.bind rfl (.pure hedited.updates rfl))

/-- Fetching performs what the specification says. -/
theorem vector_fetch : vector.Performs VectorMethod.fetch.method.params .vectorFetch
    fetch.does := by
  intro machine global K h hidden owned refs p items args slots r
  obtain ⟨arg, slot, rfl, rfl, hshown, haccepted⟩ := args_one r.shown r.accepted
  obtain ⟨n, rfl, hn⟩ := haccepted.size rfl
  obtain rfl := hshown.integer rfl
  obtain ⟨x, elements, hx, hpay, hobj, hshows⟩ := r.listed
  show vector.Yields hidden owned p _ h ((items[n.toInt.toNat]?).getD .null) items
    (Parcel.Vector.fetch p [.int n]) h
  refine .bind (argAt_run _ h rfl) (.bind (tick_run _ h hn) (.bind (elements_run _ hobj) ?_))
  rcases hshows.getElem? n.toInt.toNat with ⟨hitem, helement⟩ | ⟨v, q, hitem, helement, hv⟩ <;>
    rw [hitem, helement]
  · exact .pure (.of_edits r.has r.hidden_mem (.refl p h) rfl) rfl
  · rcases q with _ | q
    · exact .pure (.of_edits r.has r.hidden_mem (.refl p h) rfl) (HostValue.eq_null hv.isNull_eq)
    · have hmem : q ∈ (h.obj p).payload.references := by
        rw [hobj]
        exact List.mem_filterMap.2 ⟨some q, List.mem_of_getElem? helement, rfl⟩
      obtain ⟨h₁, hr⟩ := Heap.retain_of_room (r.room q hmem)
      have hedits := (Heap.Edits.refl p h).retain hr
      exact .bind (retain_run _ hr) (.pure
        (.of_edits r.has r.hidden_mem hedits (Heap.payload_retain p hr))
        (hv.mono (hedits.view r.hidden_mem)))

/-- Popping performs what the specification says. -/
theorem vector_pop : vector.Performs VectorMethod.pop.method.params .vectorPop pop.does := by
  intro machine global K h hidden owned refs p items args slots r
  obtain ⟨x, elements, hx, hpay, hobj, hshows⟩ := r.listed
  show vector.Yields hidden owned p _ h (items.getLast?.getD .null) items.dropLast
    (Parcel.Vector.pop p) h
  refine .bind (elements_run _ hobj) ?_
  rw [List.getLast?_eq_getElem?, List.getLast?_eq_getElem?, hshows.length_eq]
  rcases hshows.getElem? (elements.length - 1) with
    ⟨hitem, helement⟩ | ⟨v, q, hitem, helement, hv⟩ <;> rw [hitem, helement]
  · obtain rfl : items = [] := by
      refine List.eq_nil_of_length_eq_zero ?_
      have hle := List.getElem?_eq_none_iff.1 helement
      have hlength := hshows.length_eq
      omega
    exact .pure (.of_edits r.has r.hidden_mem (.refl p h) rfl) rfl
  · have hle := ((List.dropLast_sublist elements).filterMap id).subperm
    have hdropped : (h.view hidden).ShowsList items.dropLast elements.dropLast := by
      rw [List.dropLast_eq_take, List.dropLast_eq_take, hshows.length_eq]
      exact hshows.take _
    have hnone : (h.view hidden).ShowsList [] [] := rfl
    have hedited := edited_elements owned r.hidden_mem (.refl p h) hx hpay
      (le_add_right (Multiset.coe_le.2 hle)) hnone hdropped
    refine .bind rfl ?_
    rcases q with _ | q
    · exact .pure hedited.updates (HostValue.eq_null hv.isNull_eq)
    · exact .pure hedited.updates (hv.mono (hedited.edits.view r.hidden_mem))

/-- Counting performs what the specification says. -/
theorem vector_getSize : vector.Performs VectorMethod.getSize.method.params .vectorSize
    getSize.does := by
  intro machine global K h hidden owned refs p items args slots r
  obtain ⟨x, elements, hx, hpay, hobj, hshows⟩ := r.listed
  show vector.Yields hidden owned p _ h (.int (Int64.ofNat items.length)) items
    (Parcel.Vector.size p) h
  refine .bind (elements_run _ hobj) (.pure (.of_edits r.has r.hidden_mem (.refl p h) rfl) ?_)
  rw [hshows.length_eq]
  rfl

/-- **Each method does to a vector what it does to a list.** -/
theorem vector_performs (method : VectorMethod) :
    vector.Performs method.method.params method.op method.does := by
  cases method with
  | push => exact vector_push
  | pushAll => exact vector_pushAll
  | insert => exact vector_insert
  | fetch => exact vector_fetch
  | pop => exact vector_pop
  | getSize => exact vector_getSize

/-- The constructor makes an empty vector. -/
theorem vector_makes : vector.Makes VectorRequest.maker.params .vector (fun memory =>
    capacityRefusal memory.vectorRoom "Cannot allocate a vector of capacity ") [] :=
  makes_of_capacity (fun memory => memory.vectorRoom_zero) (fun _ => rfl) (fun _ _ => rfl)
    (fun env h _ hn => tick_run env h hn) rfl fun _ => ⟨[], rfl, rfl⟩

end ContainerKind

/-! ### Vectors and lists -/

namespace VectorMethod

/-- The method is declared by the class of vectors. -/
theorem declared (m : VectorMethod) : m.method ∈ Parcel.vector.declaredMethods := by
  cases m <;> decide +kernel

/-- The method is called by its name in the specification. -/
theorem hostName_eq (m : VectorMethod) : m.method.hostName = m.name := by
  cases m <;> decide +kernel

/-- The method is public. -/
theorem isPrivate_eq (m : VectorMethod) : m.method.isPrivate = false := by
  cases m <;> rfl

/-- The method runs the operation of its name. -/
theorem code_eq (m : VectorMethod) : m.method.code = .onObject (.core m.op) := by
  cases m <;> rfl

/-- The parameters ask for no class outside the core parcel. -/
theorem parochial (m : VectorMethod) : Site.isParochial m.method.params = true := by
  cases m <;> decide +kernel

end VectorMethod

namespace Site

variable {s : Site} {K : Class → Prop}

/-- There is room for a reference to each of two containers, which may be the same. -/
theorem spare_two {α : Type} {kind : ContainerKind α} {w : World} {wrappers : List Wrapper}
    {contents : List α} {p q : ObjId} (t : Tracks K kind w wrappers contents)
    (hp : p ∈ w.roots wrappers) (hq : q ∈ w.roots wrappers) : w.Spare ({p} + {q}) := by
  intro z hz o ho _
  have hroot : z ∈ w.roots wrappers := by
    rcases Multiset.mem_add.1 hz with hz | hz
    · exact Multiset.mem_singleton.1 hz ▸ hp
    · exact Multiset.mem_singleton.1 hz ▸ hq
  obtain ⟨x, hx, -, -, hone⟩ := t.get?_root hroot
  obtain rfl := Option.some.inj (hx.symm.trans ho)
  have hcount := Multiset.count_le_card z ({p} + {q})
  rw [Multiset.card_add, Multiset.card_singleton, Multiset.card_singleton] at hcount
  have hmax : 3 ≤ maxCount := by decide
  omega

/-- The frame for appending one vector to another, which owns a reference to each. -/
theorem stage_append (core : s.Core K) {w : World} {wrappers : List Wrapper}
    {lists : List (List HostValue)} {o o' : Wrapper} (byKeyword : Bool)
    (t : Tracks K .vector w wrappers lists) (ho : o ∈ wrappers) (ho' : o' ∈ wrappers) :
    ∃ frame w₁, s.stage VectorMethod.pushAll.method (some o)
        (.wrapped "other" byKeyword o') w = .ok frame w₁ ∧
      Staging.Lends w (optionRef (some (w.handle o.handle).object) +
        {(w.handle o'.handle).object}) ⟨w₁, frame⟩ ∧
      frame.receiver = some (w.handle o.handle).object ∧
      frame.args = [.object (w.handle o'.handle).object] := by
  have hspare := spare_two t (Tracks.root_mem ho) (Tracks.root_mem ho')
  obtain ⟨y, hy, hcls, -⟩ := t.get?_root (Tracks.root_mem ho')
  obtain ⟨w₀, hreceives⟩ := receives_some (VectorMethod.code_eq .pushAll) t.balanced.grounded
    (t.owned o ho).1 hspare.left
  have hspare₀ : w₀.Spare {(w.handle o'.handle).object} :=
    hspare.grew hreceives.grew fun z hz => ⟨y, Multiset.mem_singleton.1 hz ▸ hy⟩
  have hwell : (CallArgs.wrapped "other" byKeyword o').WellFormed := by
    cases byKeyword <;> simp [CallArgs.wrapped, CallArgs.wellFormed_iff, Value.WellFormed]
  have hbind : (CallArgs.wrapped "other" byKeyword o').bind
      VectorMethod.pushAll.method.paramNames = .ok [some (.object o')] := by
    cases byKeyword <;> rfl
  have hisA : y.isA Parcel.vector = true := by
    rw [Obj.isA, hcls]
    exact Class.isSubclassOf_iff.2 (Class.mem_ancestry_self _)
  exact stage_wrapped t.balanced.grounded hwell hreceives rfl rfl
    (core.fetch _ (Parcel.containers_subset ContainerKind.vector_mem)) hbind (t.owned o' ho').1 hy
    hisA hspare₀

/-- **All that is in one vector is appended to another,** or to itself. -/
theorem append_refines (core : s.Core K) {w : World} {wrappers : List Wrapper}
    {lists : List (List HostValue)} {target source : Nat} {o o' : Wrapper} (byKeyword : Bool)
    {items added : List HostValue} (t : Tracks K .vector w wrappers lists)
    (ho : wrappers[target]? = some o) (hitems : lists[target]? = some items)
    (ho' : wrappers[source]? = some o') (hadded : lists[source]? = some added)
    (room : w.heap.Room (Stock.references ⟨w, wrappers⟩ o')) :
    ∃ w', s.callMethod o "push_all" (.wrapped "other" byKeyword o') w = .ok .null w' ∧
      Tracks K .vector w' wrappers (lists.set target (items ++ added)) := by
  have hmem := List.mem_of_getElem? ho
  have hmem' := List.mem_of_getElem? ho'
  have hroot := Tracks.root_mem (w := w) hmem
  obtain ⟨frame, w₁, hstage, l, hreceiver, hargs⟩ := stage_append core byKeyword t hmem hmem'
  have htaken : ∀ z ∈ optionRef (some (w.handle o.handle).object) +
      {(w.handle o'.handle).object}, z ∈ w.roots wrappers := by
    intro z hz
    rcases Multiset.mem_add.1 hz with hz | hz
    · exact Multiset.mem_singleton.1 hz ▸ hroot
    · exact Multiset.mem_singleton.1 hz ▸ Tracks.root_mem hmem'
  obtain ⟨y, hy, -, -, elements, hpay, hshown⟩ := t.shown source o' added ho' hadded
  have hpay : y.payload = .vector elements := hpay
  obtain ⟨count, hc, -⟩ := l.grew.kept _ y hy
  have hobj : (w₁.heap.obj (w.handle o'.handle).object).payload = .vector elements := by
    rw [Heap.obj_of_get? hc]
    exact hpay
  have hroom : w₁.heap.Room (elements.filterMap id) := by
    have hbefore : w.heap.Room (w.heap.obj (w.handle o'.handle).object).payload.references := room
    rw [Heap.obj_of_get? hy, hpay] at hbefore
    refine t.room_of_lends l htaken hy (fun q hq => ?_) hbefore
    rw [hpay]
    exact hq
  obtain ⟨ret, h', hrun, hupdates, hret⟩ := ContainerKind.yields_pushAll
    ((t.shown target o items ho hitems).grew l.grew) hroot hobj (hshown.mono l.grew.view) hroom
  obtain ⟨w', hcall, t'⟩ := callMethod_returned core ContainerKind.vector_mem
    (VectorMethod.declared .pushAll) rfl (VectorMethod.code_eq .pushAll) t ho hstage l hreceiver
    htaken (by rw [hargs]; exact hrun) hupdates hret
  exact ⟨w', hcall, t'⟩

/-- **One request** is answered as a list would. -/
theorem vectorStep_refines (core : s.Core K) {x : Stock} {lists : List (List HostValue)}
    {r : VectorRequest} (t : Tracks K .vector x.world x.wrappers lists) (hplain : r.Plain)
    (room : x.Spares r) :
    (s.vectorStep x r).1 = (r.reply s.machine.image.memory lists).1 ∧
      Tracks K .vector (s.vectorStep x r).2.world (s.vectorStep x r).2.wrappers
        (r.reply s.machine.image.memory lists).2 := by
  have hkind := ContainerKind.vector_mem
  cases r with
  | make args =>
    exact make_refines core hkind rfl rfl (by decide +kernel) ContainerKind.vector_makes hplain.1
      hplain.2 t
  | call target m args =>
    have hrefines := ask_refines core hkind m.declared m.isPrivate_eq m.code_eq m.parochial
      (ContainerKind.vector_performs m) hplain.1 hplain.2 t (i := target) room.1
    rw [m.hostName_eq] at hrefines
    exact hrefines
  | append target source byKeyword =>
    have hlist : ∀ i, x.wrappers[i]? = none → lists[i]? = none := fun i hi => by
      rw [List.getElem?_eq_none_iff, t.length_eq]
      exact List.getElem?_eq_none_iff.1 hi
    rcases ho' : x.wrappers[source]? with _ | o'
    · simp only [vectorStep, ho', VectorRequest.reply, hlist source ho']
      rcases lists[target]? with _ | items <;> exact ⟨rfl, t⟩
    · obtain ⟨added, hadded⟩ := t.content ho'
      rcases ho : x.wrappers[target]? with _ | o
      · simp only [vectorStep, ho', ask, ho, VectorRequest.reply, hlist target ho]
        exact ⟨trivial, t⟩
      · obtain ⟨items, hitems⟩ := t.content ho
        obtain ⟨w', hcall, t'⟩ := append_refines core byKeyword t ho hitems ho' hadded
          (room.2 o' ho')
        simp only [vectorStep, ho', ask, ho, hcall, VectorRequest.reply, hitems, hadded]
        exact ⟨trivial, t'⟩

/-- **Vectors refine lists.**  Whatever vectors are made and whatever is put into them, the
replies are those of lists, as long as no element reaches the greatest count. -/
theorem vectors_refine_lists {w : World} {l l' : Log.Logger} (fam : Family s.machine K)
    (hcore : ∀ c ∈ Parcel.classes, s.registry.fetch c.name = .ok c)
    (hmodule : CoreBinding.coreModule s.registry l = .ok s.module l') (b : Balanced K 0 w)
    {requests : List VectorRequest} (hplain : ∀ r ∈ requests, r.Plain)
    (hspares : Allowed s.vectorStep Stock.Spares ⟨w, []⟩ requests) :
    replies s.vectorStep ⟨w, []⟩ requests =
      replies (VectorRequest.reply s.machine.image.memory) [] requests := by
  have core : s.Core K := ⟨fam, hcore, CoreBinding.coreModule_eq hcore hmodule⟩
  exact replies_eq (R := fun x lists => Tracks K .vector x.world x.wrappers lists)
    (fun t hr => vectorStep_refines core t hr.1 hr.2) requests (.nil b)
    ((allowed_of_forall hplain _).and hspares)

/-- A vector is appended to itself, a tick beyond its end raises an error, and so does a
negative one, before the method has a chance to run. -/
example : replies (VectorRequest.reply .full) [] [.make .empty,
      .call 0 .pushAll ⟨[.list [.null, .int 1]], []⟩, .append 0 0 false,
      .call 0 .insert ⟨[.int 5, .str "a"], []⟩, .call 0 .insert ⟨[.int (-1), .str "a"], []⟩,
      .call 0 .fetch ⟨[.int 3], []⟩, .call 0 .fetch ⟨[.int 4], []⟩] =
    [.made, .answered .null, .answered .null,
      .raised ((HostException.native "Tick 5 out of bounds for vector of size 4").withFrame
        "Vector.insert"),
      .raised ((HostException.ofError (.overflow "tick" (-1) "usize")).withFrame
        "Vector.insert"),
      .answered (.int 1), .answered .null] := by
  rfl

end Site

namespace Sample

/-- Two vectors: one is appended to itself and to the other, which then has values inserted
at its end, before its start and beyond its end. -/
def vectorRequests : List VectorRequest := [
  .make .empty, .make ⟨[], [("capacity", .int 4)]⟩,
  .call 0 .push ⟨[.str "a"], []⟩,
  .call 0 .pushAll ⟨[], [("other", .list [.null, .int 1])]⟩,
  .append 0 0 false, .append 1 0 true,
  .call 1 .insert ⟨[.int 6, .bool true], []⟩,
  .call 1 .insert ⟨[.int (-1), .null], []⟩,
  .call 1 .insert ⟨[.int 8, .null], []⟩,
  .call 0 .fetch ⟨[.int 5], []⟩, .call 0 .pop .empty, .call 1 .getSize .empty]

/-- The requests of the example hand over plain values. -/
theorem vectorRequests_plain : ∀ r ∈ vectorRequests, r.Plain := by
  simp [vectorRequests, VectorRequest.Plain, CallArgs.Plain, CallArgs.wellFormed_iff,
    CallArgs.values, CallArgs.empty, Value.objects, Value.objectsOfList, Value.WellFormed,
    Value.WellFormedList]

/-- There is room for every request of the example. -/
theorem vectorRequests_spare :
    Allowed clownfishSite.vectorStep Stock.Spares ⟨.ofProgram .ready, []⟩ vectorRequests := by
  decide +kernel

/-- The replies to the requests of the example are those of the specification. -/
theorem vectorRequests_answered :
    (∀ r ∈ vectorRequests, r.Plain) ∧
    Allowed clownfishSite.vectorStep Stock.Spares ⟨.ofProgram .ready, []⟩ vectorRequests ∧
    replies clownfishSite.vectorStep ⟨.ofProgram .ready, []⟩ vectorRequests =
      replies (VectorRequest.reply memory) [] vectorRequests := by
  obtain ⟨l', hmodule⟩ := clownfishSite_emitted
  exact ⟨vectorRequests_plain, vectorRequests_spare,
    Site.vectors_refine_lists clownfishSite_family Parcel.registry_fetch hmodule
      (balanced_ofProgram (fun _ hc => hc) .ready) vectorRequests_plain vectorRequests_spare⟩

end Sample

end Interop

/-
# Native code that keeps the heap orderly

A `Footing` is what native code starts from: a machine, the classes in play, a heap, and
the references that are owned elsewhere.  `Footing.Safely` says of code that it ends in a
heap that is orderly for what is owned then, whether it returns or throws: a thrown error is
owned, an `incremented` result is owned, and a `borrowed` one is there.

All methods of the core parcel are safe on receivers with the payload that they are for
(`runMethod_safely`), except for the one that gives back a reference that it was only lent.
-/

import Interop.Proofs.Heap.Orderly
import Interop.Proofs.Native.Throwing

namespace Interop

/-- What native code starts from. -/
structure Footing where
  machine : Machine
  /-- The classes in play, those of the core parcel among them. -/
  known : Class → Prop
  core : ∀ c ∈ Parcel.classes, known c
  start : Heap
  /-- The references that are owned elsewhere. -/
  owned : Multiset ObjId

namespace Footing

variable {f : Footing} {α β : Type} {Q : α → Heap → Prop} {h h' : Heap} {p : ObjId} {o : Obj}

/-- The heap has come from the start, and it is orderly when the references in `refs` are
owned. -/
abbrev Holds (f : Footing) (refs : Multiset ObjId) (h : Heap) : Prop :=
  Heap.Moves f.known f.start refs h

/-- From `h` on, the code ends with `Q`, or it throws and hands over the reference to the
error and nothing else. -/
def Safely (f : Footing) (Q : α → Heap → Prop) (x : NativeM α) (h : Heap) : Prop :=
  ∀ global, match x (f.machine.env global) h with
    | .ok a h' => Q a h'
    | .error t h' => f.Holds (t.object ::ₘ f.owned) h'

/-- A result hands over what it says that it hands over. -/
def Returned (f : Footing) : Ret → Heap → Prop
  | .incremented p, h => f.Holds (p ::ₘ f.owned) h
  | .borrowed p, h => f.Holds f.owned h ∧ ∃ o, h.get? p = some o
  | _, h => f.Holds f.owned h

/-! ### Steps -/

namespace Safely

variable {x : NativeM α} {g : α → NativeM β} {Q : β → Heap → Prop}

/-- A value keeps what is asked of it. -/
theorem pure {b : β} (hQ : Q b h) : f.Safely Q (pure b) h :=
  fun _ => hQ

/-- The second step keeps what is asked from where the first ended. -/
theorem bind (hx : f.Safely (fun a h' => f.Safely Q (g a) h') x h) : f.Safely Q (x >>= g) h := by
  intro global
  have hrun := hx global
  rw [NativeM.bind_apply]
  rcases hend : x (f.machine.env global) h with ⟨a, h'⟩ | ⟨t, h'⟩
  · rw [hend] at hrun
    exact hrun global
  · rw [hend] at hrun
    exact hrun

/-- What is kept implies what is asked. -/
theorem mono {Q' : α → Heap → Prop} {Q : α → Heap → Prop} (hx : f.Safely Q' x h)
    (hQ : ∀ a h', Q' a h' → Q a h') : f.Safely Q x h := by
  intro global
  have hrun := hx global
  rcases hend : x (f.machine.env global) h with ⟨a, h'⟩ | ⟨t, h'⟩
  · rw [hend] at hrun
    exact hQ a h' hrun
  · rw [hend] at hrun
    exact hrun

/-- A step whose outcome is known. -/
theorem run {a : α} {h₁ : Heap} (hx : ∀ env, x env h = .ok a h₁) (hg : f.Safely Q (g a) h₁) :
    f.Safely Q (x >>= g) h := by
  intro global
  rw [NativeM.bind_of_ok (hx _)]
  exact hg global

/-- A look at the registry. -/
theorem consult {g : Registry → NativeM β} (hg : ∀ global, f.Safely Q (g global) h.markConsulted) :
    f.Safely Q (NativeM.consult >>= g) h := by
  intro global
  rw [NativeM.bind_of_ok (NativeM.consult_apply _ _)]
  exact hg _ global

/-- A plain error. -/
theorem fail (m : f.Holds f.owned h) (message : String) :
    f.Safely Q (NativeM.fail message) h := by
  intro global
  have hnone : Heap.Moves f.known f.start
      (((Payload.err message).references : Multiset ObjId) + f.owned) h :=
    (zero_add f.owned).symm ▸ m
  have hmem : Parcel.err ∈ Parcel.classes := by simp [Parcel.classes]
  exact hnone.alloc (f.core _ hmem) (.self hmem)

/-- Reading, and what is done with what was read. -/
theorem read (hx : NativeM.Reads x) (m : f.Holds f.owned h)
    (hg : ∀ a, (∃ env, x env h = .ok a h) → f.Safely Q (g a) h) : f.Safely Q (x >>= g) h := by
  intro global
  rcases hx (f.machine.env global) h with ⟨a, ha⟩ | ⟨message, hfail⟩
  · rw [NativeM.bind_of_ok ha]
    exact hg a ⟨_, ha⟩ global
  · rw [NativeM.bind_apply, hfail]
    have herror := fail (Q := Q) m message global
    exact herror

/-- A reference is taken, if it can be had. -/
theorem retain {g : ObjId → NativeM β} (m : f.Holds f.owned h) (ho : h.get? p = some o)
    (hg : ∀ h₁, h.retain p = .ok h₁ → f.Holds (p ::ₘ f.owned) h₁ → f.Safely Q (g p) h₁) :
    f.Safely Q (NativeM.retain p >>= g) h := by
  intro global
  rw [NativeM.bind_apply, NativeM.retain_apply]
  rcases hr : h.retain p with e | h₁
  · have herror := fail (Q := Q) m e.message global
    exact herror
  · exact hg h₁ hr (m.retain ho hr) global

/-- A reference to an element is taken, if it is not null. -/
theorem retainElement {g : Option ObjId → NativeM β} {element : Option ObjId}
    (m : f.Holds f.owned h) (hthere : ∀ q, element = some q → ∃ x, h.get? q = some x)
    (hg : ∀ h₁,
      (∀ p o, h.get? p = some o → ∃ count, h₁.get? p = some { o with refcount := count }) →
      f.Holds ((([element].filterMap id : List ObjId) : Multiset ObjId) + f.owned) h₁ →
      f.Safely Q (g element) h₁) :
    f.Safely Q (Parcel.Vector.retain element >>= g) h := by
  rcases element with _ | q
  · refine run (fun _ => rfl) (hg h (fun p o ho => ⟨o.refcount, ho⟩) ?_)
    exact (zero_add f.owned).symm ▸ m
  · obtain ⟨x, hx⟩ := hthere q rfl
    rw [Parcel.Vector.retain, bind_assoc]
    refine retain m hx fun h₁ hr m₁ => ?_
    exact run (fun _ => rfl) (hg h₁ (fun p o ho => Heap.get?_of_retain hr ho) m₁)

/-- A reference to each of the elements is taken, or the ones that could be had are given
back. -/
theorem retainAll {g : Unit → NativeM β} {elements : List (Option ObjId)} (m : f.Holds f.owned h)
    (hall : ∀ {q}, some q ∈ elements → ∃ x, h.get? q = some x)
    (hg : ∀ h₁, Heap.retainAll (elements.filterMap id) h = .ok h₁ →
      f.Holds (((elements.filterMap id : List ObjId) : Multiset ObjId) + f.owned) h₁ →
      f.Safely Q (g ()) h₁) :
    f.Safely Q (Parcel.Vector.retainAll [] elements >>= g) h := by
  intro global
  have hmem : Parcel.err ∈ Parcel.classes := by simp [Parcel.classes]
  have hthere : ∀ q ∈ elements.filterMap id, ∃ x, h.get? q = some x := by
    intro q hq
    obtain ⟨element, helement, rfl⟩ := List.mem_filterMap.1 hq
    exact hall helement
  rcases Parcel.vectorRetainAll_run (f.machine.env global) elements [] h with
    ⟨h₁, hr, hend⟩ | ⟨e, had, h₁, -, hr, hhad, hend⟩
  · rw [NativeM.bind_of_ok hend]
    exact hg h₁ hr (m.retainAll hthere hr) global
  · rw [NativeM.bind_apply, hend]
    refine Heap.Moves.giveBackAll had ?_ f.machine global
    rw [Multiset.add_cons]
    have m₁ : f.Holds (((Payload.err e.message).references : Multiset ObjId) +
        ((had : Multiset ObjId) + f.owned)) h₁ :=
      (zero_add ((had : Multiset ObjId) + f.owned)).symm ▸
        m.retainAll (fun q hq => hthere q (hhad q hq)) hr
    exact m₁.alloc (f.core _ hmem) (.self hmem)

/-- An object is made. -/
theorem alloc {g : ObjId → NativeM β} {cls : Class} {payload : Payload}
    (hg : f.Safely Q (g (h.alloc cls payload).1) (h.alloc cls payload).2) :
    f.Safely Q (NativeM.alloc cls payload >>= g) h :=
  run (fun _ => rfl) hg

/-- After a new payload the rest keeps what is asked. -/
theorem setPayload {g : Unit → NativeM β} {payload : Payload}
    (hg : f.Safely Q (g ()) (h.setPayload p payload)) :
    f.Safely Q (NativeM.setPayload p payload >>= g) h :=
  run (fun _ => rfl) hg

/-- After a reference was given back the rest keeps what is asked, whatever the registry. -/
theorem release {g : Nat → NativeM β}
    (hg : ∀ global left, f.Safely Q (g left) (f.machine.release global p h).2) :
    f.Safely Q (NativeM.release p >>= g) h :=
  fun global => hg global _ global

/-- After several references were given back the rest keeps what is asked, whatever the
registry. -/
theorem releaseAll {g : Unit → NativeM β} {ps : List ObjId}
    (hg : ∀ global, f.Safely Q (g ()) (h.giveBackAll (f.machine.release global) ps)) :
    f.Safely Q (NativeM.releaseAll ps >>= g) h := by
  intro global
  rw [NativeM.bind_of_ok (NativeM.releaseAll_apply (f.machine.env global) ps h)]
  exact hg global global

end Safely

/-! ### Results that are new or have one more reference -/

/-- The result is a new object of a class that is for payloads of its kind. -/
theorem returned_alloc {cls : Class} {payload : Payload} (m : f.Holds f.owned h)
    (hrefs : payload.references = []) (hK : f.known cls) (hoff : Offspring payload.home cls) :
    f.Safely f.Returned (do return .incremented (← NativeM.alloc cls payload)) h := by
  refine Safely.alloc (Safely.pure ?_)
  refine Heap.Moves.alloc ?_ hK hoff
  rw [hrefs]
  exact (zero_add f.owned).symm ▸ m

/-- A new text is handed over with its reference. -/
theorem returned_newString (m : f.Holds f.owned h) (text : String) :
    f.Safely f.Returned (do return .incremented (← NativeM.newString text)) h := by
  have hmem : Parcel.string ∈ Parcel.classes := by simp [Parcel.classes]
  exact returned_alloc m rfl (f.core _ hmem) (.self hmem)

/-- A reference that was taken is handed over. -/
theorem returned_retain (m : f.Holds f.owned h) (ho : h.get? p = some o) :
    f.Safely f.Returned (do return .incremented (← NativeM.retain p)) h :=
  Safely.retain m ho fun _ _ m' => .pure m'

end Footing

namespace Parcel

open NativeM

variable {f : Footing} {h : Heap} {p q : ObjId} {o : Obj} {args : List Arg}

/-- An object that an argument was read as is there. -/
theorem exists_of_arg {index : Nat} {arg : Arg}
    (hargs : ∀ q, Arg.object q ∈ args → ∃ x, h.get? q = some x)
    (harg : ∃ env, argAt args index env h = .ok arg h)
    (hq : ∃ env, arg.toObject? env h = .ok (some q) h) : ∃ x, h.get? q = some x := by
  obtain ⟨env, harg⟩ := harg
  obtain ⟨env', hq⟩ := hq
  obtain rfl := toObject_ok hq
  exact hargs q (List.mem_of_getElem? (argAt_ok harg))

/-! ### Hashes -/

/-- Storing in a hash keeps the heap orderly. -/
theorem hashStore_safely (m : f.Holds f.owned h) (ho : h.get? p = some o)
    (hargs : ∀ q, Arg.object q ∈ args → ∃ x, h.get? q = some x) {entries : KeyMap ObjId}
    (hpay : o.payload = .hash entries) : f.Safely f.Returned (Hash.store p args) h := by
  refine .read (reads_argAt args 0) m fun key _ => .read (reads_toText key) m fun text _ => ?_
  refine .read (reads_argAt args 1) m fun value hvalue => ?_
  refine .read (reads_toObject value) m fun q hq => ?_
  rcases q with _ | q
  · exact .fail m _
  obtain ⟨x, hx⟩ := exists_of_arg hargs hvalue hq
  refine .retain m hx fun h₁ hr m₁ => ?_
  obtain ⟨count, ho₁⟩ := Heap.get?_of_retain hr ho
  have hobj : (h₁.obj p).payload = .hash entries := by rw [Heap.obj_of_get? ho₁, hpay]
  refine .run (fun env => entries_run env hobj) (.setPayload ?_)
  have m₂ := m₁.insertEntry text ho₁ hpay
  rcases hget : entries.get? text with _ | replaced
  · rw [hget, Option.toList_none, Multiset.coe_nil, zero_add] at m₂
    exact .pure m₂
  · rw [hget] at m₂
    exact .release fun global _ => .pure (m₂.release f.machine global)

/-- The entries that were read are those of the receiver. -/
theorem payload_of_entries {entries : KeyMap ObjId} (ho : h.get? p = some o)
    (hrun : ∃ env, Hash.entries p env h = .ok entries h) : o.payload = .hash entries := by
  obtain ⟨env, hrun⟩ := hrun
  rw [← Heap.obj_of_get? ho]
  exact entries_ok hrun

/-- The values of a hash are there. -/
theorem exists_of_value {key : String} {entries : KeyMap ObjId} (m : f.Holds f.owned h)
    (ho : h.get? p = some o) (hpay : o.payload = .hash entries)
    (hget : entries.get? key = some q) : ∃ x, h.get? q = some x := by
  refine m.orderly.get?_of_reference ho ?_
  rw [hpay]
  show q ∈ entries.values
  rw [← Multiset.mem_coe, ← KeyMap.values_erase entries key, hget]
  exact Multiset.mem_add.2 (Or.inr (Multiset.mem_singleton_self q))

/-- Fetching from a hash keeps the heap orderly. -/
theorem hashFetch_safely (m : f.Holds f.owned h) (ho : h.get? p = some o) :
    f.Safely f.Returned (Hash.fetch p args) h := by
  refine .read (reads_argAt args 0) m fun key _ => .read (reads_toText key) m fun text _ => ?_
  refine .read (reads_entries p) m fun entries hentries => ?_
  rcases hget : entries.get? text with _ | value
  · exact .pure m
  · obtain ⟨x, hx⟩ := exists_of_value m ho (payload_of_entries ho hentries) hget
    exact Footing.returned_retain m hx

/-- Deleting from a hash keeps the heap orderly. -/
theorem hashDelete_safely (m : f.Holds f.owned h) (ho : h.get? p = some o) :
    f.Safely f.Returned (Hash.delete p args) h := by
  refine .read (reads_argAt args 0) m fun key _ => .read (reads_toText key) m fun text _ => ?_
  refine .read (reads_entries p) m fun entries hentries => ?_
  have hpay := payload_of_entries ho hentries
  rcases hget : entries.get? text with _ | value
  · exact .pure m
  · refine .setPayload (.pure ?_)
    -- the reference of the hash goes to the caller
    refine m.setEntries ho hpay ?_
    have hvalues := KeyMap.values_erase entries text
    rw [hget] at hvalues
    rw [← hvalues, Option.toList_some, Multiset.coe_singleton, Multiset.cons_add, ← add_assoc,
      add_comm (f.owned + _), Multiset.singleton_add]

/-- Making the texts of keys keeps the heap orderly, and owns each of them. -/
theorem keyStrings_safely {refs : Multiset ObjId} (names : List String) (m : f.Holds refs h) :
    f.Safely (fun made h' => f.Holds ((Payload.vector made).references + refs) h')
      (Hash.keyStrings names) h := by
  have hmem : Parcel.string ∈ classes := by simp [classes]
  induction names generalizing h refs with
  | nil => exact .pure ((zero_add refs).symm ▸ m)
  | cons name rest ih =>
    have m₁ : f.Holds ((h.alloc Parcel.string (.str name)).1 ::ₘ refs)
        (h.alloc Parcel.string (.str name)).2 := by
      have hnone : f.Holds (((Payload.str name).references : Multiset ObjId) + refs) h :=
        (zero_add refs).symm ▸ m
      exact hnone.alloc (f.core _ hmem) (.self hmem)
    refine .alloc (.bind ?_)
    refine (ih m₁).mono fun made h' m₂ => .pure ?_
    show f.Holds ((((h.alloc Parcel.string (.str name)).1 :: (Payload.vector made).references :
      List ObjId) : Multiset ObjId) + refs) h'
    rw [← Multiset.cons_coe, Multiset.cons_add, ← Multiset.add_cons]
    exact m₂

/-- Listing the keys of a hash keeps the heap orderly. -/
theorem hashKeys_safely (m : f.Holds f.owned h) : f.Safely f.Returned (Hash.keys p) h := by
  have hmem : Parcel.vector ∈ classes := by simp [classes]
  refine .read (reads_entries p) m fun entries _ => .bind ?_
  refine (keyStrings_safely entries.keys m).mono fun made h' m₁ => .alloc (.pure ?_)
  exact m₁.alloc (f.core _ hmem) (.self hmem)

/-- Tearing a hash down keeps the heap orderly. -/
theorem hashDestroy_safely (m : f.Holds f.owned h) (ho : h.get? p = some o) :
    f.Safely f.Returned (Hash.destroy p) h := by
  refine .run (a := h.obj p) (fun _ => rfl) ?_
  rw [Heap.obj_of_get? ho]
  rcases hpay : o.payload with _ | _ | _ | _ | _ | entries | _ | _
  case hash =>
    refine .setPayload (.releaseAll fun global => .pure ?_)
    refine Heap.Moves.giveBackAll entries.values ?_ f.machine global
    refine m.setEntries ho hpay ?_
    show (entries.values : Multiset ObjId) + f.owned + 0 =
      f.owned + (entries.values : Multiset ObjId)
    rw [add_zero, add_comm]
  all_goals exact .pure m

/-! ### Vectors -/

/-- The elements that were read are those of the receiver. -/
theorem payload_of_elements {elements : List (Option ObjId)} (ho : h.get? p = some o)
    (hrun : ∃ env, Vector.elements p env h = .ok elements h) : o.payload = .vector elements := by
  obtain ⟨env, hrun⟩ := hrun
  rw [← Heap.obj_of_get? ho]
  exact elements_ok hrun

/-- The elements of a vector are there. -/
theorem exists_of_element {elements : List (Option ObjId)} (m : f.Holds f.owned h)
    (ho : h.get? p = some o) (hpay : o.payload = .vector elements) (hq : some q ∈ elements) :
    ∃ x, h.get? q = some x := by
  refine m.orderly.get?_of_reference ho ?_
  rw [hpay]
  exact List.mem_filterMap.2 ⟨some q, hq, rfl⟩

/-- Appends elements for which references were taken. -/
theorem vectorAppend_safely {added elements : List (Option ObjId)}
    (m : f.Holds (((added.filterMap id : List ObjId) : Multiset ObjId) + f.owned) h)
    (ho : h.get? p = some o) (hpay : o.payload = .vector elements) :
    f.Safely f.Returned (vectorAppend p added) h := by
  have hobj : (h.obj p).payload = .vector elements := by rw [Heap.obj_of_get? ho, hpay]
  refine .run (fun env => elements_run env hobj) (.setPayload (.pure ?_))
  refine m.setElements ho hpay ?_
  rw [List.filterMap_append, ← Multiset.coe_add, add_comm,
    add_comm (elements.filterMap id : Multiset ObjId), add_right_comm]

/-- Pushing to a vector keeps the heap orderly. -/
theorem vectorPush_safely (m : f.Holds f.owned h) (ho : h.get? p = some o)
    (hargs : ∀ q, Arg.object q ∈ args → ∃ x, h.get? q = some x) {elements : List (Option ObjId)}
    (hpay : o.payload = .vector elements) : f.Safely f.Returned (Vector.push p args) h := by
  refine .read (reads_argAt args 0) m fun arg harg => ?_
  refine .read (reads_toObject arg) m fun element he => ?_
  refine .retainElement m (fun q hq => exists_of_arg hargs harg (hq ▸ he)) fun h₁ hkept m₁ => ?_
  obtain ⟨count, ho₁⟩ := hkept p o ho
  exact vectorAppend_safely m₁ ho₁ hpay

/-- Pushing all elements to a vector keeps the heap orderly. -/
theorem vectorPushAll_safely (m : f.Holds f.owned h) (ho : h.get? p = some o)
    (hargs : ∀ q, Arg.object q ∈ args → ∃ x, h.get? q = some x) {elements : List (Option ObjId)}
    (hpay : o.payload = .vector elements) : f.Safely f.Returned (Vector.pushAll p args) h := by
  refine .read (reads_argAt args 0) m fun arg harg => ?_
  refine .read (reads_toObject arg) m fun source hs => ?_
  rcases source with _ | q
  · exact .fail m _
  obtain ⟨x, hx⟩ := exists_of_arg hargs harg hs
  refine .read (reads_elements q) m fun added hadded => ?_
  refine Footing.Safely.retainAll m (exists_of_element m hx (payload_of_elements hx hadded)) ?_
  intro h₁ hr m₁
  obtain ⟨count, ho₁⟩ := Heap.get?_of_retainAll hr ho
  exact vectorAppend_safely m₁ ho₁ hpay

/-- Inserting in a vector keeps the heap orderly. -/
theorem vectorInsert_safely (m : f.Holds f.owned h) (ho : h.get? p = some o)
    (hargs : ∀ q, Arg.object q ∈ args → ∃ x, h.get? q = some x) :
    f.Safely f.Returned (Vector.insert p args) h := by
  refine .read (reads_argAt args 0) m fun arg _ => .read (reads_tick arg) m fun place _ => ?_
  refine .read (reads_argAt args 1) m fun arg harg => ?_
  refine .read (reads_toObject arg) m fun element he => ?_
  refine .read (reads_elements p) m fun old hold => ?_
  have hpay := payload_of_elements ho hold
  split_ifs
  · exact .fail m _
  refine .retainElement m (fun q hq => exists_of_arg hargs harg (hq ▸ he)) fun h₁ hkept m₁ => ?_
  obtain ⟨count, ho₁⟩ := hkept p o ho
  refine .setPayload (.pure ?_)
  refine m₁.setElements ho₁ hpay ?_
  have hperm : (old.take place ++ element :: old.drop place).Perm ([element] ++ old) := by
    refine List.perm_middle.trans ?_
    rw [List.take_append_drop]
    exact .refl _
  rw [Multiset.coe_eq_coe.2 (hperm.filterMap id), List.filterMap_append, ← Multiset.coe_add,
    ← add_assoc, add_comm f.owned]

/-- Fetching from a vector keeps the heap orderly. -/
theorem vectorFetch_safely (m : f.Holds f.owned h) (ho : h.get? p = some o) :
    f.Safely f.Returned (Vector.fetch p args) h := by
  refine .read (reads_argAt args 0) m fun arg _ => .read (reads_tick arg) m fun place _ => ?_
  refine .read (reads_elements p) m fun elements hel => ?_
  rcases hget : elements[place]? with _ | _ | q
  · exact .pure m
  · exact .pure m
  · have hmem : some q ∈ elements := List.mem_of_getElem? hget
    obtain ⟨x, hx⟩ := exists_of_element m ho (payload_of_elements ho hel) hmem
    exact Footing.returned_retain m hx

/-- Popping from a vector keeps the heap orderly. -/
theorem vectorPop_safely (m : f.Holds f.owned h) (ho : h.get? p = some o) :
    f.Safely f.Returned (Vector.pop p) h := by
  refine .read (reads_elements p) m fun old hold => ?_
  have hpay := payload_of_elements ho hold
  rcases hlast : old.getLast? with _ | last
  · exact .pure m
  have hold : old.dropLast ++ [last] = old := List.dropLast_append_getLast? last hlast
  -- the reference of the vector to the last element goes to the caller
  have m₁ : f.Holds (([last].filterMap id : List ObjId) + f.owned)
      (h.setPayload p (.vector old.dropLast)) := by
    refine m.setElements ho hpay ?_
    conv_rhs => rw [← hold, List.filterMap_append, ← Multiset.coe_add]
    rw [add_right_comm, add_comm f.owned,
      add_comm (_ : Multiset ObjId) ([last].filterMap id : Multiset ObjId)]
  rcases last with _ | q
  · have m₂ : f.Holds f.owned (h.setPayload p (.vector old.dropLast)) := zero_add f.owned ▸ m₁
    exact .setPayload (.pure m₂)
  · exact .setPayload (.pure m₁)

/-- Tearing a vector down keeps the heap orderly. -/
theorem vectorDestroy_safely (m : f.Holds f.owned h) (ho : h.get? p = some o) :
    f.Safely f.Returned (Vector.destroy p) h := by
  refine .run (a := h.obj p) (fun _ => rfl) ?_
  rw [Heap.obj_of_get? ho]
  rcases hpay : o.payload with _ | _ | _ | _ | _ | _ | elements | _
  case vector =>
    refine .setPayload (.releaseAll fun global => .pure ?_)
    refine Heap.Moves.giveBackAll (elements.filterMap id) ?_ f.machine global
    refine m.setElements ho hpay ?_
    show ((elements.filterMap id : List ObjId) : Multiset ObjId) + f.owned + 0 =
      f.owned + ((elements.filterMap id : List ObjId) : Multiset ObjId)
    rw [add_zero, add_comm]
  all_goals exact .pure m

/-! ### Texts and errors -/

/-- Putting texts together keeps the heap orderly. -/
theorem textConcat_safely (m : f.Holds f.owned h) (ho : h.get? p = some o) :
    f.Safely f.Returned (Text.concat p args) h := by
  refine .read (reads_argAt args 0) m fun arg _ => .read (reads_toText arg) m fun other _ => ?_
  refine .read (reads_toText _) m fun text htext => .read (reads_object p) m fun x hx => ?_
  obtain ⟨env, htext⟩ := htext
  obtain ⟨env', hx⟩ := hx
  obtain ⟨q, hq, htext⟩ := toText_ok htext
  obtain rfl := Arg.object.inj hq
  obtain rfl : h.obj p = x := (EStateM.Result.ok.inj hx).1
  rw [Heap.obj_of_get? ho] at htext ⊢
  have hproper := m.orderly.proper p o ho
  have hhome : o.payload.home = Parcel.string := by
    rcases hpay : o.payload <;> simp [hpay, Payload.text?] at htext
    rfl
  refine Footing.returned_alloc m rfl hproper.known ?_
  show Offspring Parcel.string o.cls
  rw [← hhome]
  exact hproper.offspring

/-- Asking an error for its message keeps the heap orderly. -/
theorem errorMessage_safely (m : f.Holds f.owned h) :
    f.Safely f.Returned (Failure.message p) h := by
  refine .read (reads_object p) m fun x _ => ?_
  rcases x.payload.message? with _ | text
  · exact .fail m _
  · exact Footing.returned_newString m text

/-- Adding to the message of an error keeps the heap orderly. -/
theorem errorAppend_safely (m : f.Holds f.owned h) (ho : h.get? p = some o) :
    f.Safely f.Returned (Failure.append p args) h := by
  refine .read (reads_argAt args 0) m fun arg _ => .read (reads_toText arg) m fun extra _ => ?_
  refine .run (a := h.obj p) (fun _ => rfl) ?_
  rw [Heap.obj_of_get? ho]
  rcases hmessage : o.payload.message? with _ | text
  · exact .fail m _
  have hpay : o.payload = .err text := by
    rcases hpay : o.payload <;> simp [hpay, Payload.message?] at hmessage
    rw [hmessage]
  refine .setPayload (.pure ?_)
  exact m.setPayload ho (by rw [hpay]; rfl) (by rw [hpay]; rfl) (by rw [hpay]; rfl)

/-- Throwing an argument again keeps the heap orderly. -/
theorem rethrow_safely (m : f.Holds f.owned h)
    (hargs : ∀ q, Arg.object q ∈ args → ∃ x, h.get? q = some x) :
    f.Safely f.Returned (Failure.rethrow args) h := by
  refine .read (reads_argAt args 0) m fun arg harg => .read (reads_toObject arg) m fun q hq => ?_
  rcases q with _ | q
  · exact .fail m _
  obtain ⟨x, hx⟩ := exists_of_arg hargs harg hq
  exact .retain m hx fun h₁ _ m₁ _ => m₁

/-! ### The core parcel -/

/-- The text of the argument at `index`, and what is done with it. -/
theorem textArg_safely {index : Nat} {g : String → NativeM Ret} (m : f.Holds f.owned h)
    (hg : ∀ text, f.Safely f.Returned (g text) h) :
    f.Safely f.Returned (do g (← (← argAt args index).toText)) h :=
  .read (reads_argAt args index) m fun arg _ => .read (reads_toText arg) m fun text _ => hg text

/-- **Methods of the core parcel** keep the heap orderly on receivers with the payload that
they are for, except for the one that gives back a reference that it was lent. -/
theorem runMethod_safely {op : CoreMethod} (m : f.Holds f.owned h) (ho : h.get? p = some o)
    (hargs : ∀ q, Arg.object q ∈ args → ∃ x, h.get? q = some x) (hsuits : Suits o.payload op)
    (hop : op ≠ .objectRelease) : f.Safely f.Returned (runMethod p args op) h := by
  cases op with
  | objectCount => exact .read (reads_object p) m fun _ _ => .pure m
  | objectRetain => exact Footing.returned_retain m ho
  | objectRelease => exact absurd rfl hop
  | objectClassName => exact .read (reads_object p) m fun _ _ => Footing.returned_newString m _
  | objectIsA =>
    refine textArg_safely m fun name => .consult fun global => ?_
    refine .read (reads_object p) m.markConsulted fun x _ => ?_
    rcases global.fetch name with _ | _
    · exact .pure m.markConsulted
    · exact .pure m.markConsulted
  | objectEquals =>
    exact .read (reads_argAt args 0) m fun arg _ => .read (reads_toObject arg) m fun _ _ => .pure m
  | objectText => exact .read (reads_object p) m fun _ _ => Footing.returned_newString m _
  | objectDestroy => exact .pure m
  | stringLength => exact .read (reads_toText _) m fun _ _ => .pure m
  | stringStartsWith => exact textArg_safely m fun _ => .read (reads_toText _) m fun _ _ => .pure m
  | stringConcat => exact textConcat_safely m ho
  | stringEquals =>
    refine .read (reads_argAt args 0) m fun arg _ => .read (reads_toObject arg) m fun q _ => ?_
    rcases q with _ | q
    · exact .pure m
    refine .read (reads_object q) m fun x _ => ?_
    rcases x.payload.text? with _ | text
    · exact .pure m
    · exact .read (reads_object p) m fun _ _ => .pure m
  | stringText => exact Footing.returned_retain m ho
  | stringBytes => exact .read (reads_toText _) m fun _ _ => .pure m
  | integerValue => exact .read (reads_object p) m fun _ _ => .pure m
  | floatValue => exact .read (reads_object p) m fun _ _ => .pure m
  | booleanValue => exact .read (reads_object p) m fun _ _ => .pure m
  | numberEquals =>
    refine .read (reads_argAt args 0) m fun arg _ => .read (reads_toObject arg) m fun q _ => ?_
    rcases q with _ | q
    · exact .pure m
    · exact .read (reads_object p) m fun _ _ => .read (reads_object q) m fun _ _ => .pure m
  | numberText => exact .read (reads_object p) m fun _ _ => Footing.returned_newString m _
  | hashStore =>
    obtain ⟨entries, hpay⟩ := hsuits
    exact hashStore_safely m ho hargs hpay
  | hashFetch => exact hashFetch_safely m ho
  | hashDelete => exact hashDelete_safely m ho
  | hashHasKey => exact textArg_safely m fun _ => .read (reads_entries p) m fun _ _ => .pure m
  | hashSize => exact .read (reads_entries p) m fun _ _ => .pure m
  | hashKeys => exact hashKeys_safely m
  | hashDestroy => exact hashDestroy_safely m ho
  | vectorPush =>
    obtain ⟨elements, hpay⟩ := hsuits
    exact vectorPush_safely m ho hargs hpay
  | vectorPushAll =>
    obtain ⟨elements, hpay⟩ := hsuits
    exact vectorPushAll_safely m ho hargs hpay
  | vectorInsert => exact vectorInsert_safely m ho hargs
  | vectorFetch => exact vectorFetch_safely m ho
  | vectorPop => exact vectorPop_safely m ho
  | vectorSize => exact .read (reads_elements p) m fun _ _ => .pure m
  | vectorDestroy => exact vectorDestroy_safely m ho
  | errorMessage => exact errorMessage_safely m
  | errorAppend => exact errorAppend_safely m ho

/-- The class for whose payloads a constructor is. -/
def makerHome : CoreConstructor → Class
  | .string => Parcel.string
  | .integer => Parcel.integer
  | .float => Parcel.float
  | .hash => Parcel.hash
  | .vector => Parcel.vector
  | .error => Parcel.err

/-- **Constructors of the core parcel** make objects of offspring of their own class. -/
theorem runConstructor_safely {op : CoreConstructor} {cls : Class} (m : f.Holds f.owned h)
    (hK : f.known cls) (hoff : Offspring (makerHome op) cls) :
    f.Safely f.Returned (runConstructor cls args op) h := by
  cases op with
  | string => exact textArg_safely m fun _ => Footing.returned_alloc m rfl hK hoff
  | integer =>
    exact .read (reads_argAt args 0) m fun arg _ => .read (reads_toInt arg) m fun _ _ =>
      Footing.returned_alloc m rfl hK hoff
  | float =>
    exact .read (reads_argAt args 0) m fun arg _ => .read (reads_toFloat arg) m fun _ _ =>
      Footing.returned_alloc m rfl hK hoff
  | hash =>
    refine .read (reads_argAt args 0) m fun arg _ =>
      .read (reads_hashCapacity arg) m fun room _ =>
      .read (reads_reserve _ room) m fun reserved _ => ?_
    split_ifs
    · exact Footing.returned_alloc m rfl hK hoff
    · exact .fail m _
  | vector =>
    refine .read (reads_argAt args 0) m fun arg _ =>
      .read (reads_vectorCapacity arg) m fun room _ =>
      .read (reads_reserve _ room) m fun reserved _ => ?_
    split_ifs
    · exact Footing.returned_alloc m rfl hK hoff
    · exact .fail m _
  | error => exact textArg_safely m fun _ => Footing.returned_alloc m rfl hK hoff

/-- **Functions of the core parcel** keep the heap orderly. -/
theorem runFunction_safely {op : CoreFunction} (m : f.Holds f.owned h)
    (hargs : ∀ q, Arg.object q ∈ args → ∃ x, h.get? q = some x) :
    f.Safely f.Returned (runFunction args op) h := by
  cases op with
  | isWhitespace =>
    exact .read (reads_argAt args 0) m fun arg _ => .read (reads_toInt arg) m fun _ _ => .pure m
  | toBase36 =>
    refine .read (reads_argAt args 0) m fun arg _ => .read (reads_toInt arg) m fun value _ => ?_
    split_ifs
    · exact .fail m _
    · exact Footing.returned_newString m _
  | rethrow => exact rethrow_safely m hargs

end Parcel

end Interop

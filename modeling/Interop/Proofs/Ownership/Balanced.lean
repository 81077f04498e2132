/-
# Worlds whose references balance

A world is balanced when its heap is orderly for the references that its handles own and for
those in `extra`, which somebody else owns for the moment: the frame of a call, or a result
that is about to be converted.  Every handle names a class in play, and one that owns a
reference names the class of its object.

The operations on handles lead from one balanced world to the next: `acquire` takes a
reference out of `extra`, and `surrender`, by which handles are dropped and released, gives
one back.
-/

import Interop.Proofs.Heap.Orderly
import Interop.Proofs.Conversion.Building

namespace Interop

/-- The reference that the handle owns, if it owns one. -/
def HandleState.held? (s : HandleState) : Option ObjId :=
  if s.owned then some s.object else none

section Lists

variable {α β : Type} {g : α → Option β} {f : α → α} {a : α} {l : List α}

/-- The first element of a list comes first, if it is selected. -/
theorem coe_filterMap_cons : ((((a :: l).filterMap g : List β)) : Multiset β) =
    ((g a).toList : Multiset β) + (l.filterMap g : Multiset β) := by
  rcases ha : g a with _ | b
  · rw [List.filterMap_cons_none ha]
    exact (zero_add _).symm
  · rw [List.filterMap_cons_some ha]
    rfl

/-- A change at one place exchanges what stood there for what stands there then. -/
theorem coe_filterMap_modify {i : Nat} (h : l[i]? = some a) :
    ((l.modify i f).filterMap g : Multiset β) + ((g a).toList : Multiset β) =
      (l.filterMap g : Multiset β) + ((g (f a)).toList : Multiset β) := by
  induction l generalizing i with
  | nil => exact absurd h (by simp)
  | cons x rest ih =>
    cases i with
    | zero =>
      obtain rfl := Option.some.inj h
      rw [List.modify_zero_cons, coe_filterMap_cons, coe_filterMap_cons]
      abel
    | succ i =>
      have hrest := ih (i := i) h
      rw [List.modify_succ_cons, coe_filterMap_cons, coe_filterMap_cons, add_assoc, hrest,
        add_assoc]

end Lists

namespace World

/-- The references that handles own, one for each handle that owns one. -/
def held (w : World) : Multiset ObjId :=
  (w.handles.toList.filterMap HandleState.held? : List ObjId)

variable {K : Class → Prop} {extra handed : Multiset ObjId} {w w' : World} {p : ObjId}
  {h g : HandleId} {f : HandleState → HandleState}

/-- A handle that owns a reference has a state of its own. -/
theorem getElem?_of_owned (howned : (w.handle h).owned = true) :
    w.handles[h.index]? = some (w.handle h) := by
  rcases hs : w.handles[h.index]? with _ | s
  · rw [handle, hs] at howned
    exact absurd howned (by decide)
  · rw [handle, hs]
    rfl

/-- A change to a handle leaves the other handles. -/
theorem handle_modifyHandle (w : World) (h g : HandleId) (f : HandleState → HandleState) :
    (w.modifyHandle h f).handle g = w.handle g ∨
      g = h ∧ (w.modifyHandle h f).handle g = f (w.handle g) := by
  have hget : (w.modifyHandle h f).handles[g.index]? =
      if h.index = g.index then w.handles[g.index]?.map f else w.handles[g.index]? :=
    Array.getElem?_modify
  rw [handle, handle, hget]
  split_ifs with hindex
  · rcases w.handles[g.index]? with _ | s
    · exact Or.inl rfl
    · refine Or.inr ⟨?_, rfl⟩
      obtain ⟨i⟩ := g
      obtain ⟨j⟩ := h
      exact congrArg HandleId.mk hindex.symm
  · exact Or.inl rfl

/-- A change that leaves alone what a handle owns. -/
theorem held_modifyHandle (hf : ∀ s : HandleState, (f s).held? = s.held?) :
    (w.modifyHandle h f).held = w.held := by
  rw [held, held, modifyHandle, Array.toList_modify]
  rcases hs : w.handles[h.index]? with _ | s
  · rw [List.modify_eq_self]
    rw [Array.length_toList]
    exact Array.getElem?_eq_none_iff.1 hs
  · have hs' : w.handles.toList[h.index]? = some s := by rw [Array.getElem?_toList, hs]
    have hmodify := coe_filterMap_modify (g := HandleState.held?) (f := f) hs'
    rw [hf] at hmodify
    exact add_right_cancel hmodify

/-- The reference of a handle that gives it up. -/
theorem held_disown (howned : (w.handle h).owned = true) :
    (w.handle h).object ::ₘ (w.modifyHandle h fun state => { state with owned := false }).held =
      w.held := by
  have hs : w.handles.toList[h.index]? = some (w.handle h) := by
    rw [Array.getElem?_toList, getElem?_of_owned howned]
  have hmodify := coe_filterMap_modify (g := HandleState.held?)
    (f := fun state => { state with owned := false }) hs
  have hbefore : (w.handle h).held? = some (w.handle h).object := if_pos howned
  have hafter : HandleState.held? { w.handle h with owned := false } = none := rfl
  rw [hbefore, hafter, Option.toList_some, Option.toList_none, Multiset.coe_nil, add_zero,
    Multiset.coe_singleton, add_comm, Multiset.singleton_add] at hmodify
  rw [held, held, modifyHandle, Array.toList_modify]
  exact hmodify

/-- The object of a handle that owns a reference is among the references that are held. -/
theorem mem_held (howned : (w.handle h).owned = true) : (w.handle h).object ∈ w.held := by
  rw [← held_disown howned]
  exact Multiset.mem_cons_self _ _

/-- The heap is orderly for the references in `extra` and those that handles own, and the
handles name classes in play. -/
structure Balanced (K : Class → Prop) (extra : Multiset ObjId) (w : World) : Prop where
  orderly : w.heap.Orderly K (extra + w.held)
  cls_eq : ∀ h, (w.handle h).owned = true →
    ∃ o, w.heap.get? (w.handle h).object = some o ∧ o.cls = (w.handle h).cls
  known : ∀ h, K (w.handle h).cls

namespace Balanced

/-! ### Changes of the heap -/

/-- The heap moves on, and the handles stay. -/
theorem of_moves (b : Balanced K extra w) (hhandles : w'.handles = w.handles)
    (m : Heap.Moves K w.heap (handed + w.held) w'.heap) : Balanced K handed w' := by
  have hheld : w'.held = w.held := by rw [held, held, hhandles]
  have hhandle : ∀ h, w'.handle h = w.handle h := fun h => by rw [handle, handle, hhandles]
  refine ⟨hheld ▸ m.orderly, fun h howned => ?_, fun h => hhandle h ▸ b.known h⟩
  rw [hhandle] at howned ⊢
  obtain ⟨o, ho, hcls⟩ := b.cls_eq h howned
  have hmem : (w.handle h).object ∈ handed + w.held :=
    Multiset.mem_add.2 (Or.inr (mem_held howned))
  obtain ⟨o', ho'⟩ := m.orderly.get?_of_mem hmem
  exact ⟨o', ho', (m.follows.cls_eq _ o o' ho ho').trans hcls⟩

/-- Balance is what the moves of the heap start from. -/
theorem moves_refl (b : Balanced K extra w) : Heap.Moves K w.heap (extra + w.held) w.heap :=
  .refl b.orderly

/-- Owned references are given back. -/
theorem releaseAll (ps : List ObjId) (b : Balanced K ((ps : Multiset ObjId) + extra) w)
    (m : Machine) : Balanced K extra (w.releaseAll m ps) := by
  refine b.of_moves rfl (Heap.Moves.giveBackAll ps ?_ m _)
  rw [← add_assoc]
  exact b.moves_refl

/-- An owned reference is given back. -/
theorem release (b : Balanced K (p ::ₘ extra) w) (m : Machine) :
    Balanced K extra (w.release m p).2 :=
  releaseAll [p] b m

/-- A reference is taken. -/
theorem retain {heap : Heap} {o : Obj} (b : Balanced K extra w) (ho : w.heap.get? p = some o)
    (hr : w.heap.retain p = .ok heap) : Balanced K (p ::ₘ extra) { w with heap } := by
  refine b.of_moves rfl ?_
  rw [Multiset.cons_add]
  exact b.moves_refl.retain ho hr

/-! ### Handles -/

/-- A change of a handle that stays with its object and its class and takes no reference. -/
theorem modifyHandle (b : Balanced K extra w) (howned : ∀ s, (f s).owned = true → s.owned = true)
    (hobject : ∀ s, (f s).object = s.object) (hcls : ∀ s, (f s).cls = s.cls)
    (horderly : w.heap.Orderly K (handed + (w.modifyHandle h f).held)) :
    Balanced K handed (w.modifyHandle h f) := by
  constructor
  case orderly => exact horderly
  case cls_eq =>
    intro g hg
    rcases handle_modifyHandle w h g f with hsame | ⟨-, hchanged⟩
    · rw [hsame] at hg ⊢
      exact b.cls_eq g hg
    · rw [hchanged] at hg ⊢
      rw [hobject, hcls]
      exact b.cls_eq g (howned _ hg)
  case known =>
    intro g
    rcases handle_modifyHandle w h g f with hsame | ⟨-, hchanged⟩
    · rw [hsame]
      exact b.known g
    · rw [hchanged, hcls]
      exact b.known g

/-- Wrappers come and go, and the handle keeps what it owns. -/
theorem setShares (b : Balanced K extra w) (shares : HandleState → Nat) :
    Balanced K extra (w.modifyHandle h fun s => { s with shares := shares s }) := by
  have hheld : (w.modifyHandle h fun s => { s with shares := shares s }).held = w.held :=
    held_modifyHandle fun _ => rfl
  refine b.modifyHandle (fun _ hs => hs) (fun _ => rfl) (fun _ => rfl) ?_
  rw [hheld]
  exact b.orderly

/-- A handle gives its reference up for somebody else. -/
theorem disown (b : Balanced K extra w) (howned : (w.handle h).owned = true) :
    Balanced K ((w.handle h).object ::ₘ extra)
      (w.modifyHandle h fun state => { state with owned := false }) := by
  refine b.modifyHandle (fun _ hs => absurd hs (by simp)) (fun _ => rfl) (fun _ => rfl) ?_
  rw [Multiset.cons_add, ← Multiset.add_cons, held_disown howned]
  exact b.orderly

/-- **A handle gives its reference back.** -/
theorem surrender (b : Balanced K extra w) (howned : (w.handle h).owned = true) (m : Machine) :
    Balanced K extra (Handle.surrender m h w) := by
  have hobject : ((w.modifyHandle h fun state => { state with owned := false }).handle h).object =
      (w.handle h).object := by
    rcases handle_modifyHandle w h h (fun state => { state with owned := false }) with
      hsame | ⟨-, hchanged⟩
    · rw [hsame]
    · rw [hchanged]
  unfold Handle.surrender
  simp only [hobject]
  exact (b.disown howned).release m

/-- **A handle adopts a reference** that somebody else owned. -/
theorem acquire (b : Balanced K (p ::ₘ extra) w) : Balanced K extra (Handle.acquire p w).2 := by
  obtain ⟨o, ho⟩ := b.orderly.get?_of_mem (p := p)
    (Multiset.mem_add.2 (Or.inl (Multiset.mem_cons_self p extra)))
  -- every handle but the new one is as it was, and the new one stands for `p`
  have hhandle : ∀ g, (Handle.acquire p w).2.handle g = w.handle g ∨
      ((Handle.acquire p w).2.handle g).object = p ∧
        ((Handle.acquire p w).2.handle g).cls = o.cls := by
    intro g
    have hget : (Handle.acquire p w).2.handles[g.index]? =
        if g.index = w.handles.size then
          some ⟨p, (w.obj p).cls, true, w.program.current.1.releasePolicy, 1⟩
        else w.handles[g.index]? := Array.getElem?_push
    rw [handle, handle, hget]
    split_ifs
    · refine Or.inr ⟨rfl, ?_⟩
      show (w.heap.obj p).cls = o.cls
      rw [Heap.obj_of_get? ho]
    · exact Or.inl rfl
  have hheld : (Handle.acquire p w).2.held = p ::ₘ w.held := by
    show ((w.handles.push _).toList.filterMap HandleState.held? : Multiset ObjId) = _
    rw [Array.toList_push, List.filterMap_append, ← Multiset.coe_add, add_comm]
    rfl
  constructor
  case orderly =>
    rw [hheld, Multiset.add_cons, ← Multiset.cons_add]
    exact b.orderly
  case cls_eq =>
    intro g hg
    rcases hhandle g with hsame | ⟨hobject, hcls⟩
    · rw [hsame] at hg ⊢
      exact b.cls_eq g hg
    · rw [hobject, hcls]
      exact ⟨o, ho, rfl⟩
  case known =>
    intro g
    rcases hhandle g with hsame | ⟨-, hcls⟩
    · exact hsame ▸ b.known g
    · rw [hcls]
      exact (b.orderly.proper p o ho).known

/-- One more wrapper shares the handle. -/
theorem share (b : Balanced K extra w) : Balanced K extra (Handle.share h w) :=
  b.setShares fun s => s.shares + 1

/-- **A wrapper is dropped,** and with the last one the handle. -/
theorem drop (b : Balanced K extra w) (m : Machine) : Balanced K extra (Handle.drop m h w) := by
  unfold Handle.drop
  have b' : Balanced K extra
      (w.modifyHandle h fun state => { state with shares := (w.handle h).shares - 1 }) :=
    b.setShares fun _ => (w.handle h).shares - 1
  dsimp only
  split_ifs with hlast
  · exact b'.surrender hlast.2 m
  · exact b'

/-- All wrappers in a value are dropped. -/
theorem dropValue (b : Balanced K extra w) (m : Machine) (v : HostValue) :
    Balanced K extra (HostValue.drop m v w) := by
  unfold HostValue.drop
  induction v.objects generalizing w with
  | nil => exact b
  | cons o rest ih => exact ih (b.drop m)

/-- **What is counted:** the references that are owned, by a handle or by somebody else, and
those in payloads. -/
theorem refcount_eq {o : Obj} (b : Balanced K extra w) (ho : w.heap.get? p = some o)
    (himm : o.immortal = false) : o.refcount = (extra + w.held + w.heap.slots 0).count p := by
  have hcount := b.orderly.ledger.count_eq p o ho himm
  have hvoid : (Heap.void.obj p).refcount = 0 := Ledger.base_count (Nat.zero_le _)
  rw [hvoid, zero_add] at hcount
  exact hcount

/-- **A world accounts for its handles:** it is grounded. -/
theorem grounded (b : Balanced K extra w) : w.Grounded where
  truth := b.orderly.truth
  referenced h howned := by
    obtain ⟨o, ho, -⟩ := b.cls_eq h howned
    exact ⟨o, ho, (b.orderly.proper _ o ho).referenced⟩

end Balanced

end World

end Interop

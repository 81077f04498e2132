/-
# One object more

A heap that has one object more, and is otherwise the same (`Heap.Adds`): that is what remains
of a call that makes an object.  On the way a text may be made that the object is made from, or a
reference may be taken to a text that is there; giving the reference back undoes this, whatever
class the new object is of.
-/

import Interop.Proofs.Heap.Release

namespace Interop

namespace Heap

variable {h h₁ : Heap} {p q : ObjId} {o : Obj} {cls : Class} {payload : Payload} {t : String}

/-- The heap `h'` is `h` with the object `o` at `p`, where there was none. -/
structure Adds (h : Heap) (p : ObjId) (o : Obj) (h' : Heap) : Prop where
  vacant : h.get? p = none
  get?_eq : ∀ q, h'.get? q = if q = p then some o else h.get? q
  live_eq : h'.live = h.live + if o.immortal then 0 else 1
  fault_eq : h'.fault = h.fault

/-- The place of a new object was vacant. -/
theorem get?_alloc_fst (h : Heap) (cls : Class) (payload : Payload) :
    h.get? (h.alloc cls payload).1 = none :=
  get?_of_size_le le_rfl

/-- Making an object adds it and nothing else. -/
theorem adds_alloc (h : Heap) (cls : Class) (payload : Payload) :
    Adds h (h.alloc cls payload).1 (fresh cls payload) (h.alloc cls payload).2 where
  vacant := h.get?_alloc_fst cls payload
  get?_eq _ := get?_alloc cls payload
  live_eq := live_alloc cls payload
  fault_eq := rfl

/-- The only reference to a text is given back: the text is gone. -/
theorem release_text (m : Machine) (global : Registry)
    (hq : h.get? q = some (fresh Parcel.string (.str t))) :
    (∀ r, (m.release global q h).2.get? r = if r = q then none else h.get? r) ∧
      (m.release global q h).2.live = h.live - 1 ∧ (m.release global q h).2.fault = h.fault := by
  have hgive : (fresh Parcel.string (.str t)).GivesBack := Payload.givesBack_home (.str t) _ _
  have hrelease := m.image.releaseAt_last global (h.live + m.headroom) hq rfl rfl hgive
  have hheap : (m.release global q h).2 = ((h.setCount q 0).setPayload q (.str t)).free q :=
    congrArg Prod.snd hrelease
  rw [hheap]
  refine ⟨fun r => ?_, by simp [free, setPayload, setCount], by simp [free, setPayload, setCount]⟩
  rw [get?_free]
  split_ifs with hr
  · rfl
  · rw [setPayload, get?_modify_of_ne hr, setCount, get?_modify_of_ne hr]

/-- One of several references is given back: the count is one less. -/
theorem release_counted (m : Machine) (global : Registry) (hq : h.get? q = some o)
    (himm : o.immortal = false) {count : Nat} (hcount : o.refcount = count + 2) :
    (m.release global q h).2 = h.setCount q (count + 1) := by
  rw [Machine.release, Image.releaseAt, obj_of_get? hq]
  simp only [himm, hcount]
  rfl

/-- Giving back a reference to an immortal object has no effect. -/
theorem release_immortal (m : Machine) (global : Registry) (hq : h.get? q = some o)
    (himm : o.immortal = true) : (m.release global q h).2 = h := by
  rw [Machine.release, Image.releaseAt, obj_of_get? hq]
  simp only [himm, if_true]

/-- A new object, after the text that it was made from is gone. -/
theorem adds_of_text (m : Machine) (global : Registry) (h : Heap) (t : String) (cls : Class)
    (payload : Payload) :
    let made := h.alloc Parcel.string (.str t)
    Adds h (made.2.alloc cls payload).1 (fresh cls payload)
      (m.release global made.1 (made.2.alloc cls payload).2).2 := by
  intro made
  have hne : made.1 ≠ (made.2.alloc cls payload).1 := by
    intro heq
    have hindex : h.cells.size = made.2.cells.size := congrArg ObjId.index heq
    have hsize : made.2.cells.size = h.cells.size + 1 := size_alloc _ _
    omega
  have htext : (made.2.alloc cls payload).2.get? made.1 = some (fresh Parcel.string (.str t)) :=
    get?_alloc_of_some cls payload (get?_alloc_self _ _)
  obtain ⟨hget, hlive, hfault⟩ := release_text m global htext
  constructor
  case vacant =>
    have hsize : made.2.cells.size = h.cells.size + 1 := size_alloc _ _
    exact get?_of_size_le (show h.cells.size ≤ made.2.cells.size by omega)
  case get?_eq =>
    intro r
    rw [hget, get?_alloc, get?_alloc]
    by_cases hr : r = made.1
    · rw [if_pos hr, hr, if_neg hne]
      exact (h.get?_alloc_fst _ _).symm
    · rw [if_neg hr, if_neg (show r ≠ (h.alloc Parcel.string (.str t)).1 from hr)]
  case live_eq =>
    have hmade : made.2.live = h.live + 1 := live_alloc _ _
    have himm : (fresh cls payload).immortal = cls.hasImmortalInstances := rfl
    rw [hlive, live_alloc, hmade, himm]
    omega
  case fault_eq => exact hfault

/-- A new object, after the reference that was taken meanwhile is given back. -/
theorem adds_of_retained (m : Machine) (global : Registry) (hq : h.get? q = some o)
    (hpos : o.immortal = false → 0 < o.refcount) (hretain : h.retain q = .ok h₁) (cls : Class)
    (payload : Payload) :
    Adds h (h₁.alloc cls payload).1 (fresh cls payload)
      (m.release global q (h₁.alloc cls payload).2).2 := by
  rw [Heap.retain, obj_of_get? hq] at hretain
  by_cases himm : o.immortal = true
  · rw [if_pos himm] at hretain
    obtain rfl := Except.ok.inj hretain
    rw [release_immortal m global (get?_alloc_of_some cls payload hq) himm]
    exact adds_alloc h cls payload
  rw [if_neg himm] at hretain
  split_ifs at hretain with hroom
  obtain rfl := Except.ok.inj hretain
  have hmortal : o.immortal = false := Bool.eq_false_iff.2 himm
  obtain ⟨count, hcount⟩ : ∃ count, o.refcount = count + 1 :=
    Nat.exists_eq_add_one_of_ne_zero (Nat.ne_of_gt (hpos hmortal))
  have hnow : (h.setCount q (o.refcount + 1)).get? q = some { o with refcount := o.refcount + 1 } :=
    get?_modify_self hq _
  have hthere := get?_alloc_of_some cls payload hnow
  rw [release_counted m global hthere hmortal (show o.refcount + 1 = count + 2 by omega)]
  have hnew : ((h.setCount q (o.refcount + 1)).alloc cls payload).1 = (h.alloc cls payload).1 := by
    rw [alloc_fst, alloc_fst, setCount, size_modify]
  -- the new object is another one, so taking and giving back even out at `q`
  have hne : q ≠ (h.alloc cls payload).1 := by
    rintro rfl
    exact absurd (hq.symm.trans (h.get?_alloc_fst cls payload)) (by simp)
  constructor
  case vacant => rw [hnew, h.get?_alloc_fst]
  case get?_eq =>
    intro r
    rw [hnew]
    by_cases hr : r = q
    · subst hr
      rw [setCount, get?_modify_self hthere, if_neg hne, hq, ← hcount]
    · rw [setCount, get?_modify_of_ne hr, get?_alloc, hnew, setCount, get?_modify_of_ne hr]
  case live_eq =>
    rw [setCount, live_modify, live_alloc, setCount, live_modify]
    rfl
  case fault_eq =>
    rw [setCount, fault_modify]
    exact fault_modify _

end Heap

end Interop

/-
# Reading a heap after a change

What each operation on a heap does to a look-up, and to a sum over its cells.

`Heap.total n f` adds `f o` up over the objects `o` whose place is `n` or later.  The
references in payloads, the number of mortal objects and the number of objects that
somebody holds are such sums, and an operation that changes one cell changes each of
them by that cell alone (`total_modify`, `total_free`, `total_alloc`).
-/

import Interop.Heap.Basic
import Mathlib.Algebra.BigOperators.Group.List.Basic
import Mathlib.Algebra.Order.BigOperators.Group.List
import Mathlib.Algebra.Order.Group.Multiset
import Mathlib.Algebra.Order.Group.Nat
import Mathlib.Data.Multiset.Count
import Mathlib.Data.Multiset.OrderedMonoid
import Mathlib.Tactic.Abel

namespace Interop

/-- An object is its place in the heap. -/
@[ext] theorem ObjId.ext {p q : ObjId} (h : p.index = q.index) : p = q := by
  obtain ⟨p⟩ := p
  exact congrArg ObjId.mk h

namespace Heap

variable {h : Heap} {p q : ObjId} {o : Obj}

/-- An object that is there lies within the heap. -/
theorem index_lt_of_get? (hp : h.get? p = some o) : p.index < h.cells.size := by
  by_contra hlt
  rw [get?, Array.getElem?_eq_none (Nat.le_of_not_lt hlt)] at hp
  exact absurd hp (by simp)

/-- The object at a place that is taken is the one that is there. -/
theorem obj_of_get? (hp : h.get? p = some o) : h.obj p = o := by
  rw [obj, hp, Option.getD_some]

/-- The object at a vacant place is the vacant one. -/
theorem obj_of_vacant (hp : h.get? p = none) : h.obj p = Obj.vacant := by
  rw [obj, hp, Option.getD_none]

/-- Beyond the end of the heap there is nothing. -/
theorem get?_of_size_le (hp : h.cells.size ≤ p.index) : h.get? p = none := by
  rw [get?, Array.getElem?_eq_none hp, Option.join_none]

/-! ### Look-ups -/

/-- A modification changes one object and leaves the others. -/
theorem get?_modify (f : Obj → Obj) :
    (h.modify p f).get? q = if q = p then (h.get? p).map f else h.get? q := by
  rcases hp : h.get? p with _ | o
  · rw [modify, hp]
    split_ifs with hq
    · rw [hq, hp, Option.map_none]
    · rfl
  · have hlt := index_lt_of_get? hp
    rw [modify, hp]
    simp only [get?, Array.getElem?_setIfInBounds]
    by_cases hq : q = p
    · rw [if_pos hq, hq, if_pos rfl, if_pos hlt]
      rfl
    · rw [if_neg hq, if_neg fun hi => hq (ObjId.ext hi.symm)]

/-- The object that is modified is what the modification makes of it. -/
theorem get?_modify_self (hp : h.get? p = some o) (f : Obj → Obj) :
    (h.modify p f).get? p = some (f o) := by
  rw [get?_modify, if_pos rfl, hp, Option.map_some]

/-- A modification leaves the other objects. -/
theorem get?_modify_of_ne (hq : q ≠ p) (f : Obj → Obj) : (h.modify p f).get? q = h.get? q := by
  rw [get?_modify, if_neg hq]

/-- What is freed is gone, and nothing else is. -/
theorem get?_free : (h.free p).get? q = if q = p then none else h.get? q := by
  simp only [free, get?, Array.getElem?_setIfInBounds]
  by_cases hq : q = p
  · rw [if_pos hq, hq, if_pos rfl]
    split_ifs <;> rfl
  · rw [if_neg hq, if_neg fun hi => hq (ObjId.ext hi.symm)]

/-- What is freed leaves the other objects. -/
theorem get?_free_of_ne (hq : q ≠ p) : (h.free p).get? q = h.get? q := by
  rw [get?_free, if_neg hq]

/-- The object that `alloc` puts into the heap. -/
def fresh (cls : Class) (payload : Payload) : Obj :=
  ⟨cls, cls.hasImmortalInstances, 1, payload⟩

/-- A new object gets the next place. -/
theorem alloc_fst (cls : Class) (payload : Payload) :
    (h.alloc cls payload).1 = ⟨h.cells.size⟩ := rfl

/-- Making an object fills its place and leaves the others. -/
theorem get?_alloc (cls : Class) (payload : Payload) :
    (h.alloc cls payload).2.get? q =
      if q = (h.alloc cls payload).1 then some (fresh cls payload) else h.get? q := by
  rw [alloc_fst]
  simp only [alloc, get?, Array.getElem?_push]
  by_cases hq : q = ⟨h.cells.size⟩
  · rw [if_pos hq, hq, if_pos rfl]
    rfl
  · rw [if_neg hq, if_neg fun hi => hq (ObjId.ext hi)]

/-- A new object is fresh. -/
theorem get?_alloc_self (cls : Class) (payload : Payload) :
    (h.alloc cls payload).2.get? (h.alloc cls payload).1 = some (fresh cls payload) := by
  rw [get?_alloc, if_pos rfl]

/-- Making an object leaves those that were there. -/
theorem get?_alloc_of_some (cls : Class) (payload : Payload) (hp : h.get? p = some o) :
    (h.alloc cls payload).2.get? p = some o := by
  have hlt := index_lt_of_get? hp
  rw [get?_alloc, if_neg, hp]
  rintro rfl
  exact Nat.lt_irrefl _ hlt

/-! ### Sizes, counters and faults -/

/-- A modification keeps the number of places. -/
@[simp] theorem size_modify (f : Obj → Obj) : (h.modify p f).cells.size = h.cells.size := by
  unfold modify
  split <;> simp

/-- Freeing an object keeps the number of places. -/
@[simp] theorem size_free : (h.free p).cells.size = h.cells.size := by
  simp [free]

/-- Making an object adds a place. -/
@[simp] theorem size_alloc (cls : Class) (payload : Payload) :
    (h.alloc cls payload).2.cells.size = h.cells.size + 1 := by
  simp [alloc]

/-- A modification keeps the number of living objects. -/
@[simp] theorem live_modify (f : Obj → Obj) : (h.modify p f).live = h.live := by
  unfold modify
  split <;> rfl

/-- A look at the registry changes no object. -/
@[simp] theorem get?_markConsulted (h : Heap) (p : ObjId) : h.markConsulted.get? p = h.get? p := rfl

/-- A look at the registry leaves what is read at a place. -/
@[simp] theorem obj_markConsulted (h : Heap) (p : ObjId) : h.markConsulted.obj p = h.obj p := rfl

/-- A modification is no look at the registry. -/
@[simp] theorem consulted_modify (f : Obj → Obj) :
    (h.modify p f).consulted = h.consulted := by
  unfold modify
  split <;> rfl

/-- A modification causes no fault. -/
@[simp] theorem fault_modify (f : Obj → Obj) : (h.modify p f).fault = h.fault := by
  unfold modify
  split <;> rfl

/-- A reference that is taken keeps the number of places. -/
theorem size_of_retain {h' : Heap} (hr : h.retain p = .ok h') : h'.cells.size = h.cells.size := by
  rw [retain] at hr
  split_ifs at hr
  · obtain rfl := Except.ok.inj hr
    rfl
  · obtain rfl := Except.ok.inj hr
    rw [setCount, size_modify]

/-- A new object is one more living object unless it is immortal. -/
theorem live_alloc (cls : Class) (payload : Payload) : (h.alloc cls payload).2.live =
    h.live + if cls.hasImmortalInstances then 0 else 1 := by
  rw [alloc]
  split_ifs <;> rfl

/-! ### Sums over cells -/

section Total

variable {M : Type} [AddCancelCommMonoid M] {n : Nat}

/-- Where one summand is replaced the sum changes by the difference. -/
theorem sum_map_set {α : Type} (g : α → M) (x : α) :
    ∀ (l : List α) (i : Nat) (hi : i < l.length),
      ((l.set i x).map g).sum + g l[i] = (l.map g).sum + g x
  | y :: l, 0, _ => by
    simp only [List.set_cons_zero, List.map_cons, List.sum_cons, List.getElem_cons_zero]
    abel
  | y :: l, i + 1, hi => by
    have ih := sum_map_set g x l i (Nat.lt_of_succ_lt_succ hi)
    simp only [List.set_cons_succ, List.map_cons, List.sum_cons, List.getElem_cons_succ]
    rw [add_assoc, ih, add_assoc]

/-- The share of a cell in a sum over objects. -/
def cellValue (f : Obj → M) (c : Option Obj) : M :=
  (c.map f).getD 0

/-- The sum of `f` over the objects whose place is `n` or later. -/
def total (n : Nat) (f : Obj → M) (h : Heap) : M :=
  ((h.cells.toList.drop n).map (cellValue f)).sum

/-- **One cell changes a sum by that cell.** -/
theorem total_set (f : Obj → M) (c : Option Obj) {live : Nat} {fault : Option Fault}
    {consulted : Bool} (hp : h.get? p = some o) (hn : n ≤ p.index) :
    total n f ⟨h.cells.setIfInBounds p.index c, live, fault, consulted⟩ + f o =
      h.total n f + cellValue f c := by
  have hlt := index_lt_of_get? hp
  have hlt' : p.index < h.cells.toList.length := by rwa [Array.length_toList]
  have hcell : h.cells.toList[p.index] = some o := by
    rw [get?, Array.getElem?_eq_getElem hlt, Option.join_some] at hp
    simpa using hp
  have hi : p.index - n < (h.cells.toList.drop n).length := by
    rw [List.length_drop, Array.length_toList]
    omega
  have hsum := sum_map_set (cellValue f) c (h.cells.toList.drop n) (p.index - n) hi
  have hget : (h.cells.toList.drop n)[p.index - n] = some o := by
    rw [List.getElem_drop, ← hcell]
    congr 1
    omega
  rw [hget] at hsum
  rw [total, total, Array.toList_setIfInBounds, List.drop_set, if_neg (by omega)]
  exact hsum

/-- What is below the range of a sum does not count. -/
theorem total_set_of_lt (f : Obj → M) (c : Option Obj) {live : Nat} {fault : Option Fault}
    {consulted : Bool} (hn : p.index < n) :
    total n f ⟨h.cells.setIfInBounds p.index c, live, fault, consulted⟩ = h.total n f := by
  rw [total, total, Array.toList_setIfInBounds, List.drop_set_of_lt hn]

/-- A modification changes a sum by what it changes at its object. -/
theorem total_modify (f : Obj → M) (g : Obj → Obj) (hp : h.get? p = some o) (hn : n ≤ p.index) :
    (h.modify p g).total n f + f o = h.total n f + f (g o) := by
  rw [modify, hp]
  exact total_set f (some (g o)) hp hn

/-- A change that `f` does not see, and a change before the place `n`, change no sum. -/
theorem total_modify_of_eq (f : Obj → M) (g : Obj → Obj)
    (hg : ∀ o, h.get? p = some o → n ≤ p.index → f (g o) = f o) :
    (h.modify p g).total n f = h.total n f := by
  rcases hp : h.get? p with _ | o
  · rw [modify, hp]
  · rcases Nat.lt_or_ge p.index n with hn | hn
    · rw [modify, hp]
      exact total_set_of_lt f _ hn
    · have hsum := total_modify f g hp hn
      rw [hg o hp hn] at hsum
      exact add_right_cancel hsum

/-- Freeing an object takes its summand out of a sum. -/
theorem total_free (f : Obj → M) (hp : h.get? p = some o) (hn : n ≤ p.index) :
    (h.free p).total n f + f o = h.total n f := by
  rw [free, total_set f none hp hn]
  exact add_zero _

/-- Making an object adds its summand to a sum. -/
theorem total_alloc (f : Obj → M) (cls : Class) (payload : Payload) (hn : n ≤ h.cells.size) :
    (h.alloc cls payload).2.total n f = h.total n f + f (fresh cls payload) := by
  simp only [total, alloc, Array.toList_push]
  rw [List.drop_append_of_le_length (by simpa using hn), List.map_append, List.sum_append]
  simp [cellValue, fresh]

/-- A sum over no objects is zero. -/
@[simp] theorem total_size (f : Obj → M) : h.total h.cells.size f = 0 := by
  rw [total, List.drop_of_length_le (by simp)]
  rfl

/-- **A sum over a heap splits where another heap ends**, if the two agree up to there as
far as `f` can see. -/
theorem total_split {b c : Heap} (f : Obj → M) (hn : n ≤ b.cells.size)
    (hbc : b.cells.size ≤ c.cells.size)
    (hf : ∀ p : ObjId, n ≤ p.index → p.index < b.cells.size →
      (c.get? p).map f = (b.get? p).map f) :
    c.total n f = b.total n f + c.total b.cells.size f := by
  have hsplit : c.cells.toList.drop n =
      (c.cells.toList.take b.cells.size).drop n ++ c.cells.toList.drop b.cells.size := by
    rw [← List.drop_append_of_le_length (by simpa using ⟨hn, hn.trans hbc⟩),
      List.take_append_drop]
  rw [total, total, hsplit, List.map_append, List.sum_append]
  congr 2
  apply List.ext_getElem?
  intro i
  simp only [List.getElem?_map, List.getElem?_drop]
  by_cases hi : n + i < b.cells.size
  · have h₁ := hf ⟨n + i⟩ (Nat.le_add_right n i) hi
    simp only [get?, Array.getElem?_eq_getElem hi,
      Array.getElem?_eq_getElem (Nat.lt_of_lt_of_le hi hbc), Option.join_some] at h₁
    rw [List.getElem?_take_of_lt hi, Array.getElem?_toList, Array.getElem?_toList,
      Array.getElem?_eq_getElem hi, Array.getElem?_eq_getElem (Nat.lt_of_lt_of_le hi hbc)]
    simp only [Option.map_some, cellValue, h₁]
  · rw [List.getElem?_eq_none (by rw [List.length_take]; omega),
      List.getElem?_eq_none (by rw [Array.length_toList]; omega)]

/-- There is nothing to add up where no object is. -/
theorem total_eq_zero {M : Type} [AddCancelCommMonoid M] (f : Obj → M)
    (hvacant : ∀ p : ObjId, n ≤ p.index → h.get? p = none) : h.total n f = 0 := by
  rw [total]
  refine List.sum_eq_zero fun x hx => ?_
  obtain ⟨c, hc, rfl⟩ := List.mem_map.1 hx
  obtain ⟨i, hi, rfl⟩ := List.mem_iff_getElem.1 hc
  have hlt : n + i < h.cells.size := by
    rw [List.length_drop, Array.length_toList] at hi
    omega
  have hnone := hvacant ⟨n + i⟩ (Nat.le_add_right n i)
  rw [get?, Array.getElem?_eq_getElem hlt, Option.join_some] at hnone
  rw [List.getElem_drop, Array.getElem_toList, hnone]
  rfl

end Total

/-- What one object has, the heap has. -/
theorem le_total {M : Type} [AddCancelCommMonoid M] [PartialOrder M] [CanonicallyOrderedAdd M]
    {n : Nat} (f : Obj → M) (hp : h.get? p = some o) (hn : n ≤ p.index) : f o ≤ h.total n f := by
  rw [← total_free f hp hn]
  exact le_add_self

/-! ### What the sums count -/

/-- The references in the payloads of the objects at `n` and later. -/
def slots (n : Nat) (h : Heap) : Multiset ObjId :=
  h.total n fun o => (o.payload.references : Multiset ObjId)

/-- The number of mortal objects at `n` and later. -/
def mortals (n : Nat) (h : Heap) : Nat :=
  h.total n fun o => if o.immortal then 0 else 1

/-- The number of mortal objects at `n` and later to which there is a reference. -/
def standing (n : Nat) (h : Heap) : Nat :=
  h.total n fun o => if o.immortal ∨ o.refcount = 0 then 0 else 1

/-- What is in a sum of multisets is in one of them. -/
theorem mem_sum_map {α β : Type} (g : α → Multiset β) (x : β) :
    ∀ l : List α, x ∈ (l.map g).sum ↔ ∃ c ∈ l, x ∈ g c
  | [] => by simp
  | c :: l => by simp [mem_sum_map g x l]

/-- A reference in a slot is held by some object. -/
theorem mem_slots {n : Nat} : q ∈ h.slots n ↔
    ∃ p o, n ≤ p.index ∧ h.get? p = some o ∧ q ∈ o.payload.references := by
  constructor
  · intro hq
    obtain ⟨c, hc, hqc⟩ := (mem_sum_map _ _ _).1 hq
    obtain ⟨i, hi, rfl⟩ := List.mem_iff_getElem.1 hc
    have hlt : n + i < h.cells.size := by
      rw [List.length_drop, Array.length_toList] at hi
      omega
    have hlt' : n + i < h.cells.toList.length := by rwa [Array.length_toList]
    rw [List.getElem_drop] at hqc
    rcases ho : h.cells.toList[n + i] with _ | o
    · rw [ho] at hqc
      exact absurd hqc (Multiset.notMem_zero q)
    · rw [ho] at hqc
      refine ⟨⟨n + i⟩, o, Nat.le_add_right n i, ?_, hqc⟩
      rw [get?, Array.getElem?_eq_getElem hlt, Option.join_some]
      simpa using ho
  · rintro ⟨p, o, hn, hp, hq⟩
    exact Multiset.mem_of_le (le_total _ hp hn) hq

/-- A count does not change what objects hold. -/
@[simp] theorem slots_setCount (n count : Nat) : (h.setCount p count).slots n = h.slots n :=
  total_modify_of_eq _ _ fun _ _ _ => rfl

/-- A count does not change which objects are mortal. -/
@[simp] theorem mortals_setCount (n count : Nat) :
    (h.setCount p count).mortals n = h.mortals n :=
  total_modify_of_eq _ _ fun _ _ _ => rfl

/-- A mortal object whose count falls to zero no longer stands. -/
theorem standing_setCount_zero {n : Nat} (hp : h.get? p = some o) (hn : n ≤ p.index)
    (himm : o.immortal = false) (hpos : 0 < o.refcount) :
    (h.setCount p 0).standing n + 1 = h.standing n := by
  have hsum := total_modify (fun o => if o.immortal ∨ o.refcount = 0 then 0 else 1)
    (fun o => { o with refcount := 0 }) hp hn
  simpa [himm, Nat.ne_of_gt hpos, standing, setCount] using hsum

/-- A positive count keeps an object standing. -/
theorem standing_setCount {n count : Nat} (hcount : 0 < count)
    (hpos : ∀ o, h.get? p = some o → n ≤ p.index → 0 < o.refcount) :
    (h.setCount p count).standing n = h.standing n :=
  total_modify_of_eq _ _ fun o ho hn => by
    simp [Nat.ne_of_gt hcount, Nat.ne_of_gt (hpos o ho hn)]

/-- A new payload takes the slots of the old one. -/
theorem slots_setPayload {n : Nat} (payload : Payload) (hp : h.get? p = some o)
    (hn : n ≤ p.index) :
    (h.setPayload p payload).slots n + (o.payload.references : Multiset ObjId) =
      h.slots n + (payload.references : Multiset ObjId) :=
  total_modify (fun o => (o.payload.references : Multiset ObjId)) _ hp hn

/-- A payload does not change which objects are mortal. -/
@[simp] theorem mortals_setPayload (n : Nat) (payload : Payload) :
    (h.setPayload p payload).mortals n = h.mortals n :=
  total_modify_of_eq _ _ fun _ _ _ => rfl

/-- A payload does not change which objects stand. -/
@[simp] theorem standing_setPayload (n : Nat) (payload : Payload) :
    (h.setPayload p payload).standing n = h.standing n :=
  total_modify_of_eq _ _ fun _ _ _ => rfl

/-- A new object adds the references of its payload. -/
theorem slots_alloc {n : Nat} (cls : Class) (payload : Payload) (hn : n ≤ h.cells.size) :
    (h.alloc cls payload).2.slots n = h.slots n + (payload.references : Multiset ObjId) :=
  total_alloc _ cls payload hn

/-- A new object is one more mortal object unless it is immortal. -/
theorem mortals_alloc {n : Nat} (cls : Class) (payload : Payload) (hn : n ≤ h.cells.size) :
    (h.alloc cls payload).2.mortals n =
      h.mortals n + if cls.hasImmortalInstances then 0 else 1 :=
  total_alloc _ cls payload hn

/-- Freeing an object takes its references out of the slots. -/
theorem slots_free {n : Nat} (hp : h.get? p = some o) (hn : n ≤ p.index) :
    (h.free p).slots n + (o.payload.references : Multiset ObjId) = h.slots n :=
  total_free (fun o => (o.payload.references : Multiset ObjId)) hp hn

/-- Freeing a mortal object leaves one mortal object less. -/
theorem mortals_free {n : Nat} (hp : h.get? p = some o) (hn : n ≤ p.index)
    (himm : o.immortal = false) : (h.free p).mortals n + 1 = h.mortals n := by
  have hsum := total_free (fun o => if o.immortal then 0 else 1) hp hn
  simpa [himm, mortals] using hsum

/-- Freeing an object without references leaves the others standing. -/
theorem standing_free_of_zero {n : Nat} (hp : h.get? p = some o) (hn : n ≤ p.index)
    (hzero : o.refcount = 0) : (h.free p).standing n = h.standing n := by
  have hsum := total_free (fun o => if o.immortal ∨ o.refcount = 0 then 0 else 1) hp hn
  simpa [hzero, standing] using hsum

/-- Every object that stands is mortal. -/
theorem standing_le_mortals {n : Nat} : h.standing n ≤ h.mortals n := by
  refine List.sum_le_sum fun c _ => ?_
  rcases c with _ | o
  · exact le_rfl
  · simp only [cellValue, Option.map_some, Option.getD_some]
    split_ifs <;> simp_all

end Heap

end Interop
